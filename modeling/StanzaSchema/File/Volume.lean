import StanzaSchema.File.Fault
import StanzaSchema.File.Path

/-!
What a run may read: texts by path, and for each path the identity of the file that it names. A file
may be named by any number of paths; all of them have one identity, and the readable files have
finitely many.
-/

namespace StanzaSchema

/-- The components of a file's canonical path, or of the path as written when it leads nowhere. -/
abbrev FileId := List String

structure Volume where
  read : Path → Except IoFault String
  identity : Path → FileId
  /-- Identities of all readable files. -/
  known : List FileId
  identity_mem : ∀ path text, read path = .ok text → identity path ∈ known

end StanzaSchema
