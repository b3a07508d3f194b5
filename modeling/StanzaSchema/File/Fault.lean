/-!
Why a file cannot be read or written: a kind, and the system's words for it.
-/

namespace StanzaSchema

inductive IoKind where
  | notFound
  | isDirectory
  | notDirectory
  | alreadyExists
  | invalidData
  | invalidInput
  | nameTooLong
  | other
deriving DecidableEq, Repr

def IoKind.text : IoKind → String
  | .notFound => "No such file or directory (os error 2)"
  | .isDirectory => "Is a directory (os error 21)"
  | .notDirectory => "Not a directory (os error 20)"
  | .alreadyExists => "File exists (os error 17)"
  | .invalidData => "stream did not contain valid UTF-8"
  | .invalidInput => "file name contained an unexpected NUL byte"
  | .nameTooLong => "File name too long (os error 36)"
  | .other => "failed to create whole tree"

structure IoFault where
  kind : IoKind
  text : String
deriving DecidableEq

def IoFault.ofKind (kind : IoKind) : IoFault := ⟨kind, kind.text⟩

end StanzaSchema
