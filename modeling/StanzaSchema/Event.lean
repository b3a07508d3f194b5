import StanzaSchema.Reading.Warning

/-!
Events of a run, for a log: a level, a message and named fields.
-/

namespace StanzaSchema

inductive Level where
  | error
  | warn
  | info
  | debug
deriving DecidableEq, Repr

inductive FieldValue where
  | text (value : String)
  | count (value : Nat)
deriving DecidableEq

structure Event where
  level : Level
  message : String
  fields : List (String × FieldValue)
deriving DecidableEq

/-- The event of a warning. -/
def Warning.event (warning : Warning) : Event :=
  ⟨.warn, "ignoring line: " ++ warning.kind.message,
   [("file", .text warning.file), ("line", .count warning.line),
    ("content", .text warning.content)]⟩

namespace Event

/-- A table was made on its first reference. -/
def tableMade (name domain : String) : Event :=
  ⟨.debug, "initializing table scope", [("table", .text name), ("domain", .text domain)]⟩

/-- The views of a table were made on their first reference. -/
def viewsMade (name : String) : Event :=
  ⟨.debug, "initializing PICT scope", [("table", .text name)]⟩

end Event

end StanzaSchema
