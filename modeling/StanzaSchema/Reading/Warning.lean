import StanzaSchema.Number.Text

/-!
Warnings: lines that a reader could not use. They never stop it.
-/

namespace StanzaSchema

inductive WarningKind where
  | outsideStanza
  | tooFewTokens
  | unknownRole
  | unknownColumn
  | malformedProperty
  | invalidProperty
  | emptyName
  | repeatedInclude
deriving DecidableEq, Repr

def WarningKind.message : WarningKind → String
  | .outsideStanza => "line is not within a stanza"
  | .tooFewTokens => "authorization line needs an operation, a role and an authorizer"
  | .unknownRole => "role is not defined for this table"
  | .unknownColumn => "description refers to an undeclared column"
  | .malformedProperty => "property line has no `=`"
  | .invalidProperty => "property cannot be set on a PICT view"
  | .emptyName => "missing table name"
  | .repeatedInclude => "file was already parsed"

structure Warning where
  file : String
  line : Nat
  kind : WarningKind
  /-- The line without the white space around it, or the path of a repeated file. -/
  content : String
deriving DecidableEq

def Warning.text (warning : Warning) : String :=
  warning.file ++ ":" ++ natText warning.line ++ ": " ++ warning.kind.message ++ ": " ++
    warning.content

end StanzaSchema
