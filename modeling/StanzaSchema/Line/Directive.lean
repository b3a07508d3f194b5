import StanzaSchema.Line.Grammar
import StanzaSchema.Text.WhiteSpace

/-!
Directives: a keyword and an argument in square brackets, `[Keyword argument]`. The argument is all
that stands between the spaces after the keyword and the bracket at the very end, so it may hold
brackets itself.
-/

namespace StanzaSchema

structure Directive where
  keyword : Keyword
  argument : String
deriving DecidableEq

/-- Reads a directive. Its argument is trimmed and must not be blank. -/
def Directive.read? (text : String) : Option Directive :=
  match Grammar.directive? (.start text) with
  | some cuts =>
    let argument := Text.trimChars (cuts.spaced.upTo cuts.told)
    if argument.isEmpty then none else some ⟨cuts.keyword, String.ofList argument⟩
  | none => none

end StanzaSchema
