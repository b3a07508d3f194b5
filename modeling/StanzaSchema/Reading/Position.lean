import StanzaSchema.Table
import StanzaSchema.View

/-!
Where a reader stands: the stanza that is open, the table it is about, and the domain for new
tables. Closing a stanza keeps the domain.
-/

namespace StanzaSchema

inductive Stanza where
  | none
  | table
  | authorization
  | view (kind : ViewKind)
deriving DecidableEq, Repr

def Stanza.text : Stanza → String
  | .none => "None"
  | .table => "TableSchema"
  | .authorization => "Authorization"
  | .view kind => "Pict-" ++ kind.name

structure Position where
  stanza : Stanza
  scope : Option String
  domain : String
deriving DecidableEq

namespace Position

def start : Position := ⟨.none, none, Table.defaultDomain⟩

def enter (position : Position) (stanza : Stanza) (scope : String) : Position :=
  { position with stanza, scope := some scope }

def close (position : Position) : Position := { position with stanza := .none, scope := none }

def setDomain (position : Position) (domain : String) : Position := { position with domain }

def inStanza (position : Position) : Bool := position.scope.isSome

end Position

end StanzaSchema
