import StanzaSchema.Number.Binary64
import StanzaSchema.Text.Order

/-!
JSON values. Members of an object are a list, so that a model can be written in its own order; a
value that was read has its members sorted by key, the last of equal keys remaining.
-/

namespace StanzaSchema

/-- Whole numbers of 64 bits, signed or not. -/
def Json.Fits (value : Int) : Prop := -(power 2 63 : Int) ≤ value ∧ value < (power 2 64 : Int)

instance (value : Int) : Decidable (Json.Fits value) := inferInstanceAs (Decidable (_ ∧ _))

/-- A number is whole as long as it fits, and floating-point otherwise. -/
inductive Json.Number where
  | whole (value : Int) (fits : Json.Fits value)
  | floating (value : Binary64)
deriving DecidableEq

inductive Json where
  | null
  | boolean (value : Bool)
  | number (value : Json.Number)
  | text (value : String)
  | array (items : List Json)
  | object (members : List (String × Json))

namespace Json

instance : Inhabited Json := ⟨.null⟩

def zero : Json := .number (.whole 0 (by decide))

def floatingZero : Json := .number (.floating (.zero false))

/-- The whole number `n`, when it fits. -/
def ofNat? (n : Nat) : Option Json :=
  if fits : Fits n then some (.number (.whole n fits)) else none

/-- Puts a member at its place in a sorted list, over an equal key. -/
def putSorted (key : String) (value : Json) : List (String × Json) → List (String × Json)
  | [] => [(key, value)]
  | entry :: rest =>
    if Text.precedes key entry.1 then (key, value) :: entry :: rest
    else if Text.precedes entry.1 key then entry :: putSorted key value rest
    else (key, value) :: rest

/-- Members in the order of their keys, the last of equal ones remaining. -/
def sortMembers (members : List (String × Json)) : List (String × Json) :=
  members.foldl (fun sorted member => putSorted member.1 member.2 sorted) []

def member? (key : String) : List (String × Json) → Option Json
  | [] => none
  | entry :: rest => if entry.1 = key then some entry.2 else member? key rest

theorem sizeOf_lt_of_member? {key : String} {members : List (String × Json)} {value : Json}
    (found : member? key members = some value) : sizeOf value < sizeOf members := by
  induction members with
  | nil => simp [member?] at found
  | cons entry rest ih =>
    obtain ⟨name, head⟩ := entry
    simp only [member?] at found
    split at found
    next =>
      simp only [Option.some.injEq] at found
      subst found
      simp; omega
    next =>
      have smaller := ih found
      simp; omega

end Json

end StanzaSchema
