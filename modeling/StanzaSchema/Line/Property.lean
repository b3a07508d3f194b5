import StanzaSchema.OrderedMap
import StanzaSchema.Text.Cut
import StanzaSchema.Text.WhiteSpace

/-!
Lines of a view stanza: a title in parentheses, a property `:Name=value`, or a column followed by
attributes `key:value`. Double quotes let a value hold spaces and are dropped.
-/

namespace StanzaSchema

inductive PropertyValue where
  | boolean (value : Bool)
  | text (value : String)
deriving DecidableEq

def PropertyValue.ofText (text : String) : PropertyValue :=
  if text = "true" then .boolean true
  else if text = "false" then .boolean false
  else .text text

inductive PropertyLine where
  | title (text : String)
  | property (name : String) (value : PropertyValue)
  | valueSet (attributes : OrderedMap String)
  | malformed
deriving DecidableEq

namespace ValueSet

/-- The state of a scan: the attributes found so far and the token that is being read. -/
structure Scan where
  attributes : OrderedMap String
  key : List Char
  value : List Char
  /-- The first token is the column and no attribute. -/
  first : Bool
  inKey : Bool
  quoted : Bool

def start : Scan := ⟨.empty, [], [], true, true, false⟩

/-- Keeps the token, unless it is the first or has no key. -/
def Scan.keep (scan : Scan) : OrderedMap String :=
  if scan.first || scan.key.isEmpty then scan.attributes
  else scan.attributes.insert (String.ofList scan.key) (String.ofList scan.value)

def Scan.step (scan : Scan) (c : Char) : Scan :=
  if c = ' ' ∧ scan.quoted = false then
    { scan with attributes := scan.keep, key := [], value := [], first := false, inKey := true }
  else if c = '"' then { scan with quoted := !scan.quoted }
  else if c = ':' ∧ scan.inKey = true then { scan with inKey := false }
  else if scan.inKey then { scan with key := scan.key ++ [c] }
  else { scan with value := scan.value ++ [c] }

/-- The attributes after the first token. The first colon of a token ends its key. -/
def read (chars : List Char) : OrderedMap String := (chars.foldl Scan.step start).keep

end ValueSet

namespace PropertyLine

/-- The inside of a text in parentheses. -/
def title? (chars : List Char) : Option (List Char) :=
  match chars with
  | '(' :: rest => if rest.getLast? = some ')' then some rest.dropLast else none
  | _ => none

/-- A property, read from what follows its colon. -/
def ofAssignment (chars : List Char) : PropertyLine :=
  match Text.cutAt? '=' chars with
  | none => .malformed
  | some (name, value) =>
    let name := Text.trimChars name
    if name.isEmpty then .malformed
    else .property (String.ofList name) (.ofText (String.ofList (Text.trimChars value)))

def read (line : String) : PropertyLine :=
  match title? line.toList with
  | some inside => .title (String.ofList inside)
  | none =>
    match line.toList with
    | ':' :: assignment => ofAssignment assignment
    | chars => .valueSet (ValueSet.read chars)

end PropertyLine

end StanzaSchema
