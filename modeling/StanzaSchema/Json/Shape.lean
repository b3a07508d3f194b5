import StanzaSchema.Json.Text
import StanzaSchema.OrderedMap
import StanzaSchema.Text.Quoted

/-!
Reading typed data out of JSON values. A record is an object with named members or an array of its
fields in order; what a record does not know is passed over. Faults are reported in the order in
which a value is visited: the members of an object by their keys, then what is missing, then what is
too much.
-/

namespace StanzaSchema.Json

/-- What a value should have been. -/
inductive Expected where
  | record (name : String)
  | map
  | sequence
  | text
  | boolean
  | unit
  | textOrMap
deriving DecidableEq

/-- Why a value does not have the shape of the data. -/
inductive ShapeFault where
  | wrongType (found : Json) (expected : Expected)
  | severalKeys
  | unknownVariant (name : String) (known : List String)
  | missingField (name : String)
  | tooFew (size : Nat) (record : String) (fields : Nat)
  | tooMany (size : Nat)

def Expected.description : Expected → String
  | .record name => "struct " ++ name
  | .map => "a map"
  | .sequence => "a sequence"
  | .text => "a string"
  | .boolean => "a boolean"
  | .unit => "unit"
  | .textOrMap => "string or map"

/-- A value as messages name it. -/
def description : Json → String
  | .null => "null"
  | .boolean true => "boolean `true`"
  | .boolean false => "boolean `false`"
  | .number (.whole value _) => "integer `" ++ intText value ++ "`"
  | .number (.floating value) => "floating point `" ++ floatLayout.text value ++ "`"
  | .text value => "string " ++ Text.quoted value
  | .array _ => "sequence"
  | .object _ => "map"

def ShapeFault.message : ShapeFault → String
  | .wrongType found expected =>
    "invalid type: " ++ found.description ++ ", expected " ++ expected.description
  | .severalKeys => "invalid value: map, expected map with a single key"
  | .unknownVariant name known =>
    "unknown variant `" ++ name ++ "`, expected one of " ++
      ", ".intercalate (known.map fun one => "`" ++ one ++ "`")
  | .missingField name => "missing field `" ++ name ++ "`"
  | .tooFew size record fields =>
    "invalid length " ++ natText size ++ ", expected struct " ++ record ++ " with " ++
      natText fields ++ " elements"
  | .tooMany size => "invalid length " ++ natText size ++ ", expected fewer elements in array"

/-- Reads data of one type out of a value. -/
abbrev Shape (α : Type) := Json → Except ShapeFault α

namespace Shape

def text : Shape String
  | .text value => .ok value
  | other => .error (.wrongType other .text)

def boolean : Shape Bool
  | .boolean value => .ok value
  | other => .error (.wrongType other .boolean)

def anything : Shape Json := .ok

/-- Nothing, or data of a shape. -/
def option {α : Type} (shape : Shape α) : Shape (Option α)
  | .null => .ok none
  | value => (shape value).map some

def list {α : Type} (shape : Shape α) : Shape (List α)
  | .array items => items.mapM shape
  | other => .error (.wrongType other .sequence)

def entry {α : Type} (shape : Shape α) (member : String × Json) : Except ShapeFault (String × α) :=
  (shape member.2).map fun value => (member.1, value)

/-- Members whose values all have one shape. -/
def entries {α : Type} (shape : Shape α) (members : List (String × Json)) :
    Except ShapeFault (OrderedMap α) :=
  (members.mapM (entry shape)).map .ofEntries

def map {α : Type} (shape : Shape α) : Shape (OrderedMap α)
  | .object members => entries shape members
  | other => .error (.wrongType other .map)

def known {α : Type} (ofName? : String → Option α) (names : List String) (name : String) :
    Except ShapeFault α :=
  match ofName? name with
  | some value => .ok value
  | none => .error (.unknownVariant name names)

/-- One of several names, by itself or as the only key over null. -/
def variant {α : Type} (ofName? : String → Option α) (names : List String) : Shape α
  | .text name => known ofName? names name
  | .object [(name, content)] =>
    match known ofName? names name with
    | .error fault => .error fault
    | .ok value =>
      match content with
      | .null => .ok value
      | other => .error (.wrongType other .unit)
  | .object _ => .error .severalKeys
  | other => .error (.wrongType other .textOrMap)

end Shape

/-- What became of a field: read, absent or at fault. -/
abbrev Slot (α : Type) := Except ShapeFault (Option α)

namespace Slot

def fault? {α : Type} : Slot α → Option ShapeFault
  | .ok _ => none
  | .error fault => some fault

/-- A field that has to be there. -/
def require {α : Type} (name : String) : Slot α → Except ShapeFault α
  | .ok (some value) => .ok value
  | .ok none => .error (.missingField name)
  | .error fault => .error fault

/-- A field that may be left out. -/
def orElse {α : Type} (default : α) : Slot α → Except ShapeFault α
  | .ok (some value) => .ok value
  | .ok none => .ok default
  | .error fault => .error fault

end Slot

/-- Where the fields of a record stand: in named members, or in items in the order of the fields. -/
inductive Fields where
  | named (members : List (String × Json))
  | listed (items : List Json)

def fields? : Json → Option Fields
  | .object members => some (.named members)
  | .array items => some (.listed items)
  | _ => none

/-- A kind of record: its fields in order, each with whether it has to be there. -/
structure Record where
  name : String
  fields : List (String × Bool)

namespace Record

def fieldNames (record : Record) : List String := record.fields.map Prod.fst

def field? (record : Record) (fields : Fields) (name : String) : Option Json :=
  match fields with
  | .named members => member? name members
  | .listed items => items[record.fieldNames.idxOf name]?

theorem sizeOf_lt_of_field? {record : Record} {value : Json} {fields : Fields} {name : String}
    {content : Json} (shaped : value.fields? = some fields)
    (found : record.field? fields name = some content) :
    sizeOf content < sizeOf value := by
  cases value with
  | object members =>
    simp only [fields?, Option.some.injEq] at shaped
    subst shaped
    have smaller := sizeOf_lt_of_member? found
    simp; omega
  | array items =>
    simp only [fields?, Option.some.injEq] at shaped
    subst shaped
    have smaller := List.sizeOf_lt_of_mem (List.mem_of_getElem? found)
    simp; omega
  | _ => simp [fields?] at shaped

def slot {α : Type} (record : Record) (fields : Fields) (name : String)
    (shape : Shape α) : Slot α :=
  match record.field? fields name with
  | none => .ok none
  | some value => (shape value).map some

/-- The first fault of a field, in the order in which the fields are visited. -/
def firstFault? (record : Record) (fields : Fields) (faults : List (String × Option ShapeFault)) :
    Option ShapeFault :=
  let visited := match fields with
    | .named members => members.map Prod.fst
    | .listed _ => record.fieldNames
  visited.findSome? fun name => (faults.lookup name).join

/-- The first field that has to be there and is not. -/
def firstMissing? (record : Record) (fields : Fields) : Option (String × Nat) :=
  (record.fields.zipIdx.find? fun field =>
    field.1.2 && (record.field? fields field.1.1).isNone).map fun field =>
    (field.1.1, field.2)

def excess? (record : Record) : Fields → Option ShapeFault
  | .named _ => none
  | .listed items =>
    if record.fields.length < items.length then some (.tooMany items.length) else none

/-- Passes when no field is at fault, none that has to be there is absent, and there are not too
many. -/
def check (record : Record) (fields : Fields) (faults : List (String × Option ShapeFault)) :
    Except ShapeFault Unit :=
  match record.firstFault? fields faults, record.firstMissing? fields, fields with
  | some fault, _, _ => .error fault
  | none, some (name, _), .named _ => .error (.missingField name)
  | none, some (_, index), .listed _ => .error (.tooFew index record.name record.fields.length)
  | none, none, _ =>
    match record.excess? fields with
    | some fault => .error fault
    | none => .ok ()

/-- The fields of a value that can only be an object. -/
def membersOf (record : Record) : Json → Except ShapeFault (List (String × Json))
  | .object members => .ok members
  | other => .error (.wrongType other (.record record.name))

/-- The fields of a value that is an object or an array. -/
def fieldsOf (record : Record) (value : Json) : Except ShapeFault Fields :=
  match value.fields? with
  | some fields => .ok fields
  | none => .error (.wrongType value (.record record.name))

/-- The members that are no fields. -/
def others (record : Record) (members : List (String × Json)) : List (String × Json) :=
  members.filter fun member => !record.fieldNames.contains member.1

end Record

end StanzaSchema.Json
