import StanzaSchema.Json.Value

/-!
Data types of columns. Each is declared by a symbol of its own and has a name, and for sized types a
default size; the rest of the table tells how its values appear in derived schemas.
-/

namespace StanzaSchema

inductive DataType where
  | identity
  | guid
  | foreignKey
  | string
  | numeric
  | decimal
  | text
  | dateTime
  | boolean
deriving DecidableEq, Repr

/-- What a derived schema says of a column: its type, or the part it plays in change tracking. -/
inductive SchemaTag where
  | autoIdentity
  | autoGuid
  | integer
  | decimal
  | string
  | dateTime
  | boolean
  | createDate
  | createUser
  | updateDate
  | updateUser
  | deleteDate
  | deleteUser
  | deleted
deriving DecidableEq, Repr

namespace SchemaTag

def all : List SchemaTag :=
  [.autoIdentity, .autoGuid, .integer, .decimal, .string, .dateTime, .boolean, .createDate,
   .createUser, .updateDate, .updateUser, .deleteDate, .deleteUser, .deleted]

def name : SchemaTag → String
  | .autoIdentity => "AutoIdentity"
  | .autoGuid => "AutoGUID"
  | .integer => "Integer"
  | .decimal => "Decimal"
  | .string => "String"
  | .dateTime => "DateTime"
  | .boolean => "Boolean"
  | .createDate => "CreateDate"
  | .createUser => "CreateIDUser"
  | .updateDate => "UpdateDate"
  | .updateUser => "UpdateIDUser"
  | .deleteDate => "DeleteDate"
  | .deleteUser => "DeleteIDUser"
  | .deleted => "Deleted"

def ofName? (name : String) : Option SchemaTag := all.find? fun tag => tag.name == name

end SchemaTag

namespace DataType

def all : List DataType :=
  [.identity, .guid, .foreignKey, .string, .numeric, .decimal, .text, .dateTime, .boolean]

def name : DataType → String
  | .identity => "Identity"
  | .guid => "GUID"
  | .foreignKey => "ForeignKey"
  | .string => "String"
  | .numeric => "Numeric"
  | .decimal => "Decimal"
  | .text => "Text"
  | .dateTime => "DateTime"
  | .boolean => "Boolean"

/-- A second name of the identity type, accepted and never written. -/
def identityAlias : String := "ID"

def ofName? (name : String) : Option DataType :=
  if name = identityAlias then some .identity else all.find? fun type => type.name == name

def symbol : DataType → Char
  | .identity => '@'
  | .guid => '%'
  | .foreignKey => '~'
  | .string => '$'
  | .numeric => '#'
  | .decimal => '.'
  | .text => '*'
  | .dateTime => '&'
  | .boolean => '^'

def ofSymbol? (symbol : Char) : Option DataType := all.find? fun type => type.symbol == symbol

def defaultSize? : DataType → Option String
  | .guid => some "36"
  | .string => some "64"
  | .numeric => some "int"
  | .decimal => some "10,3"
  | _ => none

def isSized (type : DataType) : Bool := type.defaultSize?.isSome

def tag : DataType → SchemaTag
  | .identity => .autoIdentity
  | .guid => .autoGuid
  | .foreignKey => .integer
  | .numeric => .integer
  | .decimal => .decimal
  | .string => .string
  | .text => .string
  | .dateTime => .dateTime
  | .boolean => .boolean

/-- Name of the type in a JSON schema. -/
def jsonType : DataType → String
  | .identity => "integer"
  | .foreignKey => "integer"
  | .numeric => "integer"
  | .decimal => "number"
  | .guid => "string"
  | .string => "string"
  | .text => "string"
  | .dateTime => "string"
  | .boolean => "boolean"

def zeroGuid : String := "0x0000000000000000"

/-- The value of a column in a new record. -/
def defaultValue : DataType → Json
  | .identity => .zero
  | .foreignKey => .zero
  | .numeric => .zero
  | .decimal => .floatingZero
  | .guid => .text zeroGuid
  | .string => .text ""
  | .text => .text ""
  | .dateTime => .null
  | .boolean => .boolean false

/-- Identities and foreign keys have to be given. -/
def isRequired : DataType → Bool
  | .identity => true
  | .foreignKey => true
  | _ => false

theorem ofSymbol?_symbol (type : DataType) : ofSymbol? type.symbol = some type := by
  cases type <;> rfl

end DataType

end StanzaSchema
