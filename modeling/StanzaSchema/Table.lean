import StanzaSchema.Column.Basic
import StanzaSchema.Policy.Basic

/-!
Tables and what is derived from them. A derived schema holds a JSON schema, which in turn may embed
a table with a derived schema of its own, so the three types depend on each other.
-/

namespace StanzaSchema

/-- A column as a derived schema lists it. -/
structure SchemaEntry where
  column : String
  tag : SchemaTag
  size : String
deriving DecidableEq

/-- A column as a JSON schema describes it. -/
structure SchemaProperty where
  type : String
  size : String
deriving DecidableEq

mutual
structure Table where
  name : String
  domain : String
  columns : List Column
  description : String
  derived : Option DerivedSchema
structure DerivedSchema where
  scope : String
  identifier : String
  domain : String
  entries : List SchemaEntry
  defaults : OrderedMap Json
  jsonSchema : Option JsonSchema
  authorization : Policy
structure JsonSchema where
  title : String
  type : String
  properties : OrderedMap SchemaProperty
  required : List String
  table : Option Table
end

namespace Table

def defaultDomain : String := "Default"

def ofName (name domain : String) : Table :=
  { name, domain, columns := [], description := "", derived := none }

def column? (table : Table) (name : String) : Option Column :=
  table.columns.find? fun column => column.name == name

def columnNames (table : Table) : List String := table.columns.map Column.name

/-- Changes the first column of this name, if there is one. -/
def modifyFirst (name : String) (change : Column → Column) : List Column → List Column
  | [] => []
  | column :: rest =>
    if column.name = name then change column :: rest else column :: modifyFirst name change rest

def modifyColumn (table : Table) (name : String) (change : Column → Column) : Table :=
  { table with columns := modifyFirst name change table.columns }

def pushColumn (table : Table) (column : Column) : Table :=
  { table with columns := table.columns ++ [column] }

/-- Adds a paragraph to the description. -/
def describe (table : Table) (text : String) : Table :=
  { table with
    description :=
      if table.description = "" then text else table.description ++ "\n\n" ++ text }

/-- The last identity column. -/
def identity? (table : Table) : Option Column := table.columns.reverse.find? Column.isIdentity

/-- The name of the last identity column, or one made from the table's name. -/
def identifier (table : Table) : String :=
  match table.identity? with
  | some column => column.name
  | none => "ID" ++ table.name

end Table

def DerivedSchema.entry? (derived : DerivedSchema) (column : String) : Option SchemaEntry :=
  derived.entries.find? fun entry => entry.column == column

end StanzaSchema
