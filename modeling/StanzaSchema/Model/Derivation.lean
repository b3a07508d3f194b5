import StanzaSchema.Event
import StanzaSchema.Model.Basic

/-!
Derived schemas. Each table gets type tags, a record of default values and a JSON schema; the JSON
schema embeds the table with the derived schema that has no JSON schema yet.
-/

namespace StanzaSchema

namespace Table

/-- The size that a derived schema gives for columns without one. -/
def unsized : String := "Default"

def entryOf (column : Column) : SchemaEntry := ⟨column.name, column.tag, column.size.getD unsized⟩

def propertyOf (column : Column) : SchemaProperty :=
  ⟨column.type.jsonType, column.size.getD unsized⟩

/-- The derived schema without a JSON schema. -/
def outline (table : Table) (authorization : Option Policy) : DerivedSchema where
  scope := table.name
  identifier := table.identifier
  domain := table.domain
  entries := table.columns.map entryOf
  defaults := .ofEntries (table.columns.map fun column => (column.name, column.type.defaultValue))
  jsonSchema := none
  authorization := authorization.getD .empty

def jsonSchema (table : Table) (authorization : Option Policy) : JsonSchema where
  title := table.name
  type := "object"
  properties := .ofEntries (table.columns.map fun column => (column.name, propertyOf column))
  required := (table.columns.filter fun column => column.type.isRequired).map Column.name
  table := some { table with derived := some (table.outline authorization) }

def derive (table : Table) (authorization : Option Policy) : DerivedSchema :=
  { table.outline authorization with jsonSchema := some (table.jsonSchema authorization) }

/-- The table with its derived schema, which replaces an earlier one. -/
def withDerived (table : Table) (authorization : Option Policy) : Table :=
  { table with derived := some ({ table with derived := none }.derive authorization) }

end Table

/-- Derives the schema of every table, under the policy of the table's name. -/
def Model.derive (model : Model) : Model :=
  { model with
    tables := model.tables.map fun table =>
      table.withDerived (model.authorization.get? table.name) }

/-- The events of deriving all schemas. -/
def Model.derivationEvents (model : Model) : List Event :=
  ⟨.info, "auto-generating derived schemas", [("tables", .count model.tableCount)]⟩ ::
    model.tables.values.map fun table =>
      ⟨.debug, "derived schema",
       [("table", .text table.name), ("identifier", .text table.identifier),
        ("columns", .count table.columns.length)]⟩

end StanzaSchema
