import StanzaSchema.Model.Basic

/-!
How a model is laid out in JSON. Maps keep their order, fields come in a fixed order, and fields
without a value are left out.
-/

namespace StanzaSchema

namespace Json

/-- A member that is left out when it has no value. -/
def optional {α : Type} (key : String) (encode : α → Json) : Option α → List (String × Json)
  | none => []
  | some value => [(key, encode value)]

def ofMap {β : Type} (encode : β → Json) (map : OrderedMap β) : Json :=
  .object (map.entries.map fun entry => (entry.1, encode entry.2))

def ofTexts (texts : List String) : Json := .array (texts.map .text)

end Json

def Column.toJson (column : Column) : Json :=
  .object ([("Column", .text column.name), ("DataType", .text column.type.name)] ++
    Json.optional "Size" .text column.size ++ Json.optional "Join" .text column.join ++
    Json.optional "TableJoin" .text column.tableJoin ++
    Json.optional "Description" .text column.description)

def Operations.toJson (operations : Operations) : Json :=
  Json.ofMap (fun authorizer => .text authorizer.token) operations

def Policy.toJson (policy : Policy) : Json := Json.ofMap Operations.toJson policy.roles

def SchemaEntry.toJson (entry : SchemaEntry) : Json :=
  .object [("Column", .text entry.column), ("Type", .text entry.tag.name),
    ("Size", .text entry.size)]

def SchemaProperty.toJson (property : SchemaProperty) : Json :=
  .object [("type", .text property.type), ("size", .text property.size)]

mutual
def Table.toJson : Table → Json
  | { name, domain, columns, description, derived } =>
    let members :=
      [("TableName", .text name), ("Domain", .text domain),
       ("Columns", .array (columns.map Column.toJson)), ("Description", .text description)]
    match derived with
    | none => .object members
    | some derived => .object (members ++ [("DerivedSchema", derived.toJson)])
def DerivedSchema.toJson : DerivedSchema → Json
  | { scope, identifier, domain, entries, defaults, jsonSchema, authorization } =>
    let members :=
      [("Scope", .text scope), ("DefaultIdentifier", .text identifier), ("Domain", .text domain),
       ("Schema", .array (entries.map SchemaEntry.toJson)),
       ("DefaultObject", Json.ofMap id defaults)]
    let policy := [("Authorization", authorization.toJson)]
    match jsonSchema with
    | none => .object (members ++ policy)
    | some schema => .object (members ++ ("JsonSchema", schema.toJson) :: policy)
def JsonSchema.toJson : JsonSchema → Json
  | { title, type, properties, required, table } =>
    let members :=
      [("title", .text title), ("type", .text type),
       ("properties", Json.ofMap SchemaProperty.toJson properties),
       ("required", Json.ofTexts required)]
    match table with
    | none => .object members
    | some table => .object (members ++ [("Table", table.toJson)])
end

def ViewColumn.toJson (column : ViewColumn) : Json :=
  .object (("Column", .text column.name) :: Json.optional "Type" .text column.kind ++
    column.attributes.entries.map fun entry => (entry.1, .text entry.2))

def View.toJson (view : View) : Json :=
  .object ([("Enabled", .boolean view.enabled),
    ("Columns", .array (view.columns.map ViewColumn.toJson)),
    ("Title", .text view.title)] ++ view.properties.entries)

def ViewSet.toJson (views : ViewSet) : Json :=
  .object (ViewKind.all.map fun kind => (kind.name, (views.view kind).toJson))

namespace Model

def tablesJson (model : Model) : Json := Json.ofMap Table.toJson model.tables

def authorizationJson (model : Model) : Json := Json.ofMap Policy.toJson model.authorization

def endpointsJson (model : Model) : Json := Json.ofMap .boolean model.endpoints

def viewsJson (model : Model) : Json := Json.ofMap ViewSet.toJson model.views

/-- The tables alone. -/
def baseJson (model : Model) : Json := .object [("Tables", model.tablesJson)]

def toJson (model : Model) : Json :=
  .object [("Tables", model.tablesJson), ("TablesSequence", Json.ofTexts model.sequence),
    ("Authorization", model.authorizationJson), ("Endpoints", model.endpointsJson),
    ("Pict", model.viewsJson)]

end Model

end StanzaSchema
