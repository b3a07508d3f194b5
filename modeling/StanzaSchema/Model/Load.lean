import StanzaSchema.Failure
import StanzaSchema.Json.Reader
import StanzaSchema.Json.Shape
import StanzaSchema.Reading.Run

/-!
Loading compiled models. A model is read back from the JSON text that it is laid out in;
hand-written texts may leave out what has a default and may list the fields of a record in order.
-/

namespace StanzaSchema

open Json (Shape Slot Record ShapeFault)

def DataType.shape : Shape DataType :=
  Shape.variant DataType.ofName? (DataType.identityAlias :: DataType.all.map DataType.name)

def SchemaTag.shape : Shape SchemaTag :=
  Shape.variant SchemaTag.ofName? (SchemaTag.all.map SchemaTag.name)

def Column.record : Record :=
  ⟨"Column", [("Column", true), ("DataType", true), ("Size", false), ("Join", false),
    ("TableJoin", false), ("Description", false)]⟩

def Column.shape : Shape Column := fun value => do
  let fields ← record.fieldsOf value
  let name := record.slot fields "Column" Shape.text
  let type := record.slot fields "DataType" DataType.shape
  let size := record.slot fields "Size" (Shape.option Shape.text)
  let join := record.slot fields "Join" (Shape.option Shape.text)
  let tableJoin := record.slot fields "TableJoin" (Shape.option Shape.text)
  let description := record.slot fields "Description" (Shape.option Shape.text)
  record.check fields [("Column", name.fault?), ("DataType", type.fault?), ("Size", size.fault?),
    ("Join", join.fault?), ("TableJoin", tableJoin.fault?), ("Description", description.fault?)]
  return {
    name := ← name.require "Column"
    type := ← type.require "DataType"
    size := ← size.orElse none
    join := ← join.orElse none
    tableJoin := ← tableJoin.orElse none
    description := ← description.orElse none }

def Authorizer.shape : Shape Authorizer := fun value => (Shape.text value).map Authorizer.ofToken

def Policy.shape : Shape Policy :=
  fun value => (Shape.map (Shape.map Authorizer.shape) value).map Policy.mk

def SchemaEntry.record : Record :=
  ⟨"SchemaEntry", [("Column", true), ("Type", true), ("Size", true)]⟩

def SchemaEntry.shape : Shape SchemaEntry := fun value => do
  let fields ← record.fieldsOf value
  let column := record.slot fields "Column" Shape.text
  let tag := record.slot fields "Type" SchemaTag.shape
  let size := record.slot fields "Size" Shape.text
  record.check fields [("Column", column.fault?), ("Type", tag.fault?), ("Size", size.fault?)]
  return {
    column := ← column.require "Column"
    tag := ← tag.require "Type"
    size := ← size.require "Size" }

def SchemaProperty.record : Record := ⟨"JsonSchemaProperty", [("type", true), ("size", true)]⟩

def SchemaProperty.shape : Shape SchemaProperty := fun value => do
  let fields ← record.fieldsOf value
  let type := record.slot fields "type" Shape.text
  let size := record.slot fields "size" Shape.text
  record.check fields [("type", type.fault?), ("size", size.fault?)]
  return { type := ← type.require "type", size := ← size.require "size" }

def Table.record : Record :=
  ⟨"Table", [("TableName", true), ("Domain", false), ("Columns", false), ("Description", false),
    ("DerivedSchema", false)]⟩

def DerivedSchema.record : Record :=
  ⟨"DerivedSchema", [("Scope", true), ("DefaultIdentifier", true), ("Domain", true),
    ("Schema", true), ("DefaultObject", true), ("JsonSchema", false), ("Authorization", false)]⟩

def JsonSchema.record : Record :=
  ⟨"JsonSchemaFragment", [("title", true), ("type", true), ("properties", true), ("required", true),
    ("Table", false)]⟩

mutual
def Table.shape (value : Json) : Except ShapeFault Table :=
  match _shaped : value.fields? with
  | none => .error (.wrongType value (.record Table.record.name))
  | some fields => do
    let record := Table.record
    let name := record.slot fields "TableName" Shape.text
    let domain := record.slot fields "Domain" Shape.text
    let columns := record.slot fields "Columns" (Shape.list Column.shape)
    let description := record.slot fields "Description" Shape.text
    let derived : Slot (Option DerivedSchema) :=
      match _found : record.field? fields "DerivedSchema" with
      | none => .ok none
      | some .null => .ok (some none)
      | some content => (DerivedSchema.shape content).map fun derived => some (some derived)
    record.check fields [("TableName", name.fault?), ("Domain", domain.fault?),
      ("Columns", columns.fault?), ("Description", description.fault?),
      ("DerivedSchema", derived.fault?)]
    return {
      name := ← name.require "TableName"
      domain := ← domain.orElse Table.defaultDomain
      columns := ← columns.orElse []
      description := ← description.orElse ""
      derived := ← derived.orElse none }
termination_by sizeOf value
decreasing_by exact Record.sizeOf_lt_of_field? _shaped _found
def DerivedSchema.shape (value : Json) : Except ShapeFault DerivedSchema :=
  match _shaped : value.fields? with
  | none => .error (.wrongType value (.record DerivedSchema.record.name))
  | some fields => do
    let record := DerivedSchema.record
    let scope := record.slot fields "Scope" Shape.text
    let identifier := record.slot fields "DefaultIdentifier" Shape.text
    let domain := record.slot fields "Domain" Shape.text
    let entries := record.slot fields "Schema" (Shape.list SchemaEntry.shape)
    let defaults := record.slot fields "DefaultObject" (Shape.map Shape.anything)
    let jsonSchema : Slot (Option JsonSchema) :=
      match _found : record.field? fields "JsonSchema" with
      | none => .ok none
      | some .null => .ok (some none)
      | some content => (JsonSchema.shape content).map fun schema => some (some schema)
    let authorization := record.slot fields "Authorization" Policy.shape
    record.check fields [("Scope", scope.fault?), ("DefaultIdentifier", identifier.fault?),
      ("Domain", domain.fault?), ("Schema", entries.fault?), ("DefaultObject", defaults.fault?),
      ("JsonSchema", jsonSchema.fault?), ("Authorization", authorization.fault?)]
    return {
      scope := ← scope.require "Scope"
      identifier := ← identifier.require "DefaultIdentifier"
      domain := ← domain.require "Domain"
      entries := ← entries.require "Schema"
      defaults := ← defaults.require "DefaultObject"
      jsonSchema := ← jsonSchema.orElse none
      authorization := ← authorization.orElse .empty }
termination_by sizeOf value
decreasing_by exact Record.sizeOf_lt_of_field? _shaped _found
def JsonSchema.shape (value : Json) : Except ShapeFault JsonSchema :=
  match _shaped : value.fields? with
  | none => .error (.wrongType value (.record JsonSchema.record.name))
  | some fields => do
    let record := JsonSchema.record
    let title := record.slot fields "title" Shape.text
    let type := record.slot fields "type" Shape.text
    let properties := record.slot fields "properties" (Shape.map SchemaProperty.shape)
    let required := record.slot fields "required" (Shape.list Shape.text)
    let table : Slot (Option Table) := match _found : record.field? fields "Table" with
      | none => .ok none
      | some .null => .ok (some none)
      | some content => (Table.shape content).map fun table => some (some table)
    record.check fields [("title", title.fault?), ("type", type.fault?),
      ("properties", properties.fault?), ("required", required.fault?), ("Table", table.fault?)]
    return {
      title := ← title.require "title"
      type := ← type.require "type"
      properties := ← properties.require "properties"
      required := ← required.require "required"
      table := ← table.orElse none }
termination_by sizeOf value
decreasing_by exact Record.sizeOf_lt_of_field? _shaped _found
end

def ViewColumn.record : Record := ⟨"PictColumn", [("Column", true), ("Type", false)]⟩

def ViewColumn.shape : Shape ViewColumn := fun value => do
  let members ← record.membersOf value
  let fields := .named members
  let name := record.slot fields "Column" Shape.text
  let kind := record.slot fields "Type" (Shape.option Shape.text)
  record.check fields [("Column", name.fault?), ("Type", kind.fault?)]
  return {
    name := ← name.require "Column"
    kind := ← kind.orElse none
    attributes := ← Shape.entries Shape.text (record.others members) }

def View.record : Record := ⟨"PictView", [("Enabled", false), ("Columns", false), ("Title", false)]⟩

def View.shape : Shape View := fun value => do
  let members ← record.membersOf value
  let fields := .named members
  let enabled := record.slot fields "Enabled" Shape.boolean
  let columns := record.slot fields "Columns" (Shape.list ViewColumn.shape)
  let title := record.slot fields "Title" Shape.text
  record.check fields [("Enabled", enabled.fault?), ("Columns", columns.fault?),
    ("Title", title.fault?)]
  return {
    enabled := ← enabled.orElse true
    columns := ← columns.orElse []
    title := ← title.orElse ""
    properties := ← Shape.entries Shape.anything (record.others members) }

def ViewSet.viewsRecord : Record :=
  ⟨"PictEntity", ViewKind.all.map fun kind => (kind.name, true)⟩

def ViewSet.shape : Shape ViewSet := fun value => do
  let fields ← viewsRecord.fieldsOf value
  let view (kind : ViewKind) : Slot View := viewsRecord.slot fields kind.name View.shape
  viewsRecord.check fields (ViewKind.all.map fun kind => (kind.name, (view kind).fault?))
  return {
    create := ← (view .create).require ViewKind.create.name
    record := ← (view .record).require ViewKind.record.name
    update := ← (view .update).require ViewKind.update.name
    list := ← (view .list).require ViewKind.list.name
    delete := ← (view .delete).require ViewKind.delete.name }

namespace Model

def record : Record :=
  ⟨"Model", [("Tables", false), ("TablesSequence", false), ("Authorization", false),
    ("Endpoints", false), ("Pict", false)]⟩

def shape : Shape Model := fun value => do
  let fields ← record.fieldsOf value
  let tables := record.slot fields "Tables" (Shape.map Table.shape)
  let sequence := record.slot fields "TablesSequence" (Shape.list Shape.text)
  let authorization := record.slot fields "Authorization" (Shape.map Policy.shape)
  let endpoints := record.slot fields "Endpoints" (Shape.map Shape.boolean)
  let views := record.slot fields "Pict" (Shape.map ViewSet.shape)
  record.check fields [("Tables", tables.fault?), ("TablesSequence", sequence.fault?),
    ("Authorization", authorization.fault?), ("Endpoints", endpoints.fault?),
    ("Pict", views.fault?)]
  return {
    tables := ← tables.orElse .empty
    sequence := ← sequence.orElse []
    authorization := ← authorization.orElse .empty
    endpoints := ← endpoints.orElse .empty
    views := ← views.orElse .empty }

end Model

/-- A model that was read back. -/
structure LoadedModel where
  model : Model
  /-- Whether the text told about authorization, and not of tables alone. -/
  extended : Bool

namespace LoadedModel

def identityIndex (loaded : LoadedModel) : OrderedMap String := loaded.model.identityIndex

/-- The table that a foreign key refers to, by the name of the identity column. -/
def tableForIdentity? (loaded : LoadedModel) (column : String) : Option String :=
  loaded.identityIndex.get? column

end LoadedModel

def Json.hasMember (key : String) : Json → Bool
  | .object members => (Json.member? key members).isSome
  | _ => false

def ModelFault.ofReading : Json.Fault → ModelFault
  | .ended => ⟨.ended, "the text ended early"⟩
  | .malformed => ⟨.malformed, "the text is not JSON"⟩

/-- The model in a JSON text. -/
def Model.parse (raw : String) : Except ModelFault LoadedModel :=
  match Json.parse raw with
  | .error fault => .error (.ofReading fault)
  | .ok value =>
    match Model.shape value with
    | .error fault => .error ⟨.shape, fault.message⟩
    | .ok model => .ok ⟨model, value.hasMember "Authorization"⟩

/-- Reads a model from the text of the file at `path`. -/
def loadText (raw : String) (path : Path) : Report LoadedModel :=
  match Model.parse raw with
  | .error fault => ⟨.error (.invalidModel path.text fault), []⟩
  | .ok loaded =>
    let event : Event :=
      if loaded.extended then ⟨.info, "extended model file", [("path", .text path.text)]⟩
      else ⟨.warn, "not an extended model file; authorization and PICT data are absent",
        [("path", .text path.text)]⟩
    ⟨.ok loaded, [event]⟩

/-- Reads the model in the file at `path`. -/
def loadFile (volume : Volume) (path : Path) : Report LoadedModel :=
  let loading : Event := ⟨.info, "loading compiled model", [("path", .text path.text)]⟩
  match volume.read path with
  | .error fault =>
    ⟨.error (.unreadable path.text fault),
     [loading, ⟨.error, "error loading model file: " ++ fault.text, [("path", .text path.text)]⟩]⟩
  | .ok raw =>
    let report := loadText raw path
    { report with events := loading :: report.events }

end StanzaSchema
