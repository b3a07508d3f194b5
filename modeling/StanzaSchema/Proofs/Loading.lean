import StanzaSchema.Model.Load
import StanzaSchema.Proofs.Shapes

/-!
Data that was laid out in JSON is loaded as it was, with its maps in order.
-/

namespace StanzaSchema

open Json (Shape Slot Record)

theorem DataType.shape_name (type : DataType) :
    DataType.shape (Json.text type.name).sorted = .ok type := by
  cases type <;> rfl

theorem SchemaTag.shape_name (tag : SchemaTag) :
    SchemaTag.shape (Json.text tag.name).sorted = .ok tag := by
  cases tag <;> rfl

namespace Column

def members (column : Column) : List (String × Json) :=
  [("Column", .text column.name), ("DataType", .text column.type.name)] ++
    Json.optional "Size" .text column.size ++ Json.optional "Join" .text column.join ++
    Json.optional "TableJoin" .text column.tableJoin ++
    Json.optional "Description" .text column.description

theorem keys_members_nodup (column : Column) : (Entries.keys column.members).Nodup := by
  have part : (Entries.keys column.members).Sublist
      (["Column", "DataType"] ++ ["Size"] ++ ["Join"] ++ ["TableJoin"] ++ ["Description"]) := by
    simp only [members, Entries.keys, List.map_append]
    exact ((((List.Sublist.refl _).append (Json.keys_optional_sublist ..)).append
      (Json.keys_optional_sublist ..)).append (Json.keys_optional_sublist ..)).append
        (Json.keys_optional_sublist ..)
  exact part.nodup (by decide)

theorem shape_toJson (column : Column) : Column.shape column.toJson.sorted = .ok column := by
  have distinct := column.keys_members_nodup
  have name : Entries.find? "Column" column.members = some (.text column.name) := by
    simp [members, Entries.find?]
  have type : Entries.find? "DataType" column.members = some (.text column.type.name) := by
    simp [members, Entries.find?]
  have text (key : String) (value : Option String)
      (found : Entries.find? key column.members = value.map .text) :=
    record.slot_optional distinct found Shape.text_solid fun content _ => Shape.text_sorted content
  have size := text "Size" column.size (by simp [members, Entries.find?])
  have join := text "Join" column.join (by simp [members, Entries.find?])
  have tableJoin := text "TableJoin" column.tableJoin (by simp [members, Entries.find?])
  have description := text "Description" column.description (by simp [members, Entries.find?])
  have laid : column.toJson = .object column.members := rfl
  simp only [shape, laid, Record.fieldsOf_sorted,
    Record.slot_present distinct name (Shape.text_sorted _),
    Record.slot_present distinct type (DataType.shape_name _), size, join, tableJoin, description,
    bind, Except.bind]
  rw [Record.check_inOrder distinct (by simp) (by simp [record, name, type])]
  simp only [Slot.require_ok, Slot.orElse_map_some, Option.map_id']
  rfl

end Column

/-- An authorizer that its token stands for. A custom one must not have the token of another. -/
def Authorizer.Canonical (authorizer : Authorizer) : Prop := ofToken authorizer.token = authorizer

namespace Policy

def Canonical (policy : Policy) : Prop :=
  ∀ role ∈ policy.roles.entries, ∀ operation ∈ role.2.entries, operation.2.Canonical

/-- The policy with its roles and their operations in order. -/
def sorted (policy : Policy) : Policy := ⟨policy.roles.sorted.map OrderedMap.sorted⟩

theorem shape_toJson {policy : Policy} (canonical : policy.Canonical) :
    Policy.shape policy.toJson.sorted = .ok policy.sorted := by
  have operations (role : String × Operations) (listed : role ∈ policy.roles.entries) :
      Shape.map Authorizer.shape (Operations.toJson role.2).sorted = .ok role.2.sorted := by
    have reads (operation : String × Authorizer) (member : operation ∈ role.2.entries) :
        Authorizer.shape (Json.text operation.2.token).sorted = .ok (id operation.2) :=
      congrArg Except.ok (canonical role listed operation member)
    rw [Operations.toJson, Shape.map_ofMap reads]
    exact congrArg Except.ok (OrderedMap.map_id _)
  rw [shape, toJson, Shape.map_ofMap operations]
  rfl

end Policy

namespace SchemaEntry

def members (entry : SchemaEntry) : List (String × Json) :=
  [("Column", .text entry.column), ("Type", .text entry.tag.name), ("Size", .text entry.size)]

theorem shape_toJson (entry : SchemaEntry) : SchemaEntry.shape entry.toJson.sorted = .ok entry := by
  have distinct : (Entries.keys entry.members).Nodup := by
    show ["Column", "Type", "Size"].Nodup
    decide
  have column : Entries.find? "Column" entry.members = some (.text entry.column) := rfl
  have tag : Entries.find? "Type" entry.members = some (.text entry.tag.name) := rfl
  have size : Entries.find? "Size" entry.members = some (.text entry.size) := rfl
  have laid : entry.toJson = .object entry.members := rfl
  simp only [shape, laid, Record.fieldsOf_sorted,
    Record.slot_present distinct column (Shape.text_sorted _),
    Record.slot_present distinct tag (SchemaTag.shape_name _),
    Record.slot_present distinct size (Shape.text_sorted _), bind, Except.bind]
  rw [Record.check_inOrder distinct (by simp) (by simp [record, column, tag, size])]
  rfl

end SchemaEntry

namespace SchemaProperty

def members (property : SchemaProperty) : List (String × Json) :=
  [("type", .text property.type), ("size", .text property.size)]

theorem shape_toJson (property : SchemaProperty) :
    SchemaProperty.shape property.toJson.sorted = .ok property := by
  have distinct : (Entries.keys property.members).Nodup := by
    show ["type", "size"].Nodup
    decide
  have type : Entries.find? "type" property.members = some (.text property.type) := rfl
  have size : Entries.find? "size" property.members = some (.text property.size) := rfl
  have laid : property.toJson = .object property.members := rfl
  simp only [shape, laid, Record.fieldsOf_sorted,
    Record.slot_present distinct type (Shape.text_sorted _),
    Record.slot_present distinct size (Shape.text_sorted _), bind, Except.bind]
  rw [Record.check_inOrder distinct (by simp) (by simp [record, type, size])]
  rfl

end SchemaProperty

mutual
/-- The table with all maps of its derived schema in order. -/
def Table.sorted : Table → Table
  | { name, domain, columns, description, derived } =>
    match derived with
    | none => { name, domain, columns, description, derived := none }
    | some derived => { name, domain, columns, description, derived := some derived.sorted }
def DerivedSchema.sorted : DerivedSchema → DerivedSchema
  | { scope, identifier, domain, entries, defaults, jsonSchema, authorization } =>
    let defaults := defaults.sorted.map Json.sorted
    let authorization := authorization.sorted
    match jsonSchema with
    | none => { scope, identifier, domain, entries, defaults, jsonSchema := none, authorization }
    | some schema =>
      { scope, identifier, domain, entries, defaults, authorization,
        jsonSchema := some schema.sorted }
def JsonSchema.sorted : JsonSchema → JsonSchema
  | { title, type, properties, required, table } =>
    let properties := properties.sorted
    match table with
    | none => { title, type, properties, required, table := none }
    | some table => { title, type, properties, required, table := some table.sorted }
end

namespace DerivedSchema

def members (derived : DerivedSchema) : List (String × Json) :=
  [("Scope", .text derived.scope), ("DefaultIdentifier", .text derived.identifier),
   ("Domain", .text derived.domain),
    ("Schema", .array (derived.entries.map SchemaEntry.toJson)),
    ("DefaultObject", Json.ofMap id derived.defaults)] ++
    Json.optional "JsonSchema" JsonSchema.toJson derived.jsonSchema ++
    [("Authorization", derived.authorization.toJson)]

theorem toJson_eq (derived : DerivedSchema) : derived.toJson = .object derived.members := by
  obtain ⟨scope, identifier, domain, entries, defaults, jsonSchema, authorization⟩ := derived
  cases jsonSchema <;> rfl

theorem toJson_solid (derived : DerivedSchema) : derived.toJson.sorted ≠ .null := by
  rw [toJson_eq, Json.sorted_eq_inOrder]
  nofun

end DerivedSchema

namespace JsonSchema

def members (schema : JsonSchema) : List (String × Json) :=
  [("title", .text schema.title), ("type", .text schema.type),
    ("properties", Json.ofMap SchemaProperty.toJson schema.properties),
    ("required", Json.ofTexts schema.required)] ++
    Json.optional "Table" Table.toJson schema.table

theorem toJson_eq (schema : JsonSchema) : schema.toJson = .object schema.members := by
  obtain ⟨title, type, properties, required, table⟩ := schema
  cases table <;> rfl

theorem toJson_solid (schema : JsonSchema) : schema.toJson.sorted ≠ .null := by
  rw [toJson_eq, Json.sorted_eq_inOrder]
  nofun

end JsonSchema

namespace Table

def members (table : Table) : List (String × Json) :=
  [("TableName", .text table.name), ("Domain", .text table.domain),
    ("Columns", .array (table.columns.map Column.toJson)),
    ("Description", .text table.description)] ++
    Json.optional "DerivedSchema" DerivedSchema.toJson table.derived

theorem toJson_eq (table : Table) : table.toJson = .object table.members := by
  obtain ⟨name, domain, columns, description, derived⟩ := table
  cases derived <;> rfl

theorem toJson_solid (table : Table) : table.toJson.sorted ≠ .null := by
  rw [toJson_eq, Json.sorted_eq_inOrder]
  nofun

theorem sorted_eq (table : Table) :
    table.sorted = { table with derived := table.derived.map DerivedSchema.sorted } := by
  obtain ⟨name, domain, columns, description, derived⟩ := table
  cases derived <;> rfl

theorem shape_eq (value : Json) :
    Table.shape value = (do
      let fields ← record.fieldsOf value
      let name := record.slot fields "TableName" Shape.text
      let domain := record.slot fields "Domain" Shape.text
      let columns := record.slot fields "Columns" (Shape.list Column.shape)
      let description := record.slot fields "Description" Shape.text
      let derived := record.slot fields "DerivedSchema" (Shape.option DerivedSchema.shape)
      record.check fields [("TableName", name.fault?), ("Domain", domain.fault?),
        ("Columns", columns.fault?), ("Description", description.fault?),
        ("DerivedSchema", derived.fault?)]
      return {
        name := ← name.require "TableName"
        domain := ← domain.orElse Table.defaultDomain
        columns := ← columns.orElse []
        description := ← description.orElse ""
        derived := ← derived.orElse none }) := by
  rw [Table.shape]
  split
  next unshaped =>
    rw [Record.fieldsOf, unshaped]
    rfl
  next fields shaped =>
    simp only [Record.fieldsOf_bind shaped]
    split
    next found => simp only [Record.slot, found]
    next found =>
      simp only [Record.slot, found]
      rfl
    next solid found => rw [Record.slot_option solid found]

theorem shape_toJson {table : Table} (inner : ∀ derived, table.derived = some derived →
    DerivedSchema.shape derived.toJson.sorted = .ok derived.sorted) :
    Table.shape table.toJson.sorted = .ok table.sorted := by
  have distinct : (Entries.keys table.members).Nodup := by
    have part : (Entries.keys table.members).Sublist
        (["TableName", "Domain", "Columns", "Description"] ++ ["DerivedSchema"]) := by
      simp only [members, Entries.keys, List.map_append]
      exact (List.Sublist.refl _).append (Json.keys_optional_sublist ..)
    exact part.nodup (by decide)
  have name : Entries.find? "TableName" table.members = some (.text table.name) := rfl
  have domain : Entries.find? "Domain" table.members = some (.text table.domain) := rfl
  have columns : Entries.find? "Columns" table.members =
      some (.array (table.columns.map Column.toJson)) := rfl
  have description : Entries.find? "Description" table.members = some (.text table.description) :=
    rfl
  have derived : Entries.find? "DerivedSchema" table.members =
      table.derived.map DerivedSchema.toJson := by
    simp [members, Entries.find?]
  have listed : Shape.list Column.shape (Json.array (table.columns.map Column.toJson)).sorted =
      .ok (table.columns.map id) := Shape.list_array fun column _ => column.shape_toJson
  simp only [shape_eq, toJson_eq, Record.fieldsOf_sorted,
    Record.slot_present distinct name (Shape.text_sorted _),
    Record.slot_present distinct domain (Shape.text_sorted _),
    Record.slot_present distinct columns listed,
    Record.slot_present distinct description (Shape.text_sorted _),
    Record.slot_optional distinct derived DerivedSchema.toJson_solid inner,
    bind, Except.bind]
  rw [Record.check_inOrder distinct (by simp) (by simp [record, name]), sorted_eq]
  simp only [Slot.require_ok, Slot.orElse_ok, Slot.orElse_map_some, List.map_id_fun, id]
  rfl

end Table

namespace DerivedSchema

theorem sorted_eq (derived : DerivedSchema) :
    derived.sorted =
      { derived with
        defaults := derived.defaults.sorted.map Json.sorted
        jsonSchema := derived.jsonSchema.map JsonSchema.sorted
        authorization := derived.authorization.sorted } := by
  obtain ⟨scope, identifier, domain, entries, defaults, jsonSchema, authorization⟩ := derived
  cases jsonSchema <;> rfl

theorem shape_eq (value : Json) :
    DerivedSchema.shape value = (do
      let fields ← record.fieldsOf value
      let scope := record.slot fields "Scope" Shape.text
      let identifier := record.slot fields "DefaultIdentifier" Shape.text
      let domain := record.slot fields "Domain" Shape.text
      let entries := record.slot fields "Schema" (Shape.list SchemaEntry.shape)
      let defaults := record.slot fields "DefaultObject" (Shape.map Shape.anything)
      let jsonSchema := record.slot fields "JsonSchema" (Shape.option JsonSchema.shape)
      let authorization := record.slot fields "Authorization" Policy.shape
      record.check fields [("Scope", scope.fault?), ("DefaultIdentifier", identifier.fault?),
        ("Domain", domain.fault?), ("Schema", entries.fault?), ("DefaultObject", defaults.fault?),
        ("JsonSchema", jsonSchema.fault?), ("Authorization", authorization.fault?)]
      return {
        scope := ← scope.require "Scope"
        identifier := ← identifier.require "DefaultIdentifier"
        domain := ← domain.require "Domain"
        entries := ← entries.require "Schema"
        defaults := ← defaults.require "DefaultObject"
        jsonSchema := ← jsonSchema.orElse none
        authorization := ← authorization.orElse .empty }) := by
  rw [DerivedSchema.shape]
  split
  next unshaped =>
    rw [Record.fieldsOf, unshaped]
    rfl
  next fields shaped =>
    simp only [Record.fieldsOf_bind shaped]
    split
    next found => simp only [Record.slot, found]
    next found =>
      simp only [Record.slot, found]
      rfl
    next solid found => rw [Record.slot_option solid found]

theorem shape_toJson {derived : DerivedSchema}
    (ruled : Policy.shape derived.authorization.toJson.sorted = .ok derived.authorization.sorted)
    (inner : ∀ schema, derived.jsonSchema = some schema →
      JsonSchema.shape schema.toJson.sorted = .ok schema.sorted) :
    DerivedSchema.shape derived.toJson.sorted = .ok derived.sorted := by
  have distinct : (Entries.keys derived.members).Nodup := by
    have part : (Entries.keys derived.members).Sublist
        (["Scope", "DefaultIdentifier", "Domain", "Schema",
          "DefaultObject"] ++ ["JsonSchema"] ++ ["Authorization"]) := by
      simp only [members, Entries.keys, List.map_append]
      exact ((List.Sublist.refl _).append (Json.keys_optional_sublist ..)).append (.refl _)
    exact part.nodup (by decide)
  have scope : Entries.find? "Scope" derived.members = some (.text derived.scope) := rfl
  have identifier : Entries.find? "DefaultIdentifier" derived.members =
      some (.text derived.identifier) := rfl
  have domain : Entries.find? "Domain" derived.members = some (.text derived.domain) := rfl
  have entries : Entries.find? "Schema" derived.members =
      some (.array (derived.entries.map SchemaEntry.toJson)) := rfl
  have defaults : Entries.find? "DefaultObject" derived.members =
      some (Json.ofMap id derived.defaults) := rfl
  have jsonSchema : Entries.find? "JsonSchema" derived.members =
      derived.jsonSchema.map JsonSchema.toJson := by
    simp [members, Entries.find?]
  have authorization : Entries.find? "Authorization" derived.members =
      some derived.authorization.toJson := by
    simp [members, Entries.find?]
  have listed :
      Shape.list SchemaEntry.shape (Json.array (derived.entries.map SchemaEntry.toJson)).sorted =
      .ok (derived.entries.map id) := Shape.list_array fun entry _ => entry.shape_toJson
  have free : Shape.map Shape.anything (Json.ofMap id derived.defaults).sorted =
      .ok (derived.defaults.sorted.map Json.sorted) := Shape.map_ofMap fun _ _ => rfl
  simp only [shape_eq, toJson_eq, Record.fieldsOf_sorted,
    Record.slot_present distinct scope (Shape.text_sorted _),
    Record.slot_present distinct identifier (Shape.text_sorted _),
    Record.slot_present distinct domain (Shape.text_sorted _),
    Record.slot_present distinct entries listed, Record.slot_present distinct defaults free,
    Record.slot_optional distinct jsonSchema JsonSchema.toJson_solid inner,
    Record.slot_present distinct authorization ruled, bind, Except.bind]
  rw [Record.check_inOrder distinct (by simp)
    (by simp [record, scope, identifier, domain, entries, defaults]), sorted_eq]
  simp only [Slot.require_ok, Slot.orElse_ok, Slot.orElse_map_some, List.map_id_fun, id]
  rfl

end DerivedSchema

namespace JsonSchema

theorem sorted_eq (schema : JsonSchema) :
    schema.sorted =
      { schema with
        properties := schema.properties.sorted
        table := schema.table.map Table.sorted } := by
  obtain ⟨title, type, properties, required, table⟩ := schema
  cases table <;> rfl

theorem shape_eq (value : Json) :
    JsonSchema.shape value = (do
      let fields ← record.fieldsOf value
      let title := record.slot fields "title" Shape.text
      let type := record.slot fields "type" Shape.text
      let properties := record.slot fields "properties" (Shape.map SchemaProperty.shape)
      let required := record.slot fields "required" (Shape.list Shape.text)
      let table := record.slot fields "Table" (Shape.option Table.shape)
      record.check fields [("title", title.fault?), ("type", type.fault?),
        ("properties", properties.fault?), ("required", required.fault?), ("Table", table.fault?)]
      return {
        title := ← title.require "title"
        type := ← type.require "type"
        properties := ← properties.require "properties"
        required := ← required.require "required"
        table := ← table.orElse none }) := by
  rw [JsonSchema.shape]
  split
  next unshaped =>
    rw [Record.fieldsOf, unshaped]
    rfl
  next fields shaped =>
    simp only [Record.fieldsOf_bind shaped]
    split
    next found => simp only [Record.slot, found]
    next found =>
      simp only [Record.slot, found]
      rfl
    next solid found => rw [Record.slot_option solid found]

theorem shape_toJson {schema : JsonSchema} (inner : ∀ table, schema.table = some table →
    Table.shape table.toJson.sorted = .ok table.sorted) :
    JsonSchema.shape schema.toJson.sorted = .ok schema.sorted := by
  have distinct : (Entries.keys schema.members).Nodup := by
    have part : (Entries.keys schema.members).Sublist (["title", "type", "properties",
        "required"] ++ ["Table"]) := by
      simp only [members, Entries.keys, List.map_append]
      exact (List.Sublist.refl _).append (Json.keys_optional_sublist ..)
    exact part.nodup (by decide)
  have title : Entries.find? "title" schema.members = some (.text schema.title) := rfl
  have type : Entries.find? "type" schema.members = some (.text schema.type) := rfl
  have properties : Entries.find? "properties" schema.members =
      some (Json.ofMap SchemaProperty.toJson schema.properties) := rfl
  have required : Entries.find? "required" schema.members = some (Json.ofTexts schema.required) :=
    rfl
  have table : Entries.find? "Table" schema.members = schema.table.map Table.toJson := by
    simp [members, Entries.find?]
  have mapped :
      Shape.map SchemaProperty.shape (Json.ofMap SchemaProperty.toJson schema.properties).sorted =
      .ok (schema.properties.sorted.map id) := Shape.map_ofMap fun entry _ => entry.2.shape_toJson
  have listed : Shape.list Shape.text (Json.ofTexts schema.required).sorted =
      .ok (schema.required.map id) :=
    Shape.list_array fun text _ => Shape.text_sorted text
  simp only [shape_eq, toJson_eq, Record.fieldsOf_sorted,
    Record.slot_present distinct title (Shape.text_sorted _),
    Record.slot_present distinct type (Shape.text_sorted _),
    Record.slot_present distinct properties mapped,
    Record.slot_present distinct required listed,
    Record.slot_optional distinct table Table.toJson_solid inner, bind, Except.bind]
  rw [Record.check_inOrder distinct (by simp) (by simp [record, title, type, properties, required]),
    sorted_eq]
  simp only [Slot.require_ok, Slot.orElse_map_some, List.map_id_fun, id_eq, OrderedMap.map_id]
  rfl

end JsonSchema

namespace ViewColumn

/-- No attribute has the name of a field. -/
def Separate (column : ViewColumn) : Prop :=
  ∀ name ∈ column.attributes.keys, name ∉ record.fieldNames

def sorted (column : ViewColumn) : ViewColumn :=
  { column with attributes := column.attributes.sorted }

def fixedMembers (column : ViewColumn) : List (String × Json) :=
  ("Column", .text column.name) :: Json.optional "Type" .text column.kind

def members (column : ViewColumn) : List (String × Json) :=
  column.fixedMembers ++ column.attributes.entries.map fun entry => (entry.1, .text entry.2)

private theorem keys_fixedMembers (column : ViewColumn) :
    (Entries.keys column.fixedMembers).Sublist record.fieldNames := by
  simp only [fixedMembers, Entries.keys, List.map_cons]
  exact (Json.keys_optional_sublist ..).cons_cons _

theorem keys_members_nodup {column : ViewColumn} (separate : column.Separate) :
    (Entries.keys column.members).Nodup := by
  have free : (column.attributes.entries.map fun entry =>
      (entry.1, Json.text entry.2)).map Prod.fst =
      column.attributes.keys := by simp [OrderedMap.keys, Entries.keys, Function.comp_def]
  rw [members, Entries.keys, List.map_append, free, List.nodup_append]
  refine ⟨(keys_fixedMembers column).nodup (by decide), column.attributes.distinct, ?_⟩
  rintro first fixed second other rfl
  exact separate first other ((keys_fixedMembers column).subset fixed)

theorem shape_toJson {column : ViewColumn} (separate : column.Separate) :
    ViewColumn.shape column.toJson.sorted = .ok column.sorted := by
  have distinct := keys_members_nodup separate
  have name : Entries.find? "Column" column.members = some (.text column.name) := rfl
  have kind : Entries.find? "Type" column.members = column.kind.map .text := by
    have untyped : column.attributes.get? "Type" = none :=
      OrderedMap.get?_eq_none_iff.mpr fun listed => separate "Type" listed (by decide)
    rw [OrderedMap.get?] at untyped
    simp [members, fixedMembers, Entries.find?, Entries.find?_map, untyped]
  have known : ∀ member ∈ column.fixedMembers, member.1 ∈ record.fieldNames := fun member listed =>
    (keys_fixedMembers column).subset (List.mem_map_of_mem listed)
  have unknown : ∀ member ∈ column.attributes.entries.map fun entry => (entry.1, Json.text entry.2),
      member.1 ∉ record.fieldNames := by
    intro member listed
    obtain ⟨entry, present, rfl⟩ := List.mem_map.mp listed
    exact separate entry.1 (List.mem_map_of_mem present)
  have typed : record.slot (.named (Json.inOrder column.members)) "Type" (Shape.option Shape.text) =
      .ok ((column.kind.map id).map some) :=
    Record.slot_optional distinct kind Shape.text_solid fun content _ => Shape.text_sorted content
  have free : Shape.entries Shape.text (record.others (Json.inOrder column.members)) =
      .ok (column.attributes.sorted.map id) := by
    rw [members, Record.others_inOrder distinct known unknown]
    exact Shape.entries_inOrder fun entry _ => Shape.text_sorted entry.2
  have laid : column.toJson = .object column.members := rfl
  simp only [shape, laid, Record.membersOf_sorted,
    Record.slot_present distinct name (Shape.text_sorted _), typed, free,
    OrderedMap.map_id, bind, Except.bind]
  rw [Record.check_inOrder distinct (by simp) (by simp [record, name])]
  simp only [Slot.require_ok, Slot.orElse_map_some, Option.map_id_fun, id]
  rfl

end ViewColumn

namespace View

/-- No property has the name of a field, in the view and in its columns. -/
structure Separate (view : View) : Prop where
  columns : ∀ column ∈ view.columns, column.Separate
  properties : ∀ name ∈ view.properties.keys, name ∉ record.fieldNames

def sorted (view : View) : View :=
  { view with
    columns := view.columns.map ViewColumn.sorted
    properties := view.properties.sorted.map Json.sorted }

def fixedMembers (view : View) : List (String × Json) :=
  [("Enabled", .boolean view.enabled), ("Columns", .array (view.columns.map ViewColumn.toJson)),
    ("Title", .text view.title)]

def members (view : View) : List (String × Json) := view.fixedMembers ++ view.properties.entries

theorem keys_members_nodup {view : View}
    (apart : ∀ name ∈ view.properties.keys, name ∉ record.fieldNames) :
    (Entries.keys view.members).Nodup := by
  rw [members, Entries.keys, List.map_append, List.nodup_append]
  refine ⟨(by decide : record.fieldNames.Nodup), view.properties.distinct, ?_⟩
  rintro first fixed second other rfl
  exact apart first other fixed

theorem shape_toJson {view : View} (apart : ∀ name ∈ view.properties.keys, name ∉ record.fieldNames)
    (listed : Shape.list ViewColumn.shape (Json.array (view.columns.map ViewColumn.toJson)).sorted =
      .ok (view.columns.map ViewColumn.sorted)) :
    View.shape view.toJson.sorted = .ok view.sorted := by
  have distinct := keys_members_nodup apart
  have enabled : Entries.find? "Enabled" view.members = some (.boolean view.enabled) := rfl
  have columns : Entries.find? "Columns" view.members =
      some (.array (view.columns.map ViewColumn.toJson)) := rfl
  have title : Entries.find? "Title" view.members = some (.text view.title) := rfl
  have known : ∀ member ∈ view.fixedMembers, member.1 ∈ record.fieldNames := fun member listed =>
    List.mem_map_of_mem (f := Prod.fst) listed
  have unknown : ∀ member ∈ view.properties.entries, member.1 ∉ record.fieldNames :=
    fun member listed =>
    apart member.1 (List.mem_map_of_mem listed)
  have free : Shape.entries Shape.anything (record.others (Json.inOrder view.members)) =
      .ok (view.properties.sorted.map Json.sorted) := by
    have plain : (view.properties.entries.map fun entry => (entry.1, id entry.2)) =
        view.properties.entries :=
      List.map_id _
    rw [members, Record.others_inOrder distinct known unknown, ← plain]
    exact Shape.entries_inOrder fun _ _ => rfl
  have laid : view.toJson = .object view.members := rfl
  simp only [shape, laid, Record.membersOf_sorted,
    Record.slot_present distinct enabled (Shape.boolean_sorted _),
    Record.slot_present distinct columns listed,
    Record.slot_present distinct title (Shape.text_sorted _), free, bind, Except.bind]
  rw [Record.check_inOrder distinct (by simp) (by simp [record])]
  rfl

theorem Separate.reads {view : View} (separate : view.Separate) :
    View.shape view.toJson.sorted = .ok view.sorted :=
  shape_toJson separate.properties
    (Shape.list_array fun column member => ViewColumn.shape_toJson (separate.columns column member))

end View

namespace ViewSet

def sorted (views : ViewSet) : ViewSet where
  create := views.create.sorted
  record := views.record.sorted
  update := views.update.sorted
  list := views.list.sorted
  delete := views.delete.sorted

theorem view_sorted (views : ViewSet) (kind : ViewKind) :
    views.sorted.view kind = (views.view kind).sorted := by
  cases kind <;> rfl

def members (views : ViewSet) : List (String × Json) :=
  ViewKind.all.map fun kind => (kind.name, (views.view kind).toJson)

theorem shape_toJson {views : ViewSet}
    (inner : ∀ kind, View.shape (views.view kind).toJson.sorted = .ok (views.view kind).sorted) :
    ViewSet.shape views.toJson.sorted = .ok views.sorted := by
  have distinct : (Entries.keys views.members).Nodup :=
    (by decide : (ViewKind.all.map ViewKind.name).Nodup)
  have found (kind : ViewKind) : Entries.find? kind.name views.members =
      some (views.view kind).toJson := by
    cases kind <;> rfl
  have read (kind : ViewKind) :
      viewsRecord.slot (.named (Json.inOrder views.members)) kind.name View.shape =
        .ok (some (views.view kind).sorted) :=
    Record.slot_present distinct (found kind) (inner kind)
  have complete : ∀ field ∈ viewsRecord.fields, field.2 = true →
      (Entries.find? field.1 views.members).isSome = true := by
    intro field listed _
    obtain ⟨kind, _, rfl⟩ := List.mem_map.mp listed
    simp only [found, Option.isSome_some]
  have laid : views.toJson = .object views.members := rfl
  simp only [shape, laid, Record.fieldsOf_sorted, read, bind, Except.bind]
  rw [Record.check_inOrder distinct (by simp) complete]
  rfl

end ViewSet

namespace Model

/-- The model with all its maps in order. The sequence of its tables is no map and stays. -/
def sorted (model : Model) : Model where
  tables := model.tables.sorted.map Table.sorted
  sequence := model.sequence
  authorization := model.authorization.sorted.map Policy.sorted
  endpoints := model.endpoints.sorted
  views := model.views.sorted.map ViewSet.sorted

def members (model : Model) : List (String × Json) :=
  [("Tables", model.tablesJson), ("TablesSequence", Json.ofTexts model.sequence),
    ("Authorization", model.authorizationJson), ("Endpoints", model.endpointsJson),
    ("Pict", model.viewsJson)]

theorem keys_members_nodup (model : Model) : (Entries.keys model.members).Nodup :=
  (by decide : record.fieldNames.Nodup)

theorem shape_toJson {model : Model}
    (tablesRead : Shape.map Table.shape model.tablesJson.sorted =
      .ok (model.tables.sorted.map Table.sorted))
    (policiesRead : Shape.map Policy.shape model.authorizationJson.sorted =
      .ok (model.authorization.sorted.map Policy.sorted))
    (viewsRead : Shape.map ViewSet.shape model.viewsJson.sorted =
      .ok (model.views.sorted.map ViewSet.sorted)) :
    Model.shape model.toJson.sorted = .ok model.sorted := by
  have distinct := model.keys_members_nodup
  have tables : Entries.find? "Tables" model.members = some model.tablesJson := rfl
  have sequence : Entries.find? "TablesSequence" model.members =
      some (Json.ofTexts model.sequence) := rfl
  have authorization : Entries.find? "Authorization" model.members = some model.authorizationJson :=
    rfl
  have endpoints : Entries.find? "Endpoints" model.members = some model.endpointsJson := rfl
  have views : Entries.find? "Pict" model.members = some model.viewsJson := rfl
  have sequenceRead : Shape.list Shape.text (Json.ofTexts model.sequence).sorted =
      .ok (model.sequence.map id) :=
    Shape.list_array fun text _ => Shape.text_sorted text
  have endpointsRead : Shape.map Shape.boolean model.endpointsJson.sorted =
      .ok (model.endpoints.sorted.map id) :=
    Shape.map_ofMap fun entry _ => Shape.boolean_sorted entry.2
  have laid : model.toJson = .object model.members := rfl
  simp only [shape, laid, Record.fieldsOf_sorted, Record.slot_present distinct tables tablesRead,
    Record.slot_present distinct sequence sequenceRead,
    Record.slot_present distinct authorization policiesRead,
    Record.slot_present distinct endpoints endpointsRead,
    Record.slot_present distinct views viewsRead, bind, Except.bind]
  rw [Record.check_inOrder distinct (by simp) (by simp [record])]
  simp only [Slot.orElse_ok, List.map_id_fun, id_eq, OrderedMap.map_id]
  rfl

/-- The tables alone make a model without anything else. -/
theorem shape_baseJson {model : Model}
    (tables : ∀ entry ∈ model.tables.entries, Table.shape entry.2.toJson.sorted =
      .ok entry.2.sorted) :
    Model.shape model.baseJson.sorted =
      .ok { empty with tables := model.tables.sorted.map Table.sorted } := by
  have distinct : (Entries.keys [("Tables", model.tablesJson)]).Nodup :=
    (by decide : ["Tables"].Nodup)
  have present : Entries.find? "Tables" [("Tables", model.tablesJson)] =
      some model.tablesJson := rfl
  have absent (name : String) (other : "Tables" ≠ name) :
      Entries.find? name [("Tables", model.tablesJson)] = none := by
    simp [Entries.find?, other]
  have read : Shape.map Table.shape model.tablesJson.sorted =
      .ok (model.tables.sorted.map Table.sorted) :=
    Shape.map_ofMap tables
  simp only [shape, baseJson, Record.fieldsOf_sorted, Record.slot_present distinct present read,
    Record.slot_absent distinct (absent "TablesSequence" (by decide)),
    Record.slot_absent distinct (absent "Authorization" (by decide)),
    Record.slot_absent distinct (absent "Endpoints" (by decide)),
    Record.slot_absent distinct (absent "Pict" (by decide)), bind, Except.bind]
  rw [Record.check_inOrder distinct (by simp) (by simp [record])]
  rfl

end Model

end StanzaSchema
