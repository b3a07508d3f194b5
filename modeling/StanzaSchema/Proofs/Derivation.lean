import StanzaSchema.Proofs.RoundTrip

/-!
What derived schemas tell. Because no column stands twice, the entries, the default values and the
properties of a derived schema all list the columns of its table in their order, and each can be
looked up by the names of the others. Deriving touches nothing but the derived schemas.
-/

namespace StanzaSchema

/-- What a column is tagged with: the part that its name plays in change tracking, or its own data
type. -/
structure Column.TaggedBy (column : Column) (tag : SchemaTag) : Prop where
  tracked : ∀ role : Tracking, column.name = role.columnName → tag = role.tag
  typed : (∀ role : Tracking, column.name ≠ role.columnName) → tag = column.type.tag

theorem Column.taggedBy_tag (column : Column) : column.TaggedBy column.tag := by
  constructor
  · intro role named
    have found : column.tracking? = some role := by
      rw [tracking?, Tracking.ofColumnName?, named]
      cases role <;> decide
    rw [tag, found]
  · intro other
    have none_found : column.tracking? = none := by
      rw [tracking?, Tracking.ofColumnName?, List.find?_eq_none]
      intro role _
      simpa using Ne.symm (other role)
    rw [tag, none_found]

namespace Table

/-- A derived schema and its JSON schema that tell of every column of a table, in the order of the
columns. -/
structure ToldBy (table : Table) (derived : DerivedSchema) (schema : JsonSchema) : Prop where
  entries : derived.entries.map SchemaEntry.column = table.columnNames
  defaults : derived.defaults.keys = table.columnNames
  properties : schema.properties.keys = table.columnNames
  each : ∀ column ∈ table.columns, ∃ entry property,
    derived.entry? column.name = some entry ∧ column.TaggedBy entry.tag ∧
    entry.size = column.size.getD "Default" ∧
    schema.properties.get? column.name = some property ∧ property.type = column.type.jsonType ∧
      property.size = entry.size ∧
    derived.defaults.get? column.name = some column.type.defaultValue
  required : schema.required =
    (table.columns.filter fun column => column.type = .identity ∨
      column.type = .foreignKey).map Column.name
  identifier : derived.identifier =
    ((table.columns.filter fun column =>
      column.type = .identity).getLast?.map Column.name).getD ("ID" ++ table.name)

variable {table : Table}

/-- A map with an entry for each column. -/
theorem keys_ofColumns {β : Type} (distinct : table.columnNames.Nodup) (content : Column → β) :
    (OrderedMap.ofEntries (table.columns.map fun column => (column.name, content column))).keys =
      table.columnNames := by
  have names : Entries.keys (table.columns.map fun column => (column.name, content column)) =
      table.columnNames := by
    simp [Entries.keys, columnNames, Function.comp_def]
  rw [OrderedMap.keys, OrderedMap.entries_ofEntries (names ▸ distinct), names]

private theorem get?_ofColumns {β : Type} (distinct : table.columnNames.Nodup)
    (content : Column → β) {column : Column} (member : column ∈ table.columns) :
    (OrderedMap.ofEntries (table.columns.map fun column =>
      (column.name, content column))).get? column.name =
      some (content column) := by
  have names :
      (Entries.keys (table.columns.map fun column => (column.name, content column))).Nodup := by
    simpa [Entries.keys, columnNames, Function.comp_def] using distinct
  rw [OrderedMap.get?, OrderedMap.entries_ofEntries names]
  exact Entries.find?_of_mem names (List.mem_map_of_mem member)

private theorem column?_of_mem (distinct : table.columnNames.Nodup) {column : Column}
    (member : column ∈ table.columns) :
    table.column? column.name = some column := by
  obtain ⟨before, after, split⟩ := List.append_of_mem member
  rw [column?, List.find?_eq_some_iff_append]
  refine ⟨beq_self_eq_true _, before, after, split, ?_⟩
  intro other earlier
  rw [columnNames, split, List.map_append, List.nodup_append] at distinct
  have apart :=
    distinct.2.2 other.name (List.mem_map_of_mem earlier) column.name
      (List.mem_map_of_mem List.mem_cons_self)
  simpa using apart

private theorem identifier_eq (table : Table) :
    table.identifier =
      ((table.columns.filter fun column =>
        column.type = .identity).getLast?.map Column.name).getD ("ID" ++ table.name) := by
  have same : (table.columns.filter fun column => column.type = .identity).getLast? =
      table.identity? := by
    rw [List.getLast?_filter, identity?]
    congr 1
  rw [same, identifier]
  cases table.identity? <;> rfl

/-- What is derived from a table in which no column stands twice. -/
theorem toldBy_derive (distinct : table.columnNames.Nodup) (authorization : Option Policy) :
    table.ToldBy (table.derive authorization) (table.jsonSchema authorization) where
  entries := by
    simp only [derive, outline, List.map_map]
    rfl
  defaults := keys_ofColumns distinct fun column => column.type.defaultValue
  properties := keys_ofColumns distinct propertyOf
  each := by
    intro column member
    have listed : DerivedSchema.entry? (table.derive authorization) column.name =
        some (entryOf column) := by
      have found := column?_of_mem distinct member
      rw [column?] at found
      simp only [ DerivedSchema.entry?, derive, outline, List.find?_map]
      rw [show ((fun entry : SchemaEntry => entry.column == column.name) ∘ entryOf) =
        fun other : Column => other.name == column.name from rfl, found]
      rfl
    exact ⟨entryOf column, propertyOf column, listed, column.taggedBy_tag, rfl,
      get?_ofColumns distinct propertyOf member, rfl, rfl,
      get?_ofColumns distinct (fun column => column.type.defaultValue) member⟩
  required := by
    have same : (fun column : Column => column.type.isRequired) =
        fun column => decide (column.type = .identity ∨ column.type = .foreignKey) := by
      funext column
      cases column.type <;> rfl
    rw [jsonSchema, same]
  identifier := table.identifier_eq

end Table

/-- The derived schemas of a run. The entries, the default values and the properties of each list
the columns of its table in their order, and say of a column what its type and size are, and what
part it plays in change tracking; columns that have to be given are the identities and foreign keys,
and the identifier is the last identity. The policy is that of the table, and the table stands once
more in the JSON schema, with all that is derived but the JSON schema. Nothing else of the model
changes. -/
theorem derived_schemas_tell_columns {volume : Volume} {text : String} {origin : Path}
    {compilation : Compilation}
    (success : (compileText volume text origin).result = .ok compilation) :
    let model := compilation.model
    let after := model.derive
    (∀ name table, after.tables.get? name = some table →
      ∃ derived schema, table.derived = some derived ∧ derived.jsonSchema = some schema ∧
        table.ToldBy derived schema ∧
        model.authorization.get? name = some derived.authorization ∧
        schema.table = some { table with derived := some { derived with jsonSchema := none } } ∧
        model.tables.get? name = some { table with derived := none }) ∧
    after.tables.keys = model.tables.keys ∧ after.sequence = model.sequence ∧
      after.authorization = model.authorization ∧ after.endpoints = model.endpoints ∧
      after.views = model.views := by
  intro model after
  have coherent := coherent_of_ok success
  refine ⟨?_, ?_, rfl, rfl, rfl, rfl⟩
  · intro name table found
    rw [show after = model.derive from rfl, Model.derive, OrderedMap.get?_map,
      Option.map_eq_some_iff] at found
    obtain ⟨original, stands, rfl⟩ := found
    have sound := coherent.tables stands
    have bare : ({ original with derived := none } : Table) = original := by
      have underived := sound.underived
      cases original
      cases underived
      rfl
    obtain ⟨policy, ruled⟩ : ∃ policy, model.authorization.get? name = some policy := by
      rw [← OrderedMap.mem_keys_iff, coherent.policies, ← coherent.sequence]
      exact OrderedMap.mem_keys_of_get? stands
    have told := Table.toldBy_derive sound.distinct (model.authorization.get? original.name)
    refine ⟨original.derive (model.authorization.get? original.name),
      original.jsonSchema (model.authorization.get? original.name), ?_, rfl, ?_, ?_, ?_, ?_⟩
    · rw [Table.withDerived, bare]
    · exact ⟨told.entries, told.defaults, told.properties, told.each, told.required,
        told.identifier⟩
    · rw [sound.name_eq, ruled]
      rfl
    · rfl
    · rw [stands]
      exact congrArg some bare.symm
  · simp [after, Model.derive, OrderedMap.keys, OrderedMap.map, Entries.keys, Function.comp_def]

namespace Bookstore

/-- Books with two identities, and with a text under a name that is reserved for the date of
creation. -/
def twiceIdentified : String := "!Book\n@ID\n$CreateDate 20\n~IDAuthor\n@Number\n"

def twiceIdentifiedColumns : List Column :=
  [⟨"ID", .identity, none, none, none, none⟩, ⟨"CreateDate", .string, some "20", none, none, none⟩,
   ⟨"IDAuthor", .foreignKey, none, none, none, none⟩, ⟨"Number", .identity, none, none, none, none⟩]

private theorem twiceIdentified_compileWithin :
    (compileWithin 0 volume twiceIdentified origin).map (fun compilation =>
      (compilation.model.tables.get? "Book").map Table.columns) =
        some (some twiceIdentifiedColumns) := by decide +kernel

end Bookstore

/-- The reserved name changes the tag of the text and not its default value, and the later identity
is the identifier. -/
theorem derived_schemas_tell_columns_bookstore :
    ∃ compilation table derived schema entry,
      (compileText Bookstore.volume Bookstore.twiceIdentified Bookstore.origin).result =
      .ok compilation ∧
      compilation.model.derive.tables.get? "Book" = some table ∧ table.derived = some derived ∧
      derived.jsonSchema = some schema ∧
      derived.defaults.keys = ["ID", "CreateDate", "IDAuthor", "Number"] ∧
      derived.entry? "CreateDate" = some entry ∧ entry.tag = .createDate ∧ entry.size = "20" ∧
      derived.defaults.get? "CreateDate" = some (.text "") ∧
      schema.required = ["ID", "IDAuthor", "Number"] ∧ derived.identifier = "Number" := by
  obtain ⟨compilation, finished, told⟩ :=
    Option.map_eq_some_iff.mp Bookstore.twiceIdentified_compileWithin
  have success := compileText_of_compileWithin finished
  obtain ⟨original, stands, columns⟩ := Option.map_eq_some_iff.mp told
  have found : compilation.model.derive.tables.get? "Book" =
      some (original.withDerived (compilation.model.authorization.get? original.name)) := by
    rw [Model.derive, OrderedMap.get?_map, stands]
    rfl
  have shown : (original.withDerived (compilation.model.authorization.get? original.name)).columns =
      Bookstore.twiceIdentifiedColumns := columns
  obtain ⟨derived, schema, held, fragment, tells, _⟩ :=
    (derived_schemas_tell_columns success).1 "Book" _ found
  obtain ⟨entry, property, listed, tagged, size, _, _, _, value⟩ :=
    tells.each ⟨"CreateDate", .string, some "20", none, none, none⟩ (by rw [shown]; decide)
  refine ⟨compilation, _, derived, schema, entry, success, found, held, fragment, ?_, listed,
    tagged.tracked .createDate rfl, size, value, ?_, ?_⟩
  · rw [tells.defaults, Table.columnNames, shown]
    rfl
  · rw [tells.required, shown]
    rfl
  · rw [tells.identifier, shown]
    rfl

end StanzaSchema
