import StanzaSchema.Proofs.Coherence

/-!
Models built by any edits in any order. Whatever was done before, tables, sequence and policies stay
in step, and declaring a column tells truly what it did: a column more, the same columns, or nothing
for want of the table.
-/

namespace StanzaSchema

namespace Model

variable {model : Model} {name : String} {table : Table}

theorem columnCount_setTable (found : model.tables.get? name = some table) (changed : Table) :
    (model.setTable name changed).columnCount + table.columns.length =
      model.columnCount + changed.columns.length :=
  Entries.length_flatMap_put Table.columns changed found

/-- A table with the same columns as before leaves all column names as they were. -/
theorem columnNames_setTable (found : model.tables.get? name = some table) {changed : Table}
    (same : changed.columnNames = table.columnNames) :
    (model.setTable name changed).tables.map Table.columnNames =
      model.tables.map Table.columnNames := by
  rw [setTable, OrderedMap.map_insert, same]
  apply OrderedMap.insert_self
  rw [OrderedMap.get?_map, found, Option.map_some]

private theorem columnNames_redeclared (table : Table) (column : Column) :
    (table.modifyColumn column.name fun existing => existing.redeclare column).columnNames =
      table.columnNames :=
  Table.names_modifyFirst _ _ (fun existing => existing.redeclare_name column) _

/-- What declaring a column can come to: nothing without the table, the same columns as before with
a column of its name, and one more without. -/
theorem declareColumn_cases (model : Model) (name : String) (column : Column) :
    (name ∉ model.tables.keys ∧ model.declareColumn name column = (model, none)) ∨
    (name ∈ model.tables.keys ∧ (model.declareColumn name column).2 = some .updated ∧
      (model.declareColumn name column).1.columnCount = model.columnCount ∧
      (model.declareColumn name column).1.tables.map Table.columnNames =
        model.tables.map Table.columnNames) ∨
    (name ∈ model.tables.keys ∧ (model.declareColumn name column).2 = some .added ∧
      (model.declareColumn name column).1.columnCount = model.columnCount + 1) := by
  cases found : model.tables.get? name with
  | none =>
    refine .inl ⟨OrderedMap.get?_eq_none_iff.mp found, ?_⟩
    simp only [declareColumn, found]
  | some table =>
    have known := OrderedMap.mem_keys_of_get? found
    cases present : table.column? column.name with
    | some existing =>
      have names := columnNames_redeclared table column
      have counted := columnCount_setTable found
        (table.modifyColumn column.name fun existing => existing.redeclare column)
      have lengths := congrArg List.length names
      simp only [Table.columnNames, List.length_map] at lengths
      refine .inr (.inl ⟨known, ?_, ?_, ?_⟩)
      · simp only [declareColumn, found, present]
      · simp only [declareColumn, found, present]
        omega
      · simp only [declareColumn, found, present]
        exact columnNames_setTable found names
    | none =>
      have counted := columnCount_setTable found (table.pushColumn column)
      simp only [Table.pushColumn, List.length_append, List.length_singleton] at counted
      refine .inr (.inr ⟨known, ?_, ?_⟩)
      · simp only [declareColumn, found, present]
      · simp only [declareColumn, found, present, Table.pushColumn]
        omega

theorem Coherent.build (edits : List Edit) : (Model.build edits).Coherent := by
  have general (edits : List Edit) : ∀ {model : Model}, model.Coherent →
      (edits.foldl Model.edit model).Coherent := by
    induction edits with
    | nil => exact fun coherent => coherent
    | cons edit rest ih => exact fun coherent => ih (coherent.edit edit)
  exact general edits .empty

end Model

/-- After any edits, tables, sequence and policies have the same names in the same order, each once.
Every table is filed under its own name, has no column twice and nothing derived, and the endpoints
are all there as soon as there is a table. A column that is declared next is reported as added if
and only if there is one more column then, and as nothing if and only if there is no such table; in
all other cases it is reported as updated and all column names stay. -/
theorem built_model_in_step (edits : List Edit) :
    let model := Model.build edits
    model.tables.keys = model.sequence ∧ model.authorization.keys = model.sequence ∧
      model.sequence.Nodup ∧
    (∀ name table, model.tables.get? name = some table →
      table.name = name ∧ table.columnNames.Nodup ∧ table.derived = none) ∧
    model.endpoints = (if model.tables.keys = [] then .empty else defaultEndpoints) ∧
    ∀ name column,
      let (after, change) := model.declareColumn name column
      (change = some .added ↔ after.columnCount = model.columnCount + 1) ∧
      (change = none ↔ name ∉ model.tables.keys) ∧
      (change = none → after = model) ∧
      (change = some .updated ↔
        name ∈ model.tables.keys ∧ after.columnCount ≠ model.columnCount + 1) ∧
      (change = some .updated →
        after.tables.map Table.columnNames = model.tables.map Table.columnNames) := by
  intro model
  have coherent : model.Coherent := .build edits
  refine ⟨coherent.sequence, coherent.policies, coherent.sequence ▸ model.tables.distinct,
    ?_, ?_, ?_⟩
  · intro name table found
    have sound := coherent.tables found
    exact ⟨sound.name_eq, sound.distinct, sound.underived⟩
  · rw [coherent.sequence]
    exact coherent.endpoints
  · intro name column
    rcases model.declareColumn_cases name column with ⟨unknown, nothing⟩ |
      ⟨known, told, counted, names⟩ |
      ⟨known, told, counted⟩
    · simp [nothing, unknown]
    · simp [known, told, counted, names]
    · simp [known, told, counted]

end StanzaSchema
