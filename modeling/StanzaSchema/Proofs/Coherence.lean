import StanzaSchema.Proofs.Changes
import StanzaSchema.Proofs.Transcript

/-!
What holds of every model that is built step by step: tables, sequence and policies go together,
tables carry the name that they are filed under, and no column stands twice.
-/

namespace StanzaSchema

namespace Table

/-- A table under its name, each column once and nothing derived yet. -/
structure Sound (name : String) (table : Table) : Prop where
  name_eq : table.name = name
  distinct : table.columnNames.Nodup
  underived : table.derived = none

namespace Sound

variable {name : String} {table : Table}

theorem ofName (name domain : String) : Sound name (.ofName name domain) := ⟨rfl, .nil, rfl⟩

theorem modifyColumn (sound : Sound name table) (column : String) {change : Column → Column}
    (kept : ∀ column, (change column).name = column.name) :
    Sound name (table.modifyColumn column change) where
  name_eq := sound.name_eq
  distinct := by
    rw [columnNames, Table.modifyColumn, names_modifyFirst column change kept]
    exact sound.distinct
  underived := sound.underived

theorem pushColumn (sound : Sound name table) {column : Column}
    (new : table.column? column.name = none) :
    Sound name (table.pushColumn column) where
  name_eq := sound.name_eq
  distinct := by
    have absent := column?_eq_none_iff.mp new
    simp only [columnNames, Table.pushColumn, List.map_append, List.map_cons, List.map_nil]
    rw [List.nodup_append]
    refine ⟨sound.distinct, by simp, ?_⟩
    intro first member second last same
    rw [same, List.mem_singleton.mp last] at member
    exact absent member
  underived := sound.underived

theorem declare (sound : Sound name table) (column : Column) :
    Sound name (table.declare column) := by
  unfold Table.declare
  split
  · exact sound.modifyColumn column.name fun existing => existing.redeclare_name column
  next new => exact sound.pushColumn new

theorem describe (sound : Sound name table) (text : String) : Sound name (table.describe text) :=
  ⟨sound.name_eq, sound.distinct, sound.underived⟩

end Sound

end Table

/-- Tables, sequence and policies go together. -/
structure Model.Coherent (model : Model) : Prop where
  sequence : model.tables.keys = model.sequence
  policies : model.authorization.keys = model.sequence
  tables : ∀ {name table}, model.tables.get? name = some table → table.Sound name
  endpoints : model.endpoints = if model.sequence = [] then .empty else defaultEndpoints

namespace Model.Coherent

variable {model : Model} {name : String}

theorem empty : Coherent .empty := by
  refine ⟨rfl, rfl, ?_, rfl⟩
  intro name table found
  cases found

theorem openTable (coherent : Coherent model) (name domain : String) :
    Coherent (model.openTable name domain).1 := by
  unfold Model.openTable
  split
  · exact coherent
  next new =>
    have absent : name ∉ model.tables.keys := fun member => new (OrderedMap.contains_iff.mpr member)
    have unruled : name ∉ model.authorization.keys := by
      rwa [coherent.policies, ← coherent.sequence]
    constructor
    · simp only [OrderedMap.keys_insert_of_not_mem absent, coherent.sequence]
    · simp only [OrderedMap.keys_insert_of_not_mem unruled, coherent.policies]
    · intro other table found
      rw [OrderedMap.get?_insert] at found
      split at found
      next same =>
        cases found
        exact same ▸ .ofName name domain
      next => exact coherent.tables found
    · simp

theorem modifyTable (coherent : Coherent model) (name : String) {change : Table → Table}
    (kept : ∀ {table}, table.Sound name → (change table).Sound name) :
    Coherent { model with tables := model.tables.modify name change } where
  sequence := (OrderedMap.keys_modify ..).trans coherent.sequence
  policies := coherent.policies
  tables := by
    intro other table found
    rw [OrderedMap.get?_modify] at found
    obtain ⟨old, old_found, changed⟩ := Option.map_eq_some_iff.mp found
    have sound := coherent.tables old_found
    split at changed
    next same =>
      subst same
      exact changed ▸ kept sound
    next => exact changed ▸ sound
  endpoints := coherent.endpoints

private theorem modifyPolicy (coherent : Coherent model) (name : String)
    (change : Policy → Policy) :
    Coherent { model with authorization := model.authorization.modify name change } :=
  ⟨coherent.sequence, (OrderedMap.keys_modify ..).trans coherent.policies, coherent.tables,
   coherent.endpoints⟩

private theorem withViews (coherent : Coherent model) (views : OrderedMap ViewSet) :
    Coherent { model with views } :=
  ⟨coherent.sequence, coherent.policies, coherent.tables, coherent.endpoints⟩

theorem openViews (coherent : Coherent model) (name : String) :
    Coherent (model.openViews name).1 := by
  unfold Model.openViews
  split
  · exact coherent
  · exact coherent.withViews _

/-- No edit breaks the coherence of a model. -/
theorem edit (coherent : Coherent model) (edit : Edit) : Coherent (model.edit edit) := by
  cases edit with
  | openTable name domain => exact coherent.openTable name domain
  | openViews name => exact coherent.openViews name
  | declareColumn table column =>
    rw [Model.edit, model.declareColumn_eq]
    exact coherent.modifyTable table fun sound => sound.declare column
  | describeColumn table column text =>
    rw [Model.edit, model.describeColumn_eq]
    exact coherent.modifyTable table fun sound =>
      sound.modifyColumn column fun existing => existing.describe_name text
  | describeTable table text =>
    rw [Model.edit, model.describeTable_eq]
    exact coherent.modifyTable table fun sound => sound.describe text
  | authorize table operation role authorizer =>
    rw [Model.edit, model.authorize_eq]
    exact coherent.modifyPolicy table _
  | changeView table kind change =>
    simp only [Model.edit, Model.setView]
    split
    · split
      · exact coherent
      · exact coherent.withViews _
    · exact coherent

theorem follow (coherent : Coherent model) (request : Request) :
    Coherent (model.follow request) := by
  rw [model.follow_eq_edit]
  cases request.edit? with
  | none => exact coherent
  | some edit => exact coherent.edit edit

end Model.Coherent

theorem Progress.coherent_readAll (lines : List Line) :
    (Progress.start.readAll lines).model.Coherent := by
  have step (progress : Progress) (line : Line) (coherent : progress.model.Coherent) :
      (progress.follow (.ofLine progress.position line)).model.Coherent := coherent.follow _
  exact readAll_induction step Model.Coherent.empty lines

end StanzaSchema
