import StanzaSchema.Proofs.Routing

/-!
What each operation makes of a model, as one change under one name. A name that is not there is
passed over, and the rest of the model stays as it is.
-/

namespace StanzaSchema

namespace Table

theorem names_modifyFirst (name : String) (change : Column → Column)
    (kept : ∀ column, (change column).name = column.name) (columns : List Column) :
    (modifyFirst name change columns).map Column.name = columns.map Column.name := by
  induction columns with
  | nil => rfl
  | cons column rest ih => by_cases same : column.name = name <;> simp [modifyFirst, same, kept, ih]

private theorem modifyFirst_absent {name : String} {change : Column → Column}
    {columns : List Column} (absent : name ∉ columns.map Column.name) :
    modifyFirst name change columns = columns := by
  induction columns with
  | nil => rfl
  | cons column rest ih =>
    simp only [List.map_cons, List.mem_cons, not_or] at absent
    simp only [modifyFirst, Ne.symm absent.1, ↓reduceIte]
    rw [ih absent.2]

theorem column?_eq_none_iff {table : Table} {name : String} : table.column? name = none ↔
    name ∉ table.columnNames := by
  simp only [column?, columnNames, List.find?_eq_none, List.mem_map, beq_iff_eq,
    not_exists, not_and]

private theorem modifyColumn_absent {table : Table} {name : String} {change : Column → Column}
    (absent : table.column? name = none) : table.modifyColumn name change = table := by
  have kept : modifyFirst name change table.columns = table.columns :=
    modifyFirst_absent (column?_eq_none_iff.mp absent)
  cases table
  simp only [modifyColumn, kept]

/-- Adds a column, or declares again the one of its name. -/
def declare (table : Table) (column : Column) : Table :=
  match table.column? column.name with
  | some _ => table.modifyColumn column.name fun existing => existing.redeclare column
  | none => table.pushColumn column

end Table

namespace Model

variable (model : Model)

theorem declareColumn_eq (scope : String) (column : Column) :
    (model.declareColumn scope column).1 =
      { model with tables := model.tables.modify scope fun table => table.declare column } := by
  cases found : model.tables.get? scope with
  | none => simp only [declareColumn, OrderedMap.modify, found]
  | some table =>
    simp only [declareColumn, OrderedMap.modify, found, Table.declare]
    cases table.column? column.name <;> rfl

theorem describeColumn_eq (scope column text : String) :
    (model.describeColumn scope column text).1 =
      { model with tables := model.tables.modify scope fun table =>
          table.modifyColumn column fun existing => existing.describe text } := by
  cases found : model.tables.get? scope with
  | none => simp only [describeColumn, OrderedMap.modify, found]
  | some table =>
    simp only [describeColumn, OrderedMap.modify, found]
    split
    · rfl
    next missing => rw [Table.modifyColumn_absent missing, OrderedMap.insert_self found]

theorem describeTable_eq (scope text : String) :
    (model.describeTable scope text).1 =
      { model with tables := model.tables.modify scope fun table => table.describe text } := by
  cases found : model.tables.get? scope <;> simp only [describeTable, OrderedMap.modify,
    found, setTable]

theorem authorize_eq (scope operation role : String) (authorizer : Authorizer) :
    (model.authorize scope operation role authorizer).1 =
      { model with authorization := model.authorization.modify scope fun policy =>
          (policy.apply operation role authorizer).1 } := by
  cases found : model.authorization.get? scope <;> simp only [authorize, OrderedMap.modify, found]

theorem changeView_eq (scope : String) (kind : ViewKind) (line : Line) :
    model.changeView scope kind line =
      { model with views := model.views.modify scope fun views =>
          match (views.view kind).readLine line with
          | .ok view => views.setView kind view
          | .error _ => views } := by
  cases found : model.views.get? scope with
  | none => simp only [changeView, view?, OrderedMap.modify, found, Option.map_none]
  | some views =>
    simp only [changeView, view?, OrderedMap.modify, found, Option.map_some]
    cases View.readLine line (views.view kind) with
    | ok view => simp only [setView, found]
    | error kind => simp only [OrderedMap.insert_self found]

end Model

/-- A step in the building of a model. The views of a table may be changed at will. -/
inductive Edit where
  | openTable (name domain : String)
  | openViews (name : String)
  | declareColumn (table : String) (column : Column)
  | describeColumn (table column text : String)
  | describeTable (table text : String)
  | authorize (table operation role : String) (authorizer : Authorizer)
  | changeView (table : String) (kind : ViewKind) (change : View → View)

namespace Model

def edit (model : Model) : Edit → Model
  | .openTable name domain => (model.openTable name domain).1
  | .openViews name => (model.openViews name).1
  | .declareColumn table column => (model.declareColumn table column).1
  | .describeColumn table column text => (model.describeColumn table column text).1
  | .describeTable table text => (model.describeTable table text).1
  | .authorize table operation role authorizer =>
    (model.authorize table operation role authorizer).1
  | .changeView table kind change =>
    match model.view? table kind with
    | some view => model.setView table kind (change view)
    | none => model

/-- The model that edits make out of nothing. -/
def build (edits : List Edit) : Model := edits.foldl edit .empty

end Model

/-- The edit that a request comes to. -/
def Request.edit? : Request → Option Edit
  | .openTable _ name domain => some (.openTable name domain)
  | .openViews _ name => some (.openViews name)
  | .declare scope declaration => some (.declareColumn scope (declaration.column scope))
  | .describeColumn scope column text => some (.describeColumn scope column text)
  | .describeTable scope text => some (.describeTable scope text)
  | .authorize scope operation role authorizer => some (.authorize scope operation role authorizer)
  | .changeView scope kind line =>
    some (.changeView scope kind fun view => (view.readLine line).toOption.getD view)
  | _ => none

namespace Model

private theorem setView_self {model : Model} {name : String} {kind : ViewKind} {view : View}
    (found : model.view? name kind = some view) : model.setView name kind view = model := by
  obtain ⟨views, held, rfl⟩ := Option.map_eq_some_iff.mp found
  have same : views.setView kind (views.view kind) = views := by cases kind <;> rfl
  simp only [setView, held, same, OrderedMap.insert_self held]

/-- A request does to the model what its edit does, and nothing without one. -/
theorem follow_eq_edit (model : Model) (request : Request) :
    model.follow request = (request.edit?.map model.edit).getD model := by
  cases request with
  | changeView scope kind line =>
    simp only [follow, Request.edit?, Option.map_some, Option.getD_some, changeView, edit]
    cases found : model.view? scope kind with
    | none => rfl
    | some view =>
      simp only
      cases view.readLine line with
      | ok changed => rfl
      | error kind => exact (setView_self found).symm
  | _ => rfl

end Model

end StanzaSchema
