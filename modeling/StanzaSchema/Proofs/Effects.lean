import StanzaSchema.Proofs.Coherence

/-!
What a request does to one table, one policy and the views of one table. Each of them sees only the
requests about its own name, and comes into being with the first one that opens it.
-/

namespace StanzaSchema

/-- What a request does to the table of this name. -/
def Table.follow (name : String) (table : Table) : Request → Table
  | .declare scope declaration =>
    if scope = name then table.declare (declaration.column scope) else table
  | .describeColumn scope column text =>
    if scope = name then table.modifyColumn column fun existing => existing.describe text else table
  | .describeTable scope text => if scope = name then table.describe text else table
  | _ => table

/-- What a request does to the policy of the table of this name. -/
def Policy.follow (name : String) (policy : Policy) : Request → Policy
  | .authorize scope operation role authorizer =>
    if scope = name then (policy.apply operation role authorizer).1 else policy
  | _ => policy

/-- What a request does to the views of the table of this name. -/
def ViewSet.follow (name : String) (views : ViewSet) : Request → ViewSet
  | .changeView scope kind line =>
    if scope = name then
      match (views.view kind).readLine line with
      | .ok view => views.setView kind view
      | .error _ => views
    else views
  | _ => views

/-- The table that a request makes under this name, unless there is one. -/
def Request.table? (name : String) : Request → Option Table
  | .openTable _ opened domain => if opened = name then some (.ofName name domain) else none
  | _ => none

def Request.opensViews (name : String) : Request → Bool
  | .openViews _ opened => opened == name
  | _ => false

namespace Model

variable {model : Model}

section Frames

variable (model)

@[simp] theorem views_openTable (name domain : String) :
    (model.openTable name domain).1.views = model.views := by
  unfold openTable
  split <;> rfl

@[simp] theorem tables_openViews (name : String) :
    (model.openViews name).1.tables = model.tables := by
  unfold openViews
  split <;> rfl

@[simp] theorem authorization_openViews (name : String) :
    (model.openViews name).1.authorization = model.authorization := by
  unfold openViews
  split <;> rfl

end Frames

theorem table_openTable (opened name domain : String) :
    (model.openTable opened domain).1.tables.get? name =
      (model.tables.get? name).or
      (if opened = name then some (.ofName opened domain) else none) := by
  unfold openTable
  split
  next present => exact OrderedMap.get?_of_contains present ..
  next absent => exact OrderedMap.get?_insert_of_not_contains absent ..

/-- A table after a request: what the request does to it, or what the request makes of nothing. -/
theorem table_follow (name : String) (request : Request) :
    (model.follow request).tables.get? name =
      ((model.tables.get? name).map fun table =>
        table.follow name request).or (request.table? name) := by
  cases request with
  | openTable stanza opened domain =>
    simp only [follow, table_openTable, Table.follow, Request.table?]
    by_cases same : opened = name <;> simp [same]
  | openViews kind opened => simp [follow, Table.follow, Request.table?]
  | declare scope declaration =>
    simp [follow, declareColumn_eq, OrderedMap.get?_modify, Table.follow, Request.table?]
  | describeColumn scope column text =>
    simp [follow, describeColumn_eq, OrderedMap.get?_modify, Table.follow, Request.table?]
  | describeTable scope text =>
    simp [follow, describeTable_eq, OrderedMap.get?_modify, Table.follow, Request.table?]
  | authorize scope operation role authorizer =>
    simp [follow, authorize_eq, Table.follow, Request.table?]
  | changeView scope kind line => simp [follow, changeView_eq, Table.follow, Request.table?]
  | _ => simp [follow, Table.follow, Request.table?]

private theorem policy_openTable (coherent : model.Coherent) (opened name domain : String) :
    (model.openTable opened domain).1.authorization.get? name =
      (model.authorization.get? name).or (if opened = name then some .template else none) := by
  have together : model.tables.contains opened = model.authorization.contains opened := by
    apply Bool.eq_iff_iff.mpr
    rw [OrderedMap.contains_iff, OrderedMap.contains_iff, coherent.sequence, coherent.policies]
  unfold openTable
  rw [together]
  split
  next present => exact OrderedMap.get?_of_contains present ..
  next absent => exact OrderedMap.get?_insert_of_not_contains absent ..

/-- A policy after a request. It is made together with its table. -/
theorem policy_follow (coherent : model.Coherent) (name : String) (request : Request) :
    (model.follow request).authorization.get? name =
      ((model.authorization.get? name).map fun policy => policy.follow name request).or
        ((request.table? name).map fun _ => .template) := by
  cases request with
  | openTable stanza opened domain =>
    simp only [follow, policy_openTable coherent, Policy.follow, Request.table?]
    by_cases same : opened = name <;> simp [same]
  | openViews kind opened => simp [follow, Policy.follow, Request.table?]
  | declare scope declaration => simp [follow, declareColumn_eq, Policy.follow, Request.table?]
  | describeColumn scope column text =>
    simp [follow, describeColumn_eq, Policy.follow, Request.table?]
  | describeTable scope text => simp [follow, describeTable_eq, Policy.follow, Request.table?]
  | authorize scope operation role authorizer =>
    simp [follow, authorize_eq, OrderedMap.get?_modify, Policy.follow, Request.table?]
  | changeView scope kind line => simp [follow, changeView_eq, Policy.follow, Request.table?]
  | _ => simp [follow, Policy.follow, Request.table?]

theorem views_openViews (opened name : String) :
    (model.openViews opened).1.views.get? name =
      (model.views.get? name).or (if opened = name then some .template else none) := by
  unfold openViews
  split
  next present => exact OrderedMap.get?_of_contains present ..
  next absent => exact OrderedMap.get?_insert_of_not_contains absent ..

/-- The views of a table after a request. -/
theorem views_follow (name : String) (request : Request) :
    (model.follow request).views.get? name =
      ((model.views.get? name).map fun views => views.follow name request).or
        (if request.opensViews name then some .template else none) := by
  cases request with
  | openTable stanza opened domain => simp [follow, ViewSet.follow, Request.opensViews]
  | openViews kind opened =>
    simp only [follow, views_openViews, ViewSet.follow, Request.opensViews]
    by_cases same : opened = name <;> simp [same]
  | declare scope declaration => simp [follow, declareColumn_eq, ViewSet.follow, Request.opensViews]
  | describeColumn scope column text =>
    simp [follow, describeColumn_eq, ViewSet.follow, Request.opensViews]
  | describeTable scope text => simp [follow, describeTable_eq, ViewSet.follow, Request.opensViews]
  | authorize scope operation role authorizer =>
    simp [follow, authorize_eq, ViewSet.follow, Request.opensViews]
  | changeView scope kind line =>
    simp only [follow, changeView_eq, OrderedMap.get?_modify, Request.opensViews,
      Bool.false_eq_true, ↓reduceIte, Option.or_none]
    rfl
  | _ => simp [follow, ViewSet.follow, Request.opensViews]

end Model

end StanzaSchema
