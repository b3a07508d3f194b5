import StanzaSchema.Table
import StanzaSchema.Policy.Template
import StanzaSchema.View

/-!
The model of a schema text: its tables in the order of their first mention, with a policy and views
for each. Tables come into being on first reference and are never removed.
-/

namespace StanzaSchema

structure Model where
  tables : OrderedMap Table
  sequence : List String
  authorization : OrderedMap Policy
  endpoints : OrderedMap Bool
  views : OrderedMap ViewSet

/-- What declaring a column did. -/
inductive ColumnChange where
  | added
  | updated
deriving DecidableEq

namespace Model

def empty : Model := ⟨.empty, [], .empty, .empty, .empty⟩

instance : Inhabited Model := ⟨empty⟩

/-- Makes the table with the default policy and endpoints, unless it is there. Also tells whether it
was made. -/
def openTable (model : Model) (name domain : String) : Model × Bool :=
  if model.tables.contains name then (model, false)
  else
    ({ model with
       tables := model.tables.insert name (.ofName name domain)
       sequence := model.sequence ++ [name]
       authorization := model.authorization.insert name .template
       endpoints := defaultEndpoints }, true)

/-- Makes the default views of a table, unless they are there. Also tells whether they were made. -/
def openViews (model : Model) (name : String) : Model × Bool :=
  if model.views.contains name then (model, false)
  else ({ model with views := model.views.insert name .template }, true)

def setTable (model : Model) (name : String) (table : Table) : Model :=
  { model with tables := model.tables.insert name table }

/-- Adds the column, or changes the one of its name; nothing happens without the table. -/
def declareColumn (model : Model) (name : String) (column : Column) : Model × Option ColumnChange :=
  match model.tables.get? name with
  | none => (model, none)
  | some table =>
    match table.column? column.name with
    | some _ =>
      (model.setTable name (table.modifyColumn column.name fun existing =>
        existing.redeclare column), some .updated)
    | none => (model.setTable name (table.pushColumn column), some .added)

/-- Adds a line to a column's description; tells whether there is such a column. -/
def describeColumn (model : Model) (name column text : String) : Model × Bool :=
  match model.tables.get? name with
  | none => (model, false)
  | some table =>
    match table.column? column with
    | some _ =>
      (model.setTable name (table.modifyColumn column fun existing => existing.describe text), true)
    | none => (model, false)

/-- Adds a paragraph to a table's description; tells whether there is such a table. -/
def describeTable (model : Model) (name text : String) : Model × Bool :=
  match model.tables.get? name with
  | none => (model, false)
  | some table => (model.setTable name (table.describe text), true)

/-- Applies a rule to a table's policy, if there is one. -/
def authorize (model : Model) (name operation role : String) (authorizer : Authorizer) :
    Model × Option PolicyChange :=
  match model.authorization.get? name with
  | none => (model, none)
  | some policy =>
    let (policy, change) := policy.apply operation role authorizer
    ({ model with authorization := model.authorization.insert name policy }, some change)

def view? (model : Model) (name : String) (kind : ViewKind) : Option View :=
  (model.views.get? name).map fun views => views.view kind

/-- Replaces a view of a table that has views. -/
def setView (model : Model) (name : String) (kind : ViewKind) (view : View) : Model :=
  match model.views.get? name with
  | none => model
  | some views => { model with views := model.views.insert name (views.setView kind view) }

/-- The tables of the sequence, then those whose name is not in it. -/
def tablesInOrder (model : Model) : List Table :=
  model.sequence.filterMap model.tables.get? ++
    model.tables.values.filter fun table => !model.sequence.contains table.name

def tableCount (model : Model) : Nat := model.tables.size

def columnCount (model : Model) : Nat :=
  (model.tables.values.flatMap fun table => table.columns).length

/-- The table that each identity column belongs to; the last table wins. -/
def identityIndex (model : Model) : OrderedMap String :=
  .ofEntries (model.tables.values.flatMap fun table =>
    (table.columns.filter Column.isIdentity).map fun column => (column.name, table.name))

end Model

end StanzaSchema
