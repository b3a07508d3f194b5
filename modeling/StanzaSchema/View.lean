import StanzaSchema.OrderedMap
import StanzaSchema.Json.Text

/-!
Views of a table in a user interface: one for each way of showing its records. A view has a title,
columns and free properties; three property names are set apart because they stand for its own
fields.
-/

namespace StanzaSchema

inductive ViewKind where
  | create
  | record
  | update
  | list
  | delete
deriving DecidableEq, Repr

namespace ViewKind

def all : List ViewKind := [.create, .record, .update, .list, .delete]

def name : ViewKind → String
  | .create => "Create"
  | .record => "Record"
  | .update => "Update"
  | .list => "List"
  | .delete => "Delete"

def ofName? (name : String) : Option ViewKind := all.find? fun kind => kind.name == name

end ViewKind

structure ViewColumn where
  name : String
  kind : Option String
  attributes : OrderedMap String
deriving DecidableEq

namespace ViewColumn

def headingKind : String := "SectionHeading"

def ofName (name : String) : ViewColumn := ⟨name, none, .empty⟩

/-- A heading above the columns that follow it. -/
def heading (text : String) : ViewColumn := ⟨text, some headingKind, .empty⟩

def isHeading (column : ViewColumn) : Bool := column.kind == some headingKind

/-- The column of a value-set line: its name is the attribute `Column`, or else the line's head. -/
def ofAttributes (head : String) (attributes : OrderedMap String) : ViewColumn :=
  let rest := attributes.erase "Column"
  ⟨(attributes.get? "Column").getD head, rest.get? "Type", rest.erase "Type"⟩

end ViewColumn

/-- Why a property cannot be set on a view. -/
inductive PropertyRejection where
  | enabledNotBoolean
  | columnsNotAssignable
deriving DecidableEq

def PropertyRejection.message : PropertyRejection → String
  | .enabledNotBoolean => "Enabled must be true or false"
  | .columnsNotAssignable => "Columns cannot be assigned"

structure View where
  enabled : Bool
  columns : List ViewColumn
  title : String
  properties : OrderedMap Json

namespace View

def ofTitle (title : String) : View := ⟨true, [], title, .empty⟩

/-- Adds a property whatever its name. -/
def withProperty (view : View) (name : String) (value : Json) : View :=
  { view with properties := view.properties.insert name value }

/-- Sets a property, or the field that its name stands for. A title that is no string becomes its
JSON text. -/
def setProperty (view : View) (name : String) (value : Json) : Except PropertyRejection View :=
  if name = "Enabled" then
    match value with
    | .boolean enabled => .ok { view with enabled }
    | _ => .error .enabledNotBoolean
  else if name = "Title" then
    match value with
    | .text title => .ok { view with title }
    | other => .ok { view with title := other.compact }
  else if name = "Columns" then .error .columnsNotAssignable
  else .ok (view.withProperty name value)

def property? (view : View) (name : String) : Option Json := view.properties.get? name

def pushColumn (view : View) (column : ViewColumn) : View :=
  { view with columns := view.columns ++ [column] }

end View

structure ViewSet where
  create : View
  record : View
  update : View
  list : View
  delete : View

namespace ViewSet

def view (views : ViewSet) : ViewKind → View
  | .create => views.create
  | .record => views.record
  | .update => views.update
  | .list => views.list
  | .delete => views.delete

def setView (views : ViewSet) (kind : ViewKind) (view : View) : ViewSet :=
  match kind with
  | .create => { views with create := view }
  | .record => { views with record := view }
  | .update => { views with update := view }
  | .list => { views with list := view }
  | .delete => { views with delete := view }

/-- The views that every table starts with. -/
def template : ViewSet where
  create := .ofTitle "Create a <%= EntityName %>"
  record := .ofTitle "Read a <%= EntityName %>"
  update := .ofTitle "Update a <%= EntityName %>"
  list := (View.ofTitle "<%= EntityName %>s").withProperty "RowMenu" (.boolean true)
  delete :=
    (((View.ofTitle "Delete a <%= EntityName %>").withProperty "Validation"
      (.boolean true)).withProperty
    "DisplayRecord" (.boolean true)).withProperty "ConfirmationMessage"
    (.text "Are you sure you want to delete this record with ID XXXXX?")

@[simp] theorem view_setView (views : ViewSet) (kind other : ViewKind) (view : View) :
    (views.setView kind view).view other = if kind = other then view else views.view other := by
  cases kind <;> cases other <;> rfl

end ViewSet

end StanzaSchema
