import StanzaSchema.Column.Tracking

/-!
Columns of a table. A later declaration of a column replaces its type and size, and its joins where
it gives new ones; descriptions accumulate.
-/

namespace StanzaSchema

structure Column where
  name : String
  type : DataType
  size : Option String
  /-- Column that this one refers to. -/
  join : Option String
  /-- Table that this column joins. -/
  tableJoin : Option String
  description : Option String
deriving DecidableEq

namespace Column

/-- A column with the default size of its type. -/
def ofType (name : String) (type : DataType) : Column :=
  { name, type, size := type.defaultSize?, join := none, tableJoin := none, description := none }

def isIdentity (column : Column) : Bool := column.type == .identity

def tracking? (column : Column) : Option Tracking := Tracking.ofColumnName? column.name

/-- The tracking tag of a reserved name, and the type's tag otherwise. -/
def tag (column : Column) : SchemaTag :=
  match column.tracking? with
  | some role => role.tag
  | none => column.type.tag

/-- Adds a line to the description. An empty text adds nothing. -/
def describe (column : Column) (text : String) : Column :=
  if text = "" then column
  else
    match column.description with
    | some (existing : String) =>
      if existing = "" then { column with description := some text }
      else { column with description := some (existing ++ "\n" ++ text) }
    | none => { column with description := some text }

/-- The column after another declaration of it. -/
def redeclare (column new : Column) : Column :=
  { column with
    type := new.type
    size := new.size
    join := new.join.or column.join
    tableJoin := new.tableJoin.or column.tableJoin }

@[simp] theorem describe_name (column : Column) (text : String) :
    (column.describe text).name = column.name := by
  unfold describe
  split
  · rfl
  · split
    · split <;> rfl
    · rfl

@[simp] theorem redeclare_name (column new : Column) :
    (column.redeclare new).name = column.name := rfl

end Column

end StanzaSchema
