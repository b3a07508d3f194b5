import StanzaSchema.Column.DataType

/-!
Change tracking. Seven column names are reserved: a column of such a name records who changed a row
and when, whatever its data type.
-/

namespace StanzaSchema

inductive Tracking where
  | createDate
  | creatingUser
  | updateDate
  | updatingUser
  | deleteDate
  | deletingUser
  | deleted
deriving DecidableEq, Repr

namespace Tracking

def all : List Tracking :=
  [.createDate, .creatingUser, .updateDate, .updatingUser, .deleteDate, .deletingUser, .deleted]

def columnName : Tracking → String
  | .createDate => "CreateDate"
  | .creatingUser => "CreatingIDUser"
  | .updateDate => "UpdateDate"
  | .updatingUser => "UpdatingIDUser"
  | .deleteDate => "DeleteDate"
  | .deletingUser => "DeletingIDUser"
  | .deleted => "Deleted"

def ofColumnName? (name : String) : Option Tracking := all.find? fun role => role.columnName == name

def tag : Tracking → SchemaTag
  | .createDate => .createDate
  | .creatingUser => .createUser
  | .updateDate => .updateDate
  | .updatingUser => .updateUser
  | .deleteDate => .deleteDate
  | .deletingUser => .deleteUser
  | .deleted => .deleted

end Tracking

end StanzaSchema
