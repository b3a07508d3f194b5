import StanzaSchema.Policy.Basic

/-!
The policy and endpoints that every table starts with: seven roles and the fallback, each with a
preset for the thirteen operations of an endpoint.
-/

namespace StanzaSchema

/-- The operations of an endpoint, in the order in which they are listed. -/
def endpointOperations : List String :=
  ["Create", "Read", "Reads", "ReadsBy", "ReadMax", "ReadSelectList", "Update", "Delete", "Count",
   "CountBy", "Schema", "Validate", "New"]

/-- All operations are exposed. -/
def defaultEndpoints : OrderedMap Bool :=
  .ofEntries (endpointOperations.map fun operation => (operation, true))

namespace Policy

def templateRoles : List String :=
  ["Unauthenticated", "Readonly", "User", "Manager", "Director", "Executive", "Administrator"]

/-- How a role of the template decides an operation. -/
inductive Preset where
  | denyAll
  | allowAll
  | readonly
  | customer
  | customerMine
deriving DecidableEq

namespace Preset

def ofRole (role : String) : Preset :=
  if role = "Readonly" then .readonly
  else if role = "User" ∨ role = "Manager" then .customerMine
  else if role = "Director" ∨ role = "Executive" then .customer
  else if role = "Administrator" then .allowAll
  else .denyAll

def authorizer : Preset → String → Authorizer
  | .denyAll, _ => .deny
  | .allowAll, _ => .allow
  | .readonly, operation =>
    if operation ∈ ["Create", "Update", "Delete", "New"] then .deny else .allow
  | .customer, operation => if operation = "Create" then .allow else .myCustomer
  | .customerMine, operation =>
    if operation = "Create" then .allow
    else if operation ∈ ["Update", "Delete"] then .mine
    else .myCustomer

def operations (preset : Preset) : Operations :=
  .ofEntries (endpointOperations.map fun operation => (operation, preset.authorizer operation))

end Preset

/-- The policy of a new table. -/
def template : Policy :=
  (fallbackRole :: templateRoles).foldl
    (fun policy role => policy.insertRole role (Preset.ofRole role).operations) .empty

end Policy

end StanzaSchema
