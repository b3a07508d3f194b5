import StanzaSchema.OrderedMap

/-!
Authorization policies: for each role, which rule decides each operation. The roles of a policy are
fixed when it is made; a wildcard rule reaches all of them but the fallback.
-/

namespace StanzaSchema

/-- The rule that decides whether a role may perform an operation. -/
inductive Authorizer where
  | allow
  | deny
  | mine
  | myCustomer
  | custom (token : String)
deriving DecidableEq

namespace Authorizer

def token : Authorizer → String
  | .allow => "Allow"
  | .deny => "Deny"
  | .mine => "Mine"
  | .myCustomer => "MyCustomer"
  | .custom token => token

def ofToken (token : String) : Authorizer :=
  if token = "Allow" then .allow
  else if token = "Deny" then .deny
  else if token = "Mine" then .mine
  else if token = "MyCustomer" then .myCustomer
  else .custom token

@[simp] theorem token_ofToken (token : String) : (ofToken token).token = token := by
  unfold ofToken
  split
  next same => simp [Authorizer.token, same]
  next =>
    split
    next same => simp [Authorizer.token, same]
    next =>
      split
      next same => simp [Authorizer.token, same]
      next =>
        split
        next same => simp [Authorizer.token, same]
        next => rfl

end Authorizer

/-- The operations of one role. -/
abbrev Operations := OrderedMap Authorizer

/-- What applying a rule did to a policy. -/
inductive PolicyChange where
  | role (previous : Option Authorizer)
  | broadcast (roles : Nat)
  | unknownRole
deriving DecidableEq

structure Policy where
  roles : OrderedMap Operations
deriving DecidableEq

namespace Policy

/-- The role that stands for a request without one; wildcards leave it alone. -/
def fallbackRole : String := "__DefaultAPISecurity"

def wildcard : String := "*"

def empty : Policy := ⟨.empty⟩

def insertRole (policy : Policy) (role : String) (operations : Operations) : Policy :=
  ⟨policy.roles.insert role operations⟩

def operations? (policy : Policy) (role : String) : Option Operations := policy.roles.get? role

def authorizer? (policy : Policy) (role operation : String) : Option Authorizer :=
  (policy.operations? role).bind fun operations => operations.get? operation

def hasRole (policy : Policy) (role : String) : Bool := policy.roles.contains role

def roleNames (policy : Policy) : List String := policy.roles.keys

/-- Sets an operation of every role but the fallback. -/
def broadcast (policy : Policy) (operation : String) (authorizer : Authorizer) : Policy :=
  ⟨{ entries := policy.roles.entries.map fun entry =>
       if entry.1 = fallbackRole then entry else (entry.1, entry.2.insert operation authorizer)
     distinct := by
       have same : Entries.keys (policy.roles.entries.map fun entry =>
           if entry.1 = fallbackRole then entry
           else (entry.1, entry.2.insert operation authorizer)) =
           policy.roles.keys := by
         simp only [Entries.keys, OrderedMap.keys, List.map_map]
         apply List.map_congr_left
         intro entry _
         by_cases fallback : entry.1 = fallbackRole <;> simp [fallback]
       rw [same]
       exact policy.roles.distinct }⟩

/-- Sets an operation of one role, or of all with the wildcard. -/
def apply (policy : Policy) (operation role : String) (authorizer : Authorizer) :
    Policy × PolicyChange :=
  if role = wildcard then
    (policy.broadcast operation authorizer,
     .broadcast (policy.roleNames.filter fun name => name != fallbackRole).length)
  else
    match policy.operations? role with
    | some operations =>
      (policy.insertRole role (operations.insert operation authorizer),
       .role (operations.get? operation))
    | none => (policy, .unknownRole)

end Policy

end StanzaSchema
