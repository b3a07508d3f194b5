import StanzaSchema.Proofs.Bounded
import StanzaSchema.Proofs.Stanzas

/-!
Who may do what after a run. Rules come in any order, for one role or for all, in stanzas that are
opened again and go on in other files; for each role and operation the last rule that governs it
decides, and the preset where there is none.
-/

namespace StanzaSchema

/-- A rule of an authorization stanza. -/
structure Rule where
  operation : String
  role : String
  authorizer : Authorizer
deriving DecidableEq

/-- The rule on a line, which takes three tokens. -/
def Line.rule? (line : Line) : Option Rule :=
  match line.tokens with
  | operation :: role :: authorizer :: _ => some ⟨operation, role, .ofToken authorizer⟩
  | _ => none

/-- The rule of a line that stands in an authorization stanza of this table. -/
def RoutedLine.ruleFor? (table : String) (routed : RoutedLine) : Option Rule :=
  if routed.position.stanza = .authorization ∧ routed.position.scope = some table then
    routed.line.rule?
  else none

/-- Whether a rule is about this role and operation. The wildcard stands for every role but the
fallback. -/
def Rule.governs (role operation : String) (rule : Rule) : Bool :=
  rule.operation = operation ∧
    (rule.role = role ∨ rule.role = Policy.wildcard ∧ role ≠ Policy.fallbackRole)

namespace Policy

/-- What a role of the template starts with for an operation. -/
def preset? (role operation : String) : Option Authorizer :=
  if operation ∈ endpointOperations then some ((Preset.ofRole role).authorizer operation) else none

def applyRule (policy : Policy) (rule : Rule) : Policy :=
  (policy.apply rule.operation rule.role rule.authorizer).1

private theorem roleNames_broadcast (policy : Policy) (operation : String)
    (authorizer : Authorizer) :
    (policy.broadcast operation authorizer).roleNames = policy.roleNames := by
  simp only [roleNames, broadcast, OrderedMap.keys, Entries.keys, List.map_map]
  apply List.map_congr_left
  intro entry _
  by_cases fallback : entry.1 = fallbackRole <;> simp [fallback]

/-- No rule makes or removes a role. -/
theorem roleNames_applyRule (policy : Policy) (rule : Rule) :
    (policy.applyRule rule).roleNames = policy.roleNames := by
  unfold applyRule apply
  split
  · exact roleNames_broadcast ..
  · split
    next operations found =>
      exact OrderedMap.keys_insert_of_mem (OrderedMap.mem_keys_of_get? found) _
    · rfl

theorem operations?_broadcast (policy : Policy) (operation role : String)
    (authorizer : Authorizer) :
    (policy.broadcast operation authorizer).operations? role =
      (policy.operations? role).map fun operations =>
        if role = fallbackRole then operations else operations.insert operation authorizer := by
  simp only [operations?, broadcast, OrderedMap.get?]
  induction policy.roles.entries with
  | nil => rfl
  | cons entry rest ih =>
    by_cases fallback : entry.1 = fallbackRole <;> by_cases same : entry.1 = role <;>
      simp_all [Entries.find?]

/-- A rule decides what it governs and nothing else. -/
theorem authorizer?_applyRule (policy : Policy) (rule : Rule) {role : String}
    (member : role ∈ policy.roleNames) (operation : String) :
    (policy.applyRule rule).authorizer? role operation =
      if rule.governs role operation then some rule.authorizer
      else policy.authorizer? role operation := by
  obtain ⟨operations, found⟩ := OrderedMap.mem_keys_iff.mp member
  have held : policy.operations? role = some operations := found
  unfold applyRule apply
  split
  next wild =>
    have apart : wildcard ≠ fallbackRole := by decide
    by_cases fallback : role = fallbackRole
    · simp [authorizer?, operations?_broadcast, Rule.governs, wild, fallback, apart]
    · by_cases asked : rule.operation = operation <;>
        simp [authorizer?, operations?_broadcast, held, Rule.governs, wild, fallback, asked]
  next named =>
    split
    next changed present =>
      by_cases same : rule.role = role
      · rw [same, held] at present
        cases present
        by_cases asked : rule.operation = operation <;>
          simp [authorizer?, operations?, insertRole, Rule.governs, same, asked, found]
      · simp [authorizer?, operations?, insertRole, Rule.governs, same, named]
    next absent =>
      have other : rule.role ≠ role := by
        intro same
        rw [same, held] at absent
        cases absent
      simp [Rule.governs, other, named]

theorem roleNames_foldl (rules : List Rule) (policy : Policy) :
    (rules.foldl applyRule policy).roleNames = policy.roleNames := by
  induction rules generalizing policy with
  | nil => rfl
  | cons rule rest ih => exact (ih _).trans (roleNames_applyRule ..)

/-- Of all rules the last one that governs decides. -/
theorem authorizer?_foldl (rules : List Rule) (policy : Policy) {role : String}
    (member : role ∈ policy.roleNames) (operation : String) :
    (rules.foldl applyRule policy).authorizer? role operation =
      match (rules.filter (Rule.governs role operation)).getLast? with
      | some rule => some rule.authorizer
      | none => policy.authorizer? role operation := by
  induction rules generalizing policy with
  | nil => rfl
  | cons rule rest ih =>
    have kept : role ∈ (policy.applyRule rule).roleNames := by rwa [roleNames_applyRule]
    rw [List.foldl_cons, ih _ kept, authorizer?_applyRule policy rule member, List.filter_cons]
    by_cases governed : rule.governs role operation = true
    · simp only [governed, ↓reduceIte, List.getLast?_cons]
      cases (rest.filter (Rule.governs role operation)).getLast? <;> rfl
    · simp only [governed, Bool.false_eq_true, ↓reduceIte]

private theorem get?_presetOperations (preset : Preset) (operation : String) :
    preset.operations.get? operation =
      if operation ∈ endpointOperations then some (preset.authorizer operation) else none := by
  have distinct :
      (Entries.keys (endpointOperations.map fun one => (one, preset.authorizer one))).Nodup := by
    simp only [Entries.keys, List.map_map, Function.comp_def, List.map_id']
    decide
  rw [Preset.operations, OrderedMap.get?, OrderedMap.entries_ofEntries distinct,
    Entries.find?_tabulate]

theorem roleNames_template : template.roleNames = fallbackRole :: templateRoles := by decide

theorem authorizer?_template {role : String} (member : role ∈ template.roleNames)
    (operation : String) :
    template.authorizer? role operation = preset? role operation := by
  have held : template.operations? role = some (Preset.ofRole role).operations := by
    rw [roleNames_template] at member
    simp only [templateRoles, List.mem_cons, List.not_mem_nil, or_false] at member
    rcases member with rfl | rfl | rfl | rfl | rfl | rfl | rfl | rfl <;> rfl
  rw [authorizer?, held, Option.bind_some, get?_presetOperations, preset?]

end Policy

/-- A line asks for authorization exactly when it holds a rule for the table of its stanza. -/
theorem Request.ofLine_eq_authorize_iff {position : Position} {line : Line}
    {scope operation role : String} {authorizer : Authorizer} :
    ofLine position line = .authorize scope operation role authorizer ↔
      (RoutedLine.mk position line).ruleFor? scope = some ⟨operation, role, authorizer⟩ := by
  constructor
  · intro asked
    have here : position.stanza = .authorization := home_ofLine (by rw [asked]; rfl)
    have about : position.scope = some scope := scope_ofLine (by rw [asked]; rfl)
    simp only [ofLine, here, about] at asked
    simp only [RoutedLine.ruleFor?, here, about, Line.rule?]
    split at asked
    · cases asked
    · unfold inAuthorization at asked
      split at asked <;> cases asked
      simp [*]
  · intro found
    unfold RoutedLine.ruleFor? Line.rule? at found
    split at found
    next both =>
      obtain ⟨here, about⟩ : position.stanza = .authorization ∧ position.scope = some scope := both
      split at found
      next operation role token rest tokens =>
        cases found
        have written : line.isBlank = false := by
          cases blank : line.isBlank
          · rfl
          · simp [Line.tokens, blank] at tokens
        simp only [ofLine, written, here, about, Bool.false_eq_true, ↓reduceIte,
          inAuthorization, tokens]
      next => cases found
    next => cases found

private theorem Policy.follow_ofLine (table : String) (policy : Policy) (routed : RoutedLine) :
    policy.follow table routed.request =
      match routed.ruleFor? table with
      | some rule => policy.applyRule rule
      | none => policy := by
  cases found : routed.ruleFor? table with
  | some rule =>
    have asked : routed.request = .authorize table rule.operation rule.role rule.authorizer :=
      Request.ofLine_eq_authorize_iff.mpr found
    simp [asked, follow, applyRule]
  | none =>
    cases asked : routed.request with
    | authorize scope operation role authorizer =>
      have ruled := Request.ofLine_eq_authorize_iff.mp asked
      have other : scope ≠ table := by
        intro same
        rw [same, found] at ruled
        cases ruled
      simp [follow, other]
    | _ => rfl

/-- What a table's policy is, or would start as. -/
def Model.policyOf (model : Model) (table : String) : Policy :=
  (model.authorization.get? table).getD .template

/-- The rules for a table among the lines of a run, in their order. -/
def rulesFor (table : String) (lines : List RoutedLine) : List Rule :=
  lines.filterMap (RoutedLine.ruleFor? table)

namespace Progress

variable {progress : Progress}

/-- A line applies its rule to the policy of its table. No rule comes before the policy that it is
for. -/
theorem policyOf_follow (coherent : progress.model.Coherent) (seated : progress.Seated)
    (table : String) (line : Line) :
    (progress.follow (.ofLine progress.position line)).model.policyOf table =
      ((RoutedLine.mk progress.position line).ruleFor? table).toList.foldl Policy.applyRule
        (progress.model.policyOf table) := by
  have reached :=
    Policy.follow_ofLine table (progress.model.policyOf table) ⟨progress.position, line⟩
  simp only [follow, Model.policyOf, Model.policy_follow coherent] at reached ⊢
  cases found : progress.model.authorization.get? table with
  | some policy =>
    simp only [found, Option.getD_some] at reached
    simp only [Option.map_some, Option.some_or, Option.getD_some]
    refine reached.trans ?_
    cases (RoutedLine.mk progress.position line).ruleFor? table <;> rfl
  | none =>
    have unruled : (RoutedLine.mk progress.position line).ruleFor? table = none := by
      apply if_neg
      rintro ⟨here, about⟩
      have present := seated.table about (.inr here)
      rw [coherent.sequence, ← coherent.policies] at present
      exact OrderedMap.get?_eq_none_iff.mp found present
    rw [unruled]
    cases (Request.ofLine progress.position line).table? table <;> rfl

theorem policyOf_readAll (table : String) (lines : List Line) :
    (start.readAll lines).model.policyOf table =
      (rulesFor table (Position.start.route lines)).foldl Policy.applyRule .template := by
  refine account_readAll
    (fun rules progress =>
      progress.model.policyOf table = rules.foldl Policy.applyRule .template) ?_ rfl lines
  intro progress rules coherent seated ruled line
  rw [policyOf_follow coherent seated, ruled, List.foldl_append]

end Progress

/-- After a run, each table has a policy with the roles of the template. For each of them, an
operation is decided by the last rule that governs it among the lines of all files, and by the
preset where there is none, so that no preset operation is ever lost. -/
theorem authorization_last_rule {volume : Volume} {text : String} {origin : Path}
    {compilation : Compilation}
    (success : (compileText volume text origin).result = .ok compilation) :
    ∀ table ∈ compilation.model.tables.keys, ∃ policy,
      compilation.model.authorization.get? table = some policy ∧
      policy.roleNames = Policy.fallbackRole :: Policy.templateRoles ∧
      (∀ role ∈ policy.roleNames, ∀ operation,
        policy.authorizer? role operation =
          match ((rulesFor table (transcript volume text origin)).filter
            (Rule.governs role operation)).getLast? with
          | some rule => some rule.authorizer
          | none => Policy.preset? role operation) ∧
      ∀ role ∈ policy.roleNames, ∀ operation ∈ endpointOperations,
        (policy.authorizer? role operation).isSome = true := by
  intro table member
  have coherent := Progress.coherent_readAll (scannedLines volume text origin)
  have ruled := Progress.policyOf_readAll table (scannedLines volume text origin)
  rw [← model_of_ok success] at coherent ruled
  rw [coherent.sequence, ← coherent.policies] at member
  obtain ⟨policy, found⟩ := OrderedMap.mem_keys_iff.mp member
  have folded : policy =
      (rulesFor table (transcript volume text origin)).foldl Policy.applyRule .template := by
    simp only [Model.policyOf, found, Option.getD_some] at ruled
    exact ruled
  have roles : policy.roleNames = Policy.template.roleNames := by
    rw [folded, Policy.roleNames_foldl]
  have decided : ∀ role ∈ policy.roleNames, ∀ operation, policy.authorizer? role operation =
      match ((rulesFor table (transcript volume text origin)).filter
        (Rule.governs role operation)).getLast? with
      | some rule => some rule.authorizer
      | none => Policy.preset? role operation := by
    intro role known operation
    rw [roles] at known
    rw [folded, Policy.authorizer?_foldl _ _ known, Policy.authorizer?_template known]
  refine ⟨policy, found, roles.trans Policy.roleNames_template, decided, ?_⟩
  intro role known operation listed
  rw [decided role known operation]
  split
  · rfl
  · simp [Policy.preset?, listed]

/-- The last rule of a stanza that one file leaves open stands in the next. -/
theorem authorization_last_rule_bookstore :
    ∃ compilation policy,
      (compileText Bookstore.volume Bookstore.catalogue Bookstore.origin).result = .ok compilation ∧
      "Book" ∈ compilation.model.tables.keys ∧
      compilation.model.authorization.get? "Book" = some policy ∧
      "User" ∈ policy.roleNames ∧ policy.authorizer? "User" "Read" = some (.custom "Own") ∧
      (match ((rulesFor "Book"
        (transcript Bookstore.volume Bookstore.catalogue Bookstore.origin)).filter
          (Rule.governs "User" "Read")).getLast? with
        | some rule => some rule.authorizer
        | none => Policy.preset? "User" "Read") = some (.custom "Own") := by
  obtain ⟨compilation, success, told⟩ := Bookstore.success
  simp only [Bookstore.outline, Prod.mk.injEq, Option.map_eq_some_iff] at told
  obtain ⟨⟨table, present, _⟩, owned⟩ := told
  have listed := OrderedMap.mem_keys_of_get? present
  obtain ⟨policy, found, roles, decided, _⟩ := authorization_last_rule success "Book" listed
  have known : "User" ∈ policy.roleNames := by
    rw [roles]
    decide
  have user : policy.authorizer? "User" "Read" = some (.custom "Own") := by
    rw [found] at owned
    exact owned
  exact ⟨compilation, policy, success, listed, found, known, user,
    (decided "User" known "Read").symm.trans user⟩

end StanzaSchema
