import StanzaSchema.Proofs.Effects

/-!
Open stanzas. Tables are opened outside any stanza only, and while a stanza is open, the table or
the views that it is about exist. So no line of a stanza is lost for want of them.
-/

namespace StanzaSchema

namespace Request

/-- The stanza that a request can only be made in. -/
def home? : Request → Option Stanza
  | .close => none
  | .nothing => none
  | .refused _ => none
  | .setDomain _ => some .none
  | .openTable _ _ _ => some .none
  | .openViews _ _ => some .none
  | .includeFile _ => some .none
  | .declare _ _ => some .table
  | .describeColumn _ _ _ => some .table
  | .describeTable _ _ => some .table
  | .authorize _ _ _ _ => some .authorization
  | .changeView _ kind _ => some (.view kind)

/-- The table that a request inside a stanza is about. -/
def scope? : Request → Option String
  | .declare scope _ => some scope
  | .describeColumn scope _ _ => some scope
  | .describeTable scope _ => some scope
  | .authorize scope _ _ _ => some scope
  | .changeView scope _ _ => some scope
  | _ => none

variable {position : Position} {line : Line}

private theorem home_outside (domain : String) (found : LineClass) {stanza : Stanza}
    (made : (outside domain found).home? = some stanza) : stanza = .none := by
  cases found with
  | tableOpen name =>
    simp only [outside] at made
    split at made <;> cases made
    rfl
  | directive directive =>
    obtain ⟨keyword, argument⟩ := directive
    cases keyword <;> cases made <;> rfl
  | _ => cases made

private theorem scope_outside (domain : String) (found : LineClass) :
    (outside domain found).scope? = none := by
  cases found with
  | tableOpen name =>
    simp only [outside]
    split <;> rfl
  | directive directive =>
    obtain ⟨keyword, argument⟩ := directive
    cases keyword <;> rfl
  | _ => rfl

/-- A request comes from a line of the stanza that it belongs to. -/
theorem home_ofLine {stanza : Stanza} (made : (ofLine position line).home? = some stanza) :
    position.stanza = stanza := by
  unfold ofLine at made
  split at made
  · cases made
  · split at made
    next closed => rw [closed, home_outside _ _ made]
    next opened _ =>
      unfold inTable at made
      split at made <;> cases made <;> exact opened
    next opened _ =>
      unfold inAuthorization at made
      split at made <;> cases made
      exact opened
    next opened _ =>
      cases made
      exact opened
    next => cases made

/-- A request is about the table that its stanza is about. -/
theorem scope_ofLine {scope : String} (made : (ofLine position line).scope? = some scope) :
    position.scope = some scope := by
  unfold ofLine at made
  split at made
  · cases made
  · split at made
    next => simp [scope_outside] at made
    next about =>
      unfold inTable at made
      split at made <;> cases made <;> exact about
    next about =>
      unfold inAuthorization at made
      split at made <;> cases made
      exact about
    next about =>
      cases made
      exact about
    next => cases made

/-- A table is opened by its own line or by a directive. -/
theorem openTable_inv {stanza : Stanza} {name domain : String}
    (asked : ofLine position line = .openTable stanza name domain) :
    domain = position.domain ∧
      (stanza = .table ∧ name ≠ "" ∧ line.classify = .tableOpen name ∨
        stanza = .authorization ∧ line.classify = .directive ⟨.authorization, name⟩) := by
  have closed : position.stanza = .none := home_ofLine (by rw [asked]; rfl)
  simp only [ofLine, closed] at asked
  split at asked
  · cases asked
  · cases found : line.classify with
    | tableOpen opened =>
      simp only [found, outside] at asked
      split at asked
      · cases asked
      next named =>
        cases asked
        exact ⟨rfl, .inl ⟨rfl, named, rfl⟩⟩
    | directive directive =>
      obtain ⟨keyword, argument⟩ := directive
      simp only [found, outside] at asked
      cases keyword <;> cases asked
      exact ⟨rfl, .inr ⟨rfl, rfl⟩⟩
    | _ => simp [found, outside] at asked

end Request

/-- A table is left alone by what is not asked for in one of its table stanzas. -/
theorem Table.follow_elsewhere {name : String} {request : Request} (table : Table)
    (elsewhere : request.home? = some .table → request.scope? ≠ some name) :
    table.follow name request = table := by
  cases request with
  | declare scope declaration => exact if_neg fun same => elsewhere rfl (congrArg some same)
  | describeColumn scope column text => exact if_neg fun same => elsewhere rfl (congrArg some same)
  | describeTable scope text => exact if_neg fun same => elsewhere rfl (congrArg some same)
  | _ => rfl

/-- An open stanza is about something that exists, and without one there is no scope. -/
structure Progress.Seated (progress : Progress) : Prop where
  closed : progress.position.stanza = .none ↔ progress.position.scope = none
  table : ∀ {scope}, progress.position.scope = some scope →
    progress.position.stanza = .table ∨ progress.position.stanza = .authorization →
    scope ∈ progress.model.tables.keys
  views : ∀ {scope kind}, progress.position.scope = some scope →
    progress.position.stanza = .view kind → scope ∈ progress.model.views.keys

namespace Model

variable (model : Model) (request : Request)

/-- No table is ever removed. -/
theorem tables_subset_follow : model.tables.keys ⊆ (model.follow request).tables.keys := by
  intro name member
  obtain ⟨table, found⟩ := OrderedMap.mem_keys_iff.mp member
  exact OrderedMap.mem_keys_iff.mpr ⟨table.follow name request, by rw [table_follow, found]; rfl⟩

/-- No views are ever removed. -/
theorem views_subset_follow : model.views.keys ⊆ (model.follow request).views.keys := by
  intro name member
  obtain ⟨views, found⟩ := OrderedMap.mem_keys_iff.mp member
  exact OrderedMap.mem_keys_iff.mpr ⟨views.follow name request, by rw [views_follow, found]; rfl⟩

theorem mem_tables_openTable (name domain : String) :
    name ∈ (model.openTable name domain).1.tables.keys := by
  rw [OrderedMap.mem_keys_iff, table_openTable]
  cases model.tables.get? name <;> simp

private theorem mem_views_openViews (name : String) :
    name ∈ (model.openViews name).1.views.keys := by
  rw [OrderedMap.mem_keys_iff, views_openViews]
  cases model.views.get? name <;> simp

end Model

namespace Progress.Seated

variable {progress : Progress}

theorem start : Seated .start := by
  refine ⟨⟨fun _ => rfl, fun _ => rfl⟩, ?_, ?_⟩
  · intro scope open_
    cases open_
  · intro scope kind open_
    cases open_

/-- A request that moves nowhere leaves everything where it is. -/
theorem stay (seated : Seated progress) {request : Request}
    (same : progress.position.follow request = progress.position) :
    Seated (progress.follow request) := by
  constructor
  · simpa only [follow, same] using seated.closed
  · intro scope opened stanza
    simp only [follow, same] at opened stanza
    exact progress.model.tables_subset_follow request (seated.table opened stanza)
  · intro scope kind opened stanza
    simp only [follow, same] at opened stanza
    exact progress.model.views_subset_follow request (seated.views opened stanza)

theorem step (seated : Seated progress) (line : Line) :
    Seated (progress.follow (.ofLine progress.position line)) := by
  cases asked : Request.ofLine progress.position line with
  | close =>
    refine ⟨⟨fun _ => rfl, fun _ => rfl⟩, ?_, ?_⟩
    · intro scope opened
      cases opened
    · intro scope kind opened
      cases opened
  | setDomain domain =>
    exact ⟨seated.closed, fun opened stanza => seated.table opened stanza,
      fun opened stanza => seated.views opened stanza⟩
  | openTable stanza name domain =>
    obtain ⟨_, kind⟩ := Request.openTable_inv asked
    constructor
    · rcases kind with ⟨rfl, _⟩ | ⟨rfl, _⟩ <;> simp [follow, Position.follow, Position.enter]
    · intro scope opened _
      cases opened
      exact progress.model.mem_tables_openTable name domain
    · intro scope view opened viewing
      rcases kind with ⟨rfl, _⟩ | ⟨rfl, _⟩ <;> cases viewing
  | openViews kind name =>
    constructor
    · simp [follow, Position.follow, Position.enter]
    · intro scope opened stanza
      rcases stanza with stanza | stanza <;> cases stanza
    · intro scope view opened _
      cases opened
      exact progress.model.mem_views_openViews name
  | _ => exact seated.stay rfl

end Progress.Seated

/-- What the lines of a run say, one after the other, accounts for what has been read if it does so
line by line. -/
theorem Progress.account_readAll {δ : Type} {said? : RoutedLine → Option δ}
    (Accounts : List δ → Progress → Prop)
    (step : ∀ {progress said}, progress.model.Coherent → progress.Seated →
      Accounts said progress →
      ∀ line, Accounts (said ++ (said? ⟨progress.position, line⟩).toList)
        (progress.follow (.ofLine progress.position line)))
    (initial : Accounts [] .start) (lines : List Line) :
    Accounts ((Position.start.route lines).filterMap said?) (start.readAll lines) := by
  have general : ∀ {progress said}, progress.model.Coherent → progress.Seated →
      Accounts said progress →
      Accounts (said ++ (progress.position.route lines).filterMap said?)
      (progress.readAll lines) := by
    induction lines with
    | nil =>
      intro progress said _ _ holds
      rw [Position.route, List.filterMap_nil, List.append_nil]
      exact holds
    | cons line rest ih =>
      intro progress said coherent seated holds
      have later := ih (coherent.follow (.ofLine progress.position line)) (seated.step line)
        (step coherent seated holds line)
      rw [position_follow] at later
      rw [readAll_cons, Position.route, List.filterMap_cons]
      cases spoken : said? ⟨progress.position, line⟩ <;> simpa [spoken] using later
  exact general .empty .start initial

end StanzaSchema
