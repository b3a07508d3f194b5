import StanzaSchema.Proofs.Bounded
import StanzaSchema.Proofs.Stanzas

/-!
The points that a run can come to. Lines follow one another, from whatever files they come, and an
open stanza goes on from one file to the next. At every such point the open stanza is about
something that exists, so each of its lines is carried out on it or warned about.
-/

namespace StanzaSchema

/-- What can have been read at some point of some run. -/
inductive Progress.Reached : Progress → Prop where
  | start : Reached .start
  | line {progress : Progress} (earlier : Reached progress) (place : Place) (line : Line) :
      Reached (progress.readLine place line).progress

namespace Session

private theorem reached_readLines {session : Session} (reached : session.progress.Reached)
    (file : Path) (number : Nat) (lines : List String) :
    (readLines file number lines session).1.progress.Reached := by
  induction lines generalizing number session with
  | nil => exact reached
  | cons raw rest ih =>
    simp only [readLines]
    apply ih
    rw [progress_accept]
    exact reached.line ..

theorem reached_readFile {session : Session} (reached : session.progress.Reached) (file : Path)
    (text : String) :
    (session.readFile file text).1.progress.Reached := by
  simp only [readFile]
  apply reached_readLines
  exact reached

/-- Reading the waiting files comes to no other points. -/
theorem reached_explore {session : Session} (reached : session.progress.Reached) (volume : Volume)
    (frontier : Frontier) : (session.explore volume frontier).1.progress.Reached := by
  fun_induction explore volume frontier session with
  | case1 => exact reached
  | case2 frontier session pending rest waiting stopped failure turned =>
    obtain ⟨fault, _, rfl, _⟩ := takeTurn_failed turned
    exact reached
  | case3 frontier session pending rest waiting further next turned ih =>
    rcases takeTurn_cases turned with ⟨_, rfl, _⟩ | ⟨_, text, _, rfl, _⟩
    · exact ih reached
    · have here : (session.announce pending).progress.Reached := reached
      exact ih (reached_readFile here pending.path text)

end Session

namespace Progress

variable {progress : Progress} {scope : String}

theorem Reached.coherent (reached : Reached progress) : progress.model.Coherent := by
  induction reached with
  | start => exact .empty
  | line _ place line ih =>
    rw [progress_readLine]
    exact ih.follow _

theorem Reached.seated (reached : Reached progress) : progress.Seated := by
  induction reached with
  | start => exact .start
  | line _ place line ih =>
    rw [progress_readLine]
    exact ih.step line

/-- Nothing that a line of the open stanza may say is refused because what the stanza is about does
not exist. -/
def Ready (progress : Progress) (scope : String) : Prop :=
  match progress.position.stanza with
  | .none => False
  | .table =>
    (∀ column, (progress.model.declareColumn scope column).2 ≠ none) ∧
      ∀ text, (progress.model.describeTable scope text).2 = true
  | .authorization =>
    ∀ operation role authorizer, (progress.model.authorize scope operation role authorizer).2 ≠ none
  | .view kind => progress.model.view? scope kind ≠ none

/-- What the open stanza is about exists, and a line does to it what the line asks for. -/
def CarriesOut (progress : Progress) (scope : String) (line : Line) (after : Model) : Prop :=
  match progress.position.stanza with
  | .none => False
  | .table => ∃ table, progress.model.tables.get? scope = some table ∧
      after.tables.get? scope = some (table.follow scope (.inTable scope line.classify))
  | .authorization => ∃ policy, progress.model.authorization.get? scope = some policy ∧
      after.authorization.get? scope =
        some (policy.follow scope (.inAuthorization scope line.tokens))
  | .view kind => ∃ views, progress.model.views.get? scope = some views ∧
      after.views.get? scope = some (views.follow scope (.changeView scope kind line))

theorem Seated.policy (seated : progress.Seated) (coherent : progress.model.Coherent)
    (about : progress.position.scope = some scope)
    (stanza : progress.position.stanza = .table ∨ progress.position.stanza = .authorization) :
    scope ∈ progress.model.authorization.keys := by
  have present := seated.table about stanza
  rwa [coherent.sequence, ← coherent.policies] at present

theorem Reached.ready (reached : Reached progress) (about : progress.position.scope = some scope) :
    progress.Ready scope := by
  have seated := reached.seated
  unfold Ready
  split
  next closed =>
    rw [seated.closed.mp closed] at about
    cases about
  next here =>
    obtain ⟨table, found⟩ := OrderedMap.mem_keys_iff.mp (seated.table about (.inl here))
    constructor
    · intro column
      simp only [Model.declareColumn, found]
      split <;> exact Option.some_ne_none _
    · intro text
      simp only [Model.describeTable, found]
  next here =>
    obtain ⟨policy, found⟩ :=
      OrderedMap.mem_keys_iff.mp (seated.policy reached.coherent about (.inr here))
    intro operation role authorizer
    simp only [Model.authorize, found]
    exact Option.some_ne_none _
  next kind here =>
    obtain ⟨views, found⟩ := OrderedMap.mem_keys_iff.mp (seated.views about here)
    simp only [Model.view?, found]
    exact Option.some_ne_none _

private theorem Reached.carriesOut (reached : Reached progress)
    (about : progress.position.scope = some scope) (place : Place)
    {line : Line} (written : line.isBlank = false) :
    progress.CarriesOut scope line (progress.readLine place line).progress.model := by
  have seated := reached.seated
  rw [progress_readLine]
  simp only [CarriesOut, follow]
  cases stanza : progress.position.stanza with
  | none =>
    rw [seated.closed.mp stanza] at about
    cases about
  | table =>
    obtain ⟨table, found⟩ := OrderedMap.mem_keys_iff.mp (seated.table about (.inl stanza))
    refine ⟨table, found, ?_⟩
    have asked : Request.ofLine progress.position line = .inTable scope line.classify := by
      simp [Request.ofLine, written, stanza, about]
    rw [Model.table_follow, found, asked]
    rfl
  | authorization =>
    obtain ⟨policy, found⟩ :=
      OrderedMap.mem_keys_iff.mp (seated.policy reached.coherent about (.inr stanza))
    refine ⟨policy, found, ?_⟩
    have asked : Request.ofLine progress.position line = .inAuthorization scope line.tokens := by
      simp [Request.ofLine, written, stanza, about]
    rw [Model.policy_follow reached.coherent, found, asked]
    rfl
  | view kind =>
    obtain ⟨views, found⟩ := OrderedMap.mem_keys_iff.mp (seated.views about stanza)
    refine ⟨views, found, ?_⟩
    have asked : Request.ofLine progress.position line = .changeView scope kind line := by
      simp [Request.ofLine, written, stanza, about]
    rw [Model.views_follow, found, asked]
    rfl

end Progress

/-- At every point of a run there is a scope if and only if a stanza is open. What the stanza is
about exists: a table with its policy, or views. So nothing that a line of the stanza says is
refused for want of it, and no line but a blank one goes by without being carried out. -/
theorem open_stanza_loses_no_line {progress : Progress} (reached : progress.Reached) :
    (progress.position.stanza = .none ↔ progress.position.scope = none) ∧
    (∀ scope, progress.position.scope = some scope →
      (progress.position.stanza = .table ∨ progress.position.stanza = .authorization →
        scope ∈ progress.model.tables.keys ∧ scope ∈ progress.model.authorization.keys) ∧
      ∀ kind, progress.position.stanza = .view kind → scope ∈ progress.model.views.keys) ∧
    (progress.position.stanza ≠ .none → ∃ scope, progress.position.scope = some scope ∧
      progress.Ready scope ∧ ∀ place line, line.isBlank = false →
        progress.CarriesOut scope line (progress.readLine place line).progress.model) := by
  have seated := reached.seated
  refine ⟨seated.closed, ?_, ?_⟩
  · intro scope about
    refine ⟨?_, fun kind viewing => seated.views about viewing⟩
    intro stanza
    exact ⟨seated.table about stanza, seated.policy reached.coherent about stanza⟩
  · intro opened
    have named : progress.position.scope ≠ none := fun missing => opened (seated.closed.mpr missing)
    obtain ⟨scope, about⟩ := Option.ne_none_iff_exists'.mp named
    exact ⟨scope, about, reached.ready about,
      fun place line written => reached.carriesOut about place written⟩

/-- At the end of a run a stanza is still open that the included file began, and a further line
would be carried out. -/
theorem open_stanza_loses_no_line_bookstore :
    let root := Session.start.readFile Bookstore.origin Bookstore.catalogue
    let frontier := Frontier.afterRoot (Bookstore.volume.identity Bookstore.origin) root.2
    let progress := (root.1.explore Bookstore.volume frontier).1.progress
    progress.Reached ∧ progress.position = ⟨.table, some "Book", "Default"⟩ ∧
      "Book" ∈ progress.model.tables.keys ∧ "Book" ∈ progress.model.authorization.keys ∧
      ∃ scope, progress.position.scope = some scope ∧ progress.Ready scope ∧
        ∀ place line, line.isBlank = false →
          progress.CarriesOut scope line (progress.readLine place line).progress.model := by
  intro root frontier progress
  have reached : progress.Reached :=
    Session.reached_explore (Session.reached_readFile .start _ _) _ _
  have evaluated : (root.1.exploreFor Bookstore.volume 1 frontier).map
      (fun ended => ended.1.progress.position) = some ⟨.table, some "Book", "Default"⟩ := by
        decide +kernel
  obtain ⟨ended, finished, there⟩ := Option.map_eq_some_iff.mp evaluated
  have position : progress.position = ⟨.table, some "Book", "Default"⟩ := by
    simp only [progress, Session.explore_of_exploreFor finished]
    exact there
  obtain ⟨_, present, served⟩ := open_stanza_loses_no_line reached
  obtain ⟨table, policy⟩ := (present "Book" (by rw [position])).1 (.inl (by rw [position]))
  exact ⟨reached, position, table, policy, served (by rw [position]; decide)⟩

end StanzaSchema
