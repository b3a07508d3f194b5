import StanzaSchema.Proofs.Sifting
import StanzaSchema.Proofs.Stanzas

/-!
Tables do not depend on one another. When all stanzas of one table are taken out of a text, the
other tables, their policies and their views come out as before: a stanza shares nothing with the
others but the domain, which no line of it can change.
-/

namespace StanzaSchema

/-- The table whose stanza a line opens where none is open. -/
def Line.opens? (line : Line) : Option String :=
  match line.classify with
  | .tableOpen name => if name = "" then none else some name
  | .directive ⟨.authorization, name⟩ => some name
  | .directive ⟨.view _, name⟩ => some name
  | _ => none

/-- The table of the stanza that a line opens or stands in. The blank line after a stanza is no part
of it. -/
def RoutedLine.subject? (routed : RoutedLine) : Option String :=
  if routed.line.isBlank then none
  else if routed.position.stanza = .none then routed.line.opens?
  else routed.position.scope

/-- The lines of a text without all stanzas of a table. -/
def withoutStanzas (name : String) (lines : List String) : List String :=
  Progress.start.sift
    (fun progress line => (RoutedLine.mk progress.position line).subject? != some name) lines

/-- The table that a request opens or is about. -/
def Request.subject? : Request → Option String
  | .openTable _ name _ => some name
  | .openViews _ name => some name
  | request => request.scope?

section Subject

variable {position : Position} {line : Line} {name : String}

private theorem Request.subject_outside (domain : String) (line : Line) :
    (outside domain line.classify).subject? = line.opens? := by
  unfold Line.opens?
  cases line.classify with
  | tableOpen name =>
    simp only [outside]
    split <;> rfl
  | directive directive =>
    obtain ⟨keyword, argument⟩ := directive
    cases keyword <;> rfl
  | _ => rfl

/-- A request is about the table of the stanza that its line opens or stands in. -/
theorem Request.subject_ofLine (made : (ofLine position line).subject? = some name) :
    (RoutedLine.mk position line).subject? = some name := by
  unfold ofLine at made
  split at made
  · cases made
  next written =>
    unfold RoutedLine.subject?
    rw [if_neg written]
    split at made
    next closed =>
      rw [if_pos closed]
      exact (subject_outside position.domain line).symm.trans made
    next opened about =>
      rw [if_neg (by rw [opened]; exact Stanza.noConfusion), about]
      unfold inTable at made
      split at made <;> cases made <;> rfl
    next opened about =>
      rw [if_neg (by rw [opened]; exact Stanza.noConfusion), about]
      unfold inAuthorization at made
      split at made <;> cases made
      rfl
    next opened about =>
      rw [if_neg (by rw [opened]; exact Stanza.noConfusion), about]
      exact made
    next => cases made

theorem RoutedLine.subject_cases (about : (RoutedLine.mk position line).subject? = some name) :
    line.isBlank = false ∧
      (position.stanza = .none ∧ line.opens? = some name ∨
        position.stanza ≠ .none ∧ position.scope = some name) := by
  unfold RoutedLine.subject? at about
  split at about
  · cases about
  next written =>
    refine ⟨by simpa using written, ?_⟩
    split at about
    next closed => exact .inl ⟨closed, about⟩
    next opened => exact .inr ⟨opened, about⟩

namespace Position

private theorem follow_outside (domain : String) (opened : line.opens? = some name) :
    ∃ stanza, position.follow (.outside domain line.classify) = position.enter stanza name := by
  unfold Line.opens? at opened
  split at opened
  next found =>
    split at opened <;> cases opened
    next named => exact ⟨.table, by simp [found, Request.outside, named, follow]⟩
  next found =>
    cases opened
    exact ⟨.authorization, by rw [found]; rfl⟩
  next kind _ found =>
    cases opened
    exact ⟨.view kind, by rw [found]; rfl⟩
  next => cases opened

/-- No line but a blank one leads out of a stanza. -/
theorem follow_inside (opened : position.stanza ≠ .none) (written : line.isBlank = false) :
    position.follow (.ofLine position line) = position := by
  simp only [Request.ofLine, written, Bool.false_eq_true, ↓reduceIte]
  split
  next closed => exact absurd closed opened
  next =>
    unfold Request.inTable
    split <;> rfl
  next =>
    unfold Request.inAuthorization
    split <;> rfl
  next => rfl
  next => rfl

/-- A line that opens or stands in a stanza of a table leads into a stanza of that table, in the
same domain. -/
theorem follow_subject (about : (RoutedLine.mk position line).subject? = some name) :
    ∃ stanza, position.follow (.ofLine position line) = position.enter stanza name := by
  obtain ⟨written, ⟨closed, opens⟩ | ⟨opened, inside⟩⟩ := RoutedLine.subject_cases about
  · have asked : Request.ofLine position line = .outside position.domain line.classify := by
      simp [Request.ofLine, written, closed]
    rw [asked]
    exact follow_outside position.domain opens
  · refine ⟨position.stanza, (follow_inside opened written).trans ?_⟩
    rw [enter, ← inside]

theorem scope_follow {request : Request} (outside : position.scope ≠ some name)
    (elsewhere : request.subject? ≠ some name) : (position.follow request).scope ≠ some name := by
  cases request with
  | close => exact (Option.some_ne_none name).symm
  | openTable stanza opened domain => exact elsewhere
  | openViews kind opened => exact elsewhere
  | _ => exact outside

end Position

theorem RoutedLine.target?_of_subject (about : (RoutedLine.mk position line).subject? = some name) :
    (RoutedLine.mk position line).target? = none := by
  obtain ⟨_, ⟨_, opens⟩ | ⟨opened, _⟩⟩ := subject_cases about
  · unfold RoutedLine.target?
    split
    next found =>
      simp only [Line.opens?, found] at opens
      cases opens
    next => rfl
  · unfold RoutedLine.target?
    split
    next closed _ => exact absurd closed opened
    next => rfl

end Subject

section Elsewhere

variable {name : String} {request : Request}

theorem Policy.follow_elsewhere (policy : Policy) (elsewhere : request.scope? ≠ some name) :
    policy.follow name request = policy := by
  cases request with
  | authorize scope operation role authorizer =>
    exact if_neg fun same => elsewhere (congrArg some same)
  | _ => rfl

theorem ViewSet.follow_elsewhere (views : ViewSet) (elsewhere : request.scope? ≠ some name) :
    views.follow name request = views := by
  cases request with
  | changeView scope kind line => exact if_neg fun same => elsewhere (congrArg some same)
  | _ => rfl

end Elsewhere

/-- Two models have the same table of this name, the same policy for it and the same views. -/
structure Model.AgreeOn (name : String) (first second : Model) : Prop where
  table : second.tables.get? name = first.tables.get? name
  policy : second.authorization.get? name = first.authorization.get? name
  views : second.views.get? name = first.views.get? name

namespace Model

variable {model first second : Model} {name : String} {request : Request}

/-- Models that agree on a table go on to do so when they follow the same request. -/
theorem AgreeOn.follow (agree : AgreeOn name first second) (whole : first.Coherent)
    (part : second.Coherent) (request : Request) :
    AgreeOn name (first.follow request) (second.follow request) where
  table := by rw [table_follow, table_follow, agree.table]
  policy := by rw [policy_follow part, policy_follow whole, agree.policy]
  views := by rw [views_follow, views_follow, agree.views]

/-- A request about another table leaves this one alone. -/
theorem agreeOn_follow (coherent : model.Coherent) (elsewhere : request.subject? ≠ some name) :
    AgreeOn name (model.follow request) model := by
  have unmade : request.table? name = none := by
    cases request with
    | openTable stanza opened domain => exact if_neg fun same => elsewhere (congrArg some same)
    | _ => rfl
  have unopened : request.opensViews name = false := by
    cases request with
    | openViews kind opened => exact beq_false_of_ne fun same => elsewhere (congrArg some same)
    | _ => rfl
  have unscoped : request.scope? ≠ some name := by
    cases request with
    | openTable stanza opened domain => exact (Option.some_ne_none name).symm
    | openViews kind opened => exact (Option.some_ne_none name).symm
    | _ => exact elsewhere
  constructor
  · rw [table_follow, unmade, Option.or_none]
    cases model.tables.get? name with
    | none => rfl
    | some table => rw [Option.map_some, table.follow_elsewhere fun _ => unscoped]
  · rw [policy_follow coherent, unmade, Option.map_none, Option.or_none]
    cases model.authorization.get? name with
    | none => rfl
    | some policy => rw [Option.map_some, policy.follow_elsewhere unscoped]
  · rw [views_follow, unopened, if_neg Bool.false_ne_true, Option.or_none]
    cases model.views.get? name with
    | none => rfl
    | some views => rw [Option.map_some, views.follow_elsewhere unscoped]

/-- Only the opening of a table that is not there makes the sequence longer. -/
theorem sequence_follow (model : Model) (request : Request) :
    (model.follow request).sequence =
      model.sequence ++
        match request with
        | .openTable _ name _ => if model.tables.contains name then [] else [name]
        | _ => [] := by
  cases request with
  | openTable stanza name domain =>
    simp only [follow, openTable]
    split <;> simp
  | openViews kind name =>
    simp only [follow, openViews]
    split <;> simp
  | declare scope declaration => simp [follow, declareColumn_eq]
  | describeColumn scope column text => simp [follow, describeColumn_eq]
  | describeTable scope text => simp [follow, describeTable_eq]
  | authorize scope operation role authorizer => simp [follow, authorize_eq]
  | changeView scope kind line => simp [follow, changeView_eq]
  | _ => simp [follow]

end Model

/-- How a run over all lines stands to one without the stanzas of a table: they differ in that table
only, and while the first is in a stanza of it, the second is in none. -/
structure Progress.Apart (name : String) (whole part : Progress) : Prop where
  seated : whole.Seated
  coherent : whole.model.Coherent
  partCoherent : part.model.Coherent
  position : part.position =
    if whole.position.scope = some name then whole.position.close else whole.position
  agree : ∀ {other}, other ≠ name → Model.AgreeOn other whole.model part.model
  sequence : part.model.sequence = whole.model.sequence.filter fun other => other ≠ name

namespace Progress.Apart

variable {name : String} {whole part : Progress} {line : Line}

theorem start (name : String) : Apart name .start .start where
  seated := .start
  coherent := .empty
  partCoherent := .empty
  position := rfl
  agree _ := ⟨rfl, rfl, rfl⟩
  sequence := rfl

/-- Where a line that is not about the table finds the two runs. -/
theorem standing (apart : Apart name whole part)
    (elsewhere : (RoutedLine.mk whole.position line).subject? ≠ some name) :
    line.isBlank = true ∧ part.position = whole.position.close ∨
      whole.position.scope ≠ some name ∧ part.position = whole.position := by
  have position := apart.position
  split at position
  next about =>
    have opened : whole.position.stanza ≠ .none := by
      intro closed
      rw [apart.seated.closed.mp closed] at about
      cases about
    have blank : line.isBlank = true := by
      cases written : line.isBlank
      · exact absurd (by simp [RoutedLine.subject?, written, opened, about]) elsewhere
      · rfl
    exact .inl ⟨blank, position⟩
  next outside => exact .inr ⟨outside, position⟩

private theorem request_eq (apart : Apart name whole part)
    (elsewhere : (RoutedLine.mk whole.position line).subject? ≠ some name) :
    Request.ofLine part.position line = Request.ofLine whole.position line := by
  rcases apart.standing elsewhere with ⟨blank, _⟩ | ⟨_, same⟩
  · simp [Request.ofLine, blank]
  · rw [same]

theorem kept (apart : Apart name whole part)
    (elsewhere : (RoutedLine.mk whole.position line).subject? ≠ some name) :
    Apart name (whole.follow (.ofLine whole.position line))
      (part.follow (.ofLine part.position line)) := by
  have unnamed : (Request.ofLine whole.position line).subject? ≠ some name :=
    fun made => elsewhere (Request.subject_ofLine made)
  refine ⟨apart.seated.step line, apart.coherent.follow _, apart.partCoherent.follow _, ?_, ?_, ?_⟩
  · rw [apart.request_eq elsewhere, position_follow, position_follow]
    rcases apart.standing elsewhere with ⟨blank, closed⟩ | ⟨outside, same⟩
    · have asked : Request.ofLine whole.position line = .close := by simp [Request.ofLine, blank]
      rw [asked, closed]
      rfl
    · rw [if_neg (Position.scope_follow outside unnamed), same]
  · intro other differs
    rw [apart.request_eq elsewhere]
    exact (apart.agree differs).follow apart.coherent apart.partCoherent _
  · rw [apart.request_eq elsewhere]
    simp only [follow, Model.sequence_follow, apart.sequence, List.filter_append]
    congr 1
    cases asked : Request.ofLine whole.position line with
    | openTable stanza opened domain =>
      have differs : opened ≠ name := by
        intro same
        exact unnamed (by rw [asked, ← same]; rfl)
      have together : part.model.tables.contains opened = whole.model.tables.contains opened :=
        congrArg Option.isSome (apart.agree differs).table
      simp only [together]
      split <;> simp [differs]
    | _ => rfl

theorem dropped (apart : Apart name whole part)
    (about : (RoutedLine.mk whole.position line).subject? = some name) :
    Apart name (whole.follow (.ofLine whole.position line)) part := by
  have named {other : String} (made : (Request.ofLine whole.position line).subject? = some other) :
      other = name :=
    Option.some.inj ((Request.subject_ofLine made).symm.trans about)
  refine ⟨apart.seated.step line, apart.coherent.follow _, apart.partCoherent, ?_, ?_, ?_⟩
  · obtain ⟨stanza, entered⟩ := Position.follow_subject about
    have closed : part.position = whole.position.close := by
      have position := apart.position
      split at position
      next => exact position
      next outside =>
        obtain ⟨_, ⟨closed, _⟩ | ⟨_, inside⟩⟩ := RoutedLine.subject_cases about
        · rw [position, Position.close, ← closed, ← apart.seated.closed.mp closed]
        · exact absurd inside outside
    have inside : (whole.position.enter stanza name).scope = some name := rfl
    rw [position_follow, entered, if_pos inside]
    exact closed
  · intro other differs
    have left := Model.agreeOn_follow apart.coherent fun made => differs (named made)
    have before := apart.agree differs
    exact ⟨before.table.trans left.table, before.policy.trans left.policy,
      before.views.trans left.views⟩
  · simp only [follow, Model.sequence_follow, apart.sequence, List.filter_append]
    cases asked : Request.ofLine whole.position line with
    | openTable stanza opened domain =>
      have same : opened = name := named (by rw [asked]; rfl)
      simp only
      split <;> simp [same]
    | _ => simp

end Progress.Apart

private theorem Progress.apart_withoutStanzas (name : String) (lines : List String) :
    Apart name (start.readAll (lines.map Line.ofText))
      (start.readAll ((withoutStanzas name lines).map Line.ofText)) ∧
    Position.start.targets ((withoutStanzas name lines).map Line.ofText) =
      Position.start.targets (lines.map Line.ofText) := by
  refine sift_related _ (Apart name) ?_ ?_ (.start name) lines
  · intro whole part line apart keep
    have elsewhere : (RoutedLine.mk whole.position line).subject? ≠ some name := by simpa using keep
    refine ⟨apart.kept elsewhere, ?_⟩
    rw [← Request.target?_ofLine, ← Request.target?_ofLine, apart.request_eq elsewhere]
  · intro whole part line apart drop
    have about : (RoutedLine.mk whole.position line).subject? = some name := by simpa using drop
    exact ⟨apart.dropped about, RoutedLine.target?_of_subject about⟩

/-- A text and what is left of it without all stanzas of one table give the same to every other
table: the table itself, its policy and its views. They include the same files, end in the same
domain and have the same sequence, but for the name of that table. -/
theorem tables_do_not_interfere (file : Path) (lines : List String) (name : String) :
    let whole := Session.readLines file 1 lines .start
    let part := Session.readLines file 1 (withoutStanzas name lines) .start
    (∀ other, other ≠ name →
      part.1.progress.model.tables.get? other = whole.1.progress.model.tables.get? other ∧
      part.1.progress.model.authorization.get? other =
        whole.1.progress.model.authorization.get? other ∧
      part.1.progress.model.views.get? other = whole.1.progress.model.views.get? other) ∧
    Position.start.targets ((withoutStanzas name lines).map Line.ofText) =
      Position.start.targets (lines.map Line.ofText) ∧
    part.2.map Pending.path = whole.2.map Pending.path ∧
    part.1.progress.position.domain = whole.1.progress.position.domain ∧
    part.1.progress.model.sequence = whole.1.progress.model.sequence.filter fun other =>
      other ≠ name := by
  intro whole part
  obtain ⟨apart, included⟩ := Progress.apart_withoutStanzas name lines
  have wholly : whole.1.progress = Progress.start.readAll (lines.map Line.ofText) :=
    Session.progress_readLines ..
  have partly : part.1.progress =
      Progress.start.readAll ((withoutStanzas name lines).map Line.ofText) :=
    Session.progress_readLines ..
  rw [← wholly, ← partly] at apart
  refine ⟨?_, included, ?_, ?_, apart.sequence⟩
  · intro other differs
    have agree := apart.agree differs
    exact ⟨agree.table, agree.policy, agree.views⟩
  · rw [Session.found_readLines, Session.found_readLines]
    exact congrArg _ included
  · rw [apart.position]
    split <;> rfl

-- The blank line after a stanza stays, and so does what only mentions the table from a stanza of
-- another one.
example : withoutStanzas "Book" ["!Book", "@ID", "", "[Domain Shop]", "!Author", "~Book -> ID", "",
      "[PICT-List Book]",
    "(Books)"] = ["", "[Domain Shop]", "!Author", "~Book -> ID", ""] := by decide +kernel

end StanzaSchema
