import StanzaSchema.Proofs.Transcript

/-!
What a line gives notice of: that it cannot be used, or that a file is to be included. Both depend
on its request and on the model that the request meets, not on the place of the line, which is only
told along with them. A request that meets an objection changes nothing.
-/

namespace StanzaSchema

/-- The file that a line includes, which must be a directive outside any stanza. -/
def RoutedLine.target? (routed : RoutedLine) : Option String :=
  match routed.position.stanza, routed.line.classify with
  | .none, .directive ⟨.includeFile, target⟩ => some target
  | _, _ => none

theorem Request.target?_ofLine (position : Position) (line : Line) :
    (ofLine position line).target? = (RoutedLine.mk position line).target? := by
  have inside (scope : String) : (inTable scope line.classify).target? = none := by
    unfold inTable
    split <;> rfl
  have ruled (scope : String) : (inAuthorization scope line.tokens).target? = none := by
    unfold inAuthorization
    split <;> rfl
  unfold ofLine RoutedLine.target?
  split
  next empty =>
    rw [Line.classify_of_isBlank empty]
    cases position.stanza <;> rfl
  next =>
    cases position.stanza with
    | none =>
      cases line.classify with
      | tableOpen name =>
        simp only [outside]
        split <;> rfl
      | directive directive =>
        obtain ⟨keyword, argument⟩ := directive
        cases keyword <;> rfl
      | _ => rfl
    | table =>
      cases position.scope with
      | none => rfl
      | some scope => exact inside scope
    | authorization =>
      cases position.scope with
      | none => rfl
      | some scope => exact ruled scope
    | view kind => cases position.scope <;> rfl

/-- A request that meets an objection leaves the model as it is. -/
theorem Model.follow_of_objection {model : Model} {request : Request} {kind : WarningKind}
    (objected : model.objection? request = some kind) : model.follow request = model := by
  cases request with
  | describeColumn scope column text =>
    simp only [objection?] at objected
    split at objected
    · cases objected
    next refused => exact describeColumn_false (by simpa using refused)
  | authorize scope operation role authorizer =>
    simp only [objection?] at objected
    split at objected
    next refused => exact authorize_unknownRole refused
    next => cases objected
  | changeView scope kind line =>
    simp only [objection?] at objected
    simp only [follow, changeView]
    cases found : model.view? scope kind with
    | none => rfl
    | some view =>
      cases read : view.readLine line with
      | ok changed => simp [found, read] at objected
      | error rejected => simp only [read]
  | refused kind => rfl
  | _ => cases objected

theorem Progress.follow_of_objection {progress : Progress} {request : Request} {kind : WarningKind}
    (objected : progress.model.objection? request = some kind) :
    progress.follow request = progress ∧ request.target? = none := by
  have same := Model.follow_of_objection objected
  cases request with
  | refused kind => exact ⟨rfl, rfl⟩
  | describeColumn scope column text => exact ⟨by rw [follow, same]; rfl, rfl⟩
  | authorize scope operation role authorizer => exact ⟨by rw [follow, same]; rfl, rfl⟩
  | changeView scope kind line => exact ⟨by rw [follow, same]; rfl, rfl⟩
  | _ => cases objected

/-- The files that lines include. -/
def Position.targets (position : Position) (lines : List Line) : List String :=
  (position.route lines).filterMap RoutedLine.target?

theorem Position.targets_cons (position : Position) (line : Line) (rest : List Line) :
    position.targets (line :: rest) =
      (RoutedLine.mk position line).target?.toList ++
        (position.follow (.ofLine position line)).targets rest := by
  rw [targets, route, List.filterMap_cons]
  cases (RoutedLine.mk position line).target? <;> rfl

namespace Progress

/-- The warnings that lines of a file cause, the first of which has this number. -/
def warnings (file : Path) : Nat → Progress → List Line → List Warning
  | _, _, [] => []
  | number, progress, line :: rest =>
    let request := Request.ofLine progress.position line
    ((progress.model.objection? request).map fun kind =>
      ⟨file.text, number, kind, line.text⟩).toList ++
      warnings file (number + 1) (progress.follow request) rest

theorem le_line_of_mem_warnings {file : Path} {number : Nat} {progress : Progress}
    {lines : List Line} {warning : Warning}
    (member : warning ∈ progress.warnings file number lines) : number ≤ warning.line := by
  induction lines generalizing number progress with
  | nil => cases member
  | cons line rest ih =>
    rcases List.mem_append.mp member with here | later
    · obtain ⟨kind, _, rfl⟩ := Option.map_eq_some_iff.mp (Option.mem_toList.mp here)
      exact Nat.le_refl number
    · exact Nat.le_of_succ_le (ih later)

end Progress

namespace Session

private theorem warnings_accept (session : Session) (place : Place) (line : Line)
    (outcome : Outcome) :
    (session.accept place line outcome).warnings =
      (outcome.warning.map fun kind =>
        Warning.mk place.file.text place.line kind line.text).toList ++
        session.warnings := by
  unfold accept
  split
  next warned => simp [warned, warn]
  next quiet => simp [quiet]

/-- A session records the warnings of the lines that it reads. -/
theorem warnings_readLines (file : Path) (number : Nat) (lines : List String) (session : Session) :
    (readLines file number lines session).1.warnings =
      (session.progress.warnings file number (lines.map Line.ofText)).reverse ++
        session.warnings := by
  induction lines generalizing number session with
  | nil => rfl
  | cons raw rest ih =>
    have answer := session.progress.answers_readLine ⟨file, number⟩ (.ofText raw)
    simp only [readLines, List.map_cons, ih, progress_accept, warnings_accept, answer.progress,
      answer.warning, Progress.warnings]
    cases session.progress.model.objection? (.ofLine session.progress.position (.ofText raw)) <;>
      simp

theorem found_readLines (file : Path) (number : Nat) (lines : List String) (session : Session) :
    (readLines file number lines session).2.map Pending.path =
      (session.progress.position.targets (lines.map Line.ofText)).map fun target =>
        (Pending.ofTarget file target number).path := by
  induction lines generalizing number session with
  | nil => rfl
  | cons raw rest ih =>
    have answer := session.progress.answers_readLine ⟨file, number⟩ (.ofText raw)
    simp only [readLines, List.map_cons, List.map_append, ih, progress_accept, answer.progress,
      answer.pending, Request.target?_ofLine, Progress.position_follow, Position.targets_cons]
    cases (RoutedLine.mk session.progress.position (.ofText raw)).target? <;> rfl

end Session

/-- A text that includes nothing is read by itself. -/
theorem compileText_of_targets_nil {text : String}
    (alone : Position.start.targets ((Text.physicalLines text).map Line.ofText) = [])
    (volume : Volume) (origin : Path) :
    (compileText volume text origin).result =
      .ok (Session.start.readFile origin text).1.compilation := by
  have unfound : (Session.start.readFile origin text).2 = [] := by
    apply List.map_eq_nil_iff.mp
    refine (Session.found_readLines origin 1 (Text.physicalLines text) _).trans
      (List.map_eq_nil_iff.mpr ?_)
    exact alone
  simp only [compileText, unfound, Frontier.afterRoot_eq, Session.explore_done]

end StanzaSchema
