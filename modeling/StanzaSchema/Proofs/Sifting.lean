import StanzaSchema.Proofs.Notices

/-!
Lines that can be taken out of a text. A run over what is left is compared with the run over all
lines, step by step: a line that stays takes both on, and one that was taken out only the first.
Lines that were warned about can be taken out without a trace.
-/

namespace StanzaSchema

namespace Progress

/-- The lines of a run that it keeps. -/
def sift (keep : Progress → Line → Bool) : Progress → List String → List String
  | _, [] => []
  | progress, raw :: rest =>
    let line := Line.ofText raw
    let later := sift keep (progress.follow (.ofLine progress.position line)) rest
    if keep progress line then raw :: later else later

/-- Two runs stay related, one over all lines and one over those that the first keeps, if each line
sees to it. They include the same files when no line that does so is taken out. -/
theorem sift_related (keep : Progress → Line → Bool) (Related : Progress → Progress → Prop)
    (kept : ∀ {whole part : Progress} {line : Line}, Related whole part → keep whole line = true →
      Related (whole.follow (.ofLine whole.position line))
      (part.follow (.ofLine part.position line)) ∧
      (RoutedLine.mk part.position line).target? = (RoutedLine.mk whole.position line).target?)
    (dropped : ∀ {whole part : Progress} {line : Line}, Related whole part →
      keep whole line = false →
      Related (whole.follow (.ofLine whole.position line)) part ∧
        (RoutedLine.mk whole.position line).target? = none)
    {whole part : Progress} (related : Related whole part) (lines : List String) :
    Related (whole.readAll (lines.map Line.ofText))
      (part.readAll ((whole.sift keep lines).map Line.ofText)) ∧
    part.position.targets ((whole.sift keep lines).map Line.ofText) =
      whole.position.targets (lines.map Line.ofText) := by
  induction lines generalizing whole part with
  | nil => exact ⟨related, rfl⟩
  | cons raw rest ih =>
    rw [sift]
    cases stays : keep whole (Line.ofText raw) with
    | true =>
      simp only [↓reduceIte, List.map_cons, readAll_cons, Position.targets_cons]
      -- How the line comes out of its text is of no account from here on.
      generalize Line.ofText raw = line at stays ⊢
      obtain ⟨next, same⟩ := kept related stays
      obtain ⟨ended, included⟩ := ih next
      rw [position_follow, position_follow] at included
      rw [same, included]
      exact ⟨ended, rfl⟩
    | false =>
      simp only [Bool.false_eq_true, ↓reduceIte, List.map_cons, readAll_cons, Position.targets_cons]
      generalize Line.ofText raw = line at stays ⊢
      obtain ⟨next, quiet⟩ := dropped related stays
      obtain ⟨ended, included⟩ := ih next
      rw [position_follow] at included
      rw [quiet, included]
      exact ⟨ended, rfl⟩

/-- Whether a line is read without a warning. -/
def usable (progress : Progress) (line : Line) : Bool :=
  (progress.model.objection? (.ofLine progress.position line)).isNone

private theorem objection_of_not_usable {progress : Progress} {line : Line}
    (unusable : progress.usable line = false) :
    ∃ kind, progress.model.objection? (.ofLine progress.position line) = some kind := by
  cases objected : progress.model.objection? (.ofLine progress.position line) with
  | none => simp [usable, objected] at unusable
  | some kind => exact ⟨kind, rfl⟩

private theorem readAll_sift_usable (progress : Progress) (lines : List String) :
    progress.readAll (lines.map Line.ofText) =
      progress.readAll ((progress.sift usable lines).map Line.ofText) ∧
    progress.position.targets ((progress.sift usable lines).map Line.ofText) =
      progress.position.targets (lines.map Line.ofText) := by
  refine sift_related usable Eq ?_ ?_ rfl lines
  · rintro whole part line rfl _
    exact ⟨rfl, rfl⟩
  · rintro whole part line rfl unusable
    obtain ⟨kind, objected⟩ := objection_of_not_usable unusable
    obtain ⟨same, quiet⟩ := follow_of_objection objected
    exact ⟨same, (Request.target?_ofLine _ _).symm.trans quiet⟩

/-- No line that was kept is warned about when the others are gone. -/
theorem warnings_sift_usable (file : Path) (number : Nat) (progress : Progress)
    (lines : List String) :
    progress.warnings file number ((progress.sift usable lines).map Line.ofText) = [] := by
  induction lines generalizing number progress with
  | nil => rfl
  | cons raw rest ih =>
    rw [sift]
    cases stays : progress.usable (Line.ofText raw) with
    | true =>
      have quiet := Option.isNone_iff_eq_none.mp stays
      simp only [↓reduceIte, List.map_cons, warnings, quiet, Option.map_none, Option.toList_none,
        List.nil_append]
      exact ih _ _
    | false =>
      obtain ⟨kind, objected⟩ := objection_of_not_usable stays
      have same := (follow_of_objection objected).1
      simp only [same, Bool.false_eq_true, ↓reduceIte]
      exact ih _ _

/-- The lines that are kept are those without a warning of their number. -/
theorem sift_usable_eq (file : Path) (number : Nat) (progress : Progress) (lines : List String) :
    progress.sift usable lines =
      ((lines.zipIdx number).filter fun line =>
        line.2 ∉ (progress.warnings file number (lines.map Line.ofText)).map Warning.line).map
          Prod.fst := by
  induction lines generalizing number progress with
  | nil => rfl
  | cons raw rest ih =>
    let after := progress.follow (.ofLine progress.position (.ofText raw))
    have here : number ∉ (after.warnings file (number + 1) (rest.map Line.ofText)).map
        Warning.line := by
      intro member
      obtain ⟨warning, listed, same⟩ := List.mem_map.mp member
      have above := le_line_of_mem_warnings listed
      omega
    have later := ih (number + 1) after
    rw [sift, List.map_cons, List.zipIdx_cons]
    cases objected : progress.model.objection? (.ofLine progress.position (.ofText raw)) with
    | none =>
      simp only [usable, objected, Option.isNone_none, ↓reduceIte, warnings, Option.map_none,
        Option.toList_none, List.nil_append]
      rw [List.filter_cons_of_pos (by simpa [after] using here), List.map_cons]
      exact congrArg _ later
    | some kind =>
      simp only [usable, objected, Option.isNone_some, Bool.false_eq_true, ↓reduceIte, warnings,
        Option.map_some, Option.toList_some, List.singleton_append, List.map_cons]
      rw [List.filter_cons_of_neg (by simp)]
      refine later.trans (congrArg _ (List.filter_congr ?_))
      intro line member
      have above := (List.mem_zipIdx member).1
      have apart : line.2 ≠ number := by omega
      simp [apart, after]

end Progress

/-- Of lines that are read in any state, those that a warning was recorded for can be taken out:
reading the others comes to the same model, stanza, scope, domain and counts, includes the same
files and records no warning. -/
theorem warned_lines_change_nothing (file : Path) (number : Nat) (lines : List String)
    (session : Session) :
    let whole := Session.readLines file number lines session
    ∃ recorded : List Warning, whole.1.warnings = recorded.reverse ++ session.warnings ∧
      let used :=
        ((lines.zipIdx number).filter fun line => line.2 ∉ recorded.map Warning.line).map Prod.fst
      let part := Session.readLines file number used session
      part.1.progress = whole.1.progress ∧ part.1.warnings = session.warnings ∧
      session.progress.position.targets (used.map Line.ofText) =
        session.progress.position.targets (lines.map Line.ofText) ∧
      part.2.map Pending.path = whole.2.map Pending.path := by
  intro whole
  refine ⟨session.progress.warnings file number (lines.map Line.ofText),
    Session.warnings_readLines file number lines session, ?_⟩
  rw [← Progress.sift_usable_eq]
  intro used part
  obtain ⟨ended, included⟩ := session.progress.readAll_sift_usable lines
  refine ⟨?_, ?_, included, ?_⟩
  · rw [Session.progress_readLines, Session.progress_readLines]
    exact ended.symm
  · rw [Session.warnings_readLines, Progress.warnings_sift_usable]
    rfl
  · rw [Session.found_readLines, Session.found_readLines]
    exact congrArg _ included

end StanzaSchema
