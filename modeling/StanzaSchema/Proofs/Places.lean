import StanzaSchema.Proofs.Bounded
import StanzaSchema.Proofs.Notices

/-!
Lines at their places. What lines give notice of is gathered in the order in which they are read,
over all files, each notice with the file and the number of its line. A session records just these
notices, and besides them one for each file that it passes over; its counts are those of the files
and lines that it has read.
-/

namespace StanzaSchema

/-- A line and where it stands. -/
structure PlacedLine where
  place : Place
  line : Line
deriving DecidableEq

/-- Lines of a file, the first of which has this number. -/
def placeLines (file : Path) (number : Nat) (lines : List Line) : List PlacedLine :=
  (lines.zipIdx number).map fun numbered => ⟨⟨file, numbered.2⟩, numbered.1⟩

def Source.placed (source : Source) : List PlacedLine := placeLines source.file 1 source.lines

/-- The warning that an include is passed over. -/
def Pending.warning (pending : Pending) : Warning :=
  ⟨pending.includedFrom.text, pending.line, .repeatedInclude, pending.path.text⟩

namespace PlacedLine

/-- The warning that a line causes. -/
def report? (progress : Progress) (placed : PlacedLine) : Option Warning :=
  (progress.model.objection? (.ofLine progress.position placed.line)).map fun kind =>
    ⟨placed.place.file.text, placed.place.line, kind, placed.line.text⟩

/-- The file that a line includes. -/
def pending? (progress : Progress) (placed : PlacedLine) : Option Pending :=
  (RoutedLine.mk progress.position placed.line).target?.map fun target =>
    .ofTarget placed.place.file target placed.place.line

end PlacedLine

theorem placeLines_cons (file : Path) (number : Nat) (line : Line) (rest : List Line) :
    placeLines file number (line :: rest) =
      ⟨⟨file, number⟩, line⟩ :: placeLines file (number + 1) rest := by
  rw [placeLines, List.zipIdx_cons]
  rfl

theorem lines_placeLines (file : Path) (number : Nat) (lines : List Line) :
    (placeLines file number lines).map PlacedLine.line = lines := by
  rw [placeLines, List.map_map]
  exact List.zipIdx_map_fst number lines

theorem lines_placed (sources : List Source) :
    (sources.flatMap Source.placed).map PlacedLine.line = sources.flatMap Source.lines := by
  have each : (fun source : Source => source.placed.map PlacedLine.line) = Source.lines :=
    funext fun source => lines_placeLines ..
  rw [List.map_flatMap, each]

namespace Progress

variable {δ ε : Type}

/-- What lines tell, each in the state that it is read in. -/
def gather (tell? : Progress → PlacedLine → Option δ) : Progress → List PlacedLine → List δ
  | _, [] => []
  | progress, placed :: rest =>
    (tell? progress placed).toList ++
      gather tell? (progress.follow (.ofLine progress.position placed.line)) rest

theorem gather_append (tell? : Progress → PlacedLine → Option δ) (progress : Progress)
    (first second : List PlacedLine) :
    progress.gather tell? (first ++ second) =
      progress.gather tell? first ++
        (progress.readAll (first.map PlacedLine.line)).gather tell? second := by
  induction first generalizing progress with
  | nil => rfl
  | cons placed rest ih =>
    rw [List.cons_append, gather, gather, ih, List.append_assoc]
    rfl

/-- What is told comes from a line. -/
theorem exists_of_mem_gather {tell? : Progress → PlacedLine → Option δ} {progress : Progress}
    {lines : List PlacedLine} {told : δ} (member : told ∈ progress.gather tell? lines) :
    ∃ placed ∈ lines, ∃ state : Progress, tell? state placed = some told := by
  induction lines generalizing progress with
  | nil => cases member
  | cons placed rest ih =>
    rcases List.mem_append.mp member with here | later
    · exact ⟨placed, List.mem_cons_self, progress, Option.mem_toList.mp here⟩
    · obtain ⟨other, listed, found⟩ := ih later
      exact ⟨other, List.mem_cons_of_mem _ listed, found⟩

theorem map_gather (change : δ → ε) (tell? : Progress → PlacedLine → Option δ) (progress : Progress)
    (lines : List PlacedLine) :
    (progress.gather tell? lines).map change =
      progress.gather (fun state placed => (tell? state placed).map change) lines := by
  induction lines generalizing progress with
  | nil => rfl
  | cons placed rest ih =>
    rw [gather, gather, List.map_append, ih]
    cases tell? progress placed <;> rfl

/-- As many files are gathered as lines include. -/
theorem length_gather_pending (progress : Progress) (lines : List PlacedLine) :
    (progress.gather PlacedLine.pending? lines).length =
      (progress.position.targets (lines.map PlacedLine.line)).length := by
  induction lines generalizing progress with
  | nil => rfl
  | cons placed rest ih =>
    rw [gather, List.map_cons, Position.targets_cons, List.length_append, List.length_append, ih,
      PlacedLine.pending?]
    cases (RoutedLine.mk progress.position placed.line).target? <;> rfl

theorem warnings_eq_gather (file : Path) (number : Nat) (progress : Progress) (lines : List Line) :
    progress.warnings file number lines =
      progress.gather PlacedLine.report? (placeLines file number lines) := by
  induction lines generalizing number progress with
  | nil => rfl
  | cons line rest ih =>
    rw [warnings, ih, placeLines_cons]
    rfl

end Progress

/-- A view rejects a line for what stands on it. -/
theorem View.kind_of_readLine {line : Line} {view : View} {kind : WarningKind}
    (rejected : view.readLine line = .error kind) :
    kind = .invalidProperty ∨ kind = .malformedProperty := by
  unfold readLine Progress.changeView at rejected
  grind

/-- A line is refused for its form. -/
theorem Request.kind_of_refused {position : Position} {line : Line} {kind : WarningKind}
    (refused : ofLine position line = .refused kind) :
    kind = .outsideStanza ∨ kind = .emptyName ∨ kind = .tooFewTokens := by
  unfold ofLine at refused
  split at refused
  · cases refused
  · split at refused
    next =>
      unfold outside ofDirective at refused
      grind
    next =>
      unfold inTable at refused
      grind
    next =>
      unfold inAuthorization at refused
      grind
    next => cases refused
    next => cases refused

/-- No line is warned about as a file is that is passed over. -/
theorem Model.objection?_ofLine (model : Model) (position : Position) (line : Line) :
    model.objection? (.ofLine position line) ≠ some .repeatedInclude := by
  intro objected
  generalize told : Request.ofLine position line = request at objected
  cases request with
  | refused kind =>
    cases objected
    rcases Request.kind_of_refused told with kind | kind | kind <;> cases kind
  | describeColumn scope column text =>
    simp only [objection?] at objected
    split at objected <;> cases objected
  | authorize scope operation role authorizer =>
    simp only [objection?] at objected
    split at objected <;> cases objected
  | changeView scope kind content =>
    simp only [objection?] at objected
    split at objected
    next view found =>
      split at objected
      next => cases objected
      next kind rejected =>
        cases objected
        rcases View.kind_of_readLine rejected with kind | kind <;> cases kind
    next => cases objected
  | _ => cases objected

namespace Session

theorem found_eq_gather (file : Path) (number : Nat) (lines : List String) (session : Session) :
    (readLines file number lines session).2 =
      session.progress.gather PlacedLine.pending?
      (placeLines file number (lines.map Line.ofText)) := by
  induction lines generalizing number session with
  | nil => rfl
  | cons raw rest ih =>
    have answer := session.progress.answers_readLine ⟨file, number⟩ (.ofText raw)
    simp only [readLines, List.map_cons, placeLines_cons, Progress.gather, ih, progress_accept,
      answer.progress, answer.pending, Request.target?_ofLine, PlacedLine.pending?]

private theorem counts_accept (session : Session) (place : Place) (line : Line)
    (outcome : Outcome) :
    (session.accept place line outcome).files = session.files ∧
      (session.accept place line outcome).lines = session.lines + 1 := by
  unfold accept
  split <;> exact ⟨rfl, rfl⟩

private theorem counts_readLines (file : Path) (number : Nat) (lines : List String)
    (session : Session) :
    (readLines file number lines session).1.files = session.files ∧
      (readLines file number lines session).1.lines = session.lines + lines.length := by
  induction lines generalizing number session with
  | nil => exact ⟨rfl, rfl⟩
  | cons raw rest ih =>
    rw [readLines]
    obtain ⟨files, counted⟩ := session.counts_accept ⟨file, number⟩ (.ofText raw)
      (session.progress.readLine ⟨file, number⟩ (.ofText raw))
    obtain ⟨still, more⟩ := ih (number + 1) (session.accept ⟨file, number⟩ (.ofText raw)
      (session.progress.readLine ⟨file, number⟩ (.ofText raw)))
    refine ⟨still.trans files, more.trans ?_⟩
    rw [counted, List.length_cons]
    omega

theorem counts_readFile (session : Session) (source : Source) :
    (session.readFile source.file source.text).1.files = session.files + 1 ∧
      (session.readFile source.file source.text).1.lines = session.lines + source.lines.length := by
  simp only [readFile, note, counts_readLines, Source.lines, List.length_map, and_self]

theorem warnings_readFile (session : Session) (source : Source) :
    (session.readFile source.file source.text).1.warnings =
      (session.progress.gather PlacedLine.report? source.placed).reverse ++ session.warnings := by
  rw [Source.placed, ← Progress.warnings_eq_gather]
  simp only [readFile, note, warnings_readLines, Source.lines]

theorem found_readFile (session : Session) (source : Source) :
    (session.readFile source.file source.text).2 =
      session.progress.gather PlacedLine.pending? source.placed :=
  found_eq_gather ..

end Session

/-- The includes that were passed over, in their order. -/
def Stop.repeats (stops : List Stop) : List Pending :=
  stops.filterMap fun
    | .repeated pending => some pending
    | _ => none

namespace Warning

/-- The warnings about lines. -/
def ofLines (warnings : List Warning) : List Warning :=
  warnings.filter fun warning => warning.kind ≠ .repeatedInclude

/-- The warnings about files that are passed over. -/
def ofRepeats (warnings : List Warning) : List Warning :=
  warnings.filter fun warning => warning.kind = .repeatedInclude

theorem ofLines_append (first second : List Warning) :
    ofLines (first ++ second) = ofLines first ++ ofLines second :=
  List.filter_append ..

theorem ofRepeats_append (first second : List Warning) :
    ofRepeats (first ++ second) = ofRepeats first ++ ofRepeats second :=
  List.filter_append ..

variable (progress : Progress) (lines : List PlacedLine)

private theorem kind_of_mem_gather {warning : Warning}
    (member : warning ∈ progress.gather PlacedLine.report? lines) :
    warning.kind ≠ .repeatedInclude := by
  obtain ⟨placed, _, state, reported⟩ := Progress.exists_of_mem_gather member
  obtain ⟨kind, objected, rfl⟩ := Option.map_eq_some_iff.mp reported
  rintro rfl
  exact state.model.objection?_ofLine state.position placed.line objected

theorem ofLines_gather :
    ofLines (progress.gather PlacedLine.report? lines) =
      progress.gather PlacedLine.report? lines := by
  apply List.filter_eq_self.mpr
  intro warning member
  simpa using kind_of_mem_gather progress lines member

theorem ofRepeats_gather : ofRepeats (progress.gather PlacedLine.report? lines) = [] := by
  apply List.filter_eq_nil_iff.mpr
  intro warning member
  simpa using kind_of_mem_gather progress lines member

end Warning

namespace Tour

/-- The records of a tour are those of the files in its journal. -/
structure Audited (tour : Tour) : Prop where
  told : tour.Told
  files : tour.session.files = (Stop.sources tour.stops).length
  lines : tour.session.lines = ((Stop.sources tour.stops).flatMap Source.lines).length
  reports : Warning.ofLines tour.session.warnings.reverse =
    Progress.start.gather PlacedLine.report? ((Stop.sources tour.stops).flatMap Source.placed)
  repeats : Warning.ofRepeats tour.session.warnings.reverse =
    (Stop.repeats tour.stops).map Pending.warning

namespace Audited

variable {tour : Tour}

theorem skip (audited : Audited tour) (pending : Pending) : Audited (tour.skip pending) where
  told := audited.told.skip pending
  files := by simpa [Tour.skip, Session.warn, Stop.sources_concat, Stop.source?] using audited.files
  lines := by simpa [Tour.skip, Session.warn, Stop.sources_concat, Stop.source?] using audited.lines
  reports := by
    simpa [Tour.skip, Session.warn, Stop.sources_concat, Stop.source?,
      Warning.ofLines] using audited.reports
  repeats := by
    simpa [Tour.skip, Session.warn, Stop.repeats, Warning.ofRepeats,
      Pending.warning] using audited.repeats

theorem mark (audited : Audited tour) (file : FileId) (pending : Pending) :
    Audited (tour.mark file pending) :=
  ⟨audited.told, audited.files, audited.lines, audited.reports, audited.repeats⟩

theorem abandon (audited : Audited tour) (pending : Pending) (fault : IoFault) :
    Audited (tour.abandon pending fault) where
  told := audited.told.abandon pending fault
  files := by simpa [Tour.abandon, Session.note, Stop.sources_concat,
    Stop.source?] using audited.files
  lines := by simpa [Tour.abandon, Session.note, Stop.sources_concat,
    Stop.source?] using audited.lines
  reports := by
    simpa [Tour.abandon, Session.note, Stop.sources_concat, Stop.source?] using audited.reports
  repeats := by simpa [Tour.abandon, Session.note, Stop.repeats] using audited.repeats

theorem scan (audited : Audited tour) (source : Source) : Audited (tour.scan source).1 := by
  obtain ⟨files, lines⟩ := tour.session.counts_readFile source
  have sources : Stop.sources (tour.scan source).1.stops = Stop.sources tour.stops ++ [source] :=
    Stop.sources_concat ..
  have warned : (tour.scan source).1.session.warnings.reverse = tour.session.warnings.reverse ++
      tour.session.progress.gather PlacedLine.report? source.placed := by
    rw [Tour.scan, Session.warnings_readFile, List.reverse_append, List.reverse_reverse]
  refine ⟨audited.told.scan source, ?_, ?_, ?_, ?_⟩
  · rw [sources, List.length_append, ← audited.files]
    exact files
  · rw [sources, List.flatMap_append, List.length_append, ← audited.lines, List.flatMap_singleton]
    exact lines
  · rw [sources, warned, Warning.ofLines_append, Warning.ofLines_gather, audited.reports,
      List.flatMap_append, Progress.gather_append, lines_placed, ← audited.told,
      List.flatMap_singleton]
  · rw [warned, Warning.ofRepeats_append, Warning.ofRepeats_gather, List.append_nil,
      audited.repeats]
    simp [Tour.scan, Stop.repeats]

end Audited

theorem audited_depthFirst (volume : Volume) (text : String) (origin : Path) :
    Audited (depthFirst volume text origin).last := by
  have untold : Audited (outset volume origin) := ⟨rfl, rfl, rfl, rfl, rfl⟩
  exact (visits_depthFirst volume text origin).keeps (fun _ audited => audited.skip _)
    (fun _ _ audited => (audited.mark _ _).scan _)
    (fun _ _ audited => (audited.mark _ _).abandon _ _) (untold.scan _)

end Tour

/-- The files that a run reads, in their order. -/
def scannedSources (volume : Volume) (text : String) (origin : Path) : List Source :=
  Stop.sources (Tour.depthFirst volume text origin).last.stops

/-- All lines that a run reads, each at its place. -/
def scannedPlaces (volume : Volume) (text : String) (origin : Path) : List PlacedLine :=
  (scannedSources volume text origin).flatMap Source.placed

theorem lines_scannedPlaces (volume : Volume) (text : String) (origin : Path) :
    (scannedPlaces volume text origin).map PlacedLine.line = scannedLines volume text origin :=
  lines_placed ..

section Success

variable {volume : Volume} {text : String} {origin : Path} {compilation : Compilation}

theorem tally_of_ok (success : (compileText volume text origin).result = .ok compilation) :
    let last := Progress.start.readAll (scannedLines volume text origin)
    compilation.tally = ⟨(scannedSources volume text origin).length,
      (scannedLines volume text origin).length, last.tableCount, last.columnCount⟩ := by
  have audited := Tour.audited_depthFirst volume text origin
  rw [compilation_of_ok success, Session.compilation, audited.files, audited.lines,
    progress_depthFirst]
  rfl

theorem ofLines_of_ok (success : (compileText volume text origin).result = .ok compilation) :
    Warning.ofLines compilation.warnings =
      Progress.start.gather PlacedLine.report? (scannedPlaces volume text origin) := by
  rw [compilation_of_ok success]
  exact (Tour.audited_depthFirst volume text origin).reports

theorem ofRepeats_of_ok (success : (compileText volume text origin).result = .ok compilation) :
    Warning.ofRepeats compilation.warnings =
      (Stop.repeats (Tour.depthFirst volume text origin).last.stops).map Pending.warning := by
  rw [compilation_of_ok success]
  exact (Tour.audited_depthFirst volume text origin).repeats

end Success

namespace Bookstore

/-- The file that the ledger includes. It goes on with the stanza that the ledger leaves open, and
its last line is not ended. -/
def notes : String := ".Price 8,2\r\n\n  stray\r\r\n[Include notes]\r"

def ledger : String := "\uFEFF[Include notes]\r\n[Include notes]\r\n!Book\r\n@ID\r\n\"Pages missing"

def annotated : Volume := .ofTexts (.ofEntries [("notes", notes)])

theorem ledger_compileWithin :
    (compileWithin 3 annotated ledger origin).map (fun compilation =>
      (compilation.tally, compilation.warnings)) =
      some (⟨2, 9, 1, 2⟩, [⟨"catalogue", 5, .unknownColumn, "\"Pages missing"⟩,
        ⟨"notes", 3, .outsideStanza, "stray"⟩, ⟨"notes", 4, .repeatedInclude, "notes"⟩,
        ⟨"catalogue", 2, .repeatedInclude, "notes"⟩]) := by decide +kernel

end Bookstore

end StanzaSchema
