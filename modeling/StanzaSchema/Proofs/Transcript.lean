import StanzaSchema.Proofs.Routing
import StanzaSchema.Proofs.Traversal

/-!
The lines of a run in the order in which they were read, over all files, each with the position that
it was read in. Where files begin and end leaves no trace in what they amount to: a run that
succeeds is its transcript, request by request.
-/

namespace StanzaSchema

/-- A line and the position that it was read in. -/
structure RoutedLine where
  position : Position
  line : Line
deriving DecidableEq

def RoutedLine.request (routed : RoutedLine) : Request := .ofLine routed.position routed.line

/-- Lines with the position that each one is read in. -/
def Position.route : Position → List Line → List RoutedLine
  | _, [] => []
  | position, line :: rest =>
    ⟨position, line⟩ :: (position.follow (.ofLine position line)).route rest

def Source.lines (source : Source) : List Line := (Text.physicalLines source.text).map Line.ofText

namespace Progress

/-- What has been read after further lines. -/
def readAll (progress : Progress) (lines : List Line) : Progress :=
  lines.foldl (fun progress line => progress.follow (.ofLine progress.position line)) progress

theorem readAll_cons (progress : Progress) (line : Line) (rest : List Line) :
    progress.readAll (line :: rest) =
      (progress.follow (.ofLine progress.position line)).readAll rest := rfl

theorem readAll_append (progress : Progress) (first second : List Line) :
    progress.readAll (first ++ second) = (progress.readAll first).readAll second :=
  List.foldl_append

/-- What holds at first and is kept by every line holds after any lines. -/
theorem readAll_induction {Holds : Progress → Prop}
    (step : ∀ progress line, Holds progress →
      Holds (progress.follow (.ofLine progress.position line)))
    {progress : Progress} (holds : Holds progress) (lines : List Line) :
    Holds (progress.readAll lines) := by
  induction lines generalizing progress with
  | nil => exact holds
  | cons line rest ih => exact ih (step progress line holds)

end Progress

theorem Session.progress_accept (session : Session) (place : Place) (line : Line)
    (outcome : Outcome) :
    (session.accept place line outcome).progress = outcome.progress := by
  unfold accept
  split <;> rfl

theorem Session.progress_readLines (file : Path) (number : Nat) (lines : List String)
    (session : Session) :
    (readLines file number lines session).1.progress =
      session.progress.readAll (lines.map Line.ofText) := by
  induction lines generalizing number session with
  | nil => rfl
  | cons raw rest ih =>
    rw [readLines, List.map_cons, Progress.readAll_cons,
      ← Progress.progress_readLine _ ⟨file, number⟩,
      ← session.progress_accept ⟨file, number⟩ (Line.ofText raw)]
    exact ih _ _

theorem Session.progress_readFile (session : Session) (source : Source) :
    (session.readFile source.file source.text).1.progress = session.progress.readAll source.lines :=
  progress_readLines ..

namespace Tour

/-- What a tour has read so far is what the files in its journal say. -/
def Told (tour : Tour) : Prop :=
  tour.session.progress = Progress.start.readAll ((Stop.sources tour.stops).flatMap Source.lines)

theorem Told.skip {tour : Tour} (told : Told tour) (pending : Pending) :
    Told (tour.skip pending) := by
  simp only [Told, Tour.skip, Session.warn, Stop.sources_concat] at told ⊢
  simpa [Stop.source?] using told

theorem Told.scan {tour : Tour} (told : Told tour) (source : Source) :
    Told (tour.scan source).1 := by
  simp only [Told, Tour.scan, Stop.sources_concat, Session.progress_readFile] at told ⊢
  simp [Stop.source?, told, Progress.readAll_append]

theorem Told.mark {tour : Tour} (told : Told tour) (file : FileId) (pending : Pending) :
    Told (tour.mark file pending) := told

theorem Told.abandon {tour : Tour} (told : Told tour) (pending : Pending) (fault : IoFault) :
    Told (tour.abandon pending fault) := by
  simp only [Told, Tour.abandon, Session.note, Stop.sources_concat] at told ⊢
  simpa [Stop.source?] using told

end Tour

/-- All lines that a run reads, in their order over all files. -/
def scannedLines (volume : Volume) (text : String) (origin : Path) : List Line :=
  (Stop.sources (Tour.depthFirst volume text origin).last.stops).flatMap Source.lines

/-- The lines of a run, each with the position that it was read in. -/
def transcript (volume : Volume) (text : String) (origin : Path) : List RoutedLine :=
  Position.start.route (scannedLines volume text origin)

section Success

variable {volume : Volume} {text : String} {origin : Path} {compilation : Compilation}

theorem failure_of_ok (success : (compileText volume text origin).result = .ok compilation) :
    (Tour.depthFirst volume text origin).failure = none := by
  rw [Tour.compileText_eq_report, Tour.Course.report] at success
  cases failed : (Tour.depthFirst volume text origin).failure with
  | some failure => simp [failed] at success
  | none => rfl

/-- A run that succeeds amounts to the lines that it read. -/
theorem compilation_of_ok (success : (compileText volume text origin).result = .ok compilation) :
    compilation = (Tour.depthFirst volume text origin).last.session.compilation := by
  have passed := failure_of_ok success
  rw [Tour.compileText_eq_report, Tour.Course.report] at success
  simp only [passed, Except.ok.injEq] at success
  exact success.symm

theorem progress_depthFirst (volume : Volume) (text : String) (origin : Path) :
    (Tour.depthFirst volume text origin).last.session.progress =
      Progress.start.readAll (scannedLines volume text origin) := by
  have untold : Tour.Told (Tour.outset volume origin) := rfl
  exact (Tour.visits_depthFirst volume text origin).keeps (fun _ told => told.skip _)
    (fun _ _ told =>
      (told.mark _ _).scan _) (fun _ _ told => (told.mark _ _).abandon _ _) (untold.scan _)

theorem model_of_ok (success : (compileText volume text origin).result = .ok compilation) :
    compilation.model = (Progress.start.readAll (scannedLines volume text origin)).model := by
  rw [compilation_of_ok success, ← progress_depthFirst]
  rfl

end Success

end StanzaSchema
