import StanzaSchema.Proofs.Cutting
import StanzaSchema.Proofs.Places

/-!
All files of a run as one text. A line that includes a file does nothing where it stands, so a
comment can take its place; and where a file begins or ends makes no difference to the lines after
it. The one text therefore amounts to the same as the files, without any of them.
-/

namespace StanzaSchema

/-- A line that says nothing outside a stanza. -/
def commentText : String := "//"

/-- The text of a line, or a comment in its place when the line includes a file. -/
def RoutedLine.silenced (routed : RoutedLine) (raw : String) : String :=
  if routed.target?.isSome then commentText else raw

/-- Texts of lines, with comments in place of those that include files. -/
def Position.silence (position : Position) (raws : List String) : List String :=
  (position.route (raws.map Line.ofText)).zipWith RoutedLine.silenced raws

theorem Position.silence_cons (position : Position) (raw : String) (rest : List String) :
    position.silence (raw :: rest) = (RoutedLine.mk position (.ofText raw)).silenced raw ::
      (position.follow (.ofLine position (.ofText raw))).silence rest := rfl

theorem Position.length_silence (position : Position) (raws : List String) :
    (position.silence raws).length = raws.length := by
  induction raws generalizing position with
  | nil => rfl
  | cons raw rest ih => rw [silence_cons, List.length_cons, ih, List.length_cons]

/-- A line that includes a file asks for nothing else, and a comment at the same position asks for
nothing at all. -/
theorem Request.ofLine_of_target {position : Position} {line : Line} {target : String}
    (included : (RoutedLine.mk position line).target? = some target) :
    ofLine position line = .includeFile target ∧
      ofLine position (.ofText commentText) = .nothing := by
  constructor
  · rw [← target?_ofLine] at included
    cases asked : ofLine position line with
    | includeFile other =>
      rw [asked] at included
      exact congrArg _ (Option.some.inj included)
    | _ =>
      rw [asked] at included
      cases included
  · have comment : (Line.ofText commentText).isBlank = false ∧
        (Line.ofText commentText).classify = .comment := by
      decide
    unfold RoutedLine.target? at included
    split at included
    next closed _ =>
      simp only at closed
      simp only [ofLine, comment, closed, Bool.false_eq_true, ↓reduceIte, outside]
    next => cases included

namespace Progress

/-- What is wrong with lines, wherever they stand. -/
def objections : Progress → List Line → List (WarningKind × String)
  | _, [] => []
  | progress, line :: rest =>
    let request := Request.ofLine progress.position line
    ((progress.model.objection? request).map fun kind => (kind, line.text)).toList ++
      (progress.follow request).objections rest

/-- With comments in place of the lines that include files, lines come to the same and include
nothing. -/
theorem readAll_silence (progress : Progress) (raws : List String) :
    let silent := (progress.position.silence raws).map Line.ofText
    progress.readAll silent = progress.readAll (raws.map Line.ofText) ∧
      progress.objections silent = progress.objections (raws.map Line.ofText) ∧
      progress.position.targets silent = [] := by
  induction raws generalizing progress with
  | nil => exact ⟨rfl, rfl, rfl⟩
  | cons raw rest ih =>
    simp only [Position.silence_cons, List.map_cons, readAll_cons, objections,
      Position.targets_cons, RoutedLine.silenced]
    cases included : (RoutedLine.mk progress.position (.ofText raw)).target? with
    | none =>
      obtain ⟨same, objected, quiet⟩ :=
        ih (progress.follow (.ofLine progress.position (.ofText raw)))
      rw [position_follow] at same objected quiet
      simp only [Option.isSome_none, Bool.false_eq_true, ↓reduceIte, included, same,
        objected, quiet, Option.toList_none, List.nil_append, and_self]
    | some target =>
      obtain ⟨asked, silent⟩ := Request.ofLine_of_target included
      -- Neither the line nor the comment changes anything, so both runs go on from here.
      have stays : progress.follow (.includeFile target) = progress ∧
          progress.follow .nothing = progress :=
        ⟨rfl, rfl⟩
      have moved : progress.position.follow .nothing = progress.position := rfl
      have quiet : (RoutedLine.mk progress.position (.ofText commentText)).target? = none := by
        rw [← Request.target?_ofLine, silent]
        rfl
      simp only [Option.isSome_some, ↓reduceIte, asked, silent, quiet, stays, moved,
        Model.objection?, Option.map_none, Option.toList_none, List.nil_append]
      exact ih progress

end Progress

theorem Position.whole_of_mem_silence {raws : List String} (whole : ∀ raw ∈ raws, '\n' ∉ raw.toList)
    (position : Position) : ∀ raw ∈ position.silence raws, '\n' ∉ raw.toList := by
  induction raws generalizing position with
  | nil => nofun
  | cons first rest ih =>
    intro raw listed
    rcases List.mem_cons.mp listed with rfl | later
    · unfold RoutedLine.silenced
      split
      · decide
      · exact whole first List.mem_cons_self
    · exact ih (fun other member => whole other (List.mem_cons_of_mem first member)) _ raw later

/-- A warning without its place. -/
def Warning.unplaced (warning : Warning) : WarningKind × String := (warning.kind, warning.content)

theorem Progress.unplaced_gather (progress : Progress) (lines : List PlacedLine) :
    (progress.gather PlacedLine.report? lines).map Warning.unplaced =
      progress.objections (lines.map PlacedLine.line) := by
  induction lines generalizing progress with
  | nil => rfl
  | cons placed rest ih =>
    rw [gather, List.map_append, ih, List.map_cons, objections, PlacedLine.report?]
    cases progress.model.objection? (.ofLine progress.position placed.line) <;> rfl

/-- What a text that includes nothing amounts to. -/
theorem compileText_alone {text : String}
    (alone : Position.start.targets ((Text.physicalLines text).map Line.ofText) = [])
    (volume : Volume) (origin : Path) :
    let lines := (Text.physicalLines text).map Line.ofText
    ∃ compilation, (compileText volume text origin).result = .ok compilation ∧
      compilation.model = (Progress.start.readAll lines).model ∧
      compilation.tally = ⟨1, lines.length, (Progress.start.readAll lines).tableCount,
        (Progress.start.readAll lines).columnCount⟩ ∧
      compilation.warnings.map Warning.unplaced = Progress.start.objections lines := by
  let source : Source := ⟨origin, text⟩
  have progress := Session.start.progress_readFile source
  obtain ⟨files, lines⟩ := Session.start.counts_readFile source
  have warned := Session.start.warnings_readFile source
  have none : Session.start.lines = 0 ∧ Session.start.warnings = [] := ⟨rfl, rfl⟩
  rw [none.1, Nat.zero_add] at lines
  rw [none.2, List.append_nil] at warned
  refine ⟨_, compileText_of_targets_nil alone volume origin,
    congrArg Progress.model progress, ?_, ?_⟩
  · rw [Session.compilation, progress, files, lines]
    rfl
  · rw [Session.compilation, warned, List.reverse_reverse, Progress.unplaced_gather, Source.placed,
      lines_placeLines]
    rfl

section Flattened

variable (volume : Volume) (text : String) (origin : Path)

/-- The lines of all files that a run reads, as they stand there. -/
def scannedTexts : List String :=
  (scannedSources volume text origin).flatMap fun source => Text.physicalLines source.text

/-- All files that a run reads as one text, which includes nothing. -/
def flattened : String :=
  String.singleton Text.byteOrderMark ++
    Text.unlines (Position.start.silence (scannedTexts volume text origin))

private theorem ofText_scannedTexts :
    (scannedTexts volume text origin).map Line.ofText = scannedLines volume text origin :=
  List.map_flatMap

private theorem ofText_flattened :
    (Text.physicalLines (flattened volume text origin)).map Line.ofText =
    (Position.start.silence (scannedTexts volume text origin)).map Line.ofText := by
  have whole : ∀ raw ∈ scannedTexts volume text origin, '\n' ∉ raw.toList := by
    intro raw listed
    obtain ⟨source, _, member⟩ := List.mem_flatMap.mp listed
    exact Text.whole_of_mem_physicalLines member
  have trimmed := Text.trim_physicalLines (Position.start.whole_of_mem_silence whole)
  have same := congrArg (List.map Line.mk) trimmed
  rwa [List.map_map, List.map_map] at same

/-- The one text comes to what the files come to, and includes nothing. -/
theorem read_flattened :
    let lines := (Text.physicalLines (flattened volume text origin)).map Line.ofText
    Progress.start.readAll lines = Progress.start.readAll (scannedLines volume text origin) ∧
      Progress.start.objections lines =
        Progress.start.objections (scannedLines volume text origin) ∧
      Position.start.targets lines = [] := by
  rw [ofText_flattened, ← ofText_scannedTexts]
  exact Progress.start.readAll_silence (scannedTexts volume text origin)

private theorem length_flattened :
    ((Text.physicalLines (flattened volume text origin)).map Line.ofText).length =
      (scannedLines volume text origin).length := by
  rw [ofText_flattened, List.length_map, Position.length_silence, ← ofText_scannedTexts,
    List.length_map]

end Flattened

/-- Where files begin and end makes no difference. The lines of all files that a run reads, with
comments in place of the directives that include files, make up one text; read from anywhere, that
text gives the same model, the same counts but for that of the files, and the same warnings but for
their places and for those about repeated files. -/
theorem files_flatten {volume : Volume} {text : String} {origin : Path} {compilation : Compilation}
    (success : (compileText volume text origin).result = .ok compilation) (elsewhere : Volume)
    (place : Path) :
    ∃ flat, (compileText elsewhere (flattened volume text origin) place).result = .ok flat ∧
      flat.model = compilation.model ∧
      flat.tally = { compilation.tally with files := 1 } ∧
      flat.warnings.map Warning.unplaced =
        (Warning.ofLines compilation.warnings).map Warning.unplaced := by
  obtain ⟨read, objected, alone⟩ := read_flattened volume text origin
  obtain ⟨flat, passed, model, tally, warnings⟩ := compileText_alone alone elsewhere place
  refine ⟨flat, passed, ?_, ?_, ?_⟩
  · rw [model, read, model_of_ok success]
  · rw [tally, read, length_flattened, tally_of_ok success]
  · rw [warnings, objected, ofLines_of_ok success, Progress.unplaced_gather, lines_scannedPlaces]

/-- Two files with marks and ends of lines of all kinds, the second one of which goes on with an
open stanza and is included twice more. -/
theorem files_flatten_bookstore :
    ∃ compilation flat,
      (compileText Bookstore.annotated Bookstore.ledger Bookstore.origin).result = .ok compilation ∧
      (compileText Bookstore.volume
        (flattened Bookstore.annotated Bookstore.ledger Bookstore.origin)
        inlineOrigin).result = .ok flat ∧
      flat.model = compilation.model ∧ compilation.tally = ⟨2, 9, 1, 2⟩ ∧
        flat.tally = ⟨1, 9, 1, 2⟩ ∧
      flat.warnings.map Warning.unplaced = [(.unknownColumn, "\"Pages missing"),
        (.outsideStanza, "stray")] := by
  obtain ⟨compilation, finished, told⟩ := Option.map_eq_some_iff.mp Bookstore.ledger_compileWithin
  obtain ⟨tally, warnings⟩ := Prod.mk.inj told
  have success := compileText_of_compileWithin finished
  obtain ⟨flat, passed, model, counts, warned⟩ :=
    files_flatten success Bookstore.volume inlineOrigin
  refine ⟨compilation, flat, success, passed, model, tally, ?_, ?_⟩
  · rw [counts, tally]
  · rw [warned, warnings]
    decide

end StanzaSchema
