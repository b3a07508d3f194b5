import Mathlib.Algebra.GroupWithZero.Nat
import StanzaSchema.Proofs.Building
import StanzaSchema.Proofs.Effects
import StanzaSchema.Proofs.Places

/-!
The books of a run balance. Every directive that includes a file is followed or reported as a
repetition, once each; every warning is about a line of a file that was read, no two about the same
one; and the counts are those of the lines that were read and of the columns that came of them.
-/

namespace StanzaSchema

namespace Model

variable {model : Model}

/-- A change of a table that keeps its columns keeps the number of all columns. -/
theorem columnCount_modify (scope : String) {change : Table → Table}
    (kept : ∀ table : Table, (change table).columnNames = table.columnNames) :
    Model.columnCount { model with tables := model.tables.modify scope change } =
      model.columnCount := by
  cases found : model.tables.get? scope with
  | none => simp only [OrderedMap.modify, found]
  | some table =>
    have counted := columnCount_setTable found (change table)
    have lengths := congrArg List.length (kept table)
    simp only [Table.columnNames, List.length_map] at lengths
    simp only [OrderedMap.modify, found, setTable] at counted ⊢
    omega

private theorem columnCount_openTable (name domain : String) :
    (model.openTable name domain).1.columnCount = model.columnCount := by
  unfold openTable
  split
  · rfl
  next absent =>
    have new : name ∉ model.tables.keys := fun member => absent (OrderedMap.contains_iff.mpr member)
    simp only [columnCount, OrderedMap.values, OrderedMap.entries_insert_of_not_mem new,
      List.map_append, List.flatMap_append, List.length_append]
    rfl

/-- A request adds just the columns that it is counted for. -/
theorem columnCount_follow (request : Request) :
    (model.follow request).columnCount = model.columnCount + model.columnsAdded request := by
  cases request with
  | openTable stanza name domain => exact columnCount_openTable name domain
  | openViews kind name => simp [follow, columnCount, columnsAdded]
  | declare scope declaration =>
    simp only [follow, columnsAdded]
    rcases model.declareColumn_cases scope (declaration.column scope) with ⟨_, nothing⟩ |
      ⟨_, told, counted, _⟩ |
      ⟨_, told, counted⟩
    · simp [nothing]
    · simp [told, counted]
    · simp [told, counted]
  | describeColumn scope column text =>
    rw [follow, describeColumn_eq]
    refine columnCount_modify scope fun table => ?_
    exact Table.names_modifyFirst _ _ (fun existing => existing.describe_name text) _
  | describeTable scope text =>
    rw [follow, describeTable_eq]
    exact columnCount_modify scope fun _ => rfl
  | authorize scope operation role authorizer =>
    rw [follow, authorize_eq]
    rfl
  | changeView scope kind line =>
    rw [follow, changeView_eq]
    rfl
  | _ => rfl

end Model

/-- The columns that were counted are those of the model. -/
theorem Progress.columnCount_readAll (lines : List Line) :
    (start.readAll lines).columnCount = (start.readAll lines).model.columnCount := by
  have step (progress : Progress) (line : Line)
      (counted : progress.columnCount = progress.model.columnCount) :
      (progress.follow (.ofLine progress.position line)).columnCount =
        (progress.follow (.ofLine progress.position line)).model.columnCount := by
    rw [follow, Model.columnCount_follow, counted]
  exact readAll_induction step rfl lines

/-- A line by its file and its number. -/
def PlacedLine.spot (placed : PlacedLine) : String × Nat :=
  (placed.place.file.text, placed.place.line)

def Warning.spot (warning : Warning) : String × Nat := (warning.file, warning.line)

def Pending.spot (pending : Pending) : String × Nat := (pending.includedFrom.text, pending.line)

/-- In the same file, the one line stands before the other. -/
def Ahead (first second : String × Nat) : Prop := first.1 = second.1 → first.2 < second.2

theorem nodup_of_ahead {spots : List (String × Nat)} (ordered : spots.Pairwise Ahead) :
    spots.Nodup := by
  refine ordered.imp ?_
  rintro first second before rfl
  exact Nat.lt_irrefl _ (before rfl)

namespace Source

/-- A line stands in its file where its number says. -/
theorem stands_of_mem_placed {source : Source} {placed : PlacedLine}
    (member : placed ∈ source.placed) :
    placed.place.file = source.file ∧ 1 ≤ placed.place.line ∧
      placed.place.line ≤ (Text.physicalLines source.text).length ∧
      ∃ raw, (Text.physicalLines source.text)[placed.place.line - 1]? = some raw ∧
        placed.line = .ofText raw := by
  obtain ⟨⟨line, number⟩, listed, rfl⟩ := List.mem_map.mp member
  obtain ⟨positive, found⟩ := List.mk_mem_zipIdx_iff_le_and_getElem?_sub.mp listed
  rw [lines, List.getElem?_map] at found
  obtain ⟨raw, stands, rfl⟩ := Option.map_eq_some_iff.mp found
  obtain ⟨within, _⟩ := List.getElem?_eq_some_iff.mp stands
  exact ⟨rfl, positive, Nat.le_of_pred_lt within, raw, stands, rfl⟩

private theorem ahead_placed (source : Source) :
    (source.placed.map PlacedLine.spot).Pairwise Ahead := by
  have numbered : source.placed.map PlacedLine.spot =
      (List.range' 1 source.lines.length).map fun number => (source.file.text, number) := by
    rw [placed, placeLines, List.map_map, ← List.zipIdx_map_snd 1 source.lines, List.map_map]
    rfl
  rw [numbered]
  exact (List.pairwise_lt_range' 1).map _ fun _ _ less _ => less

/-- Lines of files with different paths are read in their order. -/
theorem ahead_flatMap_placed {sources : List Source} (distinct : (sources.map Source.file).Nodup) :
    ((sources.flatMap Source.placed).map PlacedLine.spot).Pairwise Ahead := by
  rw [List.map_flatMap, List.pairwise_flatMap]
  refine ⟨fun source _ => source.ahead_placed, (List.pairwise_map.mp distinct).imp ?_⟩
  intro first second different one inFirst other inSecond same
  obtain ⟨before, listed, rfl⟩ := List.mem_map.mp inFirst
  obtain ⟨after, later, rfl⟩ := List.mem_map.mp inSecond
  have files : before.place.file = after.place.file := congrArg Path.mk same
  rw [(stands_of_mem_placed listed).1, (stands_of_mem_placed later).1] at files
  exact absurd files different

end Source

namespace Progress

/-- Where what is told stands, line by line, is in the order of the lines. -/
theorem sublist_gather {tell? : Progress → PlacedLine → Option (String × Nat)}
    (stands : ∀ {state placed spot}, tell? state placed = some spot → spot = placed.spot)
    (progress : Progress) (lines : List PlacedLine) :
    (progress.gather tell? lines).Sublist (lines.map PlacedLine.spot) := by
  induction lines generalizing progress with
  | nil => exact .slnil
  | cons placed rest ih =>
    rw [gather, List.map_cons]
    have later := ih (progress.follow (.ofLine progress.position placed.line))
    cases told : tell? progress placed with
    | none => exact later.cons _
    | some spot =>
      rw [stands told]
      exact later.cons_cons _

/-- Two things that are never told of the same line can be told apart or together. -/
theorem gather_or_perm {δ : Type} {first second : Progress → PlacedLine → Option δ}
    (apart : ∀ state placed, first state placed = none ∨ second state placed = none)
    (progress : Progress) (lines : List PlacedLine) :
    (progress.gather first lines ++ progress.gather second lines).Perm
      (progress.gather (fun state placed =>
        (first state placed).or (second state placed)) lines) := by
  induction lines generalizing progress with
  | nil => exact .nil
  | cons placed rest ih =>
    have later := ih (progress.follow (.ofLine progress.position placed.line))
    simp only [gather]
    rcases apart progress placed with none | none
    · rw [none, Option.none_or, Option.toList_none, List.nil_append]
      exact (List.perm_append_comm_assoc ..).trans (later.append_left _)
    · rw [none, Option.or_none, Option.toList_none, List.nil_append, List.append_assoc]
      exact later.append_left _

end Progress

namespace Tour

theorem found_scan (tour : Tour) (source : Source) :
    (tour.scan source).2 = tour.session.progress.gather PlacedLine.pending? source.placed :=
  Session.found_readFile ..

theorem progress_scan (tour : Tour) (source : Source) :
    (tour.scan source).1.session.progress = tour.session.progress.readAll source.lines :=
  Session.progress_readFile ..

/-- How a tour came from one point to another, given the includes that were left at the first: what
it entered and what it passed over, in their order, and the files that it read. -/
structure Settles (tour : Tour) (includes : List Pending) (last : Tour)
    (entered skipped : List Pending) (read : List Source) : Prop where
  sources : Stop.sources last.stops = Stop.sources tour.stops ++ read
  repeats : Stop.repeats last.stops = Stop.repeats tour.stops ++ skipped
  progress : last.session.progress = tour.session.progress.readAll (read.flatMap Source.lines)
  paths : read.map Source.file = entered.map Pending.path
  balance : (entered ++ skipped).Perm
    (includes ++ tour.session.progress.gather PlacedLine.pending? (read.flatMap Source.placed))

namespace Settles

variable {tour middle last : Tour} {includes : List Pending} {pending : Pending}

theorem done (tour : Tour) : Settles tour [] tour [] [] [] :=
  ⟨(List.append_nil _).symm, (List.append_nil _).symm, rfl, rfl, .nil⟩

theorem skip {entered skipped : List Pending} {read : List Source}
    (rest : Settles (tour.skip pending) includes last entered skipped read) :
    Settles tour (pending :: includes) last entered (pending :: skipped) read where
  sources := by
    rw [rest.sources]
    simp [Tour.skip, Stop.sources_concat, Stop.source?]
  repeats := by
    rw [rest.repeats]
    simp [Tour.skip, Stop.repeats]
  progress := rest.progress
  paths := rest.paths
  balance := by
    refine List.perm_middle.trans ?_
    exact rest.balance.cons pending

theorem enter {volume : Volume} {text : String} {inner outer passed skipped : List Pending}
    {inside outside : List Source}
    (within : Settles (tour.enter volume pending text).1 (tour.enter volume pending text).2 middle
      inner passed inside)
    (rest : Settles middle includes last outer skipped outside) :
    Settles tour (pending :: includes) last (pending :: (inner ++ outer)) (passed ++ skipped)
      (⟨pending.path, text⟩ :: (inside ++ outside)) := by
  have entered : (tour.enter volume pending text).1.session.progress =
      tour.session.progress.readAll (Source.lines ⟨pending.path, text⟩) :=
    progress_scan ..
  have found : (tour.enter volume pending text).2 =
      tour.session.progress.gather PlacedLine.pending? (Source.placed ⟨pending.path, text⟩) :=
    found_scan ..
  refine ⟨?_, ?_, ?_, ?_, ?_⟩
  · rw [rest.sources, within.sources]
    simp [Tour.enter, scan, mark, Stop.sources_concat, Stop.source?]
  · rw [rest.repeats, within.repeats]
    simp [Tour.enter, scan, mark, Stop.repeats]
  · rw [rest.progress, within.progress, entered, ← Progress.readAll_append,
      ← Progress.readAll_append, List.flatMap_cons, List.flatMap_append]
  · rw [List.map_cons, List.map_append, List.map_cons, List.map_append, within.paths, rest.paths]
  · have told : tour.session.progress.gather PlacedLine.pending?
        ((⟨pending.path, text⟩ :: (inside ++ outside) : List Source).flatMap Source.placed) =
        ((tour.enter volume pending text).2 ++
          (tour.enter volume pending text).1.session.progress.gather
          PlacedLine.pending? (inside.flatMap Source.placed)) ++
        middle.session.progress.gather PlacedLine.pending? (outside.flatMap Source.placed) := by
      rw [List.flatMap_cons, List.flatMap_append, Progress.gather_append, Progress.gather_append,
        lines_placed, found, within.progress, entered, Source.placed, lines_placeLines,
        List.append_assoc]
    rw [told]
    apply List.Perm.cons
    calc (inner ++ outer) ++ (passed ++ skipped)
      _ = inner ++ (outer ++ (passed ++ skipped)) := List.append_assoc ..
      List.Perm _ (inner ++ (passed ++ (outer ++ skipped))) :=
        (List.perm_append_comm_assoc ..).append_left inner
      _ = (inner ++ passed) ++ (outer ++ skipped) := (List.append_assoc ..).symm
      List.Perm _ _ := within.balance.append rest.balance
      List.Perm _ _ := List.perm_append_comm_assoc ..

end Settles

/-- A tour that meets no failure settles all includes that are left to it. -/
theorem Visits.settles {volume : Volume} {tour last : Tour} {includes : List Pending}
    {failure : Option Failure} (derived : Visits volume tour includes last failure)
    (passed : failure = none) :
    ∃ entered skipped read, Settles tour includes last entered skipped read := by
  induction derived with
  | done => exact ⟨[], [], [], .done _⟩
  | repeated _ _ ih =>
    obtain ⟨entered, skipped, read, rest⟩ := ih passed
    exact ⟨_, _, _, rest.skip⟩
  | unreadable => cases passed
  | failed => cases passed
  | returned _ _ _ _ inside rest =>
    obtain ⟨_, _, _, within⟩ := inside rfl
    obtain ⟨_, _, _, others⟩ := rest passed
    exact ⟨_, _, _, within.enter others⟩

end Tour

/-- The files that lines of a run include, each with the place of its line. -/
def scannedIncludes (volume : Volume) (text : String) (origin : Path) : List Pending :=
  Progress.start.gather PlacedLine.pending? (scannedPlaces volume text origin)

namespace Warning

/-- A warning is about a line of a file that was read: it shows the line, or else the file that the
line includes. -/
def Grounded (volume : Volume) (text : String) (origin : Path) (warning : Warning) : Prop :=
  ∃ source ∈ scannedSources volume text origin, ∃ raw,
    warning.file = source.file.text ∧
    1 ≤ warning.line ∧ warning.line ≤ (Text.physicalLines source.text).length ∧
    (Text.physicalLines source.text)[warning.line - 1]? = some raw ∧
    if warning.kind = .repeatedInclude then
      ∃ target, (Line.ofText raw).classify = .directive ⟨.includeFile, target⟩ ∧
        .ofTarget source.file target warning.line ∈ scannedIncludes volume text origin ∧
        warning.content = (Pending.ofTarget source.file target warning.line).path.text
    else warning.content = Text.trim raw

theorem perm_ofLines_ofRepeats (warnings : List Warning) :
    (ofLines warnings ++ ofRepeats warnings).Perm warnings := by
  have both :=
    List.filter_append_perm
      (fun warning : Warning => decide (warning.kind ≠ .repeatedInclude)) warnings
  simpa [ofLines, ofRepeats] using both

end Warning

theorem RoutedLine.classify_of_target? {routed : RoutedLine} {target : String}
    (included : routed.target? = some target) :
    routed.line.classify = .directive ⟨.includeFile, target⟩ := by
  unfold target? at included
  split at included
  next _ directive =>
    cases included
    exact directive
  next => cases included

namespace PlacedLine

variable {state : Progress} {placed : PlacedLine} {spot : String × Nat}

def warned? (state : Progress) (placed : PlacedLine) : Option (String × Nat) :=
  (report? state placed).map Warning.spot

def includes? (state : Progress) (placed : PlacedLine) : Option (String × Nat) :=
  (pending? state placed).map Pending.spot

theorem spot_of_warned? (told : warned? state placed = some spot) : spot = placed.spot := by
  obtain ⟨warning, reported, rfl⟩ := Option.map_eq_some_iff.mp told
  obtain ⟨kind, _, rfl⟩ := Option.map_eq_some_iff.mp reported
  rfl

private theorem spot_of_includes? (told : includes? state placed = some spot) :
    spot = placed.spot := by
  obtain ⟨pending, included, rfl⟩ := Option.map_eq_some_iff.mp told
  obtain ⟨target, _, rfl⟩ := Option.map_eq_some_iff.mp included
  rfl

theorem spot_of_either (told : (warned? state placed).or (includes? state placed) = some spot) :
    spot = placed.spot := by
  rcases Option.or_eq_some_iff.mp told with warned | ⟨_, included⟩
  · exact spot_of_warned? warned
  · exact spot_of_includes? included

/-- A line that is warned about includes nothing. -/
theorem warned?_or_includes? (state : Progress) (placed : PlacedLine) :
    warned? state placed = none ∨ includes? state placed = none := by
  cases objected : state.model.objection? (.ofLine state.position placed.line) with
  | none =>
    left
    rw [warned?, report?, objected]
    rfl
  | some kind =>
    right
    have quiet := (Progress.follow_of_objection objected).2
    rw [Request.target?_ofLine] at quiet
    rw [includes?, pending?, quiet]
    rfl

end PlacedLine

private theorem nodup_files_scannedSources (volume : Volume) (text : String) (origin : Path) :
    ((scannedSources volume text origin).map Source.file).Nodup := by
  have identities := (Tour.charted_depthFirst volume text origin).journal.nodup_sources
  refine List.pairwise_map.mpr ((List.pairwise_map.mp identities).imp ?_)
  intro first second different same
  exact different (congrArg volume.identity same)

theorem stands_of_mem_scannedPlaces {volume : Volume} {text : String} {origin : Path}
    {placed : PlacedLine} (member : placed ∈ scannedPlaces volume text origin) :
    ∃ source ∈ scannedSources volume text origin, ∃ raw, placed.place.file = source.file ∧
      1 ≤ placed.place.line ∧ placed.place.line ≤ (Text.physicalLines source.text).length ∧
      (Text.physicalLines source.text)[placed.place.line - 1]? = some raw ∧
      placed.line = .ofText raw := by
  obtain ⟨source, read, listed⟩ := List.mem_flatMap.mp member
  obtain ⟨file, positive, within, raw, shown, line⟩ := Source.stands_of_mem_placed listed
  exact ⟨source, read, raw, file, positive, within, shown, line⟩

theorem ahead_scannedPlaces (volume : Volume) (text : String) (origin : Path) :
    ((scannedPlaces volume text origin).map PlacedLine.spot).Pairwise Ahead :=
  Source.ahead_flatMap_placed (nodup_files_scannedSources volume text origin)

section Success

variable {volume : Volume} {text : String} {origin : Path} {compilation : Compilation}

/-- Every include of a run that succeeds is entered or passed over, once. -/
theorem includes_settled (success : (compileText volume text origin).result = .ok compilation) :
    ∃ entered skipped : List Pending,
      (entered ++ skipped).Perm (scannedIncludes volume text origin) ∧
      (scannedSources volume text origin).map Source.file = origin :: entered.map Pending.path ∧
      Warning.ofRepeats compilation.warnings = skipped.map Pending.warning := by
  obtain ⟨entered, skipped, read, settled⟩ :=
    (Tour.visits_depthFirst volume text origin).settles (failure_of_ok success)
  have sources : scannedSources volume text origin = ⟨origin, text⟩ :: read := settled.sources
  have repeats : Stop.repeats (Tour.depthFirst volume text origin).last.stops = skipped :=
    settled.repeats
  refine ⟨entered, skipped, ?_, ?_, ?_⟩
  · refine settled.balance.trans (.of_eq ?_)
    rw [scannedIncludes, scannedPlaces, sources, List.flatMap_cons, Progress.gather_append,
      Tour.found_scan, Tour.progress_scan, Source.placed, lines_placeLines]
    rfl
  · rw [sources, List.map_cons, settled.paths]
  · rw [ofRepeats_of_ok success, repeats]

theorem includes_counted (success : (compileText volume text origin).result = .ok compilation) :
    1 ≤ compilation.tally.files ∧
      ((transcript volume text origin).filterMap RoutedLine.target?).length =
      (compilation.tally.files - 1) + (Warning.ofRepeats compilation.warnings).length := by
  obtain ⟨entered, skipped, settled, files, repeats⟩ := includes_settled success
  have targets := Progress.start.length_gather_pending (scannedPlaces volume text origin)
  rw [lines_scannedPlaces] at targets
  have included : ((transcript volume text origin).filterMap RoutedLine.target?).length =
      entered.length + skipped.length := by
    rw [← List.length_append, settled.length_eq]
    exact targets.symm
  have counted : compilation.tally.files = entered.length + 1 := by
    rw [tally_of_ok success, ← List.length_map Source.file, files, List.length_cons,
      List.length_map]
  have passed : (Warning.ofRepeats compilation.warnings).length = skipped.length := by
    rw [repeats, List.length_map]
  omega

/-- The lines that warnings are about are read in order, and so are those that include files; no
line is both. -/
theorem nodup_spots (success : (compileText volume text origin).result = .ok compilation) :
    (compilation.warnings.map Warning.spot).Nodup := by
  obtain ⟨entered, skipped, settled, _, repeats⟩ := includes_settled success
  -- A repetition is reported at the line that includes the file, so all these lines are taken
  -- together.
  have told : ((Warning.ofLines compilation.warnings).map Warning.spot ++
      (scannedIncludes volume text origin).map Pending.spot).Nodup := by
    rw [ofLines_of_ok success, scannedIncludes, Progress.map_gather, Progress.map_gather]
    refine (Progress.gather_or_perm PlacedLine.warned?_or_includes? _ _).nodup_iff.mpr
      (nodup_of_ahead ?_)
    exact (ahead_scannedPlaces volume text origin).sublist
      (Progress.sublist_gather PlacedLine.spot_of_either ..)
  have apart : ((Warning.ofLines compilation.warnings ++ Warning.ofRepeats compilation.warnings).map
      Warning.spot).Nodup := by
    have spots : (Warning.ofRepeats compilation.warnings).map Warning.spot =
        skipped.map Pending.spot := by
      rw [repeats, List.map_map]
      rfl
    rw [List.map_append, spots]
    refine List.Sublist.nodup ?_ (((settled.map Pending.spot).append_left _).nodup_iff.mpr told)
    rw [List.map_append]
    exact (List.sublist_append_right ..).append_left _
  exact ((Warning.perm_ofLines_ofRepeats compilation.warnings).map _).nodup_iff.mp apart

private theorem grounded_of_mem
    (success : (compileText volume text origin).result = .ok compilation) {warning : Warning}
    (member : warning ∈ compilation.warnings) : warning.Grounded volume text origin := by
  by_cases repeated : warning.kind = .repeatedInclude
  · obtain ⟨entered, skipped, settled, _, repeats⟩ := includes_settled success
    have listed : warning ∈ Warning.ofRepeats compilation.warnings :=
      List.mem_filter.mpr ⟨member, by simp [repeated]⟩
    rw [repeats] at listed
    obtain ⟨pending, passed, rfl⟩ := List.mem_map.mp listed
    have included : pending ∈ scannedIncludes volume text origin :=
      settled.mem_iff.mp (List.mem_append_right entered passed)
    obtain ⟨placed, scanned, state, told⟩ := Progress.exists_of_mem_gather included
    obtain ⟨target, found, rfl⟩ := Option.map_eq_some_iff.mp told
    obtain ⟨source, read, raw, file, positive, within, shown, line⟩ :=
      stands_of_mem_scannedPlaces scanned
    refine ⟨source, read, raw, congrArg Path.text file, positive, within, shown, ?_⟩
    rw [if_pos repeated]
    have directive := RoutedLine.classify_of_target? found
    rw [file] at included
    rw [line] at directive
    exact ⟨target, directive, included, by rw [← file]; rfl⟩
  · have listed : warning ∈ Warning.ofLines compilation.warnings :=
      List.mem_filter.mpr ⟨member, by simp [repeated]⟩
    rw [ofLines_of_ok success] at listed
    obtain ⟨placed, scanned, state, told⟩ := Progress.exists_of_mem_gather listed
    obtain ⟨kind, _, rfl⟩ := Option.map_eq_some_iff.mp told
    obtain ⟨source, read, raw, file, positive, within, shown, line⟩ :=
      stands_of_mem_scannedPlaces scanned
    refine ⟨source, read, raw, congrArg Path.text file, positive, within, shown, ?_⟩
    rw [if_neg repeated]
    exact congrArg Line.text line

/-- Within a file, lines are warned about in their order. -/
theorem ascending_ofLines (success : (compileText volume text origin).result = .ok compilation)
    (file : String) :
    (((Warning.ofLines compilation.warnings).filter fun warning =>
      warning.file = file).map Warning.line).Pairwise
      (· < ·) := by
  have ordered : ((Warning.ofLines compilation.warnings).map Warning.spot).Pairwise Ahead := by
    rw [ofLines_of_ok success, Progress.map_gather]
    exact (ahead_scannedPlaces volume text origin).sublist
      (Progress.sublist_gather PlacedLine.spot_of_warned? ..)
  refine List.pairwise_map.mpr (((List.pairwise_map.mp ordered).filter _).imp_of_mem ?_)
  intro first second inFirst inSecond ahead
  have here := of_decide_eq_true (List.mem_filter.mp inFirst).2
  have there := of_decide_eq_true (List.mem_filter.mp inSecond).2
  exact ahead (here.trans there.symm)

end Success

/-- The books of a run that succeeds balance. Its directives are as many as the files that it read
after the first one and the repetitions that it reported, since each of them was followed or
reported, once. No two warnings are about the same line; each one is about a line of a file that was
read and shows that line, or the path of the file that is included there. Within a file, the
warnings about lines come in their order. All lines of the files that were read are counted, and all
columns of the model. -/
theorem books_balance {volume : Volume} {text : String} {origin : Path} {compilation : Compilation}
    (success : (compileText volume text origin).result = .ok compilation) :
    (1 ≤ compilation.tally.files ∧
      ((transcript volume text origin).filterMap RoutedLine.target?).length =
        (compilation.tally.files - 1) + (Warning.ofRepeats compilation.warnings).length ∧
      ∃ entered skipped : List Pending,
        (entered ++ skipped).Perm (scannedIncludes volume text origin) ∧
        (scannedSources volume text origin).map Source.file = origin :: entered.map Pending.path ∧
        Warning.ofRepeats compilation.warnings = skipped.map Pending.warning) ∧
    ((compilation.warnings.map fun warning => (warning.file, warning.line)).Nodup ∧
      ∀ warning ∈ compilation.warnings, warning.Grounded volume text origin) ∧
    (∀ file, (((Warning.ofLines compilation.warnings).filter fun warning => warning.file = file).map
      Warning.line).Pairwise (· < ·)) ∧
    compilation.tally.lines =
      ((scannedSources volume text origin).map fun source =>
        (Text.physicalLines source.text).length).sum ∧
    compilation.tally.columns = compilation.model.columnCount := by
  obtain ⟨read, counted⟩ := includes_counted success
  refine ⟨⟨read, counted, includes_settled success⟩,
    ⟨nodup_spots success, fun warning => grounded_of_mem success⟩,
    ascending_ofLines success, ?_, ?_⟩
  · rw [tally_of_ok success, scannedLines, List.length_flatMap]
    simp only [Source.lines, List.length_map]
    rfl
  · rw [tally_of_ok success, model_of_ok success]
    exact Progress.columnCount_readAll _

/-- Three directives for one file, which is read once and reported twice, also from within
itself. -/
theorem books_balance_bookstore :
    ∃ compilation,
      (compileText Bookstore.annotated Bookstore.ledger Bookstore.origin).result = .ok compilation ∧
      compilation.tally = ⟨2, 9, 1, 2⟩ ∧ compilation.model.columnCount = 2 ∧
      ((transcript Bookstore.annotated Bookstore.ledger Bookstore.origin).filterMap
        RoutedLine.target?).length = 3 ∧
      (⟨"notes", 4, .repeatedInclude, "notes"⟩ : Warning) ∈ compilation.warnings ∧
      Warning.Grounded Bookstore.annotated Bookstore.ledger Bookstore.origin
        ⟨"notes", 4, .repeatedInclude, "notes"⟩ := by
  obtain ⟨compilation, finished, told⟩ := Option.map_eq_some_iff.mp Bookstore.ledger_compileWithin
  obtain ⟨tally, warnings⟩ := Prod.mk.inj told
  have success := compileText_of_compileWithin finished
  obtain ⟨⟨_, counted, _⟩, ⟨_, grounded⟩, _, _, columns⟩ := books_balance success
  have member : (⟨"notes", 4, .repeatedInclude, "notes"⟩ : Warning) ∈ compilation.warnings := by
    rw [warnings]
    decide
  refine ⟨compilation, success, tally, ?_, ?_, member, grounded _ member⟩
  · rw [← columns, tally]
  · rw [counted, tally, warnings]
    decide

end StanzaSchema
