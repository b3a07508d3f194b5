import StanzaSchema.Proofs.Completion
import StanzaSchema.Proofs.Naming
import StanzaSchema.Proofs.Transcript

/-!
Running a job again. A run depends on what it reads and on nothing else, and its artifacts take
nothing away from the paths that led to its files. So as long as no artifact is one of these files,
the same job does the same again, and leaves everything as it is.
-/

namespace StanzaSchema

namespace Tour

variable {volume first second : Volume} {tour last : Tour} {includes : List Pending}
  {failure : Option Failure}

/-- Stops are added to the earlier ones, and marks to marks. -/
theorem Visits.extends (derived : Visits volume tour includes last failure) :
    tour.stops <+: last.stops ∧ tour.visited ⊆ last.visited := by
  induction derived with
  | done => exact ⟨List.prefix_rfl, List.Subset.refl _⟩
  | repeated _ _ ih => exact ⟨(List.prefix_append ..).trans ih.1, ih.2⟩
  | unreadable _ _ => exact ⟨List.prefix_append .., List.subset_cons_self ..⟩
  | failed _ _ _ ih =>
    exact ⟨(List.prefix_append ..).trans ih.1, List.Subset.trans (List.subset_cons_self ..) ih.2⟩
  | returned _ _ _ _ inside rest =>
    exact ⟨((List.prefix_append ..).trans inside.1).trans rest.1,
      List.Subset.trans (List.Subset.trans (List.subset_cons_self ..) inside.2) rest.2⟩

theorem Visits.sources_subset (derived : Visits volume tour includes last failure) :
    Stop.sources tour.stops ⊆ Stop.sources last.stops :=
  (derived.extends.1.filterMap Stop.source?).subset

/-- A traversal goes the same way on another volume that says the same of the files it reads and of
all paths to the files it marks. -/
theorem Visits.carry (derived : Visits first tour includes last failure)
    (read : ∀ source ∈ Stop.sources last.stops, second.read source.file = first.read source.file)
    (marked : ∀ path, first.identity path ∈ last.visited →
      second.identity path = first.identity path)
    (passed : failure = none) : Visits second tour includes last failure := by
  induction derived with
  | done => exact .done
  | @repeated tour last pending waiting failure seen rest ih =>
    have same := marked pending.path (rest.extends.2 seen)
    exact .repeated (same ▸ seen) (ih read marked passed)
  | unreadable _ _ => cases passed
  | failed _ _ _ _ => cases passed
  | @returned tour middle last pending waiting text failure new readable inside rest
    ihInside ihRest =>
    have listed : ⟨pending.path, text⟩ ∈ Stop.sources (tour.enter first pending text).1.stops := by
      simp [Tour.enter, scan, mark, Stop.sources_concat, Stop.source?]
    have sameText := read _ (rest.sources_subset (inside.sources_subset listed))
    have sameFile := marked pending.path (rest.extends.2 (inside.extends.2 List.mem_cons_self))
    have entered : tour.enter second pending text = tour.enter first pending text := by
      rw [Tour.enter, Tour.enter, sameFile]
    refine .returned (sameFile ▸ new) (sameText.trans readable) ?_ (ihRest read marked passed)
    rw [entered]
    exact ihInside (fun source member => read source (rest.sources_subset member))
      (fun path member => marked path (rest.extends.2 member)) rfl

/-- What a tour has read stands on the volume. -/
def Backed (volume : Volume) (tour : Tour) : Prop :=
  ∀ source ∈ Stop.sources tour.stops, volume.read source.file = .ok source.text

theorem Backed.skip (backed : Backed volume tour) (pending : Pending) :
    Backed volume (tour.skip pending) := by
  simpa [Backed, Tour.skip, Stop.sources_concat, Stop.source?] using backed

theorem Backed.enter (backed : Backed volume tour) {pending : Pending} {text : String}
    (readable : volume.read pending.path = .ok text) :
    Backed volume (tour.enter volume pending text).1 := by
  intro source listed
  simp only [Tour.enter, scan, mark, Stop.sources_concat, Stop.source?,
    Option.toList_some] at listed
  rcases List.mem_append.mp listed with earlier | latest
  · exact backed source earlier
  · rw [List.mem_singleton.mp latest]
    exact readable

theorem Backed.abandon (backed : Backed volume tour) (file : FileId) (pending : Pending)
    (fault : IoFault) :
    Backed volume ((tour.mark file pending).abandon pending fault) := by
  simpa [Backed, Tour.abandon, mark, Stop.sources_concat, Stop.source?] using backed

end Tour

section Reading

variable {volume first second : Volume} {text : String} {origin : Path} {compilation : Compilation}

theorem openedFiles_compileText (volume : Volume) (text : String) (origin : Path) :
    (compileText volume text origin).openedFiles =
      (Stop.sources (Tour.depthFirst volume text origin).last.stops).map Source.file := by
  rw [Tour.compileText_eq_report]
  exact Tour.logged_depthFirst volume text origin

/-- All files that a run opens can be read, if its origin can. -/
theorem readable_of_opened (readable : volume.read origin = .ok text) {path : Path}
    (opened : path ∈ (compileText volume text origin).openedFiles) :
    ∃ content, volume.read path = .ok content := by
  rw [openedFiles_compileText] at opened
  obtain ⟨source, listed, rfl⟩ := List.mem_map.mp opened
  have start : Tour.Backed volume ((Tour.outset volume origin).scan ⟨origin, text⟩).1 := by
    intro source listed
    rw [show source = ⟨origin, text⟩ from List.mem_singleton.mp listed]
    exact readable
  have backed : Tour.Backed volume (Tour.depthFirst volume text origin).last :=
    (Tour.visits_depthFirst volume text origin).keeps (fun _ backed => backed.skip _)
      (fun _ readable backed => backed.enter readable)
      (fun _ _ backed => backed.abandon _ _ _) start
  exact ⟨source.text, backed source listed⟩

theorem origin_mem_openedFiles (volume : Volume) (text : String) (origin : Path) :
    origin ∈ (compileText volume text origin).openedFiles := by
  rw [openedFiles_compileText]
  have start :
      (⟨origin, text⟩ : Source) ∈
        Stop.sources ((Tour.outset volume origin).scan ⟨origin, text⟩).1.stops :=
    List.mem_singleton.mpr rfl
  exact List.mem_map_of_mem ((Tour.visits_depthFirst volume text origin).sources_subset start)

/-- The marks of a traversal that did not fail are the files that it opened. -/
theorem exists_opened_of_visited
    (success : (compileText volume text origin).result = .ok compilation) {file : FileId}
    (marked : file ∈ (Tour.depthFirst volume text origin).last.visited) :
    ∃ path ∈ (compileText volume text origin).openedFiles, file = volume.identity path := by
  have charted := Tour.charted_depthFirst volume text origin
  have passed := (Tour.failure_depthFirst volume text origin).symm.trans (failure_of_ok success)
  rw [charted.mem_visited_iff] at marked
  obtain ⟨path, member, rfl⟩ := List.mem_map.mp marked
  obtain ⟨stop, listed, shown⟩ := List.mem_filterMap.mp member
  refine ⟨path, ?_, rfl⟩
  rw [openedFiles_compileText]
  cases stop with
  | scanned source =>
    cases shown
    exact List.mem_map_of_mem (List.mem_filterMap.mpr ⟨_, listed, rfl⟩)
  | repeated pending => cases shown
  | unreadable pending fault =>
    rw [List.findSome?_eq_none_iff] at passed
    cases passed _ listed

/-- A run that succeeds depends on the files it opens and on the paths to them, and on nothing
else. -/
theorem compileText_congr (success : (compileText first text origin).result = .ok compilation)
    (read : ∀ path ∈ (compileText first text origin).openedFiles, second.read path =
      first.read path)
    (named : ∀ file ∈ (compileText first text origin).openedFiles, ∀ path,
      first.identity path = first.identity file → second.identity path = first.identity path) :
    compileText second text origin = compileText first text origin := by
  have derived := Tour.visits_depthFirst first text origin
  have passed := failure_of_ok success
  have started : Tour.outset second origin = Tour.outset first origin := by
    rw [Tour.outset, Tour.outset,
      named origin (origin_mem_openedFiles first text origin) origin rfl]
  have marked (path : Path)
      (seen : first.identity path ∈ (Tour.depthFirst first text origin).last.visited) :
      second.identity path = first.identity path := by
    obtain ⟨file, opened, same⟩ := exists_opened_of_visited success seen
    exact named file opened path same
  have texts (source : Source)
      (listed : source ∈ Stop.sources (Tour.depthFirst first text origin).last.stops) :
      second.read source.file = first.read source.file := by
    apply read
    rw [openedFiles_compileText]
    exact List.mem_map_of_mem listed
  have carried : Tour.Visits second ((Tour.outset second origin).scan ⟨origin, text⟩).1
      ((Tour.outset second origin).scan ⟨origin, text⟩).2 (Tour.depthFirst first text origin).last
      (Tour.depthFirst first text origin).failure := by
    rw [started]
    exact derived.carry texts marked passed
  rw [carried.compileText_eq, derived.compileText_eq]

end Reading

namespace Job

variable {job : Job} {model : Model} {system made after : FileSystem} {artifact : Artifact}
  {rest : List Artifact} {compilation : Compilation}

/-- The events of an artifact that is written. -/
def account (job : Job) (model : Model) (artifact : Artifact) : List Event :=
  prelude model artifact ++
    [⟨.info, "artifact written",
      [("path", .text (job.place artifact).text), ("artifact", .text artifact.name)]⟩]

theorem writeArtifacts_of_write
    (written : system.write (job.place artifact) (job.rendering model artifact) = .ok after) :
    job.writeArtifacts model system (artifact :: rest) =
      ((job.writeArtifacts model after rest).1, (job.writeArtifacts model after rest).2.1,
        job.account model artifact ++ (job.writeArtifacts model after rest).2.2) := by
  unfold place rendering at written
  simp only [writeArtifacts, writeArtifact, written, account, place]

private theorem write_of_writeArtifacts
    (done : (job.writeArtifacts model system (artifact :: rest)).2.1 = none) :
    ∃ after, system.write (job.place artifact) (job.rendering model artifact) = .ok after ∧
      (job.writeArtifacts model after rest).2.1 = none := by
  cases attempt : system.write (job.place artifact) (job.rendering model artifact) with
  | error fault =>
    unfold place rendering at attempt
    simp only [writeArtifacts, writeArtifact, attempt, reduceCtorEq] at done
  | ok after =>
    rw [writeArtifacts_of_write attempt] at done
    exact ⟨after, rfl, done⟩

private theorem kept_writeArtifacts (done : (job.writeArtifacts model system rest).2.1 = none) :
    FileSystem.Kept system (job.writeArtifacts model system rest).1 := by
  induction rest generalizing system with
  | nil => exact .refl system
  | cons artifact rest ih =>
    obtain ⟨after, written, later⟩ := write_of_writeArtifacts done
    rw [writeArtifacts_of_write written]
    exact (FileSystem.Kept.write written).trans (ih later)

/-- Artifacts that hold what they are to hold can be written again, which makes the same events and
no change. -/
theorem writeArtifacts_again (done : (job.writeArtifacts model system rest).2.1 = none)
    (same : ∀ artifact ∈ rest, after.write (job.place artifact) (job.rendering model artifact) =
      .ok after) :
    job.writeArtifacts model after rest =
      (after, none, (job.writeArtifacts model system rest).2.2) := by
  induction rest generalizing system with
  | nil => rfl
  | cons artifact rest ih =>
    obtain ⟨middle, written, later⟩ := write_of_writeArtifacts done
    have others := ih later fun other listed => same other (List.mem_cons_of_mem _ listed)
    rw [writeArtifacts_of_write (same artifact List.mem_cons_self),
      writeArtifacts_of_write written, others]

namespace Completed

variable (completed : job.Completed system made compilation)

include completed

theorem kept : FileSystem.Kept made (job.run system).system := by
  rw [completed.run_eq]
  exact kept_writeArtifacts completed.written

/-- The output directory stands already. -/
theorem prepared_again : (job.run system).system.makeDirectories job.directory =
    ((job.run system).system, none) := by
  apply FileSystem.makeDirectories_of_ready
  rcases FileSystem.ready_makeDirectories completed.prepared with unnamed | stands
  · exact .inl unnamed
  · exact .inr (completed.kept.isDirectory stands)

theorem write_again (artifact : Artifact) :
    (job.run system).system.write (job.place artifact) (job.rendering compilation.model artifact) =
      .ok (job.run system).system := by
  obtain ⟨location, resolved, held⟩ :=
    completed.renewed.holds artifact (by cases artifact <;> decide)
  obtain ⟨front, last, shown⟩ := Artifact.segments_path job.directory job.stem
  obtain ⟨busy, down⟩ := artifact.name_suffix last
  exact FileSystem.write_self (shown artifact) busy down resolved held

/-- What a job reads, it has in its report. -/
theorem opened_of_reading {path : Path}
    (opened : path ∈ (compileFile made.volume job.input).openedFiles) :
    path ∈ (job.run system).report.openedFiles := by
  obtain ⟨event, listed, shown⟩ := List.mem_filterMap.mp opened
  rw [completed.run_eq]
  refine List.mem_filterMap.mpr ⟨event, ?_, shown⟩
  simp only [outcome, List.cons_append, List.append_assoc, List.mem_cons, List.mem_append]
  exact .inr (.inl listed)

/-- A file that no artifact has taken the place of is read as before. -/
theorem readText_again {path : Path} {text : String} (readable : made.readText path = .ok text)
    (apart : ∀ artifact, (job.run system).system.identity path ≠
      (job.run system).system.identity (job.place artifact)) :
    (job.run system).system.readText path = .ok text := by
  obtain ⟨location, resolved, held⟩ := FileSystem.readText_eq_ok_iff.mp readable
  have still := completed.kept.resolve resolved
  have spared := completed.renewed.others location fun artifact _ taken =>
    apart artifact (by simp only [FileSystem.identity, still, taken])
  exact FileSystem.readText_eq_ok_iff.mpr ⟨location, still, spared.trans held⟩

/-- The paths to a file that was read still lead to it. -/
theorem identity_again {file path : Path} {text : String} (readable : made.readText file = .ok text)
    (same : made.identity path = made.identity file) :
    (job.run system).system.identity path = made.identity path := by
  obtain ⟨location, resolved, _⟩ := FileSystem.readText_eq_ok_iff.mp readable
  have identified : made.identity path = "/" :: location := by
    rw [same]
    simp only [FileSystem.identity, resolved]
  rw [identified]
  exact completed.kept.identity (FileSystem.placed_resolve resolved) identified

private theorem read_again (apart : ∀ path ∈ (job.run system).report.openedFiles, ∀ artifact,
      (job.run system).system.identity path ≠
      (job.run system).system.identity (job.place artifact)) :
    compileFile (job.run system).system.volume job.input = compileFile made.volume job.input := by
  obtain ⟨text, readable, shown⟩ := compileFile_ok completed.read
  have success := completed.read
  have listed {path : Path} (opened : path ∈ (compileFile made.volume job.input).openedFiles) :=
    apart path (completed.opened_of_reading opened)
  rw [shown] at success listed ⊢
  have again : (job.run system).system.volume.read job.input = .ok text :=
    completed.readText_again readable (listed (origin_mem_openedFiles ..))
  rw [compileFile, again]
  refine compileText_congr success ?_ ?_
  · intro path opened
    obtain ⟨content, found⟩ := readable_of_opened readable opened
    exact (completed.readText_again found (listed opened)).trans found.symm
  · intro file opened path same
    obtain ⟨content, found⟩ := readable_of_opened readable opened
    exact completed.identity_again found same

end Completed

end Job

/-- A job that succeeds can be run again, as long as no artifact took the place of a file that was
read. The second run has the same model, warnings and statistics, tells the same events, and leaves
the file system exactly as it found it. -/
theorem compile_repeats {job : Job} {system : FileSystem} {compilation : Compilation}
    (success : (job.run system).report.result = .ok compilation)
    (apart : ∀ path ∈ (job.run system).report.openedFiles, ∀ artifact,
      (job.run system).system.identity path ≠
      (job.run system).system.identity (job.place artifact)) :
    let ended := job.run system
    let again := job.run ended.system
    again.report.result = .ok compilation ∧ again.report.events = ended.report.events ∧
      again.system = ended.system := by
  obtain ⟨made, read, completed, rfl⟩ := Job.completed_of_ok success
  have reading := completed.read_again apart
  have writes :=
    Job.writeArtifacts_again completed.written fun artifact _ => completed.write_again artifact
  have second : job.Completed (job.run system).system (job.run system).system read := by
    refine ⟨completed.prepared_again, ?_, ?_⟩
    · rw [reading]
      exact completed.read
    · rw [writes]
  intro ended again
  have told : again = ⟨ended.system, ended.report⟩ := by
    simp only [again, ended, second.run_eq, Job.outcome, reading, writes]
    simp only [completed.run_eq, Job.outcome]
  rw [told]
  exact ⟨success, rfl, rfl⟩

theorem compile_repeats_bookstore : ∃ compilation,
    (Bookstore.job.run Bookstore.disk).report.result = .ok compilation ∧
    (∀ path ∈ (Bookstore.job.run Bookstore.disk).report.openedFiles, ∀ artifact,
      (Bookstore.job.run Bookstore.disk).system.identity path ≠
        (Bookstore.job.run Bookstore.disk).system.identity (Bookstore.job.place artifact)) ∧
    let ended := Bookstore.job.run Bookstore.disk
    let again := Bookstore.job.run ended.system
    again.report.result = .ok compilation ∧ again.report.events = ended.report.events ∧
      again.system = ended.system := by
  obtain ⟨compilation, completed, _, apart⟩ := Bookstore.completed
  have success : (Bookstore.job.run Bookstore.disk).report.result =
      .ok { compilation with model := compilation.model.derive } := by
    rw [completed.run_eq]
    rfl
  exact ⟨_, success, apart, compile_repeats success apart⟩

end StanzaSchema
