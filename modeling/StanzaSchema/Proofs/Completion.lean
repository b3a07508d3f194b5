import StanzaSchema.Proofs.FileLog
import StanzaSchema.Proofs.Outputs
import StanzaSchema.Proofs.Prelude
import StanzaSchema.Proofs.Turns

/-!
How jobs end. One that comes to a good end made its directory, read its input without a failure and
wrote every artifact, and each artifact can be read in the place where it was written. One that
fails before its first artifact makes directories at most.
-/

namespace StanzaSchema

theorem compileFile_ok {volume : Volume} {path : Path} {compilation : Compilation}
    (success : (compileFile volume path).result = .ok compilation) :
    ∃ text, volume.read path = .ok text ∧
      compileFile volume path = compileText volume text path := by
  unfold compileFile at success ⊢
  split at success
  · cases success
  next text readable => exact ⟨text, readable, rfl⟩

private theorem Session.failure_explore {volume : Volume} {frontier : Frontier} {session : Session}
    {failure : Failure} (failed : (session.explore volume frontier).2 = some failure) :
    ∃ path includedFrom fault, failure = .includeFailed path includedFrom fault := by
  fun_induction explore volume frontier session with
  | case1 => cases failed
  | case2 frontier session pending rest waiting stopped other turned =>
    cases failed
    obtain ⟨fault, _, _, rfl⟩ := takeTurn_failed turned
    exact ⟨_, _, fault, rfl⟩
  | case3 frontier session pending rest waiting further next turned ih => exact ih failed

/-- Reading fails because the file or one that it includes cannot be read, and for no other
reason. -/
theorem compileFile_error {volume : Volume} {path : Path} {failure : Failure}
    (failed : (compileFile volume path).result = .error failure) :
    (∃ fault, failure = .unreadable path.text fault) ∨
      ∃ target includedFrom fault, failure = .includeFailed target includedFrom fault := by
  unfold compileFile at failed
  split at failed
  next fault _ =>
    cases failed
    exact .inl ⟨fault, rfl⟩
  next =>
    simp only [compileText] at failed
    split at failed
    next explored =>
      cases failed
      exact .inr (Session.failure_explore explored)
    next => cases failed

/-- A text is read where a path leads to its bytes. -/
theorem FileSystem.readText_eq_ok_iff {system : FileSystem} {path : Path} {text : String} :
    system.readText path = .ok text ↔
      ∃ location, system.resolve path = .ok location ∧
        system.file? location = some text.toUTF8 := by
  constructor
  · intro readable
    unfold readText at readable
    split at readable
    next => cases readable
    next location resolved =>
      refine ⟨location, resolved, ?_⟩
      split at readable
      next read =>
        cases readable
        unfold readNode at read
        split at read
        next content stands =>
          split at read
          next decoded =>
            cases read
            rw [file?, stands, String.fromUTF8?_eq_some_iff.mp decoded]
          next => cases read
        next => cases read
        next => cases read
      next => cases readable
  · rintro ⟨location, resolved, held⟩
    simp only [readText, resolved, node?_of_file? held, readNode,
      String.fromUTF8?_eq_some_iff.mpr rfl]

namespace Job

variable {job : Job} {system made : FileSystem} {compilation derived : Compilation}

/-- A job without a failure, stage by stage. -/
structure Completed (job : Job) (system made : FileSystem) (compilation : Compilation) : Prop where
  prepared : system.makeDirectories job.directory = (made, none)
  read : (compileFile made.volume job.input).result = .ok compilation
  written : (job.writeArtifacts compilation.model made Artifact.all).2.1 = none

/-- What a job without a failure amounts to. -/
def outcome (job : Job) (made : FileSystem) (compilation : Compilation) : Aftermath Compilation :=
  let writes := job.writeArtifacts compilation.model made Artifact.all
  { system := writes.1
    report :=
      { result := .ok { compilation with model := compilation.model.derive }
        events :=
          job.opening :: ((compileFile made.volume job.input).events ++ writes.2.2) ++
            [closing compilation] } }

theorem Completed.run_eq (completed : job.Completed system made compilation) :
    job.run system = job.outcome made compilation := by
  have written := completed.written
  simp only [run, outcome, completed.prepared, completed.read]
  generalize job.writeArtifacts compilation.model made Artifact.all = writes at written ⊢
  obtain ⟨last, failure, events⟩ := writes
  cases written
  rfl

theorem completed_of_ok (success : (job.run system).report.result = .ok derived) :
    ∃ made compilation, job.Completed system made compilation ∧
      derived = { compilation with model := compilation.model.derive } := by
  unfold run at success
  split at success
  next => cases success
  next made prepared =>
    simp only at success
    split at success
    next => cases success
    next compilation read =>
      split at success
      next => cases success
      next written =>
        cases success
        exact ⟨made, compilation, ⟨prepared, read, written⟩, rfl⟩

theorem Completed.renewed (completed : job.Completed system made compilation) :
    job.Renewed compilation.model Artifact.all made (job.run system).system := by
  have start : job.Renewed compilation.model [] made made := .none_yet (.refl made)
  have writes := renewed_writeArtifacts start (by decide : ([] ++ Artifact.all).Nodup)
  rw [completed.written] at writes
  rw [completed.run_eq]
  exact writes

/-- Every artifact of a job can be read from where it was put. -/
theorem Completed.readText_place (completed : job.Completed system made compilation)
    (artifact : Artifact) :
    (job.run system).system.readText (job.place artifact) =
      .ok (artifact.text compilation.model job.indent) := by
  have listed : artifact ∈ Artifact.all := by cases artifact <;> decide
  obtain ⟨location, resolved, held⟩ := completed.renewed.holds artifact listed
  exact FileSystem.readText_eq_ok_iff.mpr ⟨location, resolved, held⟩

end Job

theorem compileText_of_compileTextFor {turns : Nat} {volume : Volume} {text : String}
    {origin : Path} {report : Report Compilation}
    (finished : compileTextFor turns volume text origin = some report) :
    compileText volume text origin = report := by
  simp only [compileTextFor] at finished
  obtain ⟨⟨session, failure⟩, explored, rfl⟩ := Option.map_eq_some_iff.mp finished
  cases failure <;> simp only [compileText, Session.explore_of_exploreFor explored]

namespace Bookstore

/-- A working directory with the files of the bookstore and nothing else. -/
def disk : FileSystem :=
  ⟨["home"], [(["home"], .directory), (["home", "catalogue"], .file catalogue.toUTF8),
    (["home", "prices"], .file prices.toUTF8)], by decide⟩

def job : Job := ⟨⟨"./catalogue"⟩, ⟨"out/model"⟩, "Books", 2⟩

/-- The disk when the output directory has been made. -/
def made : FileSystem := (disk.makeDirectories job.directory).1

/-- Whether the artifacts are written, all of them away from the files that were read. -/
def isApart (report : Report Compilation) (compilation : Compilation) : Bool :=
  let writes := job.writeArtifacts compilation.model made Artifact.all
  let files :=
    Event.openedFiles (job.opening :: (report.events ++ writes.2.2) ++ [Job.closing compilation])
  writes.2.1.isNone && files.all fun path => Artifact.all.all fun artifact =>
    writes.1.identity path != writes.1.identity (job.place artifact)

theorem evaluated :
    (disk.makeDirectories job.directory).2 = none ∧
      (made.readText job.input).toOption = some catalogue ∧
    (compileTextFor 1 made.volume catalogue job.input).map (fun report =>
      report.result.toOption.map fun compilation =>
        (outline compilation, isApart report compilation)) =
      some (some ((some [⟨"ID", .identity, none, none, none, none⟩,
        ⟨"Price", .numeric, some "int", some "ID", none, none⟩], some (.custom "Own")), true)) := by
  decide +kernel

theorem completed : ∃ compilation, job.Completed disk made compilation ∧
    outline compilation =
      (some [⟨"ID", .identity, none, none, none, none⟩,
        ⟨"Price", .numeric, some "int", some "ID", none, none⟩], some (.custom "Own")) ∧
    ∀ path ∈ (job.run disk).report.openedFiles, ∀ artifact,
      (job.run disk).system.identity path ≠
      (job.run disk).system.identity (job.place artifact) := by
  obtain ⟨prepared, readable, finished⟩ := evaluated
  obtain ⟨report, explored, shown⟩ := Option.map_eq_some_iff.mp finished
  obtain ⟨compilation, success, told⟩ := Option.map_eq_some_iff.mp shown
  obtain ⟨outlined, apart⟩ := Prod.mk.inj told
  simp only [isApart, Bool.and_eq_true, List.all_eq_true, bne_iff_ne,
    Option.isNone_iff_eq_none] at apart
  have read : compileFile made.volume job.input = report := by
    have text : made.volume.read job.input = .ok catalogue := Except.eq_ok_of_toOption readable
    rw [compileFile, text]
    exact compileText_of_compileTextFor explored
  have completed : job.Completed disk made compilation :=
    ⟨Prod.ext rfl prepared, read ▸ Except.eq_ok_of_toOption success, apart.1⟩
  refine ⟨compilation, completed, outlined, ?_⟩
  rw [completed.run_eq]
  simp only [Job.outcome, Report.openedFiles, read]
  exact fun path opened artifact => apart.2 path opened artifact (by cases artifact <;> decide)

end Bookstore

/-- What a compilation does to files, by how it ends. A failure to read is that of the input as it
stands when the output directory is made. Like a failure to make that directory it changes no file
and makes directories at most. A failure to write an artifact finds those before it renewed as a
whole, and this one, those after it and all other files as they were. Without a failure the three
artifacts are renewed, each in a place of its own, and nothing else. -/
theorem compile_renews_artifacts_only (job : Job) (system : FileSystem) :
    let ended := job.run system
    let reading := compileFile (system.makeDirectories job.directory).1.volume job.input
    match ended.report.result with
    | .error (.unreadable path fault) =>
      reading.result = .error (.unreadable path fault) ∧ system.Extended ended.system
    | .error (.includeFailed path includedFrom fault) =>
      reading.result = .error (.includeFailed path includedFrom fault) ∧
        system.Extended ended.system
    | .error (.unwritable path fault) =>
      path = job.directory.text ∧ (system.makeDirectories job.directory).2 = some fault ∧
        system.Extended ended.system ∨
      ∃ compilation earlier failing later, reading.result = .ok compilation ∧
        Artifact.all = earlier ++ failing :: later ∧ path = (job.place failing).text ∧
        ended.system.write (job.place failing) (job.rendering compilation.model failing) =
          .error fault ∧
        job.Renewed compilation.model earlier system ended.system ∧
        ∀ artifact ∈ failing :: later, ∀ location,
          ended.system.resolve (job.place artifact) = .ok location →
          ended.system.file? location = system.file? location
    | .ok derived =>
      ∃ compilation, reading.result = .ok compilation ∧
        derived = { compilation with model := compilation.model.derive } ∧
        job.Renewed compilation.model Artifact.all system ended.system ∧
        ∀ first second location, ended.system.resolve (job.place first) = .ok location →
          ended.system.resolve (job.place second) = .ok location → first = second
    | .error _ => False := by
  intro ended reading
  have extended := FileSystem.Extended.makeDirectories system job.directory
  simp only [ended, Job.run]
  generalize shown : system.makeDirectories job.directory = attempt at extended ⊢
  obtain ⟨made, failed⟩ := attempt
  simp only [reading, shown]
  cases failed with
  | some fault => exact .inl ⟨rfl, rfl, extended⟩
  | none =>
    simp only
    cases read : (compileFile made.volume job.input).result with
    | error failure =>
      obtain ⟨fault, rfl⟩ | ⟨target, includedFrom, fault, rfl⟩ := compileFile_error read
      · exact ⟨rfl, extended⟩
      · exact ⟨rfl, extended⟩
    | ok compilation =>
      have start : job.Renewed compilation.model [] system made := .none_yet extended
      have distinct : ([] ++ Artifact.all).Nodup := by decide
      have writes := Job.renewed_writeArtifacts start distinct
      simp only
      generalize job.writeArtifacts compilation.model made Artifact.all = outcome at writes ⊢
      obtain ⟨written, failure, events⟩ := outcome
      cases failure with
      | none =>
        exact ⟨compilation, rfl, rfl, writes,
          fun _ _ _ one other => Artifact.eq_of_resolve one other⟩
      | some failure =>
        obtain ⟨earlier, failing, later, fault, order, rfl, stopped, renewed⟩ := writes
        refine .inr ⟨compilation, earlier, failing, later, rfl, order, rfl, stopped, renewed, ?_⟩
        intro artifact undone location resolved
        refine renewed.spared ?_ resolved
        intro listed
        rw [List.nil_append, order] at distinct
        exact (List.nodup_append.mp distinct).2.2 artifact listed artifact undone rfl

/-- The bookstore is compiled without a failure, and its three artifacts are renewed. -/
theorem compile_renews_artifacts_only_bookstore :
    let ended := Bookstore.job.run Bookstore.disk
    ∃ compilation,
      ended.report.result = .ok { compilation with model := compilation.model.derive } ∧
      Bookstore.outline compilation =
        (some [⟨"ID", .identity, none, none, none, none⟩,
          ⟨"Price", .numeric, some "int", some "ID", none, none⟩], some (.custom "Own")) ∧
      Bookstore.job.Renewed compilation.model Artifact.all Bookstore.disk ended.system := by
  intro ended
  obtain ⟨compilation, completed, outlined, _⟩ := Bookstore.completed
  have success : (Bookstore.job.run Bookstore.disk).report.result =
      .ok { compilation with model := compilation.model.derive } := by
    rw [completed.run_eq]
    rfl
  have told := compile_renews_artifacts_only Bookstore.job Bookstore.disk
  simp only [success, completed.prepared, completed.read] at told
  obtain ⟨_, same, _, renewed, _⟩ := told
  cases same
  exact ⟨compilation, success, outlined, renewed⟩

end StanzaSchema
