import StanzaSchema.Artifact
import StanzaSchema.Proofs.Cutting
import StanzaSchema.Proofs.Storage

/-!
The artifacts of a compilation, each in a place of its own. They are replaced one after the other,
so a failure finds those before it renewed and everything else as it was.
-/

namespace StanzaSchema

namespace Artifact

private theorem text_path (artifact : Artifact) (directory : Path) (stem : String) :
    (artifact.path directory stem).text = (directory.join stem).text ++ artifact.suffix := by
  have relative : artifact.suffix.toList.head? ≠ some '/' := by cases artifact <;> decide
  have together : (Path.mk (stem ++ artifact.suffix)).isAbsolute = (Path.mk stem).isAbsolute := by
    simp only [Path.isAbsolute, String.toList_append]
    cases stem.toList with
    | nil => simpa using relative
    | cons c rest => rfl
  unfold path Path.join
  rw [together]
  split
  · rfl
  · split <;> simp [String.append_assoc]

/-- The paths of the artifacts differ in the last segment only. -/
theorem segments_path (directory : Path) (stem : String) :
    ∃ front last, ∀ artifact : Artifact, (artifact.path directory stem).segments =
      front ++ [last ++ artifact.suffix] := by
  obtain ⟨front, last, cut⟩ := Text.parts_append '/' (directory.join stem).text
  refine ⟨front, last, fun artifact => ?_⟩
  rw [Path.segments, text_path]
  exact cut artifact.suffix (by cases artifact <;> decide)

private theorem suffix_injective {first second : Artifact} (same : first.suffix = second.suffix) :
    first = second := by
  revert same
  cases first <;> cases second <;> decide

/-- A text with the suffix of an artifact is a proper name. -/
theorem name_suffix (artifact : Artifact) (last : String) :
    Path.isIdle (last ++ artifact.suffix) = false ∧ last ++ artifact.suffix ≠ ".." := by
  have long : 2 < (last ++ artifact.suffix).length := by
    have whole : 2 < artifact.suffix.length := by cases artifact <;> decide
    rw [String.length_append]
    omega
  have other {short : String} (few : short.length ≤ 2) : last ++ artifact.suffix ≠ short := by
    intro same
    rw [same] at long
    omega
  constructor
  · rw [Path.isIdle, Bool.or_eq_false_iff, beq_eq_false_iff_ne, beq_eq_false_iff_ne]
    exact ⟨other (by decide), other (by decide)⟩
  · exact other (by decide)

/-- No two artifacts are in one place. -/
theorem eq_of_resolve {system : FileSystem} {directory : Path} {stem : String}
    {first second : Artifact} {location : Location}
    (one : system.resolve (first.path directory stem) = .ok location)
    (other : system.resolve (second.path directory stem) = .ok location) : first = second := by
  obtain ⟨front, last, shown⟩ := segments_path directory stem
  have names (artifact : Artifact) := artifact.name_suffix last
  obtain ⟨_, _, _, _, _, here, _⟩ :=
    (FileSystem.resolve_name_iff (shown first) (names first).1 (names first).2).mp one
  obtain ⟨_, _, _, _, _, there, _⟩ :=
    (FileSystem.resolve_name_iff (shown second) (names second).1 (names second).2).mp other
  have same : last ++ first.suffix = last ++ second.suffix :=
    List.cons.inj (List.append_inj' (here.symm.trans there) rfl).2 |>.1
  exact suffix_injective (by simpa using same)

end Artifact

namespace Job

variable {job : Job} {model : Model} {before system after : FileSystem} {done : List Artifact}
  {artifact : Artifact}

/-- What an artifact is to hold. -/
def rendering (job : Job) (model : Model) (artifact : Artifact) : ByteArray :=
  (artifact.text model job.indent).toUTF8

/-- Where an artifact is to be. -/
def place (job : Job) (artifact : Artifact) : Path := artifact.path job.directory job.stem

/-- These artifacts are renewed and all other files are as they were. -/
structure Renewed (job : Job) (model : Model) (done : List Artifact) (before after : FileSystem) :
    Prop where
  holds : ∀ artifact ∈ done, ∃ location, after.resolve (job.place artifact) = .ok location ∧
    after.file? location = some (job.rendering model artifact)
  others : ∀ location, (∀ artifact ∈ done, after.resolve (job.place artifact) ≠ .ok location) →
    after.file? location = before.file? location
  directories : ∀ location, before.node? location = some .directory →
    after.node? location = some .directory

namespace Renewed

theorem none_yet (extended : before.Extended after) : job.Renewed model [] before after where
  holds := by
    intro artifact listed
    cases listed
  others location _ := extended.file? location
  directories := by
    intro location made
    rcases extended location with same | ⟨free, _⟩
    · exact same.trans made
    · cases made.symm.trans free

/-- Writing one more artifact leaves those before it in place. -/
theorem write (renewed : job.Renewed model done before system) (new : artifact ∉ done)
    (written : system.write (job.place artifact) (job.rendering model artifact) = .ok after) :
    job.Renewed model (done ++ [artifact]) before after := by
  have kept := FileSystem.Kept.write written
  obtain ⟨place, inside, free, rfl, leads⟩ := FileSystem.write_ok written
  constructor
  · intro former listed
    rcases List.mem_append.mp listed with earlier | last
    · obtain ⟨location, resolved, held⟩ := renewed.holds former earlier
      refine ⟨location, kept.resolve resolved, ?_⟩
      have apart : place ≠ location := by
        rintro rfl
        exact new (Artifact.eq_of_resolve (kept.resolve resolved) leads ▸ earlier)
      rw [FileSystem.file?_put inside, if_neg apart, held]
    · rw [List.mem_singleton.mp last]
      exact ⟨place, leads, by rw [FileSystem.file?_put inside, if_pos rfl]⟩
  · intro location unresolved
    have apart : place ≠ location := by
      rintro rfl
      exact unresolved artifact (by simp) leads
    rw [FileSystem.file?_put inside, if_neg apart]
    refine renewed.others location ?_
    intro former earlier resolved
    exact unresolved former (List.mem_append_left _ earlier) (kept.resolve resolved)
  · intro location made
    have standing := renewed.directories location made
    have apart : place ≠ location := by
      rintro rfl
      exact free standing
    rw [FileSystem.node?_put inside, if_neg apart, standing]

/-- An artifact that has not been renewed is as it was. -/
theorem spared (renewed : job.Renewed model done before after) (undone : artifact ∉ done)
    {location : Location} (resolved : after.resolve (job.place artifact) = .ok location) :
    after.file? location = before.file? location := by
  refine renewed.others location ?_
  intro former earlier same
  exact undone (Artifact.eq_of_resolve same resolved ▸ earlier)

end Renewed

/-- A run of writes renews its artifacts in order, up to the first that fails if one does. -/
theorem renewed_writeArtifacts {rest : List Artifact}
    (renewed : job.Renewed model done before system)
    (distinct : (done ++ rest).Nodup) :
    match (job.writeArtifacts model system rest).2.1 with
    | none => job.Renewed model (done ++ rest) before (job.writeArtifacts model system rest).1
    | some failure => ∃ earlier failing later fault, rest = earlier ++ failing :: later ∧
        failure = .unwritable (job.place failing).text fault ∧
        (job.writeArtifacts model system rest).1.write (job.place failing)
        (job.rendering model failing) = .error fault ∧
        job.Renewed model (done ++ earlier) before (job.writeArtifacts model system rest).1 := by
  induction rest generalizing done system with
  | nil => simpa [writeArtifacts] using renewed
  | cons artifact rest ih =>
    cases attempt : system.write (job.place artifact) (job.rendering model artifact) with
    | error fault =>
      have failed : job.writeArtifact model system artifact =
          (.error (.unwritable (job.place artifact).text fault),
           (job.writeArtifact model system artifact).2) := by
        simp only [place, rendering] at attempt
        simp only [writeArtifact, place, attempt]
      rw [writeArtifacts, failed]
      exact ⟨[], artifact, rest, fault, rfl, rfl, attempt, by simpa using renewed⟩
    | ok written =>
      have succeeded : job.writeArtifact model system artifact =
          (.ok written, (job.writeArtifact model system artifact).2) := by
        simp only [place, rendering] at attempt
        simp only [writeArtifact, attempt]
      have new : artifact ∉ done := by
        intro listed
        exact (List.nodup_append.mp distinct).2.2 artifact listed artifact (by simp) rfl
      have later := ih (renewed.write new attempt) (by simpa using distinct)
      rw [writeArtifacts, succeeded]
      simp only
      split at later
      next done_ =>
        rw [done_]
        simpa using later
      next failure failed =>
        obtain ⟨earlier, failing, later, fault, rfl, rfl, stopped, sofar⟩ := later
        rw [failed]
        exact ⟨artifact :: earlier, failing, later, fault, rfl, rfl, stopped, by simpa using sofar⟩

end Job

end StanzaSchema
