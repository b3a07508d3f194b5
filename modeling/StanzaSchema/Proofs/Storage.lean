import StanzaSchema.File.System
import StanzaSchema.Proofs.Maps

/-!
What changes on a file system. Making directories adds directories where there was nothing. Writing
a file changes one place, which the path leads to from then on; no other path is led astray by it,
since a file never takes the place of a directory.
-/

namespace StanzaSchema

namespace FileSystem

variable {system after : FileSystem} {path : Path} {here there place location : Location}
  {content : ByteArray}

/-- The content of the file at a place. -/
def file? (system : FileSystem) (location : Location) : Option ByteArray :=
  match system.node? location with
  | some (.file content) => some content
  | _ => none

theorem node?_of_file? (held : system.file? location = some content) :
    system.node? location = some (.file content) := by
  unfold file? at held
  split at held
  next found =>
    cases held
    exact found
  next => cases held

theorem node?_put {node : Node} (inside : place ≠ []) (location : Location) :
    (system.put place node).node? location =
      if place = location then some node else system.node? location := by
  unfold node? put
  by_cases root : location = []
  · rw [if_pos root, if_pos root, if_neg fun same => inside (same.trans root)]
  · rw [if_neg root, if_neg root]
    exact Entries.find?_put ..

theorem file?_put (inside : place ≠ []) (location : Location) :
    (system.put place (.file content)).file? location =
      if place = location then some content else system.file? location := by
  unfold file?
  rw [node?_put inside]
  by_cases same : place = location <;> simp only [same, ↓reduceIte]

section Walks

/-- One segment of a walk. -/
def enter (system : FileSystem) (here : Location) (segment : String) : Except IoKind Location :=
  match system.node? here with
  | none => .error .notFound
  | some (.file _) => .error .notDirectory
  | some .directory =>
    if Path.isIdle segment then .ok here
    else if segment = ".." then .ok here.dropLast
    else if nameLimit < segment.utf8ByteSize then .error .nameTooLong
    else if (system.node? (here ++ [segment])).isSome then .ok (here ++ [segment])
    else .error .notFound

theorem walk_cons (system : FileSystem) (here : Location) (segment : String) (rest : List String) :
    system.walk here (segment :: rest) = (system.enter here segment).bind fun there =>
      system.walk there rest := by
  rw [walk, enter]
  cases system.node? here with
  | none => rfl
  | some node =>
    cases node with
    | file content => rfl
    | directory =>
      simp only
      split
      · rfl
      · split
        · rfl
        · split
          · rfl
          · split <;> rfl

theorem walk_append (system : FileSystem) (here : Location) (first second : List String) :
    system.walk here (first ++ second) = (system.walk here first).bind fun there =>
      system.walk there second := by
  induction first generalizing here with
  | nil => rfl
  | cons segment rest ih =>
    rw [List.cons_append, walk_cons, walk_cons]
    cases system.enter here segment with
    | error kind => rfl
    | ok there => exact ih there

/-- A name leads from a directory to what it names there. -/
theorem enter_name_iff {segment : String} (busy : Path.isIdle segment = false)
    (down : segment ≠ "..") :
    system.enter here segment = .ok there ↔
      system.node? here = some .directory ∧ segment.utf8ByteSize ≤ nameLimit ∧
        there = here ++ [segment] ∧ (system.node? there).isSome = true := by
  unfold enter
  cases system.node? here with
  | none => simp
  | some node =>
    cases node with
    | file content => simp
    | directory =>
      simp only [busy, down, Bool.false_eq_true, ↓reduceIte, true_and]
      split
      next long => simp [Nat.not_le.mpr long]
      next short =>
        split
        next present =>
          simp only [Except.ok.injEq, Nat.le_of_not_lt short, true_and]
          constructor
          · rintro rfl
            exact ⟨rfl, present⟩
          · exact fun found => found.1.symm
        next absent =>
          simp only [reduceCtorEq, false_iff, not_and]
          rintro _ rfl
          exact absent

/-- What stood before still stands, and directories as such. -/
structure Kept (before after : FileSystem) : Prop where
  workingDirectory : after.workingDirectory = before.workingDirectory
  directories : ∀ location, before.node? location = some .directory →
    after.node? location = some .directory
  present : ∀ location, (before.node? location).isSome = true → (after.node? location).isSome = true

namespace Kept

theorem refl (system : FileSystem) : Kept system system :=
  ⟨rfl, fun _ made => made, fun _ present => present⟩

theorem trans {middle : FileSystem} (first : Kept system middle) (second : Kept middle after) :
    Kept system after where
  workingDirectory := second.workingDirectory.trans first.workingDirectory
  directories location made := second.directories location (first.directories location made)
  present location present := second.present location (first.present location present)

/-- What takes the place of no directory, unless it is one itself, stands in no way. -/
theorem put {node : Node} (inside : place ≠ [])
    (free : system.node? place = some .directory → node = .directory) :
    Kept system (system.put place node) where
  workingDirectory := rfl
  directories := by
    intro location made
    rw [node?_put inside]
    split
    next same => rw [free (same ▸ made)]
    next => exact made
  present := by
    intro location present
    rw [node?_put inside]
    split
    next => rfl
    next => exact present

theorem enter (kept : Kept system after) {segment : String}
    (entered : system.enter here segment = .ok there) :
    after.enter here segment = .ok there := by
  unfold FileSystem.enter at entered ⊢
  cases found : system.node? here with
  | none => simp [found] at entered
  | some node =>
    cases node with
    | file content => simp [found] at entered
    | directory =>
      rw [found] at entered
      rw [kept.directories here found]
      simp only at entered ⊢
      split at entered
      next idle => rwa [if_pos idle]
      next busy =>
        rw [if_neg busy]
        split at entered
        next up => rwa [if_pos up]
        next down =>
          rw [if_neg down]
          split at entered
          · cases entered
          next short =>
            rw [if_neg short]
            split at entered
            next present => rwa [if_pos (kept.present _ present)]
            · cases entered

theorem walk (kept : Kept system after) {segments : List String}
    (walked : system.walk here segments = .ok location) :
    after.walk here segments = .ok location := by
  induction segments generalizing here with
  | nil => exact walked
  | cons segment rest ih =>
    rw [walk_cons] at walked ⊢
    cases entered : system.enter here segment with
    | error kind => simp [entered, Except.bind] at walked
    | ok there =>
      rw [entered] at walked
      rw [kept.enter entered]
      exact ih walked

/-- A path that led somewhere still leads there. -/
theorem resolve (kept : Kept system after) (resolved : system.resolve path = .ok location) :
    after.resolve path = .ok location := by
  have start : after.start path = system.start path := by
    rw [FileSystem.start, FileSystem.start, kept.workingDirectory]
  unfold FileSystem.resolve at resolved ⊢
  split at resolved
  · cases resolved
  · rw [start]
    exact kept.walk resolved

end Kept

end Walks

section Paths

variable {front : List String} {name : String}

/-- A path that ends in a name leads to something of this name in a directory. -/
theorem resolve_name_iff (shown : path.segments = front ++ [name]) (busy : Path.isIdle name = false)
    (down : name ≠ "..") :
    system.resolve path = .ok location ↔
      unusable? path = none ∧ name.utf8ByteSize ≤ nameLimit ∧ ∃ directory,
        system.walk (system.start path) front = .ok directory ∧
        system.node? directory = some .directory ∧
        location = directory ++ [name] ∧ (system.node? location).isSome = true := by
  unfold resolve
  cases unusable? path with
  | some kind => simp
  | none =>
    simp only [shown, walk_append, true_and]
    cases system.walk (system.start path) front with
    | error kind => simp [Except.bind]
    | ok directory =>
      have last : system.walk directory [name] = system.enter directory name := by
        rw [walk_cons]
        cases system.enter directory name <;> rfl
      simp only [Except.bind, last, enter_name_iff busy down, Except.ok.injEq, exists_eq_left']
      constructor
      · rintro ⟨isDirectory, short, rfl, present⟩
        exact ⟨short, isDirectory, rfl, present⟩
      · rintro ⟨short, isDirectory, rfl, present⟩
        exact ⟨isDirectory, short, rfl, present⟩

theorem resolveDirectory_ok {segments : List String} {directory : Location}
    (found : system.resolveDirectory path segments = .ok directory) :
    system.walk (system.start path) segments = .ok directory ∧
      system.node? directory = some .directory := by
  unfold resolveDirectory at found
  split at found
  · cases found
  next walked =>
    split at found <;> cases found
    next isDirectory => exact ⟨walked, isDirectory⟩

/-- Segments that end in a name are those before it and the name. -/
theorem eq_dropLast_concat {segments : List String}
    (busy : Path.isIdle (segments.getLastD "") = false) :
    segments = segments.dropLast ++ [segments.getLastD ""] := by
  rcases List.eq_nil_or_concat segments with rfl | ⟨front, last, rfl⟩
  · cases busy
  · rw [List.concat_eq_append, List.dropLast_concat, List.getLastD_concat]

/-- What a write does: it puts the content in one place that is no directory, and the path leads
there. -/
theorem write_ok (written : system.write path content = .ok after) :
    ∃ place, place ≠ [] ∧ system.node? place ≠ some .directory ∧
      after = system.put place (.file content) ∧ after.resolve path = .ok place := by
  unfold write at written
  split at written
  · cases written
  next usable =>
    split at written
    · cases written
    next directory found =>
      obtain ⟨walked, isDirectory⟩ := resolveDirectory_ok found
      simp only at written
      split at written
      · cases written
      next named =>
        split at written
        · cases written
        next short =>
          split at written
          · cases written
          next free =>
            cases written
            obtain ⟨busy, down⟩ : Path.isIdle (path.segments.getLastD "") = false ∧
              path.segments.getLastD "" ≠ ".." := by
              simpa using named
            have shown := eq_dropLast_concat busy
            generalize path.segments.getLastD "" = name at *
            have inside : directory ++ [name] ≠ [] := by simp
            have elsewhere : directory ++ [name] ≠ directory := by simp
            refine ⟨directory ++ [name], inside, free, rfl, ?_⟩
            rw [resolve_name_iff shown busy down]
            have kept : Kept system (system.put (directory ++ [name]) (.file content)) :=
              .put inside fun made => absurd made free
            refine ⟨usable, Nat.le_of_not_lt short, directory, kept.walk walked, ?_, rfl, ?_⟩
            · rw [node?_put inside, if_neg elsewhere, isDirectory]
            · rw [node?_put inside, if_pos rfl]
              rfl

theorem Kept.write (written : system.write path content = .ok after) : Kept system after := by
  obtain ⟨place, inside, free, rfl, _⟩ := write_ok written
  exact .put inside fun made => absurd made free

end Paths

/-- Directories were made where there was nothing, at most. -/
def Extended (before after : FileSystem) : Prop :=
  ∀ location, after.node? location = before.node? location ∨
    before.node? location = none ∧ after.node? location = some .directory

namespace Extended

theorem refl (system : FileSystem) : Extended system system := fun _ => .inl rfl

theorem trans {middle : FileSystem} (first : Extended system middle)
    (second : Extended middle after) :
    Extended system after := by
  intro location
  rcases first location with same | ⟨free, made⟩
  · rcases second location with later | ⟨free, made⟩
    · exact .inl (later.trans same)
    · exact .inr ⟨same.symm.trans free, made⟩
  · rcases second location with later | ⟨unfree, _⟩
    · exact .inr ⟨free, later.trans made⟩
    · cases made.symm.trans unfree

theorem file? (extended : Extended system after) (location : Location) :
    after.file? location = system.file? location := by
  unfold FileSystem.file?
  rcases extended location with same | ⟨free, made⟩
  · rw [same]
  · rw [free, made]

theorem makeDirectory (made : system.makeDirectory path = .ok after) : Extended system after := by
  unfold FileSystem.makeDirectory at made
  split at made
  · cases made
  · simp only at made
    split at made
    · cases made
    next directory _ =>
      split at made
      · cases made
      · split at made
        · cases made
        · split at made
          · cases made
          next free =>
            cases made
            intro location
            rw [node?_put (by simp)]
            split
            next here =>
              subst here
              exact .inr ⟨Option.not_isSome_iff_eq_none.mp free, rfl⟩
            · exact .inl rfl

theorem makeAll (system : FileSystem) (paths : List Path) :
    Extended system (system.makeAll paths).1 := by
  induction paths with
  | nil => exact .refl _
  | cons path above ih =>
    unfold FileSystem.makeAll
    split
    · exact .refl _
    · split
      next made => exact .makeDirectory made
      next =>
        split
        next failed =>
          rw [failed] at ih
          exact ih
        next ready =>
          rw [ready] at ih
          split
          next made => exact ih.trans (.makeDirectory made)
          next => exact ih
      next => exact .refl _

theorem makeDirectories (system : FileSystem) (path : Path) :
    Extended system (system.makeDirectories path).1 :=
  .makeAll system path.ancestors

end Extended

end FileSystem

end StanzaSchema
