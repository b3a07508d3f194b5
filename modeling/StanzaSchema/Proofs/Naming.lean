import StanzaSchema.Proofs.Cutting
import StanzaSchema.Proofs.Storage

/-!
Names of places. A path that never turns back and starts at the root names the place that its own
components spell, so whatever has the identity of a readable file keeps it when more files come into
being. Directories that exist need not be made, and a file that holds a content already is not
changed by writing it.
-/

namespace StanzaSchema

namespace Path

/-- The segments that stand for something. -/
def names (path : Path) : List String := path.segments.filter fun segment => !isIdle segment

private theorem slash_not_mem_segments (path : Path) : "/" ∉ path.segments := by
  intro listed
  obtain ⟨chars, cut, same⟩ := List.mem_map.mp listed
  have whole := Text.not_mem_of_mem_splitOn cut
  rw [← String.toList_inj, String.toList_ofList] at same
  rw [same] at whole
  exact whole (by decide)

private theorem segments_of_isAbsolute {path : Path} (absolute : path.isAbsolute = true) :
    path.segments = "" :: path.segments.drop 1 := by
  have slash : path.text.toList.head? = some '/' := eq_of_beq absolute
  cases shown : path.text.toList with
  | nil => simp [shown] at slash
  | cons c rest =>
    rw [shown] at slash
    cases slash
    simp [segments, Text.parts, shown, List.splitOn_cons_eq_if_modifyHead]

/-- Components that start at the root are the names of an absolute path. -/
theorem components_rooted {path : Path} {location : Location}
    (spelled : path.components = "/" :: location) :
    path.isAbsolute = true ∧ path.names = location := by
  unfold components body at spelled
  cases led : path.lead with
  | root =>
    have absolute : path.isAbsolute = true := by
      unfold lead at led
      split at led
      next absolute => exact absolute
      next => split at led <;> cases led
    rw [led] at spelled
    refine ⟨absolute, ?_⟩
    rw [names, segments_of_isAbsolute absolute, List.filter_cons_of_neg (by decide)]
    exact (List.cons.inj spelled).2
  | dot =>
    rw [led] at spelled
    exact absurd (List.cons.inj spelled).1 (by decide)
  | none =>
    rw [led] at spelled
    have listed : "/" ∈ path.segments.filter fun segment => !isIdle segment := by
      rw [show path.segments.filter _ = _ from spelled]
      exact List.mem_cons_self
    exact absurd (List.mem_filter.mp listed).1 path.slash_not_mem_segments

end Path

namespace FileSystem

variable {system after : FileSystem} {path : Path} {here there location : Location}
  {content : ByteArray}

section Identity

theorem enter_ok {segment : String} (entered : system.enter here segment = .ok there) :
    system.node? here = some .directory ∧
      (Path.isIdle segment = true ∧ there = here ∨ segment = ".." ∧ there = here.dropLast ∨
        Path.isIdle segment = false ∧ segment ≠ ".." ∧ there = here ++ [segment]) := by
  unfold enter at entered
  split at entered
  · cases entered
  · cases entered
  next isDirectory =>
    refine ⟨isDirectory, ?_⟩
    split at entered
    next idle =>
      cases entered
      exact .inl ⟨idle, rfl⟩
    next busy =>
      split at entered
      next up =>
        cases entered
        exact .inr (.inl ⟨up, rfl⟩)
      next down =>
        split at entered
        · cases entered
        · split at entered
          · cases entered
            exact .inr (.inr ⟨by simpa using busy, down, rfl⟩)
          · cases entered

theorem walk_ok {segment : String} {rest : List String}
    (walked : system.walk here (segment :: rest) = .ok location) :
    ∃ there, system.enter here segment = .ok there ∧ system.walk there rest = .ok location := by
  rw [walk_cons] at walked
  cases entered : system.enter here segment with
  | error kind => simp [entered, Except.bind] at walked
  | ok there =>
    rw [entered] at walked
    exact ⟨there, rfl, walked⟩

/-- No walk comes to a place whose names turn back. -/
theorem placed_walk {segments : List String} (placed : ".." ∉ here)
    (walked : system.walk here segments = .ok location) :
    ".." ∉ location := by
  induction segments generalizing here with
  | nil =>
    cases walked
    exact placed
  | cons segment rest ih =>
    obtain ⟨there, entered, further⟩ := walk_ok walked
    refine ih ?_ further
    obtain ⟨_, ⟨_, rfl⟩ | ⟨_, rfl⟩ | ⟨_, down, rfl⟩⟩ := enter_ok entered
    · exact placed
    · exact fun member => placed (List.dropLast_subset _ member)
    · simpa using ⟨placed, Ne.symm down⟩

theorem placed_resolve (resolved : system.resolve path = .ok location) : ".." ∉ location := by
  unfold resolve at resolved
  split at resolved
  · cases resolved
  · refine placed_walk ?_ resolved
    unfold start
    split
    · exact List.not_mem_nil
    · exact system.placed

/-- A walk that does not turn back ends where its names say. -/
theorem walk_straight {segments : List String} (straight : ".." ∉ segments)
    (walked : system.walk here segments = .ok location) :
    location = here ++ segments.filter fun segment => !Path.isIdle segment := by
  induction segments generalizing here with
  | nil =>
    cases walked
    simp
  | cons segment rest ih =>
    obtain ⟨there, entered, further⟩ := walk_ok walked
    have ends := ih (fun member => straight (List.mem_cons_of_mem _ member)) further
    obtain ⟨_, ⟨idle, rfl⟩ | ⟨up, _⟩ | ⟨busy, _, rfl⟩⟩ := enter_ok entered
    · simpa [idle] using ends
    · exact absurd (up ▸ List.mem_cons_self) straight
    · simpa [busy] using ends

/-- A path with the identity of a place keeps it as long as nothing is taken away. -/
theorem Kept.identity (kept : Kept system after) (placed : ".." ∉ location)
    (identified : system.identity path = "/" :: location) :
    after.identity path = "/" :: location := by
  unfold FileSystem.identity at identified ⊢
  cases resolved : system.resolve path with
  | ok place =>
    rw [resolved] at identified
    rw [kept.resolve resolved]
    exact identified
  | error kind =>
    rw [resolved] at identified
    obtain ⟨absolute, spelled⟩ := Path.components_rooted identified
    -- The path led nowhere; if it leads somewhere now, then to the place that it spells.
    cases later : after.resolve path with
    | error kind => exact identified
    | ok place =>
      have straight : ".." ∉ path.segments := by
        intro listed
        refine placed (spelled ▸ List.mem_filter.mpr ⟨listed, by decide⟩)
      unfold FileSystem.resolve at later
      split at later
      · cases later
      · have ends := walk_straight straight later
        rw [start, if_pos absolute, List.nil_append] at ends
        rw [ends]
        exact congrArg _ spelled

end Identity

section Repetition

/-- A walk over nothing but idle segments stays in its directory. -/
theorem walk_idle {segments : List String} (made : system.node? here = some .directory)
    (idle : ∀ segment ∈ segments, Path.isIdle segment = true) :
    system.walk here segments = .ok here := by
  induction segments with
  | nil => rfl
  | cons segment rest ih =>
    have first : system.enter here segment = .ok here := by
      unfold enter
      rw [made]
      simp only [idle segment List.mem_cons_self, ↓reduceIte]
    rw [walk_cons, first]
    exact ih fun other member => idle other (List.mem_cons_of_mem _ member)

theorem isDirectory_iff : system.isDirectory path = true ↔
    ∃ location, system.resolve path = .ok location ∧ system.node? location = some .directory := by
  unfold isDirectory
  cases system.resolve path with
  | error kind => simp
  | ok location => simp

/-- The segments of a path but for the empty ones at its end. -/
def trimmed (path : Path) : List String :=
  (path.segments.reverse.dropWhile fun segment => segment == "").reverse

theorem segments_eq_trimmed (path : Path) :
    ∃ blanks, path.segments = trimmed path ++ blanks ∧
      ∀ segment ∈ blanks, Path.isIdle segment = true := by
  refine ⟨(path.segments.reverse.takeWhile fun segment => segment == "").reverse, ?_, ?_⟩
  · rw [trimmed, ← List.reverse_append, List.takeWhile_append_dropWhile, List.reverse_reverse]
  · intro segment listed
    have empty := List.all_eq_true.mp List.all_takeWhile segment (List.mem_reverse.mp listed)
    simp only [Path.isIdle, empty, Bool.true_or]

theorem resolve_ok (resolved : system.resolve path = .ok location) :
    unusable? path = none ∧ system.walk (system.start path) path.segments = .ok location := by
  unfold resolve at resolved
  split at resolved
  · cases resolved
  next usable => exact ⟨usable, resolved⟩

theorem resolveDirectory_of_walk {segments : List String}
    (walked : system.walk (system.start path) segments = .ok here)
    (made : system.node? here = some .directory) :
    system.resolveDirectory path segments = .ok here := by
  simp only [resolveDirectory, walked, made]

/-- A directory is only walked to through directories. -/
theorem walk_split {first second : List String}
    (walked : system.walk here (first ++ second) = .ok location)
    (made : system.node? location = some .directory) :
    ∃ there, system.walk here first = .ok there ∧ system.node? there = some .directory ∧
      system.walk there second = .ok location := by
  rw [walk_append] at walked
  cases reached : system.walk here first with
  | error kind => simp [reached, Except.bind] at walked
  | ok there =>
    replace walked : system.walk there second = .ok location := by
      simpa [reached, Except.bind] using walked
    refine ⟨there, rfl, ?_, walked⟩
    cases second with
    | nil =>
      cases walked
      exact made
    | cons segment rest =>
      obtain ⟨_, entered, _⟩ := walk_ok walked
      exact (enter_ok entered).1

/-- Makes a directory of this name, unless something is in the way. -/
def makeNamed (system : FileSystem) (directory : Location) (name : String) :
    Except IoKind FileSystem :=
  if Path.isIdle name || name == ".." then .error .alreadyExists
  else if nameLimit < name.utf8ByteSize then .error .nameTooLong
  else if (system.node? (directory ++ [name])).isSome then .error .alreadyExists
  else .ok (system.put (directory ++ [name]) .directory)

private theorem makeDirectory_eq (usable : unusable? path = none) :
    system.makeDirectory path =
      (system.resolveDirectory path (trimmed path).dropLast).bind fun directory =>
      system.makeNamed directory ((trimmed path).getLastD "") := by
  have cut : (path.segments.reverse.dropWhile fun segment => segment == "").reverse =
      trimmed path := rfl
  simp only [makeDirectory, usable, cut]
  cases system.resolveDirectory path (trimmed path).dropLast <;> rfl

/-- A directory is not made twice. -/
theorem makeDirectory_of_isDirectory (stands : system.isDirectory path = true) :
    system.makeDirectory path = .error .alreadyExists := by
  obtain ⟨location, resolved, made⟩ := isDirectory_iff.mp stands
  obtain ⟨usable, walked⟩ := resolve_ok resolved
  obtain ⟨blanks, shown, _⟩ := segments_eq_trimmed path
  rw [shown] at walked
  rcases List.eq_nil_or_concat (trimmed path) with empty | ⟨front, name, ends⟩
  · rw [empty] at walked
    obtain ⟨there, walked, reached, _⟩ := walk_split walked made
    rw [makeDirectory_eq usable, empty, List.dropLast_nil, resolveDirectory_of_walk walked reached]
    rfl
  · rw [List.concat_eq_append] at ends
    rw [ends, List.append_assoc] at walked
    obtain ⟨there, walked, reached, further⟩ := walk_split walked made
    rw [makeDirectory_eq usable, ends, List.dropLast_concat, List.getLastD_concat,
      resolveDirectory_of_walk walked reached, Except.bind, makeNamed]
    split
    next => rfl
    next proper =>
      obtain ⟨busy, down⟩ : Path.isIdle name = false ∧ name ≠ ".." := by simpa using proper
      obtain ⟨next, entered, _⟩ := walk_ok further
      obtain ⟨_, short, rfl, present⟩ := (enter_name_iff busy down).mp entered
      rw [if_neg (Nat.not_lt.mpr short), if_pos present]

private theorem makeDirectory_ok (done : system.makeDirectory path = .ok after) :
    unusable? path = none ∧ ∃ directory,
      system.resolveDirectory path (trimmed path).dropLast = .ok directory ∧
      system.makeNamed directory ((trimmed path).getLastD "") = .ok after := by
  cases usable : unusable? path with
  | some kind =>
    rw [makeDirectory, usable] at done
    cases done
  | none =>
    rw [makeDirectory_eq usable] at done
    cases found : system.resolveDirectory path (trimmed path).dropLast with
    | error kind =>
      rw [found] at done
      cases done
    | ok directory =>
      rw [found] at done
      exact ⟨rfl, directory, rfl, done⟩

private theorem makeNamed_ok {name : String} (done : system.makeNamed here name = .ok after) :
    Path.isIdle name = false ∧ name ≠ ".." ∧ name.utf8ByteSize ≤ nameLimit ∧
      system.node? (here ++ [name]) = none ∧ after = system.put (here ++ [name]) .directory := by
  unfold makeNamed at done
  split at done
  · cases done
  next proper =>
    obtain ⟨busy, down⟩ : Path.isIdle name = false ∧ name ≠ ".." := by simpa using proper
    split at done
    · cases done
    next short =>
      split at done
      · cases done
      next free =>
        cases done
        exact ⟨busy, down, Nat.le_of_not_lt short, Option.not_isSome_iff_eq_none.mp free, rfl⟩

theorem Kept.makeDirectory (done : system.makeDirectory path = .ok after) : Kept system after := by
  obtain ⟨_, directory, _, named⟩ := makeDirectory_ok done
  obtain ⟨_, _, _, _, rfl⟩ := makeNamed_ok named
  exact .put (by simp) fun _ => rfl

/-- The path of a directory that was made leads to it. -/
theorem isDirectory_makeDirectory (done : system.makeDirectory path = .ok after) :
    after.isDirectory path = true := by
  have kept := Kept.makeDirectory done
  obtain ⟨usable, directory, found, named⟩ := makeDirectory_ok done
  obtain ⟨walked, reached⟩ := resolveDirectory_ok found
  obtain ⟨busy, down, short, free, rfl⟩ := makeNamed_ok named
  have ends := eq_dropLast_concat busy
  generalize (trimmed path).getLastD "" = name at *
  obtain ⟨blanks, shown, idle⟩ := segments_eq_trimmed path
  have made : (system.put (directory ++ [name]) .directory).node? (directory ++ [name]) =
      some .directory := by
    rw [node?_put (by simp), if_pos rfl]
  have entered : (system.put (directory ++ [name]) .directory).enter directory name =
      .ok (directory ++ [name]) :=
    (enter_name_iff busy down).mpr ⟨kept.directories _ reached, short, rfl, by rw [made]; rfl⟩
  refine isDirectory_iff.mpr ⟨directory ++ [name], ?_, made⟩
  have onward :
      (system.put (directory ++ [name]) .directory).walk (system.start path) path.segments =
      .ok (directory ++ [name]) := by
    rw [shown, ends, List.append_assoc, walk_append, kept.walk walked, Except.bind,
      List.singleton_append, walk_cons, entered]
    exact walk_idle made idle
  rw [resolve, usable]
  exact onward

theorem Kept.isDirectory (kept : Kept system after) (stands : system.isDirectory path = true) :
    after.isDirectory path = true := by
  obtain ⟨location, resolved, made⟩ := isDirectory_iff.mp stands
  exact isDirectory_iff.mpr ⟨location, kept.resolve resolved, kept.directories location made⟩

/-- An output directory that need not be made: the working directory by no name at all, or a
directory that exists. -/
def Ready (system : FileSystem) (path : Path) : Prop :=
  path.text = "" ∨ system.isDirectory path = true

private theorem ancestors_eq_cons (path : Path) : ∃ above, path.ancestors = path :: above := by
  unfold Path.ancestors
  cases path.text.length with
  | zero => exact ⟨[], rfl⟩
  | succ steps =>
    rw [Path.ancestors.go]
    split
    next above _ => exact ⟨Path.ancestors.go steps above, rfl⟩
    next => exact ⟨[], rfl⟩

theorem ready_makeDirectories (done : system.makeDirectories path = (after, none)) :
    after.Ready path := by
  obtain ⟨above, shown⟩ := ancestors_eq_cons path
  have all : system.makeAll (path :: above) = (after, none) := by
    rw [makeDirectories, shown] at done
    obtain ⟨rfl, succeeded⟩ := Prod.mk.inj done
    exact Prod.ext rfl (Option.map_eq_none_iff.mp succeeded)
  have checked {system : FileSystem} {kind : IoKind}
      (same : (system, if system.isDirectory path = true then none else some kind) =
        (after, none)) :
      after.isDirectory path = true := by
    obtain ⟨rfl, passed⟩ := Prod.mk.inj same
    cases stands : system.isDirectory path with
    | true => rfl
    | false => simp [stands] at passed
  unfold makeAll at all
  split at all
  next unnamed => exact .inl unnamed
  next =>
    right
    split at all
    next made =>
      obtain ⟨rfl, _⟩ := Prod.mk.inj all
      exact isDirectory_makeDirectory made
    next =>
      split at all
      next => cases all
      next =>
        split at all
        next made =>
          obtain ⟨rfl, _⟩ := Prod.mk.inj all
          exact isDirectory_makeDirectory made
        next => exact checked all
    next => exact checked all

theorem makeDirectories_of_ready (ready : system.Ready path) :
    system.makeDirectories path = (system, none) := by
  obtain ⟨above, shown⟩ := ancestors_eq_cons path
  rw [makeDirectories, shown, makeAll]
  rcases ready with unnamed | stands
  · rw [if_pos unnamed]
    rfl
  · by_cases unnamed : path.text = ""
    · rw [if_pos unnamed]
      rfl
    · rw [if_neg unnamed, makeDirectory_of_isDirectory stands]
      simp only [stands, ↓reduceIte, Option.map_none]

/-- Writing to a file what it holds already changes nothing. -/
theorem write_self {front : List String} {name : String} (shown : path.segments = front ++ [name])
    (busy : Path.isIdle name = false) (down : name ≠ "..")
    (resolved : system.resolve path = .ok location)
    (held : system.file? location = some content) : system.write path content = .ok system := by
  obtain ⟨usable, short, directory, walked, reached, rfl, _⟩ :=
    (resolve_name_iff shown busy down).mp resolved
  have stands := node?_of_file? held
  have same : system.put (directory ++ [name]) (.file content) = system := by
    have listed : Entries.find? (directory ++ [name]) system.nodes = some (.file content) := by
      rwa [node?, if_neg (by simp)] at stands
    rw [put, Entries.put_self listed]
  simp only [write, usable, shown, List.dropLast_concat, List.getLastD_concat,
    resolveDirectory_of_walk walked reached, busy, down, Bool.false_or, beq_iff_eq, stands, same,
    Nat.not_lt.mpr short, Option.some.injEq, reduceCtorEq, ↓reduceIte]

end Repetition

end FileSystem

end StanzaSchema
