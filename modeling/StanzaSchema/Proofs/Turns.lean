import Mathlib.Algebra.GroupWithZero.Nat
import StanzaSchema.File.System
import StanzaSchema.Proofs.Bounded

/-!
How long a run goes on. A turn takes one waiting file: a repeated one is passed over, and a new one
is read, which may put as many files in front of the others as it has lines. However files include
each other and whatever paths they use for it, no file is read twice, so the lines of all readable
files bound the turns of every run.
-/

namespace StanzaSchema

namespace Session

/-- A line includes at most one file. -/
theorem length_found_readLines (file : Path) (number : Nat) (lines : List String)
    (session : Session) :
    (readLines file number lines session).2.length ≤ lines.length := by
  induction lines generalizing number session with
  | nil => exact Nat.le_refl 0
  | cons raw rest ih =>
    simp only [readLines, List.length_append, List.length_cons]
    have later := ih (number + 1)
      (session.accept ⟨file, number⟩ (.ofText raw)
        (session.progress.readLine ⟨file, number⟩ (.ofText raw)))
    have here :
        (session.progress.readLine ⟨file, number⟩ (.ofText raw)).pending.toList.length ≤ 1 :=
      Option.length_toList_le
    omega

theorem length_found_readFile (session : Session) (file : Path) (text : String) :
    (session.readFile file text).2.length ≤ (Text.physicalLines text).length :=
  length_found_readLines ..

end Session

namespace Volume

variable {volume : Volume} {lines : FileId → Nat} {visited : List FileId}

/-- No file has more lines than this, by whatever path its text is read. -/
def LinesWithin (volume : Volume) (lines : FileId → Nat) : Prop :=
  ∀ path text, volume.read path = .ok text →
    (Text.physicalLines text).length ≤ lines (volume.identity path)

/-- How many lines there are in the files that have not been visited. -/
def linesLeft (volume : Volume) (lines : FileId → Nat) (visited : List FileId) : Nat :=
  ((Session.unvisited volume visited).map lines).sum

theorem linesLeft_le : volume.linesLeft lines visited ≤ (volume.known.map lines).sum := by
  unfold linesLeft Session.unvisited
  induction volume.known with
  | nil => exact Nat.le_refl 0
  | cons file rest ih =>
    by_cases seen : file ∈ visited <;> simp [seen] at ih ⊢ <;> omega

/-- A file that is read for the first time takes its lines out of those that are left. -/
theorem linesLeft_visit (lines : FileId → Nat) {file : FileId} (member : file ∈ volume.known)
    (new : file ∉ visited) :
    volume.linesLeft lines (file :: visited) + lines file ≤ volume.linesLeft lines visited := by
  unfold linesLeft Session.unvisited
  have fewer (files : List FileId) :
      ((files.filter fun f => !(file :: visited).contains f).map lines).sum +
        (if file ∈ files then lines file else 0) ≤
      ((files.filter fun f => !visited.contains f).map lines).sum := by
    induction files with
    | nil => simp
    | cons first files ih =>
      by_cases same : first = file
      · subst same
        by_cases again : first ∈ files <;> simp [new, again] at ih ⊢ <;> omega
      · by_cases seen : first ∈ visited <;> simp [same, seen, Ne.symm same] at ih ⊢ <;> omega
  have all := fewer volume.known
  rwa [if_pos member] at all

end Volume

namespace Session

variable {volume : Volume} {turns : Nat} {visited : List FileId} {pending : Pending}
  {rest : List Pending} {session : Session}

private theorem exploreFor_done :
    session.exploreFor volume turns ⟨visited, []⟩ =
      some (session.explore volume ⟨visited, []⟩) := by
  rw [explore_done]
  cases turns <;> rfl

/-- A turn more completes what the turns before it complete after the first waiting file. -/
theorem exploreFor_succ
    (later : ∀ {further next},
      session.takeTurn volume pending ⟨visited, rest⟩ = (further, .ok next) →
      further.exploreFor volume turns next = some (further.explore volume next)) :
    session.exploreFor volume (turns + 1) ⟨visited, pending :: rest⟩ =
      some (session.explore volume ⟨visited, pending :: rest⟩) := by
  unfold exploreFor
  simp only [Frontier.next?]
  split
  next turned => rw [explore_stopped turned]
  next turned => rw [explore_turned turned, later turned]

/-- Some number of turns completes any exploration, and so does every greater number. -/
theorem exists_exploreFor (volume : Volume) (frontier : Frontier) (session : Session) :
    ∃ enough, ∀ turns, session.exploreFor volume (enough + turns) frontier =
      some (session.explore volume frontier) := by
  induction frontier, session using explore.induct volume with
  | case1 frontier session ended =>
    obtain ⟨visited, waiting⟩ := frontier
    cases waiting with
    | nil => exact ⟨0, fun turns => exploreFor_done⟩
    | cons pending rest => cases ended
  | case2 frontier session pending rest waiting stopped failure turned =>
    refine ⟨1, fun turns => ?_⟩
    rw [Frontier.next?_eq_some_iff.mp waiting, Nat.add_comm]
    refine exploreFor_succ fun same => ?_
    cases turned.symm.trans same
  | case3 frontier session pending rest waiting further next turned ih =>
    obtain ⟨enough, completes⟩ := ih
    refine ⟨enough + 1, fun turns => ?_⟩
    rw [Frontier.next?_eq_some_iff.mp waiting, Nat.add_right_comm]
    refine exploreFor_succ fun same => ?_
    cases turned.symm.trans same
    exact completes turns

/-- A turn for each waiting file and for each line that may still make one wait is enough. -/
theorem exploreFor_of_le {lines : FileId → Nat} (within : volume.LinesWithin lines)
    {waiting : List Pending} (enough : waiting.length + volume.linesLeft lines visited ≤ turns) :
    session.exploreFor volume turns ⟨visited, waiting⟩ =
      some (session.explore volume ⟨visited, waiting⟩) := by
  induction turns generalizing visited waiting session with
  | zero =>
    cases waiting with
    | nil => exact exploreFor_done
    | cons pending rest => simp at enough
  | succ turns ih =>
    cases waiting with
    | nil => exact exploreFor_done
    | cons pending rest =>
      simp only [List.length_cons] at enough
      refine exploreFor_succ fun turned => ?_
      rcases takeTurn_cases turned with ⟨_, _, rfl⟩ | ⟨new, text, readable, _, rfl⟩
      · exact ih (by omega)
      · have left := Volume.linesLeft_visit lines (volume.identity_mem _ _ readable) new
        have few := within _ _ readable
        have found := (session.announce pending).length_found_readFile pending.path text
        simp only at left
        refine ih ?_
        simp only [List.length_append]
        omega

end Session

/-- Reads a text and what it includes for so many turns; nothing when they do not suffice. -/
def compileTextFor (turns : Nat) (volume : Volume) (text : String) (origin : Path) :
    Option (Report Compilation) :=
  let (root, found) := Session.start.readFile origin text
  let ended := root.exploreFor volume turns (.afterRoot (volume.identity origin) found)
  ended.map fun (session, failure) =>
    { result := match failure with
        | some failure => .error failure
        | none => .ok session.compilation
      events := session.events.reverse }

namespace FileSystem

variable (system : FileSystem)

/-- How many lines the file at a place has, where a text can be read. -/
def lineCount (location : Location) : Nat :=
  match readNode (system.node? location) with
  | .ok text => (Text.physicalLines text).length
  | .error _ => 0

/-- The lines of a text and of all files. -/
def turnLimit (text : String) : Nat :=
  (Text.physicalLines text).length + (system.nodes.map fun entry => system.lineCount entry.1).sum

private theorem linesWithin_volume : system.volume.LinesWithin fun file =>
  system.lineCount file.tail := by
  intro path text readable
  simp only [volume, readText, identity] at readable ⊢
  cases resolved : system.resolve path with
  | error kind => simp [resolved] at readable
  | ok location =>
    simp only [resolved] at readable
    simp only [lineCount, List.tail_cons]
    cases found : readNode (system.node? location) with
    | ok held =>
      simp only [found, Except.ok.injEq] at readable
      subst readable
      exact Nat.le_refl _
    | error kind => simp [found] at readable

private theorem linesLeft_volume_le (visited : List FileId) :
    system.volume.linesLeft (fun file => system.lineCount file.tail) visited ≤
      (system.nodes.map fun entry => system.lineCount entry.1).sum := by
  have all : system.volume.linesLeft (fun file => system.lineCount file.tail) visited ≤ _ :=
    Volume.linesLeft_le
  rwa [volume, List.map_map] at all

end FileSystem

/-- Reading a text and what it includes comes to an end on every volume, whatever includes what:
some number of turns completes it, and more do no harm. On a file system, the lines of the text and
of all files give such a number, however many paths there are to each file. -/
theorem includes_come_to_an_end (text : String) (origin : Path) :
    (∀ volume : Volume, ∃ enough, ∀ turns, compileTextFor (enough + turns) volume text origin =
      some (compileText volume text origin)) ∧
    ∀ (system : FileSystem) (turns : Nat), system.turnLimit text ≤ turns →
      compileTextFor turns system.volume text origin =
        some (compileText system.volume text origin) := by
  have whole {turns : Nat} {volume : Volume}
      (completed : (Session.start.readFile origin text).1.exploreFor volume turns
          (.afterRoot (volume.identity origin) (Session.start.readFile origin text).2) =
        some ((Session.start.readFile origin text).1.explore volume
          (.afterRoot (volume.identity origin) (Session.start.readFile origin text).2))) :
      compileTextFor turns volume text origin = some (compileText volume text origin) := by
    simp only [compileTextFor, completed, Option.map_some]
    rfl
  constructor
  · intro volume
    obtain ⟨enough, completes⟩ := Session.exists_exploreFor volume
      (.afterRoot (volume.identity origin) (Session.start.readFile origin text).2)
      (Session.start.readFile origin text).1
    exact ⟨enough, fun turns => whole (completes turns)⟩
  · intro system turns enough
    have found := Session.start.length_found_readFile origin text
    have left := system.linesLeft_volume_le [system.volume.identity origin]
    unfold FileSystem.turnLimit at enough
    apply whole
    rw [Frontier.afterRoot_eq]
    exact Session.exploreFor_of_le system.linesWithin_volume (by omega)

-- Two files that include each other and themselves, by a longer path each time.
example :
    let system : FileSystem := ⟨["home"], [(["home"], .directory), (["home", "sub"], .directory),
      (["home", "A"], .file "[Include sub/../A]\n[Include B]".toUTF8),
      (["home", "B"], .file "[Include sub/../sub/../A]\n".toUTF8)], by decide⟩
    let text := "[Include A]\n[Include ./B]"
    (compileTextFor (system.turnLimit text) system.volume text ⟨"Model"⟩).map (fun report =>
      report.result.toOption.map fun compilation =>
        (compilation.tally.files, compilation.warnings.length)) =
        some (some (3, 3)) := by decide +kernel

end StanzaSchema
