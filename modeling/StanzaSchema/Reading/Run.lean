import StanzaSchema.Failure
import StanzaSchema.Reading.Session

/-!
Reading a file and all that it includes, depth first and each file once. The run ends because every
file that is read is one of the finitely many readable ones and has not been read before; it fails
at the first file that cannot be read.
-/

namespace StanzaSchema

/-- How much was read. -/
structure Tally where
  files : Nat
  lines : Nat
  tables : Nat
  columns : Nat
deriving DecidableEq

structure Compilation where
  model : Model
  warnings : List Warning
  tally : Tally

def Compilation.isClean (compilation : Compilation) : Bool := compilation.warnings.isEmpty

/-- A result and the events on the way to it, the oldest first. -/
structure Report (α : Type) where
  result : Except Failure α
  events : List Event

namespace Session

def compilation (session : Session) : Compilation where
  model := session.progress.model
  warnings := session.warnings.reverse
  tally := ⟨session.files, session.lines, session.progress.tableCount, session.progress.columnCount⟩

/-- The readable files that have not been visited. -/
def unvisited (volume : Volume) (visited : List FileId) : List FileId :=
  volume.known.filter fun file => !visited.contains file

theorem unvisited_lt {volume : Volume} {visited : List FileId} {file : FileId}
    (member : file ∈ volume.known) (new : file ∉ visited) :
    (unvisited volume (file :: visited)).length < (unvisited volume visited).length := by
  unfold unvisited
  generalize volume.known = known at member
  induction known with
  | nil => simp at member
  | cons head rest ih =>
    have fewer (files : List FileId) :
        (files.filter fun f => !(file :: visited).contains f).length ≤
        (files.filter fun f => !visited.contains f).length := by
      induction files with
      | nil => simp
      | cons f files ih =>
        by_cases same : f = file
        · by_cases seen : f ∈ visited <;> simp [same] at * <;> grind
        · by_cases seen : f ∈ visited <;> simp [same, seen] at * <;> omega
    by_cases same : head = file
    · have shorter := fewer rest
      simp [same, new] at shorter ⊢
      omega
    · have inside : file ∈ rest := by
        rcases List.mem_cons.mp member with equal | inside
        · exact absurd equal.symm same
        · exact inside
      have shorter := ih inside
      by_cases seen : head ∈ visited <;> simp [same, seen] at shorter ⊢ <;> omega

/-- The session that takes a waiting file for the first time. -/
def announce (session : Session) (pending : Pending) : Session :=
  session.note ⟨.info, "processing include file", [("file", .text pending.path.text)]⟩

/-- The session that passes over a waiting file. -/
def passOver (session : Session) (pending : Pending) : Session :=
  session.warn ⟨pending.includedFrom.text, pending.line, .repeatedInclude, pending.path.text⟩

/-- The session that gives up at a waiting file. -/
def giveUp (session : Session) (pending : Pending) (fault : IoFault) : Session :=
  session.note ⟨.error, "error reading include: " ++ fault.text,
    [("file", .text pending.path.text), ("included_from", .text pending.includedFrom.text)]⟩

/-- Takes a waiting file. What it includes will wait in front of the others. -/
def takeTurn (volume : Volume) (pending : Pending) (frontier : Frontier) (session : Session) :
    Session × Except Failure Frontier :=
  match frontier.visit (volume.identity pending.path) with
  | (marked, false) => (session.passOver pending, .ok marked)
  | (marked, true) =>
    let announced := session.announce pending
    match volume.read pending.path with
    | .error fault =>
      (announced.giveUp pending fault,
       .error (.includeFailed pending.path.text pending.includedFrom.text fault))
    | .ok text =>
      let (read, found) := announced.readFile pending.path text
      (read, .ok (marked.schedule found))

section Turn

variable {volume : Volume} {pending : Pending} {frontier next : Frontier}
  {session further : Session}

theorem takeTurn_of_mem (seen : volume.identity pending.path ∈ frontier.visited) :
    session.takeTurn volume pending frontier = (session.passOver pending, .ok frontier) := by
  simp only [takeTurn, Frontier.visit_of_mem seen]

theorem takeTurn_of_error {fault : IoFault} (new : volume.identity pending.path ∉ frontier.visited)
    (broken : volume.read pending.path = .error fault) :
    session.takeTurn volume pending frontier =
      ((session.announce pending).giveUp pending fault,
       .error (.includeFailed pending.path.text pending.includedFrom.text fault)) := by
  simp only [takeTurn, Frontier.visit_of_not_mem new, broken]

theorem takeTurn_of_ok {text : String} (new : volume.identity pending.path ∉ frontier.visited)
    (readable : volume.read pending.path = .ok text) :
    session.takeTurn volume pending frontier =
      (let read := (session.announce pending).readFile pending.path text
       (read.1, .ok ⟨volume.identity pending.path :: frontier.visited,
         read.2 ++ frontier.waiting⟩)) := by
  simp only [takeTurn, Frontier.visit_of_not_mem new, readable, Frontier.schedule]

/-- A turn that goes on has passed over a file that was visited, or read one that was not. -/
theorem takeTurn_cases (turned : session.takeTurn volume pending frontier = (further, .ok next)) :
    (volume.identity pending.path ∈ frontier.visited ∧ further = session.passOver pending ∧
      next = frontier) ∨
      volume.identity pending.path ∉ frontier.visited ∧
      ∃ text, volume.read pending.path = .ok text ∧
        let read := (session.announce pending).readFile pending.path text
        further = read.1 ∧
          next = ⟨volume.identity pending.path :: frontier.visited,
            read.2 ++ frontier.waiting⟩ := by
  by_cases seen : volume.identity pending.path ∈ frontier.visited
  · rw [takeTurn_of_mem seen] at turned
    cases turned
    exact .inl ⟨seen, rfl, rfl⟩
  · cases found : volume.read pending.path with
    | error fault =>
      rw [takeTurn_of_error seen found] at turned
      cases turned
    | ok text =>
      rw [takeTurn_of_ok seen found] at turned
      cases turned
      exact .inr ⟨seen, text, rfl, rfl, rfl⟩

/-- A turn that ends the run has come upon a file that cannot be read. -/
theorem takeTurn_failed {failure : Failure}
    (turned : session.takeTurn volume pending frontier = (further, .error failure)) :
    ∃ fault, volume.read pending.path = .error fault ∧
      further = (session.announce pending).giveUp pending fault ∧
      failure = .includeFailed pending.path.text pending.includedFrom.text fault := by
  by_cases seen : volume.identity pending.path ∈ frontier.visited
  · rw [takeTurn_of_mem seen] at turned
    cases turned
  · cases found : volume.read pending.path with
    | error fault =>
      rw [takeTurn_of_error seen found] at turned
      cases turned
      exact ⟨fault, rfl, rfl, rfl⟩
    | ok text =>
      rw [takeTurn_of_ok seen found] at turned
      cases turned

end Turn

/-- Reads the waiting files. The failure, if any, is that of the first file that cannot be read. -/
def explore (volume : Volume) (frontier : Frontier) (session : Session) :
    Session × Option Failure :=
  match _waiting : frontier.next? with
  | none => (session, none)
  | some (pending, rest) =>
    match _turned : session.takeTurn volume pending rest with
    | (stopped, .error failure) => (stopped, some failure)
    | (further, .ok next) => explore volume next further
termination_by ((unvisited volume frontier.visited).length, frontier.waiting.length)
decreasing_by
  rw [Frontier.next?_eq_some_iff.mp _waiting]
  rcases takeTurn_cases _turned with ⟨_, _, rfl⟩ | ⟨new, text, readable, _, rfl⟩
  · exact Prod.Lex.right _ (Nat.lt_succ_self _)
  · exact Prod.Lex.left _ _ (unvisited_lt (volume.identity_mem _ _ readable) new)

section Explore

variable {volume : Volume} {visited : List FileId} {pending : Pending} {rest : List Pending}
  {session : Session}

theorem explore_done : session.explore volume ⟨visited, []⟩ = (session, none) := by
  rw [explore]
  rfl

theorem explore_stopped {stopped : Session} {failure : Failure}
    (turned : session.takeTurn volume pending ⟨visited, rest⟩ = (stopped, .error failure)) :
    session.explore volume ⟨visited, pending :: rest⟩ = (stopped, some failure) := by
  rw [explore]
  simp only [Frontier.next?]
  split
  next same =>
    cases turned.symm.trans same
    rfl
  next same => cases turned.symm.trans same

theorem explore_turned {further : Session} {next : Frontier}
    (turned : session.takeTurn volume pending ⟨visited, rest⟩ = (further, .ok next)) :
    session.explore volume ⟨visited, pending :: rest⟩ = further.explore volume next := by
  rw [explore]
  simp only [Frontier.next?]
  split
  next same => cases turned.symm.trans same
  next same =>
    cases turned.symm.trans same
    rfl

end Explore

end Session

/-- The origin of a text that came from no file. -/
def inlineOrigin : Path := ⟨"<inline>"⟩

/-- Reads a text and what it includes, as seen from its origin. -/
def compileText (volume : Volume) (text : String) (origin : Path) : Report Compilation :=
  let (root, found) := Session.start.readFile origin text
  let (session, failure) := root.explore volume (.afterRoot (volume.identity origin) found)
  { result := match failure with
      | some failure => .error failure
      | none => .ok session.compilation
    events := session.events.reverse }

/-- Reads a file and what it includes. -/
def compileFile (volume : Volume) (path : Path) : Report Compilation :=
  match volume.read path with
  | .error fault =>
    { result := .error (.unreadable path.text fault)
      events :=
        [⟨.error, "error reading MicroDDL file: " ++ fault.text, [("file", .text path.text)]⟩] }
  | .ok text => compileText volume text path

end StanzaSchema
