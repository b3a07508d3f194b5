import StanzaSchema.File.Volume

/-!
Files that are waiting to be read. Those named by one file go in front of all others in their order,
so each is read together with what it includes before the next.
-/

namespace StanzaSchema

/-- A file named by an include directive. -/
structure Pending where
  path : Path
  includedFrom : Path
  line : Nat
deriving DecidableEq

/-- The target of a directive, as seen from the directory of the file that holds it. -/
def Pending.ofTarget (includedFrom : Path) (target : String) (line : Nat) : Pending where
  path := (includedFrom.parent?.getD ⟨""⟩).join target
  includedFrom := includedFrom
  line := line

structure Frontier where
  visited : List FileId
  waiting : List Pending

namespace Frontier

def empty : Frontier := ⟨[], []⟩

def schedule (frontier : Frontier) (found : List Pending) : Frontier :=
  { frontier with waiting := found ++ frontier.waiting }

def next? (frontier : Frontier) : Option (Pending × Frontier) :=
  match frontier.waiting with
  | [] => none
  | pending :: rest => some (pending, { frontier with waiting := rest })

/-- Marks a file as visited; also tells whether it was not before. -/
def visit (frontier : Frontier) (file : FileId) : Frontier × Bool :=
  if file ∈ frontier.visited then (frontier, false)
  else ({ frontier with visited := file :: frontier.visited }, true)

/-- What is waiting after the file that a run begins with. -/
def afterRoot (file : FileId) (found : List Pending) : Frontier :=
  (empty.visit file).1.schedule found

theorem afterRoot_eq (file : FileId) (found : List Pending) :
    afterRoot file found = ⟨[file], found⟩ := by
  simp [afterRoot, empty, visit, schedule]

theorem visit_of_mem {frontier : Frontier} {file : FileId} (seen : file ∈ frontier.visited) :
    frontier.visit file = (frontier, false) := if_pos seen

theorem visit_of_not_mem {frontier : Frontier} {file : FileId} (new : file ∉ frontier.visited) :
    frontier.visit file = ({ frontier with visited := file :: frontier.visited }, true) :=
  if_neg new

theorem next?_eq_some_iff {frontier rest : Frontier} {pending : Pending} :
    frontier.next? = some (pending, rest) ↔ frontier = ⟨rest.visited, pending :: rest.waiting⟩ := by
  obtain ⟨visited, waiting⟩ := frontier
  cases waiting with
  | nil => simp [next?]
  | cons first waiting =>
    obtain ⟨_, _⟩ := rest
    simp only [next?, Option.some.injEq, Prod.mk.injEq, mk.injEq, List.cons.injEq]
    exact ⟨fun ⟨one, two, three⟩ => ⟨two, one, three⟩, fun ⟨two, one, three⟩ => ⟨one, two, three⟩⟩

end Frontier

end StanzaSchema
