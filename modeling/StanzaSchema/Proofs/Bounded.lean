import StanzaSchema.Proofs.Maps
import StanzaSchema.Reading.Run

/-!
Runs held to a number of turns. Such a run goes by recursion on the turns that are left, so it can
be evaluated on given texts; where it ends in time it agrees with the run that is not held to
anything.
-/

namespace StanzaSchema

/-- Texts by their paths, each path naming a file of its own. -/
def Volume.ofTexts (texts : OrderedMap String) : Volume where
  read path := match texts.get? path.text with
    | some text => .ok text
    | none => .error (.ofKind .notFound)
  identity path := [path.text]
  known := texts.keys.map fun name => [name]
  identity_mem := by
    intro path text readable
    split at readable
    next found => exact List.mem_map.mpr ⟨path.text, OrderedMap.mem_keys_of_get? found, rfl⟩
    next => cases readable

/-- Reads waiting files for so many turns, one for each file; nothing when they do not suffice. -/
def Session.exploreFor (volume : Volume) (turns : Nat) (frontier : Frontier) (session : Session) :
    Option (Session × Option Failure) :=
  match frontier.next?, turns with
  | none, _ => some (session, none)
  | some _, 0 => none
  | some (pending, rest), turns + 1 =>
    match session.takeTurn volume pending rest with
    | (stopped, .error failure) => some (stopped, some failure)
    | (further, .ok next) => exploreFor volume turns next further

theorem Session.explore_of_exploreFor {volume : Volume} {turns : Nat} {frontier : Frontier}
    {session : Session} {result : Session × Option Failure}
    (finished : session.exploreFor volume turns frontier = some result) :
    session.explore volume frontier = result := by
  obtain ⟨visited, waiting⟩ := frontier
  induction turns generalizing visited waiting session with
  | zero =>
    cases waiting with
    | nil =>
      cases finished
      exact explore_done
    | cons pending rest => cases finished
  | succ turns ih =>
    cases waiting with
    | nil =>
      cases finished
      exact explore_done
    | cons pending rest =>
      unfold exploreFor at finished
      simp only [Frontier.next?] at finished
      split at finished
      next turned =>
        cases finished
        exact explore_stopped turned
      next turned => exact (explore_turned turned).trans (ih _ _ finished)

/-- What a text and its includes amount to, when they are read without a failure within so many
turns. -/
def compileWithin (turns : Nat) (volume : Volume) (text : String) (origin : Path) :
    Option Compilation :=
  let (root, found) := Session.start.readFile origin text
  match root.exploreFor volume turns (.afterRoot (volume.identity origin) found) with
  | some (session, none) => some session.compilation
  | _ => none

theorem compileText_of_compileWithin {turns : Nat} {volume : Volume} {text : String} {origin : Path}
    {compilation : Compilation}
    (finished : compileWithin turns volume text origin = some compilation) :
    (compileText volume text origin).result = .ok compilation := by
  simp only [compileWithin] at finished
  split at finished
  next explored =>
    cases finished
    simp only [compileText, Session.explore_of_exploreFor explored]
  next => cases finished

namespace Bookstore

/-- The file that the catalogue includes. It goes on with the stanza that the catalogue leaves
open. -/
def prices : String := "Read User Own\n\n!Book\n~Price -> ID\n#Price\n"

def catalogue : String :=
  "!Book\n@ID\n.Price 8,2\n\n[Include prices]\n\n[Authorization Book]\nRead * Mine\n"

def volume : Volume := .ofTexts (.ofEntries [("prices", prices)])

def origin : Path := ⟨"catalogue"⟩

/-- The columns of the books, and who decides whether users may read them. -/
def outline (compilation : Compilation) : Option (List Column) × Option Authorizer :=
  ((compilation.model.tables.get? "Book").map Table.columns,
   (compilation.model.authorization.get? "Book").bind fun policy =>
     policy.authorizer? "User" "Read")

private theorem outline_compileWithin :
    (compileWithin 1 volume catalogue origin).map outline =
      some (some [⟨"ID", .identity, none, none, none, none⟩,
        ⟨"Price", .numeric, some "int", some "ID", none, none⟩],
        some (.custom "Own")) := by decide +kernel

theorem success : ∃ compilation, (compileText volume catalogue origin).result = .ok compilation ∧
    outline compilation =
      (some [⟨"ID", .identity, none, none, none, none⟩,
        ⟨"Price", .numeric, some "int", some "ID", none, none⟩], some (.custom "Own")) := by
  obtain ⟨compilation, finished, told⟩ := Option.map_eq_some_iff.mp outline_compileWithin
  exact ⟨compilation, compileText_of_compileWithin finished, told⟩

end Bookstore

end StanzaSchema
