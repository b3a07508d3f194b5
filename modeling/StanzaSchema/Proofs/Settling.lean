import StanzaSchema.Proofs.Numerals

/-!
Values that were read. The members of their objects are in order, and nothing in them nests too
deep: the reader keeps this of every value that it has completed, from the innermost outwards.
-/

namespace StanzaSchema.Json

private theorem sorted_array_eq_self_iff {items : List Json} :
    (array items).sorted = .array items ↔ ∀ item ∈ items, item.sorted = item := by
  rw [sorted_array, array.injEq, List.map_eq_self_iff]

private theorem sorted_object_eq_self_iff {members : List (String × Json)} :
    (object members).sorted = .object members ↔
      Entries.Ascending members ∧ ∀ member ∈ members, member.2.sorted = member.2 := by
  rw [sorted_object, object.injEq, Entries.arrange_map sorted]
  constructor
  · intro same
    have ascending : Entries.Ascending members := by
      rw [← same, ← Entries.arrange_map sorted]
      exact Entries.ascending_arrange _
    refine ⟨ascending, ?_⟩
    rw [ascending.arrange_eq, List.map_eq_self_iff] at same
    exact fun member listed => congrArg Prod.snd (same member listed)
  · rintro ⟨ascending, inside⟩
    rw [ascending.arrange_eq, List.map_eq_self_iff]
    intro member listed
    rw [inside member listed]

/-- A value with its objects in order that nests at most so many levels deep. -/
structure Settled (depth : Nat) (value : Json) : Prop where
  nests : Nests depth value
  ordered : value.sorted = value

theorem settled_array_iff {depth : Nat} {items : List Json} :
    Settled depth (.array items) ↔ ∃ inner, depth = inner + 1 ∧
      ∀ item ∈ items, Settled inner item := by
  constructor
  · rintro ⟨nests, ordered⟩
    cases nests with
    | @array inner _ inside =>
      exact ⟨inner, rfl,
        fun item listed => ⟨inside item listed, sorted_array_eq_self_iff.mp ordered item listed⟩⟩
  · rintro ⟨inner, rfl, settled⟩
    exact ⟨.array fun item listed => (settled item listed).nests,
      sorted_array_eq_self_iff.mpr fun item listed => (settled item listed).ordered⟩

theorem settled_object_iff {depth : Nat} {members : List (String × Json)} :
    Settled depth (.object members) ↔
      ∃ inner, depth = inner + 1 ∧ Entries.Ascending members ∧
        ∀ member ∈ members, Settled inner member.2 := by
  constructor
  · rintro ⟨nests, ordered⟩
    obtain ⟨ascending, each⟩ := sorted_object_eq_self_iff.mp ordered
    cases nests with
    | @object inner _ inside =>
      exact ⟨inner, rfl, ascending, fun member listed => ⟨inside member listed, each member listed⟩⟩
  · rintro ⟨inner, rfl, ascending, settled⟩
    exact ⟨.object fun member listed => (settled member listed).nests,
      sorted_object_eq_self_iff.mpr
        ⟨ascending, fun member listed => (settled member listed).ordered⟩⟩

/-- The values that an open array or object holds so far. -/
def Frame.values : Frame → List Json
  | .array items => items
  | .object members => members.map Prod.snd
  | .member members _ => members.map Prod.snd

namespace Machine

/-- What is open holds settled values, each frame one level less deep than the one around it. -/
def StackSettled : List Frame → Prop
  | [] => True
  | frame :: below =>
    below.length < nestingLimit ∧
      (∀ value ∈ frame.values, Settled (nestingLimit - (below.length + 1)) value) ∧
      StackSettled below

/-- The value that a spot carries is settled, and a word is so at any depth. -/
def SpotSettled : Spot → Prop
  | .done value => Settled nestingLimit value
  | .word value _ => ∀ depth, Settled depth value
  | _ => True

/-- A machine that carries settled values only. -/
structure Steady (machine : Machine) : Prop where
  stack : StackSettled machine.stack
  spot : SpotSettled machine.spot

variable {stack : List Frame} {c : Char} {next : Machine}

theorem steady_deliver {value : Json} (held : StackSettled stack)
    (settled : Settled (nestingLimit - stack.length) value)
    (delivered : deliver stack value = .ok next) : next.Steady := by
  cases stack with
  | nil =>
    cases delivered
    exact ⟨trivial, settled⟩
  | cons frame below =>
    obtain ⟨room, inside, around⟩ := held
    cases frame with
    | array items =>
      cases delivered
      exact ⟨⟨room, List.forall_mem_cons.mpr ⟨settled, inside⟩, around⟩, trivial⟩
    | member members key =>
      cases delivered
      exact ⟨⟨room, List.forall_mem_cons.mpr ⟨settled, inside⟩, around⟩, trivial⟩
    | object members => cases delivered

private theorem steady_enter {frame : Frame} {spot : Spot} (held : StackSettled stack)
    (entered : enter stack frame spot = .ok next) (fresh : frame.values = [])
    (carried : SpotSettled spot) :
    next.Steady := by
  unfold enter at entered
  split at entered
  next room =>
    cases entered
    refine ⟨⟨room, ?_, held⟩, carried⟩
    rw [fresh]
    intro value listed
    cases listed
  next => cases entered

theorem steady_closeArray (held : StackSettled stack) (closed : closeArray stack = .ok next) :
    next.Steady := by
  unfold closeArray at closed
  split at closed
  next items below =>
    obtain ⟨room, inside, around⟩ := held
    refine steady_deliver around (settled_array_iff.mpr ⟨nestingLimit - (below.length + 1),
      by omega, ?_⟩) closed
    exact fun item listed => inside item (List.mem_reverse.mp listed)
  next => cases closed

theorem steady_closeObject (held : StackSettled stack) (closed : closeObject stack = .ok next) :
    next.Steady := by
  unfold closeObject at closed
  split at closed
  next members below =>
    obtain ⟨room, inside, around⟩ := held
    rw [sortMembers_eq_arrange] at closed
    refine steady_deliver around
      (settled_object_iff.mpr ⟨nestingLimit - (below.length + 1), by omega,
        Entries.ascending_arrange _, ?_⟩) closed
    intro member listed
    exact inside member.2 (List.mem_map_of_mem (List.mem_reverse.mp (Entries.mem_arrange listed)))
  next => cases closed

theorem steady_stepValue (held : StackSettled stack) (stepped : stepValue stack c = .ok next) :
    next.Steady := by
  unfold stepValue at stepped
  split at stepped
  · cases stepped
    exact ⟨held, trivial⟩
  split at stepped
  · cases stepped
    exact ⟨held, trivial⟩
  split at stepped
  · cases stepped
    exact ⟨held, fun depth => ⟨.null, rfl⟩⟩
  split at stepped
  · cases stepped
    exact ⟨held, fun depth => ⟨.boolean true, rfl⟩⟩
  split at stepped
  · cases stepped
    exact ⟨held, fun depth => ⟨.boolean false, rfl⟩⟩
  split at stepped
  · exact steady_enter held stepped rfl trivial
  split at stepped
  · exact steady_enter held stepped rfl trivial
  · cases stepped

theorem steady_stepKey (held : StackSettled stack) (stepped : stepKey stack c = .ok next) :
    next.Steady := by
  unfold stepKey at stepped
  split at stepped <;> cases stepped
  exact ⟨held, trivial⟩

theorem steady_stepColon {key : String} (held : StackSettled stack)
    (stepped : stepColon stack key c = .ok next) :
    next.Steady := by
  unfold stepColon at stepped
  split at stepped
  · split at stepped <;> cases stepped
    exact ⟨held, trivial⟩
  · cases stepped

private theorem steady_stepAfter (held : StackSettled stack)
    (stepped : stepAfter stack c = .ok next) : next.Steady := by
  unfold stepAfter at stepped
  split at stepped
  · split at stepped <;> cases stepped <;> exact ⟨held, trivial⟩
  split at stepped
  · exact steady_closeArray held stepped
  split at stepped
  · exact steady_closeObject held stepped
  · cases stepped

private theorem steady_stepWord {value : Json} {rest : List Char} (held : StackSettled stack)
    (settled : ∀ depth, Settled depth value) (stepped : stepWord stack value rest c = .ok next) :
    next.Steady := by
  unfold stepWord at stepped
  split at stepped
  · cases stepped
  · split at stepped
    · exact steady_deliver held (settled _) stepped
    · cases stepped
  · split at stepped <;> cases stepped
    exact ⟨held, settled⟩

private theorem steady_stepString {isKey : Bool} {taken : List Char} {place : InString}
    (held : StackSettled stack) (stepped : stepString stack isKey taken place c = .ok next) :
    next.Steady := by
  unfold stepString endString at stepped
  split at stepped
  · split at stepped
    · cases stepped
      exact ⟨held, trivial⟩
    · exact steady_deliver held ⟨.text _, rfl⟩ stepped
  · split at stepped <;> cases stepped
    exact ⟨held, trivial⟩

theorem Steady.stepSettled {machine : Machine} (steady : machine.Steady)
    (stepped : machine.stepSettled c = .ok next) :
    next.Steady := by
  obtain ⟨stack, spot⟩ := machine
  obtain ⟨held, carried⟩ := steady
  have pausing {result : Except Fault Machine} (inside : result = .ok next → next.Steady)
      (stepped : (if isBlank c then .ok ⟨stack, spot⟩ else result) = .ok next) : next.Steady := by
    split at stepped
    · cases stepped
      exact ⟨held, carried⟩
    · exact inside stepped
  unfold Machine.stepSettled at stepped
  cases spot with
  | string isKey taken place => exact steady_stepString held stepped
  | word value rest => exact steady_stepWord held carried stepped
  | number taken => cases stepped
  | value => exact pausing (steady_stepValue held) stepped
  | firstItem =>
    refine pausing (fun stepped => ?_) stepped
    dsimp only at stepped
    split at stepped
    · exact steady_closeArray held stepped
    · exact steady_stepValue held stepped
  | firstKey =>
    refine pausing (fun stepped => ?_) stepped
    dsimp only at stepped
    split at stepped
    · exact steady_closeObject held stepped
    · exact steady_stepKey held stepped
  | key => exact pausing (steady_stepKey held) stepped
  | colon key => exact pausing (steady_stepColon held) stepped
  | after => exact pausing (steady_stepAfter held) stepped
  | done value =>
    refine pausing (fun stepped => ?_) stepped
    cases stepped

private theorem settled_numeral {chars : List Char} {value : Json}
    (read : numeral chars = .ok value) (depth : Nat) :
    Settled depth value := by
  obtain ⟨number, rfl⟩ := exists_number_of_numeral read
  exact ⟨.number trivial, rfl⟩

theorem Steady.step {machine : Machine} (steady : machine.Steady)
    (stepped : machine.step c = .ok next) :
    next.Steady := by
  unfold Machine.step at stepped
  split at stepped
  next taken _ =>
    split at stepped
    · cases stepped
      exact ⟨steady.stack, trivial⟩
    · split at stepped
      · cases stepped
      next value read =>
        split at stepped
        · cases stepped
        next delivered =>
          exact (steady_deliver steady.stack (settled_numeral read _) delivered).stepSettled stepped
  next => exact steady.stepSettled stepped

theorem Steady.run {machine last : Machine} {chars : List Char} (steady : machine.Steady)
    (ran : chars.foldlM Machine.step machine = .ok last) : last.Steady := by
  induction chars generalizing machine with
  | nil =>
    cases ran
    exact steady
  | cons c chars ih =>
    rw [List.foldlM_cons] at ran
    cases stepped : machine.step c with
    | error fault =>
      rw [stepped] at ran
      cases ran
    | ok next =>
      rw [stepped] at ran
      exact ih (steady.step stepped) ran

theorem Steady.finish {machine : Machine} {value : Json} (steady : machine.Steady)
    (finished : machine.finish = .ok value) :
    Settled nestingLimit value := by
  obtain ⟨stack, spot⟩ := machine
  unfold Machine.finish at finished
  cases spot with
  | done value =>
    cases finished
    exact steady.spot
  | number taken =>
    dsimp only at finished
    split at finished
    · cases finished
    next read =>
      split at finished <;> cases finished
      exact settled_numeral read _
  | _ => cases finished

end Machine

/-- What was read has its objects in order and nests no deeper than the limit. -/
theorem settled_of_parse {text : String} {value : Json} (read : parse text = .ok value) :
    Settled nestingLimit value := by
  unfold parse at read
  split at read
  · cases read
  next machine ran =>
    have start : Machine.start.Steady := ⟨trivial, trivial⟩
    exact (start.run ran).finish read

end StanzaSchema.Json
