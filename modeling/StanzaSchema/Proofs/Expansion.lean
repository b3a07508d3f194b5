import StanzaSchema.Proofs.Cutting
import StanzaSchema.Settings.Reader

/-!
Replacing references to the environment. A text is divided at its references, each time at the
leftmost one in what is left, and there is one such division. Replacing puts values in the places of
the references and touches nothing else, so no value is looked at again, whatever references it
holds or completes.
-/

namespace StanzaSchema

namespace Environment

/-- A reference in a text, between what stands before it and what stands after it. -/
structure Occurs (chars before name after : List Char) : Prop where
  split : chars = before ++ (written name ++ after)
  filled : name ≠ []
  closed : '\x7d' ∉ name

/-- A text divided at references: what stands before each of them and its name, and what stands
after the last. -/
structure Division where
  references : List (List Char × List Char)
  rest : List Char
deriving DecidableEq

/-- The text with something in the places of the references. -/
def Division.fill (division : Division) (value : List Char → List Char) : List Char :=
  (division.references.flatMap fun reference => reference.1 ++ value reference.2) ++ division.rest

def Division.names (division : Division) : List String :=
  division.references.map fun reference => String.ofList reference.2

/-- A division at the leftmost reference, then at the leftmost one after it, and so on to the
last. -/
inductive Divides : List Char → Division → Prop where
  | done {chars : List Char} (absent : ∀ before name after, ¬ Occurs chars before name after) :
      Divides chars ⟨[], chars⟩
  | next {chars before name after : List Char} {division : Division}
      (here : Occurs chars before name after)
      (leftmost : ∀ front other back, Occurs chars front other back → before.length ≤ front.length)
      (later : Divides after division) :
      Divides chars ⟨(before, name) :: division.references, division.rest⟩

/-- The value of a variable that is set, and the reference itself otherwise. -/
def valueOr (environment : Environment) (name : List Char) : List Char :=
  ((environment (String.ofList name)).map String.toList).getD (written name)

theorem meaning_eq_valueOr (environment : Environment) (name : List Char) :
    environment.meaning name = environment.valueOr name := by
  unfold meaning valueOr
  cases environment (String.ofList name) <;> rfl

section Occurrences

variable {c : Char} {chars rest before name after : List Char}

theorem reference?_eq_some_iff : reference? chars = some (name, after) ↔
    Occurs chars [] name after := by
  constructor
  · intro found
    have split := eq_written_append_of_reference? found
    unfold reference? at found
    split at found
    next =>
      split at found
      next cut =>
        split at found
        · cases found
        next filled =>
          cases found
          exact ⟨split, fun empty => filled (List.isEmpty_iff.mpr empty),
            (Text.eq_append_of_cutAt? cut).2⟩
      next => cases found
    next => cases found
  · rintro ⟨rfl, filled, closed⟩
    have cut := Text.cutAt?_append closed after
    simp [written, reference?, cut, filled]

private theorem not_occurs_nil : ¬ Occurs [] before name after := by
  rintro ⟨split, _, _⟩
  simp [written] at split

theorem occurs_cons : Occurs (c :: rest) (c :: before) name after ↔
    Occurs rest before name after := by
  constructor
  · rintro ⟨split, filled, closed⟩
    exact ⟨List.tail_eq_of_cons_eq split, filled, closed⟩
  · rintro ⟨rfl, filled, closed⟩
    exact ⟨rfl, filled, closed⟩

/-- A reference stands at the front of a text or in what follows its first character. -/
theorem occurs_cons_cases (here : Occurs (c :: rest) before name after) :
    before = [] ∧ reference? (c :: rest) = some (name, after) ∨
      ∃ others, before = c :: others ∧ Occurs rest others name after := by
  cases before with
  | nil => exact .inl ⟨rfl, reference?_eq_some_iff.mpr here⟩
  | cons d others =>
    obtain rfl : c = d := (List.cons.inj here.split).1
    exact .inr ⟨others, rfl, occurs_cons.mp here⟩

/-- A text has no reference, or one that stands before all others. -/
theorem absent_or_leftmost (chars : List Char) :
    (∀ before name after, ¬ Occurs chars before name after) ∨
      ∃ before name after, Occurs chars before name after ∧
        ∀ front other back, Occurs chars front other back → before.length ≤ front.length := by
  induction chars with
  | nil => exact .inl fun _ _ _ => not_occurs_nil
  | cons c rest ih =>
    cases found : reference? (c :: rest) with
    | some reference =>
      obtain ⟨name, after⟩ := reference
      exact .inr ⟨[], name, after, reference?_eq_some_iff.mp found, fun _ _ _ _ => Nat.zero_le _⟩
    | none =>
      -- Nothing stands at the front, so all references are those of the rest.
      have later {before name after : List Char} (here : Occurs (c :: rest) before name after) :
          ∃ others, before = c :: others ∧ Occurs rest others name after := by
        rcases occurs_cons_cases here with ⟨_, front⟩ | inside
        · cases found.symm.trans front
        · exact inside
      rcases ih with absent | ⟨before, name, after, here, leftmost⟩
      · refine .inl fun before name after here => ?_
        obtain ⟨others, _, inside⟩ := later here
        exact absent others name after inside
      · refine .inr ⟨c :: before, name, after, occurs_cons.mpr here,
          fun front other back there => ?_⟩
        obtain ⟨others, rfl, inside⟩ := later there
        exact Nat.succ_le_succ (leftmost others other back inside)

end Occurrences

section Divisions

variable {chars : List Char} {division : Division}

private theorem Occurs.length_lt {before name after : List Char}
    (here : Occurs chars before name after) :
    after.length < chars.length := by
  rw [here.split, written]
  simp only [List.length_append, List.length_cons]
  omega

theorem exists_divides (chars : List Char) : ∃ division, Divides chars division := by
  induction bound : chars.length using Nat.strongRecOn generalizing chars with
  | ind length ih =>
    rcases absent_or_leftmost chars with absent | ⟨before, name, after, here, leftmost⟩
    · exact ⟨_, .done absent⟩
    · obtain ⟨division, divides⟩ := ih after.length (bound ▸ here.length_lt) after rfl
      exact ⟨_, .next here leftmost divides⟩

private theorem Occurs.eq_of_length_eq {before name after front other back : List Char}
    (here : Occurs chars before name after) (there : Occurs chars front other back)
    (same : before.length = front.length) :
    before = front ∧ name = other ∧ after = back := by
  obtain ⟨rfl, tail⟩ := List.append_inj (here.split.symm.trans there.split) same
  have first : reference? (written name ++ after) = some (name, after) :=
    reference?_eq_some_iff.mpr ⟨rfl, here.filled, here.closed⟩
  have second : reference? (written name ++ after) = some (other, back) :=
    reference?_eq_some_iff.mpr ⟨tail, there.filled, there.closed⟩
  obtain ⟨rfl, rfl⟩ := Prod.mk.inj (Option.some.inj (first.symm.trans second))
  exact ⟨rfl, rfl, rfl⟩

/-- There is one division of a text. -/
theorem Divides.unique {other : Division} (first : Divides chars division)
    (second : Divides chars other) :
    division = other := by
  induction first generalizing other with
  | done absent =>
    cases second with
    | done => rfl
    | next here => exact absurd here (absent _ _ _)
  | next here leftmost _ ih =>
    cases second with
    | done absent => exact absurd here (absent _ _ _)
    | next there lefter later =>
      have level := Nat.le_antisymm (leftmost _ _ _ there) (lefter _ _ _ here)
      obtain ⟨rfl, rfl, rfl⟩ := here.eq_of_length_eq there level
      rw [ih later]

theorem Division.fill_next (before name : List Char) (division : Division)
    (value : List Char → List Char) :
    Division.fill ⟨(before, name) :: division.references, division.rest⟩ value =
      before ++ (value name ++ division.fill value) := by
  simp [Division.fill]

/-- A division loses nothing of the text. -/
theorem Divides.fill_written (divides : Divides chars division) :
    division.fill written = chars := by
  induction divides with
  | done => rfl
  | next here _ _ ih => rw [Division.fill_next, ih, here.split]

end Divisions

section Expanding

variable {environment : Environment} {chars : List Char} {division : Division}

private theorem expandChars_skip (skipped : Nat) (chars : List Char) :
    environment.expandChars skipped chars = environment.expandChars 0 (chars.drop skipped) := by
  induction skipped generalizing chars with
  | zero => rfl
  | succ skipped ih =>
    cases chars with
    | nil => rfl
    | cons c rest => exact ih rest

private theorem expandChars_absent
    (absent : ∀ before name after, ¬ Occurs chars before name after) :
    environment.expandChars 0 chars = chars := by
  induction chars with
  | nil => rfl
  | cons c rest ih =>
    have none_here : reference? (c :: rest) = none := by
      cases found : reference? (c :: rest) with
      | none => rfl
      | some reference => exact absurd (reference?_eq_some_iff.mp found) (absent _ _ _)
    have later :=
      ih fun before name after here => absent (c :: before) name after (occurs_cons.mpr here)
    simp only [expandChars, none_here, later]

/-- What stands before the leftmost reference is kept, and the text goes on to be read after the
reference. -/
theorem expandChars_leftmost {before name after : List Char} (here : Occurs chars before name after)
    (leftmost : ∀ front other back, Occurs chars front other back → before.length ≤ front.length) :
    environment.expandChars 0 chars =
      before ++ (environment.valueOr name ++ environment.expandChars 0 after) := by
  induction before generalizing chars with
  | nil =>
    obtain ⟨rest, shown, dropped⟩ : ∃ rest, chars = '$' :: rest ∧
        rest.drop (name.length + 2) = after := by
      refine ⟨_, here.split, ?_⟩
      simp
    have found := reference?_eq_some_iff.mpr here
    rw [shown] at found ⊢
    simp only [expandChars, found]
    rw [expandChars_skip, dropped, meaning_eq_valueOr, List.nil_append]
  | cons c before ih =>
    obtain ⟨rest, rfl⟩ : ∃ rest, chars = c :: rest := ⟨_, here.split⟩
    have none_here : reference? (c :: rest) = none := by
      cases found : reference? (c :: rest) with
      | none => rfl
      | some reference => cases leftmost _ _ _ (reference?_eq_some_iff.mp found)
    have later := ih (occurs_cons.mp here) fun front other back there =>
      Nat.le_of_succ_le_succ (leftmost (c :: front) other back (occurs_cons.mpr there))
    simp only [expandChars, none_here, later, List.cons_append]

private theorem Divides.expandChars_eq (divides : Divides chars division) :
    environment.expandChars 0 chars = division.fill environment.valueOr := by
  induction divides with
  | done absent => exact expandChars_absent absent
  | next here leftmost _ ih => rw [expandChars_leftmost here leftmost, ih, Division.fill_next]

theorem toList_expand {text : String} (divides : Divides text.toList division) :
    (environment.expand text).toList = division.fill environment.valueOr := by
  rw [expand, String.toList_ofList, divides.expandChars_eq]

private theorem Division.fill_congr {value other : List Char → List Char}
    (same : ∀ reference ∈ division.references, value reference.2 = other reference.2) :
    division.fill value = division.fill other := by
  have pieces : division.references.map (fun reference => reference.1 ++ value reference.2) =
      division.references.map fun reference => reference.1 ++ other reference.2 := by
    apply List.map_congr_left
    intro reference listed
    rw [same reference listed]
  rw [fill, fill, List.flatMap_def, pieces, ← List.flatMap_def]

/-- What the environment says of other names makes no difference. -/
theorem expand_congr {other : Environment} {text : String} (divides : Divides text.toList division)
    (same : ∀ name ∈ division.names, other name = environment name) :
    other.expand text = environment.expand text := by
  apply String.toList_injective
  rw [toList_expand divides, toList_expand divides]
  apply Division.fill_congr
  intro reference listed
  rw [valueOr, valueOr, same _ (List.mem_map_of_mem listed)]

private theorem expand_unset {text : String} (divides : Divides text.toList division)
    (unset : ∀ name ∈ division.names, environment name = none) :
    environment.expand text = text := by
  apply String.toList_injective
  rw [toList_expand divides, ← divides.fill_written]
  apply Division.fill_congr
  intro reference listed
  rw [valueOr, unset _ (List.mem_map_of_mem listed)]
  rfl

end Expanding

/-- References are replaced in one pass from left to right. A text has one division at its leftmost
references; the result has in their places the values of the variables that are set, and is the text
otherwise. So the result depends on the names in the text alone and not on those in the values,
nothing changes where none of them is set, and settings are read from the result as it is. -/
theorem expansion_single_pass (environment : Environment) (text : String) :
    ∃ division, Divides text.toList division ∧
      (∀ other, Divides text.toList other → other = division) ∧
      text.toList = division.fill written ∧
      (environment.expand text).toList = division.fill environment.valueOr ∧
      ((∀ name ∈ division.names, environment name = none) → environment.expand text = text) ∧
      (∀ other : Environment, (∀ name ∈ division.names, other name = environment name) →
        other.expand text = environment.expand text) ∧
      Settings.ofText environment text =
        Settings.ofText (fun _ => none) (environment.expand text) := by
  obtain ⟨division, divides⟩ := exists_divides text.toList
  refine ⟨division, divides, fun other second => second.unique divides, divides.fill_written.symm,
    toList_expand divides, expand_unset divides, fun other same => expand_congr divides same, ?_⟩
  obtain ⟨again, divided⟩ := exists_divides (environment.expand text).toList
  have settled : Environment.expand (fun _ => none) (environment.expand text) =
      environment.expand text :=
    expand_unset divided fun _ _ => rfl
  rw [Settings.ofText, Settings.ofText, settled]

end Environment

namespace Bookstore

/-- A reference inside another one, an empty one, and one that is not closed. -/
def leaflet : String := "$$\x7bpath$\x7bB\x7d-$\x7b\x7d$\x7bstem\x7d$\x7bend"

/-- A value that is written as a reference. -/
def shopfront : Environment := .ofEntries [("path$\x7bB", "$\x7bstem\x7d"), ("stem", "Shelf")]

end Bookstore

theorem Environment.expansion_single_pass_bookstore :
    Bookstore.shopfront.expand Bookstore.leaflet = "$$\x7bstem\x7d-$\x7b\x7dShelf$\x7bend" ∧
      Environment.expand (fun _ => none) Bookstore.leaflet = Bookstore.leaflet ∧
      ∃ division, Divides Bookstore.leaflet.toList division ∧
        Bookstore.leaflet.toList = division.fill written ∧
        (Bookstore.shopfront.expand Bookstore.leaflet).toList =
          division.fill Bookstore.shopfront.valueOr := by
  obtain ⟨_, _, _, _, _, unset, _⟩ := expansion_single_pass (fun _ => none) Bookstore.leaflet
  obtain ⟨division, divides, _, text, result, _⟩ :=
    expansion_single_pass Bookstore.shopfront Bookstore.leaflet
  refine ⟨?_, unset fun _ _ => rfl, division, divides, text, result⟩
  decide +kernel

end StanzaSchema
