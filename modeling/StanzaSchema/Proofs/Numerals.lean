import StanzaSchema.Proofs.JsonText

/-!
Numbers in JSON texts. Every whole number is read back from its text. The text of a floating-point
number has the form of a number; whether it is read back depends on the number, since the reader
rounds digits and scale one after the other.
-/

namespace StanzaSchema

private theorem isDecimalDigit_iff {c : Char} : isDecimalDigit c = true ↔ c.isDigit = true := by
  simp only [isDecimalDigit, Char.isDigit_iff_toNat, Bool.and_eq_true, decide_eq_true_eq]
  rfl

theorem isDecimalDigit_of_mem_toDigits {n : Nat} {c : Char} (listed : c ∈ Nat.toDigits 10 n) :
    isDecimalDigit c = true :=
  isDecimalDigit_iff.mpr (Nat.isDigit_of_mem_toDigits (by decide) (by decide) listed)

/-- Only zero is written with a zero in front. -/
theorem toDigits_eq_cons {n : Nat} (positive : 0 < n) :
    ∃ first rest, Nat.toDigits 10 n = first :: rest ∧ first ≠ '0' := by
  induction n using Nat.strongRecOn with
  | ind n ih =>
    by_cases small : n < 10
    · refine ⟨n.digitChar, [], Nat.toDigits_of_lt_base small, ?_⟩
      intro same
      have value := Nat.toNat_digitChar_of_lt_ten small
      rw [same, show '0'.toNat = 48 from rfl] at value
      omega
    · obtain ⟨first, rest, digits, other⟩ := ih (n / 10) (by omega) (by omega)
      refine ⟨first, rest ++ [(n % 10).digitChar], ?_, other⟩
      rw [Nat.toDigits_of_base_le (by decide) (by omega), digits, List.cons_append]

namespace Json

private theorem le_ofDigitChars (chars : List Char) (start : Nat) :
    start ≤ Nat.ofDigitChars 10 chars start := by
  induction chars generalizing start with
  | nil => exact Nat.le_refl _
  | cons c chars ih =>
    rw [Nat.ofDigitChars_cons]
    exact Nat.le_trans (by omega) (ih _)

/-- Digits whose value stays within the limit are all taken. -/
theorem readSignificand_digits {chars : List Char} (digits : ∀ c ∈ chars, isDecimalDigit c = true)
    {start : Nat} (fits : Nat.ofDigitChars 10 chars start ≤ significandLimit) :
    readSignificand start chars = (Nat.ofDigitChars 10 chars start, chars.length, []) := by
  induction chars generalizing start with
  | nil => rfl
  | cons c chars ih =>
    have digit : isDecimalDigit c = true := digits c List.mem_cons_self
    have next : start * 10 + digitValue c = 10 * start + (c.toNat - '0'.toNat) := by
      rw [digitValue, if_pos digit, Nat.mul_comm]
    rw [Nat.ofDigitChars_cons, ← next] at fits ⊢
    have room : start * 10 + digitValue c ≤ significandLimit :=
      Nat.le_trans (le_ofDigitChars chars _) fits
    rw [readSignificand, ih (fun d listed => digits d (List.mem_cons_of_mem _ listed)) fits]
    simp only [digit, room, decide_true, Bool.and_self, ↓reduceIte, List.length_cons]

private theorem readNumber_toDigits (negative : Bool) {n : Nat} (fits : n ≤ significandLimit) :
    readNumber negative (Nat.toDigits 10 n) = finishWhole negative n [] := by
  by_cases positive : 0 < n
  · have value : Nat.ofDigitChars 10 (Nat.toDigits 10 n) 0 = n :=
      Nat.ofDigitChars_toDigits (by decide) (by decide)
    have taken :=
      readSignificand_digits (fun c listed => isDecimalDigit_of_mem_toDigits listed)
        (value.symm ▸ fits)
    rw [value] at taken
    obtain ⟨first, rest, shown, other⟩ := toDigits_eq_cons positive
    have digit : isDecimalDigit first = true :=
      isDecimalDigit_of_mem_toDigits (shown ▸ List.mem_cons_self)
    rw [shown] at taken ⊢
    unfold readNumber
    split
    next empty => cases empty
    next same =>
      cases same
      exact absurd rfl other
    next c more _ same =>
      cases same
      rw [if_pos digit, taken]
      rfl
  · have zero : n = 0 := by omega
    subst zero
    rfl

/-- Every whole number is read back. -/
theorem numeral_intChars {value : Int} (fits : Fits value) :
    numeral (intChars value) = .ok (.number (.whole value fits)) := by
  have digits : value.natAbs ≤ significandLimit := by
    have low : (power 2 63 : Int) = 9223372036854775808 := rfl
    have high : (power 2 64 : Int) = 18446744073709551616 := rfl
    have limit : significandLimit = 18446744073709551615 := rfl
    simp only [Fits, low, high] at fits
    omega
  unfold intChars
  split
  next negative =>
    have finished : finishWhole true value.natAbs [] = .ok (.number (.whole value fits), []) := by
      have nonzero : (value.natAbs == 0) = false := by
        rw [beq_eq_false_iff_ne]
        omega
      have same : -(value.natAbs : Int) = value := by omega
      simp only [finishWhole, nonzero, Bool.and_false, Bool.false_eq_true, ↓reduceIte, same,
        fits, ↓reduceDIte]
    simp only [numeral, readNumber_toDigits true digits, finished]
  next negative =>
    have finished : finishWhole false value.natAbs [] = .ok (.number (.whole value fits), []) := by
      have same : (value.natAbs : Int) = value := by omega
      simp only [finishWhole, Bool.false_and, Bool.false_eq_true, ↓reduceIte, same,
        fits, ↓reduceDIte]
    have unsigned : ∀ rest, Nat.toDigits 10 value.natAbs ≠ '-' :: rest := by
      intro rest same
      have listed : '-' ∈ Nat.toDigits 10 value.natAbs := same ▸ List.mem_cons_self
      cases isDecimalDigit_of_mem_toDigits listed
    unfold numeral
    split
    next rest same => exact absurd same (unsigned rest)
    next => rw [readNumber_toDigits false digits, finished]

/-- A digit and what goes on with a number. -/
def Spells : List Char → Prop
  | [] => False
  | first :: rest => isDecimalDigit first = true ∧ rest.all Machine.isNumeric = true

theorem Spells.append {chars more : List Char} (spells : Spells chars)
    (numeric : more.all Machine.isNumeric = true) :
    Spells (chars ++ more) := by
  cases chars with
  | nil => exact spells.elim
  | cons first rest =>
    refine ⟨spells.1, ?_⟩
    show (rest ++ more).all Machine.isNumeric = true
    rw [List.all_append, spells.2, numeric]
    rfl

theorem all_isNumeric {chars : List Char} (digits : ∀ c ∈ chars, isDecimalDigit c = true) :
    chars.all Machine.isNumeric = true := by
  rw [List.all_eq_true]
  intro c listed
  simp [Machine.isNumeric, digits c listed]

theorem spells_of_digits {chars : List Char} (inhabited : chars ≠ [])
    (digits : ∀ c ∈ chars, isDecimalDigit c = true) :
    Spells chars := by
  cases chars with
  | nil => exact absurd rfl inhabited
  | cons first rest =>
    exact ⟨digits first List.mem_cons_self,
      all_isNumeric fun c listed => digits c (List.mem_cons_of_mem _ listed)⟩

section FloatText

variable {digits : List Char} (inhabited : digits ≠ [])
  (decimal : ∀ c ∈ digits, isDecimalDigit c = true)
include inhabited decimal

private theorem spells_take (count : Nat) : Spells (digits.take (count + 1)) := by
  refine spells_of_digits ?_ fun c listed => decimal c (List.mem_of_mem_take listed)
  simpa using inhabited

private theorem spells_positional (place : Int) : Spells (FloatLayout.positional digits place) := by
  have zeros (count : Nat) : (List.replicate count '0').all Machine.isNumeric = true :=
    all_isNumeric fun c listed => List.eq_of_mem_replicate listed ▸ rfl
  unfold FloatLayout.positional
  split
  · refine ⟨rfl, ?_⟩
    rw [List.all_cons, List.all_append, zeros, all_isNumeric decimal]
    rfl
  · dsimp only
    split
    · exact ((spells_of_digits inhabited decimal).append (zeros _)).append rfl
    · refine (spells_take inhabited decimal _).append ?_
      rw [List.all_cons, all_isNumeric fun c listed => decimal c (List.mem_of_mem_drop listed)]
      rfl

private theorem spells_exponential (place : Int) :
    Spells (FloatLayout.exponential digits place) := by
  have fraction : (if digits.length ≤ 1 then [] else '.' :: digits.drop 1).all Machine.isNumeric =
      true := by
    split
    · rfl
    · rw [List.all_cons, all_isNumeric fun c listed => decimal c (List.mem_of_mem_drop listed)]
      rfl
  have exponent :
      ('e' :: (if place < 0 then '-' else '+') :: Nat.toDigits 10 place.natAbs).all
        Machine.isNumeric =
      true := by
    rw [List.all_cons, List.all_cons,
      all_isNumeric fun c listed => isDecimalDigit_of_mem_toDigits listed]
    split <;> rfl
  exact ((spells_take inhabited decimal 0).append fraction).append exponent

end FloatText

theorem Spells.signed {body : List Char} (spells : Spells body) {negative : Prop}
    [Decidable negative] :
    ∃ first rest, (if negative then '-' :: body else body) = first :: rest ∧
      (first = '-' ∨ isDecimalDigit first = true) ∧ rest.all Machine.isNumeric = true := by
  cases body with
  | nil => exact spells.elim
  | cons first rest =>
    obtain ⟨digit, numeric⟩ := spells
    split
    · refine ⟨'-', first :: rest, rfl, .inl rfl, ?_⟩
      rw [List.all_cons, numeric, Machine.isNumeric, digit]
      rfl
    · exact ⟨first, rest, rfl, .inr digit, numeric⟩

/-- The text of a number has the form of one. -/
theorem Number.chars_eq_cons (number : Number) :
    ∃ first rest, number.chars = first :: rest ∧ (first = '-' ∨ isDecimalDigit first = true) ∧
      rest.all Machine.isNumeric = true := by
  have decimal (n : Nat) : ∀ c ∈ Nat.toDigits 10 n, isDecimalDigit c = true := fun c listed =>
    isDecimalDigit_of_mem_toDigits listed
  cases number with
  | whole value fits => exact (spells_of_digits Nat.toDigits_ne_nil (decimal _)).signed
  | floating value =>
    refine Spells.signed ?_
    split
    · exact spells_positional Nat.toDigits_ne_nil (decimal _) _
    · exact spells_exponential Nat.toDigits_ne_nil (decimal _) _

theorem Number.legible_whole {value : Int} (fits : Fits value) :
    (Number.whole value fits).Legible :=
  ⟨Number.chars_eq_cons _, numeral_intChars fits⟩

/-- A floating-point number that its text stands for. -/
def IsRead (x : Binary64) : Prop := numeral (floatLayout.chars x) = .ok (.number (.floating x))

instance (x : Binary64) : Decidable (IsRead x) :=
  match read : numeral (floatLayout.chars x) with
  | .ok (.number (.floating y)) =>
    if same : y = x then isTrue (by rw [IsRead, read, same])
    else isFalse fun isRead => same (by rw [IsRead, read] at isRead; cases isRead; rfl)
  | .ok (.number (.whole ..)) | .ok .null | .ok (.boolean _) | .ok (.text _) | .ok (.array _)
    | .ok (.object _)
  | .error _ => isFalse fun isRead => by rw [IsRead, read] at isRead; cases isRead

theorem Number.legible_floating {x : Binary64} (isRead : IsRead x) : (Number.floating x).Legible :=
  ⟨Number.chars_eq_cons _, isRead⟩

section Kind

/-- A reader that yields numbers. -/
def Reads.Numeric (read : Reads Json) : Prop :=
  ∀ {chars value rest}, read chars = .ok (value, rest) → ∃ n, value = .number n

variable (negative : Bool) (significand : Nat) (exponent : Int)

theorem numeric_finishFloating : Reads.Numeric (finishFloating negative significand exponent) := by
  intro chars value rest read
  unfold finishFloating at read
  split at read <;> cases read
  exact ⟨_, rfl⟩

theorem numeric_finishWhole : Reads.Numeric (finishWhole negative significand) := by
  intro chars value rest read
  unfold finishWhole at read
  split at read
  · exact numeric_finishFloating _ _ _ read
  · by_cases fits : Fits (if negative then -significand else significand)
    · rw [dif_pos fits] at read
      cases read
      exact ⟨_, rfl⟩
    · rw [dif_neg fits] at read
      exact numeric_finishFloating _ _ _ read

private theorem numeric_readExponent :
    Reads.Numeric (readExponent negative significand exponent) := by
  intro chars value rest read
  unfold readExponent at read
  dsimp only at read
  split at read
  · cases read
  · split at read
    · exact numeric_finishFloating _ _ _ read
    · cases read

private theorem numeric_readExponentOrEnd :
    Reads.Numeric (readExponentOrEnd negative significand exponent) := by
  intro chars value rest read
  unfold readExponentOrEnd at read
  split at read
  · split at read
    · exact numeric_readExponent _ _ _ read
    · exact numeric_finishFloating _ _ _ read
  · exact numeric_finishFloating _ _ _ read

private theorem numeric_readFraction :
    Reads.Numeric (readFraction negative significand exponent) := by
  intro chars value rest read
  unfold readFraction at read
  dsimp only at read
  split at read
  · exact numeric_readExponentOrEnd _ _ _ read
  · split at read
    · cases read
    · exact numeric_readExponentOrEnd _ _ _ read

private theorem numeric_readNumberTail (dropped : Nat) :
    Reads.Numeric (readNumberTail negative significand dropped) := by
  intro chars value rest read
  have plain {chars : List Char} (read : (if dropped = 0 then finishWhole negative significand chars
      else finishFloating negative significand dropped chars) = .ok (value, rest)) :
    ∃ n, value = .number n := by
    split at read
    · exact numeric_finishWhole _ _ read
    · exact numeric_finishFloating _ _ _ read
  unfold readNumberTail at read
  split at read
  · exact numeric_readFraction _ _ _ read
  · split at read
    · exact numeric_readExponent _ _ _ read
    · exact plain read
  · exact plain read

private theorem numeric_readNumber : Reads.Numeric (readNumber negative) := by
  intro chars value rest read
  unfold readNumber at read
  split at read
  · cases read
  · split at read
    · cases read
    · exact numeric_readNumberTail _ _ _ read
  · split at read
    · exact numeric_readNumberTail _ _ _ read
    · cases read

theorem exists_number_of_numeral {chars : List Char} {value : Json}
    (read : numeral chars = .ok value) :
    ∃ n, value = .number n := by
  unfold numeral at read
  dsimp only at read
  split at read
  · cases read
  · cases read
    rename_i taken
    split at taken
    · exact numeric_readNumber _ taken
    · exact numeric_readNumber _ taken
  · cases read

end Kind

mutual
/-- The floating-point numbers in a value. -/
def floats : Json → List Binary64
  | .number (.floating x) => [x]
  | .array items => itemFloats items
  | .object members => memberFloats members
  | _ => []
def itemFloats : List Json → List Binary64
  | [] => []
  | item :: rest => item.floats ++ itemFloats rest
def memberFloats : List (String × Json) → List Binary64
  | [] => []
  | (_, value) :: rest => value.floats ++ memberFloats rest
end

private theorem floats_array (items : List Json) : (array items).floats = items.flatMap floats := by
  have general : itemFloats items = items.flatMap floats := by
    induction items with
    | nil => rfl
    | cons item rest ih => rw [itemFloats, ih, List.flatMap_cons]
  rw [floats, general]

private theorem floats_object (members : List (String × Json)) :
    (object members).floats = members.flatMap fun member => member.2.floats := by
  have general : memberFloats members = members.flatMap fun member => member.2.floats := by
    induction members with
    | nil => rfl
    | cons member rest ih => rw [memberFloats, ih, List.flatMap_cons]
  rw [floats, general]

/-- A value that nests at most so many levels deep. -/
abbrev Nests : Nat → Json → Prop := Confined fun _ => True

/-- Only floating-point numbers stand between a value and its being read back. -/
theorem readable_of_nests {depth : Nat} {value : Json} (nests : Nests depth value)
    (numbers : ∀ x ∈ value.floats, IsRead x) : Readable depth value := by
  induction nests with
  | null => exact .null
  | boolean value => exact .boolean value
  | text value => exact .text value
  | @number _ value _ =>
    cases value with
    | whole value fits => exact .number (Number.legible_whole fits)
    | floating x => exact .number (Number.legible_floating (numbers x (by simp [floats])))
  | array _ inside =>
    refine .array fun item listed => inside item listed fun x held => numbers x ?_
    rw [floats_array]
    exact List.mem_flatMap.mpr ⟨item, listed, held⟩
  | object _ inside =>
    refine .object fun member listed => inside member listed fun x held => numbers x ?_
    rw [floats_object]
    exact List.mem_flatMap.mpr ⟨member, listed, held⟩

end Json

end StanzaSchema
