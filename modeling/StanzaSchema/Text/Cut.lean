/-!
Cutting texts: at the first occurrence of a character, at every occurrence, and at a fixed head or
tail.
-/

namespace StanzaSchema.Text

/-- The parts before and after the first `mark`, if there is one. -/
def cutAt? (mark : Char) : List Char → Option (List Char × List Char)
  | [] => none
  | c :: rest =>
    if c = mark then some ([], rest)
    else (cutAt? mark rest).map fun parts => (c :: parts.1, parts.2)

/-- What follows `head`, when the text starts with it. -/
def afterHead? : List Char → List Char → Option (List Char)
  | [], rest => some rest
  | _ :: _, [] => none
  | h :: head, c :: rest => if h = c then afterHead? head rest else none

/-- The text without one final `mark`, if it ends in one. -/
def dropFinal (mark : Char) (chars : List Char) : List Char :=
  match chars.getLast? with
  | some c => if c = mark then chars.dropLast else chars
  | none => []

/-- The parts of a text between the occurrences of `mark`; a text without one is its own only
part. -/
def parts (mark : Char) (text : String) : List String :=
  (text.toList.splitOn mark).map String.ofList

/-- Number of bytes of the text in UTF-8. -/
def byteLength : List Char → Nat
  | [] => 0
  | c :: rest => c.utf8Size + byteLength rest

theorem eq_append_of_cutAt? {mark : Char} {chars before after : List Char}
    (found : cutAt? mark chars = some (before, after)) :
    chars = before ++ mark :: after ∧ mark ∉ before := by
  induction chars generalizing before with
  | nil => simp [cutAt?] at found
  | cons c rest ih =>
    simp only [cutAt?] at found
    split at found
    next same =>
      simp only [Option.some.injEq, Prod.mk.injEq] at found
      simp [← found.1, ← found.2, same]
    next other =>
      obtain ⟨parts, cut, same⟩ := Option.map_eq_some_iff.mp found
      simp only [Prod.mk.injEq] at same
      have split : rest = parts.1 ++ mark :: after ∧ mark ∉ parts.1 := ih (by rw [cut, ← same.2])
      rw [← same.1]
      exact ⟨by simp [← split.1], by simp [split.2, Ne.symm other]⟩

end StanzaSchema.Text
