/-!
White space in schema texts: the characters with the Unicode property White_Space. Lines, directive
arguments and property values are trimmed by it, while tokens are cut at the plain space only.
-/

namespace StanzaSchema.Text

/-- Inclusive code point ranges of the 25 characters with the property White_Space. -/
def whiteSpaceRanges : List (Nat × Nat) :=
  [(0x0009, 0x000D), (0x0020, 0x0020), (0x0085, 0x0085), (0x00A0, 0x00A0), (0x1680, 0x1680),
   (0x2000, 0x200A), (0x2028, 0x2029), (0x202F, 0x202F), (0x205F, 0x205F), (0x3000, 0x3000)]

def isWhiteSpace (c : Char) : Bool :=
  whiteSpaceRanges.any fun range => range.1 ≤ c.toNat && c.toNat ≤ range.2

/-- Drops the longest run at the end whose characters all satisfy `p`. -/
def dropEndWhile (p : Char → Bool) (chars : List Char) : List Char :=
  (chars.reverse.dropWhile p).reverse

def trimChars (chars : List Char) : List Char :=
  dropEndWhile isWhiteSpace (chars.dropWhile isWhiteSpace)

def trim (text : String) : String :=
  String.ofList (trimChars text.toList)

theorem isWhiteSpace_space : isWhiteSpace ' ' = true := by decide

/-- No character of a blank text survives trimming. -/
theorem trimChars_eq_nil_of_all (chars : List Char) (blank : ∀ c ∈ chars, isWhiteSpace c = true) :
    trimChars chars = [] := by
  have start : chars.dropWhile isWhiteSpace = [] := by
    induction chars with
    | nil => rfl
    | cons c rest ih =>
      rw [List.dropWhile_cons_of_pos (blank c (List.mem_cons_self ..))]
      exact ih fun d member => blank d (List.mem_cons_of_mem c member)
  simp [trimChars, dropEndWhile, start]

end StanzaSchema.Text
