import StanzaSchema.Proofs.Cutting
import StanzaSchema.Proofs.Views

/-!
Value sets. The scan of a line does what cutting it into pieces does: a piece ends at a space with
an even number of double quotes before it, the first piece is left out, and each other piece says a
key and a value. The name of a column is cut at the first space instead, so where an odd number of
quotes stands before it, the line goes on to be skipped behind the name.
-/

namespace StanzaSchema

namespace ValueSet

/-- The characters of a text, each with the number of double quotes before it. -/
def marked (chars : List Char) : List (Char × Nat) :=
  chars.mapIdx fun index c => (c, (chars.take index).count '"')

/-- A space with an even number of double quotes before it. -/
def isCut (mark : Char × Nat) : Bool := mark.1 == ' ' && mark.2 % 2 == 0

/-- The text cut at each such space. -/
def pieces (chars : List Char) : List (List Char) :=
  ((marked chars).splitOnP isCut).map fun piece => piece.map Prod.fst

def bare (piece : List Char) : List Char := piece.filter (· ≠ '"')

/-- What stands before the first colon of a piece, quoted or not. -/
def keyOf (piece : List Char) : List Char := (bare piece).takeWhile (· ≠ ':')

/-- What stands after the first colon of a piece. -/
def valueOf (piece : List Char) : List Char := ((bare piece).dropWhile (· ≠ ':')).drop 1

def pair? (piece : List Char) : Option (String × String) :=
  if keyOf piece = [] then none
  else some (String.ofList (keyOf piece), String.ofList (valueOf piece))

/-- The text that goes without being scanned for attributes. -/
def skipped (chars : List Char) : List Char := (pieces chars).headD []

section Pieces

variable {quotes : Nat} {chars rest : List Char}

theorem isCut_space (even : quotes % 2 = 0) : isCut (' ', quotes) = true := by simp [isCut, even]

/-- The marks of a text that so many double quotes stand before. -/
def markedAfter (quotes : Nat) (chars : List Char) : List (Char × Nat) :=
  chars.mapIdx fun index c => (c, quotes + (chars.take index).count '"')

def piecesAfter (quotes : Nat) (chars : List Char) : List (List Char) :=
  ((markedAfter quotes chars).splitOnP isCut).map fun piece => piece.map Prod.fst

/-- A text that is not cut. -/
def Whole (quotes : Nat) (chars : List Char) : Prop :=
  ∀ mark ∈ markedAfter quotes chars, isCut mark = false

theorem pieces_eq (chars : List Char) : pieces chars = piecesAfter 0 chars := by
  simp only [pieces, piecesAfter, marked, markedAfter, Nat.zero_add]

theorem markedAfter_cons (quotes : Nat) (c : Char) (rest : List Char) :
    markedAfter quotes (c :: rest) = (c, quotes) :: markedAfter (quotes + [c].count '"') rest := by
  simp only [markedAfter, List.mapIdx_cons, List.take_zero, List.count_nil, Nat.add_zero,
    List.take_succ_cons]
  congr 2
  funext index d
  rw [← List.singleton_append, List.count_append, Nat.add_assoc]

theorem markedAfter_append (quotes : Nat) (chars rest : List Char) :
    markedAfter quotes (chars ++ rest) =
      markedAfter quotes chars ++ markedAfter (quotes + chars.count '"') rest := by
  induction chars generalizing quotes with
  | nil => rfl
  | cons c chars ih =>
    rw [List.cons_append, markedAfter_cons, markedAfter_cons, ih, List.cons_append, Nat.add_assoc,
      ← List.count_append]
    rfl

theorem map_fst_markedAfter (quotes : Nat) (chars : List Char) :
    (markedAfter quotes chars).map Prod.fst = chars := by
  induction chars generalizing quotes with
  | nil => rfl
  | cons c rest ih => rw [markedAfter_cons, List.map_cons, ih]

theorem piecesAfter_cons (quotes : Nat) (c : Char) (rest : List Char) :
    piecesAfter quotes (c :: rest) =
      if isCut (c, quotes) then [] :: piecesAfter quotes rest
      else (piecesAfter (quotes + [c].count '"') rest).modifyHead (c :: ·) := by
  rw [piecesAfter, markedAfter_cons, List.splitOnP_cons_eq_if_modifyHead]
  split
  next cut =>
    have space : c = ' ' := by
      simp only [isCut, Bool.and_eq_true, beq_iff_eq] at cut
      exact cut.1
    subst space
    rfl
  next =>
    simp only [piecesAfter]
    cases (markedAfter (quotes + [c].count '"') rest).splitOnP isCut <;> rfl

theorem piecesAfter_of_whole (whole : Whole quotes chars) : piecesAfter quotes chars = [chars] := by
  rw [piecesAfter, List.splitOnP_eq_singleton whole, List.map_singleton, map_fst_markedAfter]

theorem piecesAfter_append (whole : Whole quotes chars)
    (even : (quotes + chars.count '"') % 2 = 0) :
    piecesAfter quotes (chars ++ ' ' :: rest) =
      chars :: piecesAfter (quotes + chars.count '"') rest := by
  rw [piecesAfter, markedAfter_append, markedAfter_cons,
    List.splitOnP_append_cons_of_forall_mem whole _ (isCut_space even),
    List.map_cons, map_fst_markedAfter]
  rfl

theorem Whole.of_append {before after : List Char} (whole : Whole quotes (before ++ after)) :
    Whole quotes before := by
  intro mark listed
  refine whole mark ?_
  rw [markedAfter_append]
  exact List.mem_append_left _ listed

/-- A text is one piece, or its first piece ends at a space. -/
theorem pieces_cases (quotes : Nat) (chars : List Char) :
    Whole quotes chars ∨ ∃ before after, chars = before ++ ' ' :: after ∧ Whole quotes before ∧
      (quotes + before.count '"') % 2 = 0 := by
  induction chars generalizing quotes with
  | nil => exact .inl fun mark listed => absurd listed List.not_mem_nil
  | cons c rest ih =>
    by_cases cut : isCut (c, quotes) = true
    · simp only [isCut, Bool.and_eq_true, beq_iff_eq] at cut
      exact .inr ⟨[], rest, by rw [cut.1, List.nil_append],
        fun mark listed => absurd listed List.not_mem_nil, cut.2⟩
    · have grown (text : List Char)
          (whole : Whole (quotes + [c].count '"') text) : Whole quotes (c :: text) := by
        intro mark listed
        rw [markedAfter_cons] at listed
        rcases List.mem_cons.mp listed with rfl | later
        · exact Bool.eq_false_iff.mpr cut
        · exact whole mark later
      rcases ih (quotes + [c].count '"') with whole | ⟨before, after, same, whole, even⟩
      · exact .inl (grown rest whole)
      · refine .inr ⟨c :: before, after, by rw [same, List.cons_append], grown before whole, ?_⟩
        rw [← List.singleton_append, List.count_append, ← Nat.add_assoc]
        exact even

/-- The pieces with the spaces between them are the text. -/
theorem join_piecesAfter (quotes : Nat) (chars : List Char) :
    ∃ first later, piecesAfter quotes chars = first :: later ∧
      chars = first ++ later.flatMap (' ' :: ·) := by
  induction chars generalizing quotes with
  | nil => exact ⟨[], [], rfl, rfl⟩
  | cons c rest ih =>
    rw [piecesAfter_cons]
    split
    next cut =>
      simp only [isCut, Bool.and_eq_true, beq_iff_eq] at cut
      obtain ⟨first, later, cutRest, joined⟩ := ih quotes
      refine ⟨[], piecesAfter quotes rest, rfl, ?_⟩
      rw [cutRest, cut.1, List.nil_append, List.flatMap_cons, List.cons_append, ← joined]
    next =>
      obtain ⟨first, later, cutRest, joined⟩ := ih (quotes + [c].count '"')
      refine ⟨c :: first, later, by rw [cutRest]; rfl, ?_⟩
      rw [List.cons_append, ← joined]

end Pieces

section Scanning

variable {c : Char} {piece : List Char}

private theorem bare_concat (c : Char) (piece : List Char) :
    bare (piece ++ [c]) = bare piece ++ bare [c] :=
  List.filter_append ..

private theorem colon_mem_bare : ':' ∈ bare piece ↔ ':' ∈ piece := by simp [bare]

/-- Behind a colon, what is added goes to the value. -/
theorem concat_after_colon (colon : ':' ∈ piece) (other : c ≠ '"') :
    keyOf (piece ++ [c]) = keyOf piece ∧ valueOf (piece ++ [c]) = valueOf piece ++ [c] := by
  have added : bare [c] = [c] := by simp [bare, other]
  obtain ⟨before, after, split, absent⟩ := List.eq_append_cons_of_mem (colon_mem_bare.mpr colon)
  simp only [keyOf, valueOf, bare_concat, added, split, List.append_assoc, List.cons_append,
    Text.takeWhile_append_of_not_mem absent, Text.dropWhile_append_of_not_mem absent]
  simp

/-- Before any colon, what is added goes to the key, and a colon ends it. -/
theorem concat_before_colon (keyed : ':' ∉ piece) (other : c ≠ '"') :
    keyOf (piece ++ [c]) = (if c = ':' then keyOf piece else keyOf piece ++ [c]) ∧
      valueOf (piece ++ [c]) = [] ∧ valueOf piece = [] := by
  have added : bare [c] = [c] := by simp [bare, other]
  have key := Text.takeWhile_append_of_not_mem fun listed => keyed (colon_mem_bare.mp listed)
  have value := Text.dropWhile_append_of_not_mem fun listed => keyed (colon_mem_bare.mp listed)
  have all : keyOf piece = bare piece := by simpa [keyOf] using key []
  have nothing : valueOf piece = [] := by simpa [valueOf] using congrArg (List.drop 1) (value [])
  refine ⟨?_, ?_, nothing⟩
  · rw [all, keyOf, bare_concat, added, key]
    by_cases colon : c = ':' <;> simp [colon]
  · rw [valueOf, bare_concat, added, value]
    by_cases colon : c = ':' <;> simp [colon]

/-- The state of a scan in the midst of a piece, with so many double quotes before. -/
def Scan.within (attributes : OrderedMap String) (first : Bool) (piece : List Char)
    (quotes : Nat) : Scan where
  attributes := attributes
  key := keyOf piece
  value := valueOf piece
  first := first
  inKey := ':' ∉ piece
  quoted := quotes % 2 == 1

def putAll (attributes : OrderedMap String) (pairs : List (String × String)) : OrderedMap String :=
  pairs.foldl (fun map pair => map.insert pair.1 pair.2) attributes

variable {attributes : OrderedMap String} {first : Bool} {quotes : Nat}

private theorem keep_within : (Scan.within attributes first piece quotes).keep =
    putAll attributes (([piece].drop (if first then 1 else 0)).filterMap pair?) := by
  cases first with
  | true => rfl
  | false =>
    simp only [Scan.keep, Scan.within, Bool.false_or, List.isEmpty_iff, Bool.false_eq_true,
      ↓reduceIte, List.drop_zero]
    by_cases keyless : keyOf piece = [] <;> simp [pair?, keyless, putAll]

/-- A piece ends. -/
theorem step_cut (cut : isCut (c, quotes) = true) :
    (Scan.within attributes first piece quotes).step c =
      .within (Scan.within attributes first piece quotes).keep false [] quotes := by
  simp only [isCut, Bool.and_eq_true, beq_iff_eq] at cut
  have unquoted : (quotes % 2 == 1) = false := by simp [cut.2]
  have ended : c = ' ' ∧ (Scan.within attributes first piece quotes).quoted = false :=
    ⟨cut.1, unquoted⟩
  rw [Scan.step, if_pos ended]
  rfl

/-- A piece goes on. -/
theorem step_uncut (uncut : isCut (c, quotes) = false) :
    (Scan.within attributes first piece quotes).step c =
      .within attributes first (piece ++ [c]) (quotes + [c].count '"') := by
  have going : ¬ (c = ' ' ∧ (Scan.within attributes first piece quotes).quoted = false) := by
    rintro ⟨rfl, unquoted⟩
    simp only [Scan.within, isCut, beq_self_eq_true, Bool.true_and] at unquoted uncut
    simp only [beq_eq_false_iff_ne] at unquoted uncut
    omega
  rw [Scan.step, if_neg going]
  by_cases quote : c = '"'
  · have toggled : ((quotes + 1) % 2 == 1) = !(quotes % 2 == 1) := by
      rcases Nat.mod_two_eq_zero_or_one quotes with even | odd
      · simp [Nat.add_mod, even]
      · simp [Nat.add_mod, odd]
    subst quote
    simp [Scan.within, keyOf, valueOf, bare, toggled]
  · have same : [c].count '"' = 0 := by simp [quote]
    rw [if_neg quote, same, Nat.add_zero]
    by_cases colon : ':' ∈ piece
    · obtain ⟨key, value⟩ := concat_after_colon colon quote
      simp [Scan.within, key, value, colon]
    · obtain ⟨key, value, none_yet⟩ := concat_before_colon colon quote
      by_cases ends : c = ':'
      · subst ends
        simp [Scan.within, key, value, none_yet, colon]
      · simp [Scan.within, key, value, none_yet, colon, ends, Ne.symm ends]

/-- What a scan keeps of the rest of a text: the pairs of all pieces from here on, without those of
the first token. -/
theorem keep_foldl (chars : List Char) (attributes : OrderedMap String) (first : Bool)
    (piece : List Char) (quotes : Nat) :
    (chars.foldl Scan.step (.within attributes first piece quotes)).keep =
      putAll attributes
      ((((piecesAfter quotes chars).modifyHead (piece ++ ·)).drop
        (if first then 1 else 0)).filterMap
        pair?) := by
  induction chars generalizing attributes first piece quotes with
  | nil =>
    rw [List.foldl_nil, keep_within]
    simp [piecesAfter, markedAfter]
  | cons c rest ih =>
    rw [List.foldl_cons, piecesAfter_cons]
    by_cases cut : isCut (c, quotes) = true
    · rw [step_cut cut, ih, keep_within, if_pos cut]
      have unchanged : (piecesAfter quotes rest).modifyHead ([] ++ ·) = piecesAfter quotes rest :=
        congrFun List.modifyHead_id _
      rw [unchanged, putAll, putAll, putAll, ← List.foldl_append, ← List.filterMap_append]
      cases first <;> simp
    · rw [step_uncut (Bool.eq_false_iff.mpr cut), ih, if_neg cut, List.modifyHead_modifyHead]
      congr 4
      funext text
      simp

/-- A scan keeps the pairs of all pieces but the first. -/
theorem read_eq (chars : List Char) :
    read chars = .ofEntries ((pieces chars).tail.filterMap pair?) := by
  have start_eq : start = Scan.within .empty true [] 0 := rfl
  have unchanged : (piecesAfter 0 chars).modifyHead ([] ++ ·) = piecesAfter 0 chars :=
    congrFun List.modifyHead_id _
  rw [read, start_eq, keep_foldl, unchanged, ← pieces_eq, if_pos rfl, List.drop_one]
  rfl

/-- A scan that has left the first token does not come back to it. -/
theorem first_foldl {scan : Scan} (left : scan.first = false) (chars : List Char) :
    (chars.foldl Scan.step scan).first = false := by
  induction chars generalizing scan with
  | nil => exact left
  | cons c rest ih =>
    refine ih ?_
    unfold Scan.step
    split
    · rfl
    · split
      · exact left
      · split
        · exact left
        · split <;> exact left

/-- A text that is not cut stays in its token. -/
theorem foldl_of_whole {chars : List Char} (whole : Whole quotes chars) :
    chars.foldl Scan.step (.within attributes first piece quotes) =
      .within attributes first (piece ++ chars) (quotes + chars.count '"') := by
  induction chars generalizing piece quotes with
  | nil => simp
  | cons c rest ih =>
    have here : isCut (c, quotes) = false :=
      whole _ (by rw [markedAfter_cons]; exact List.mem_cons_self)
    have later : Whole (quotes + [c].count '"') rest := fun mark listed =>
      whole mark (by rw [markedAfter_cons]; exact List.mem_cons_of_mem _ listed)
    rw [List.foldl_cons, step_uncut here, ih later, List.append_assoc, Nat.add_assoc,
      ← List.count_append]
    rfl

end Scanning

section Written

/-- A column with its attributes, each value in double quotes. -/
def written (token : String) (pairs : List (String × String)) : String :=
  token ++ String.join (pairs.map fun pair => " " ++ pair.1 ++ ":\"" ++ pair.2 ++ "\"")

/-- A pair as it is written, without the space before it. -/
def piece (pair : String × String) : List Char :=
  pair.1.toList ++ ':' :: '"' :: (pair.2.toList ++ ['"'])

theorem toList_written (token : String) (pairs : List (String × String)) :
    (written token pairs).toList = token.toList ++ (pairs.map piece).flatMap (' ' :: ·) := by
  have all : (String.join (pairs.map fun pair => " " ++ pair.1 ++ ":\"" ++ pair.2 ++ "\"")).toList =
      (pairs.map piece).flatMap (' ' :: ·) := by
    induction pairs with
    | nil => rfl
    | cons pair rest ih => simp [String.join_cons, ih, piece]
  rw [written, String.toList_append, all]

/-- A pair that a piece can be written for. -/
structure Writable (pair : String × String) : Prop where
  keyed : pair.1 ≠ ""
  unspaced : ' ' ∉ pair.1.toList
  uncoloned : ':' ∉ pair.1.toList
  unquoted : '"' ∉ pair.1.toList
  value : '"' ∉ pair.2.toList

theorem whole_of_unspaced {chars : List Char} (unspaced : ' ' ∉ chars) (quotes : Nat) :
    Whole quotes chars := by
  intro mark listed
  have member : mark.1 ∈ chars := by
    rw [← map_fst_markedAfter quotes chars]
    exact List.mem_map_of_mem listed
  have other : mark.1 ≠ ' ' := fun same => unspaced (same ▸ member)
  simp [isCut, other]

/-- Between double quotes, no space cuts. -/
theorem whole_of_quoted {quotes : Nat} {chars : List Char} (odd : quotes % 2 = 1)
    (unquoted : '"' ∉ chars) :
    Whole quotes chars := by
  induction chars with
  | nil => exact fun mark listed => absurd listed List.not_mem_nil
  | cons c rest ih =>
    simp only [List.mem_cons, not_or] at unquoted
    have same : [c].count '"' = 0 := by simp [Ne.symm unquoted.1]
    intro mark listed
    rw [markedAfter_cons, same, Nat.add_zero] at listed
    rcases List.mem_cons.mp listed with rfl | later
    · simp [isCut, odd]
    · exact ih unquoted.2 mark later

theorem Whole.append {quotes : Nat} {chars rest : List Char} (whole : Whole quotes chars)
    (more : Whole (quotes + chars.count '"') rest) : Whole quotes (chars ++ rest) := by
  intro mark listed
  rw [markedAfter_append] at listed
  exact (List.mem_append.mp listed).elim (whole mark) (more mark)

variable {pair : String × String}

theorem Writable.count_piece (writable : Writable pair) : (piece pair).count '"' = 2 := by
  simp [piece, List.count_append, List.count_eq_zero.mpr writable.unquoted,
    List.count_eq_zero.mpr writable.value]

private theorem Writable.whole_piece (writable : Writable pair) {quotes : Nat}
    (even : quotes % 2 = 0) :
    Whole quotes (piece pair) := by
  have front : piece pair = (pair.1.toList ++ [':', '"']) ++ (pair.2.toList ++ ['"']) := by
    simp [piece]
  have opened : (pair.1.toList ++ [':', '"']).count '"' = 1 := by
    simp [List.count_append, List.count_eq_zero.mpr writable.unquoted]
  have inside : (quotes + 1) % 2 = 1 := by omega
  rw [front]
  refine Whole.append (whole_of_unspaced (by simp [writable.unspaced]) quotes) ?_
  rw [opened]
  exact (whole_of_quoted inside writable.value).append (whole_of_unspaced (by simp) _)

private theorem Writable.pair?_piece (writable : Writable pair) :
    pair? (piece pair) = some pair := by
  have without : bare (piece pair) = pair.1.toList ++ ':' :: pair.2.toList := by
    show (pair.1.toList ++ ([':', '"'] ++ (pair.2.toList ++ ['"']))).filter (· ≠ '"') = _
    rw [List.filter_append, List.filter_append, List.filter_append,
      Text.filter_eq_self_of_not_mem writable.unquoted,
      Text.filter_eq_self_of_not_mem writable.value]
    simp
  have key : keyOf (piece pair) = pair.1.toList := by
    rw [keyOf, without, Text.takeWhile_append_of_not_mem writable.uncoloned]
    simp
  have value : valueOf (piece pair) = pair.2.toList := by
    rw [valueOf, without, Text.dropWhile_append_of_not_mem writable.uncoloned]
    simp
  have keyed : pair.1.toList ≠ [] := by simpa using writable.keyed
  rw [pair?, key, value, if_neg keyed, String.ofList_toList, String.ofList_toList]

/-- Pieces that are whole and close their quotes are cut again where they were joined. -/
theorem piecesAfter_join {quotes : Nat} (even : quotes % 2 = 0) {first : List Char}
    {later : List (List Char)} (closed : ∀ text ∈ first :: later, text.count '"' % 2 = 0)
    (whole : ∀ text ∈ first :: later, ∀ quotes, quotes % 2 = 0 → Whole quotes text) :
    piecesAfter quotes (first ++ later.flatMap (' ' :: ·)) = first :: later := by
  induction later generalizing quotes first with
  | nil =>
    rw [List.flatMap_nil, List.append_nil]
    exact piecesAfter_of_whole (whole first List.mem_cons_self quotes even)
  | cons next later ih =>
    have balanced : (quotes + first.count '"') % 2 = 0 := by
      have own := closed first List.mem_cons_self
      omega
    rw [List.flatMap_cons, List.cons_append,
      piecesAfter_append (whole first List.mem_cons_self quotes even) balanced,
      ih balanced (fun text listed => closed text (List.mem_cons_of_mem _ listed))
        fun text listed => whole text (List.mem_cons_of_mem _ listed)]

private theorem pieces_written {token : String} {pairs : List (String × String)}
    (unspaced : ' ' ∉ token.toList) (unquoted : '"' ∉ token.toList)
    (writable : ∀ pair ∈ pairs, Writable pair) :
    pieces (written token pairs).toList = token.toList :: pairs.map piece := by
  rw [pieces_eq, toList_written]
  refine piecesAfter_join rfl ?_ ?_
  · intro text listed
    rcases List.mem_cons.mp listed with rfl | later
    · rw [List.count_eq_zero.mpr unquoted]
    · obtain ⟨pair, member, rfl⟩ := List.mem_map.mp later
      rw [(writable pair member).count_piece]
  · intro text listed quotes even
    rcases List.mem_cons.mp listed with rfl | later
    · exact whole_of_unspaced unspaced quotes
    · obtain ⟨pair, member, rfl⟩ := List.mem_map.mp later
      exact (writable pair member).whole_piece even

private theorem filterMap_piece {pairs : List (String × String)}
    (writable : ∀ pair ∈ pairs, Writable pair) :
    (pairs.map piece).filterMap pair? = pairs := by
  induction pairs with
  | nil => rfl
  | cons pair rest ih =>
    rw [List.map_cons, List.filterMap_cons, (writable pair List.mem_cons_self).pair?_piece,
      ih fun later listed => writable later (List.mem_cons_of_mem _ listed)]

/-- Pairs of distinct keys are found again in the line that they are written in. -/
theorem entries_read_written {token : String} {pairs : List (String × String)}
    (unspaced : ' ' ∉ token.toList) (unquoted : '"' ∉ token.toList)
    (distinct : (pairs.map Prod.fst).Nodup) (writable : ∀ pair ∈ pairs, Writable pair) :
    (read (written token pairs).toList).entries = pairs := by
  rw [read_eq, pieces_written unspaced unquoted writable, List.tail_cons, filterMap_piece writable]
  exact OrderedMap.entries_ofEntries distinct

end Written

end ValueSet

/-- A line that starts with neither a parenthesis nor a colon is a value set. -/
theorem PropertyLine.read_valueSet {line : String} (untitled : line.toList.head? ≠ some '(')
    (unassigned : line.toList.head? ≠ some ':') :
    read line = .valueSet (ValueSet.read line.toList) := by
  have plain : title? line.toList = none := by
    unfold title?
    split
    next rest shown => simp [shown] at untitled
    next => rfl
  unfold read
  rw [plain]
  simp only
  split
  next assignment shown => simp [shown] at unassigned
  next => rfl

/-- The attributes of a value set are those that the scan finds. -/
theorem PropertyLine.eq_of_read_valueSet {line : String} {attributes : OrderedMap String}
    (shown : read line = .valueSet attributes) : attributes = ValueSet.read line.toList := by
  unfold read at shown
  split at shown
  · cases shown
  · split at shown
    · unfold ofAssignment at shown
      split at shown
      · cases shown
      · dsimp only at shown
        split at shown <;> cases shown
    · cases shown
      rfl

/-- The scan of any line keeps what its pieces but the first say: each key where it first occurs,
with the value that it is given last. So a column written with pairs of distinct keys, the values in
double quotes, is read as these pairs. -/
theorem value_set_scan :
    (∀ line : String,
      let pairs := (ValueSet.pieces line.toList).tail.filterMap ValueSet.pair?
      ValueSet.read line.toList = .ofEntries pairs ∧
      (ValueSet.read line.toList).keys = (pairs.map Prod.fst).eraseDups ∧
      ∀ key, (ValueSet.read line.toList).get? key =
        (pairs.filterMap fun pair => if pair.1 = key then some pair.2 else none).getLast?) ∧
    ∀ (token : String) (pairs : List (String × String)), ' ' ∉ token.toList → '"' ∉ token.toList →
      token.toList.head? ≠ some ':' → token.toList.head? ≠ some '(' → (pairs.map Prod.fst).Nodup →
      (∀ pair ∈ pairs, ValueSet.Writable pair) →
      ∃ attributes, PropertyLine.read (ValueSet.written token pairs) = .valueSet attributes ∧
        attributes.entries = pairs := by
  constructor
  · intro line pairs
    have same : ValueSet.read line.toList = .ofEntries pairs := ValueSet.read_eq line.toList
    exact ⟨same, same ▸ OrderedMap.keys_ofEntries pairs,
      fun key => same ▸ OrderedMap.get?_ofEntries pairs key⟩
  · intro token pairs unspaced unquoted uncoloned unopened distinct writable
    have begins (c : Char) (other : c ≠ ' ') (absent : token.toList.head? ≠ some c) :
        (ValueSet.written token pairs).toList.head? ≠ some c := by
      rw [ValueSet.toList_written]
      cases shown : token.toList with
      | nil => cases pairs <;> simp [Ne.symm other]
      | cons d rest =>
        rw [shown] at absent
        simpa using absent
    exact ⟨_, PropertyLine.read_valueSet (begins '(' (by decide) unopened)
      (begins ':' (by decide) uncoloned),
      ValueSet.entries_read_written unspaced unquoted distinct writable⟩

/-- A value may hold spaces and colons. -/
theorem value_set_scan_bookstore :
    ∃ attributes,
      PropertyLine.read "Author Label:\"Written by: name\" Width:\"20\"" = .valueSet attributes ∧
      attributes.entries = [("Label", "Written by: name"), ("Width", "20")] := by
  refine value_set_scan.2 "Author" [("Label", "Written by: name"),
    ("Width", "20")] (by decide) (by decide) (by decide)
    (by decide) (by decide) ?_
  intro pair listed
  simp only [List.mem_cons, List.not_mem_nil, or_false] at listed
  rcases listed with rfl | rfl <;> exact ⟨by decide, by decide, by decide, by decide, by decide⟩

namespace ValueSet

variable {chars : List Char}

/-- A scan is in its first token as long as it has read no more than what it skips. -/
theorem first_iff (chars : List Char) {count : Nat} (within : count ≤ chars.length) :
    ((chars.take count).foldl Scan.step start).first = true ↔ count ≤ (skipped chars).length := by
  have start_eq : start = Scan.within .empty true [] 0 := rfl
  rw [start_eq, skipped, pieces_eq]
  rcases pieces_cases 0 chars with whole | ⟨before, after, rfl, whole, even⟩
  · have part : Whole 0 (chars.take count) := by
      rw [← List.take_append_drop count chars] at whole
      exact whole.of_append
    rw [piecesAfter_of_whole whole, foldl_of_whole part]
    exact ⟨fun _ => within, fun _ => rfl⟩
  · rw [piecesAfter_append whole even, List.headD_cons]
    constructor
    · intro reading
      refine Nat.le_of_not_lt fun longer => ?_
      have past : (before ++ ' ' :: after).take count =
          before ++ ' ' :: after.take (count - before.length - 1) := by
        rw [List.take_append, List.take_of_length_le (by omega)]
        obtain ⟨more, same⟩ := Nat.exists_eq_add_of_lt longer
        rw [show count - before.length = more + 1 by omega]
        simp
      rw [past, List.foldl_append, foldl_of_whole whole, List.foldl_cons,
        step_cut (isCut_space even), first_foldl rfl] at reading
      cases reading
    · intro inside
      have part : Whole 0 (before.take count) := by
        rw [← List.take_append_drop count before] at whole
        exact whole.of_append
      rw [List.take_append_of_le_length inside, foldl_of_whole part]
      rfl

/-- What is skipped is not cut, and it ends with the line or at a space that cuts. -/
theorem skipped_cases (chars : List Char) :
    ∃ rest, chars = skipped chars ++ rest ∧ Whole 0 (skipped chars) ∧
      (rest = [] ∨ (skipped chars).count '"' % 2 = 0 ∧ ∃ after, rest = ' ' :: after) := by
  rcases pieces_cases 0 chars with whole | ⟨before, after, same, whole, even⟩
  · have all : skipped chars = chars := by
      rw [skipped, pieces_eq, piecesAfter_of_whole whole, List.headD_cons]
    rw [all]
    exact ⟨[], (List.append_nil _).symm, whole, .inl rfl⟩
  · have first : skipped chars = before := by
      rw [skipped, pieces_eq, same, piecesAfter_append whole even, List.headD_cons]
    rw [first]
    exact ⟨' ' :: after, same, whole, .inr ⟨by rwa [Nat.zero_add] at even, after, rfl⟩⟩

/-- What is skipped starts with all up to the first space. It goes on behind that space exactly
where an odd number of quotes stands before it. -/
theorem skipped_eq (chars : List Char) :
    let name := chars.takeWhile (· ≠ ' ')
    ∃ lost, skipped chars = name ++ lost ∧ (lost = [] ↔ name.count '"' % 2 = 0 ∨ name = chars) := by
  intro name
  obtain ⟨rest, same, whole, ends⟩ := skipped_cases chars
  by_cases spaced : ' ' ∈ skipped chars
  · obtain ⟨before, after, split, unspaced⟩ := List.eq_append_cons_of_mem spaced
    have named : name = before := by
      rw [split, List.append_assoc, List.cons_append] at same
      show chars.takeWhile (· ≠ ' ') = before
      rw [same, Text.takeWhile_append_of_not_mem unspaced]
      simp
    refine ⟨' ' :: after, by rw [named, split], ?_⟩
    rw [named]
    constructor
    · intro nothing
      cases nothing
    · rintro (even | all)
      · have here : isCut (' ', 0 + before.count '"') = false := by
          refine whole _ ?_
          rw [split, markedAfter_append, markedAfter_cons]
          exact List.mem_append_right _ List.mem_cons_self
        rw [isCut_space (by rwa [Nat.zero_add])] at here
        cases here
      · refine absurd ?_ unspaced
        rw [all, same]
        exact List.mem_append_left _ spaced
  · have named : name = skipped chars := by
      have cut := Text.takeWhile_append_of_not_mem spaced rest
      rw [← same] at cut
      refine cut.trans ?_
      rcases ends with rfl | ⟨_, after, rfl⟩ <;> simp
    refine ⟨[], by rw [named, List.append_nil], ?_⟩
    rw [named]
    refine ⟨fun _ => ?_, fun _ => rfl⟩
    rcases ends with rfl | ⟨even, _⟩
    · exact .inr (by rw [List.append_nil] at same; exact same.symm)
    · exact .inl even

end ValueSet

/-- Where the first token of a value-set line ends. The name of the column is all up to the first
space, while the scan for attributes stays in the first token up to the first space with an even
number of double quotes before it. So the name lies within what the scan skips, and what is left
between the two is neither in the name nor in the attributes. Nothing is left exactly if the quotes
of the name pair off or the line is no longer than the name. -/
theorem column_name_within_skipped {line : Line} {attributes : OrderedMap String}
    (plain : line.text.toList.head? ≠ some '#')
    (shown : PropertyLine.read line.text = .valueSet attributes) :
    let chars := line.text.toList
    let name := line.head.toList
    let skipped := ValueSet.skipped chars
    let tokens := (ValueSet.pieces chars).tail
    (∀ place scope view, Progress.changeView place scope line view =
      (.ok (view.pushColumn (.ofAttributes line.head attributes)), [])) ∧
    attributes = .ofEntries (tokens.filterMap ValueSet.pair?) ∧
    (∀ count ≤ chars.length,
      ((chars.take count).foldl ValueSet.Scan.step ValueSet.start).first = true ↔
      count ≤ skipped.length) ∧
    ∃ lost, skipped = name ++ lost ∧ chars = name ++ lost ++ tokens.flatMap (' ' :: ·) ∧
      (lost = [] ↔ name.count '"' % 2 = 0 ∨ name = chars) := by
  intro chars name skipped tokens
  have scanned := (PropertyLine.eq_of_read_valueSet shown).trans (ValueSet.read_eq chars)
  refine ⟨?_, scanned, fun count within => ValueSet.first_iff chars within, ?_⟩
  · intro place scope view
    unfold Progress.changeView
    split
    next heading opened => simp [opened] at plain
    next => rw [shown]
  · obtain ⟨first, later, cut, joined⟩ := ValueSet.join_piecesAfter 0 chars
    rw [← ValueSet.pieces_eq] at cut
    obtain ⟨lost, extended, left⟩ := ValueSet.skipped_eq chars
    have begun : skipped = first := congrArg (List.headD · []) cut
    have rest : tokens = later := congrArg List.tail cut
    have named : name = chars.takeWhile (· ≠ ' ') := line.toList_head
    rw [← named] at extended left
    refine ⟨lost, extended, ?_, left⟩
    rw [← extended, rest, show ValueSet.skipped chars = first from begun]
    exact joined

/-- A name in double quotes that holds a space. It is cut short at that space, and the rest of it is
found nowhere. -/
theorem column_name_within_skipped_bookstore :
    let line : Line := ⟨"\"First Name\" Label:Login"⟩
    ∃ attributes lost, PropertyLine.read line.text = .valueSet attributes ∧
      attributes.entries = [("Label", "Login")] ∧
      line.head = "\"First" ∧ lost = " Name\"".toList ∧
      ValueSet.skipped line.text.toList = line.head.toList ++ lost ∧
      ¬ (line.head.toList.count '"' % 2 = 0 ∨ line.head.toList = line.text.toList) := by
  intro line
  have shown : PropertyLine.read line.text = .valueSet (ValueSet.read line.text.toList) :=
    PropertyLine.read_valueSet (by decide) (by decide)
  have name : line.head = "\"First" := by decide +kernel
  have passed : ValueSet.skipped line.text.toList = "\"First".toList ++ " Name\"".toList := by
    decide +kernel
  obtain ⟨_, _, _, lost, extended, _, left⟩ := column_name_within_skipped (by decide) shown
  have same : lost = " Name\"".toList := by
    rw [passed, name] at extended
    exact (List.append_cancel_left extended).symm
  refine ⟨_, lost, shown, by decide +kernel, name, same, extended, ?_⟩
  rw [← left, same]
  decide

end StanzaSchema
