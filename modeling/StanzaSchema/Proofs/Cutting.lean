import StanzaSchema.Line.Basic
import StanzaSchema.Text.Lines

/-!
Laws of cutting texts. What holds no mark stays in one part, and parts put together with marks
between them are cut again where they were joined. Lines with nothing to trim are found again in the
text that they make up, and others as far as trimming leaves them. The head of a line is cut at the
first space, and its first character decides its class.
-/

namespace StanzaSchema

namespace Text

variable {mark : Char} {chars : List Char}

theorem takeWhile_append_of_not_mem (whole : mark ∉ chars) (rest : List Char) :
    (chars ++ rest).takeWhile (· ≠ mark) = chars ++ rest.takeWhile (· ≠ mark) := by
  apply List.takeWhile_append_of_pos
  intro c listed
  rw [decide_eq_true_eq]
  rintro rfl
  exact whole listed

theorem dropWhile_append_of_not_mem (whole : mark ∉ chars) (rest : List Char) :
    (chars ++ rest).dropWhile (· ≠ mark) = rest.dropWhile (· ≠ mark) := by
  apply List.dropWhile_append_of_pos
  intro c listed
  rw [decide_eq_true_eq]
  rintro rfl
  exact whole listed

theorem filter_eq_self_of_not_mem (whole : mark ∉ chars) : chars.filter (· ≠ mark) = chars := by
  rw [List.filter_eq_self]
  intro c listed
  rw [decide_eq_true_eq]
  rintro rfl
  exact whole listed

theorem drop_length_takeWhile (p : Char → Bool) (chars : List Char) :
    chars.drop (chars.takeWhile p).length = chars.dropWhile p := by
  have dropped : (chars.takeWhile p ++ chars.dropWhile p).drop (chars.takeWhile p).length =
      chars.dropWhile p :=
    List.drop_left
  rwa [List.takeWhile_append_dropWhile] at dropped

theorem byteLength_eq (chars : List Char) :
    byteLength chars = (String.ofList chars).utf8ByteSize := by
  induction chars with
  | nil => rfl
  | cons c rest ih =>
    rw [byteLength, ih, String.ofList_cons, String.utf8ByteSize_append,
      String.utf8ByteSize_singleton]

theorem byteLength_toList (text : String) : byteLength text.toList = text.utf8ByteSize := by
  rw [byteLength_eq, String.ofList_toList]

theorem extract_append_append (before inside after : String) :
    (before ++ (inside ++ after)).toByteArray.extract before.utf8ByteSize
      (before.utf8ByteSize + inside.utf8ByteSize) = inside.toByteArray := by
  have skipped : (before.toByteArray ++ (inside ++ after).toByteArray).extract
      (before.toByteArray.size + 0) (before.toByteArray.size + inside.toByteArray.size) =
        (inside ++ after).toByteArray.extract 0 inside.toByteArray.size :=
    ByteArray.extract_append_size_add
  rw [String.toByteArray_append]
  exact skipped.trans (ByteArray.extract_append_eq_left rfl)

theorem cutAt?_eq (mark : Char) (chars : List Char) :
    cutAt? mark chars =
      if mark ∈ chars then some (chars.takeWhile (· ≠ mark), (chars.dropWhile (· ≠ mark)).drop 1)
      else none := by
  induction chars with
  | nil => rfl
  | cons c rest ih =>
    by_cases same : c = mark
    · simp [cutAt?, same]
    · by_cases member : mark ∈ rest <;> simp [cutAt?, same, ih, member, Ne.symm same]

theorem cutAt?_append {before : List Char} (whole : mark ∉ before) (after : List Char) :
    cutAt? mark (before ++ mark :: after) = some (before, after) := by
  have member : mark ∈ before ++ mark :: after := List.mem_append_right before List.mem_cons_self
  rw [cutAt?_eq, if_pos member, takeWhile_append_of_not_mem whole,
    dropWhile_append_of_not_mem whole]
  simp

/-- The first part is all up to the first mark. -/
theorem head?_splitOn (mark : Char) (chars : List Char) :
    (chars.splitOn mark).head? = some (chars.takeWhile (· ≠ mark)) := by
  induction chars with
  | nil => rfl
  | cons c rest ih =>
    rw [List.splitOn_cons_eq_if_modifyHead]
    by_cases same : c = mark
    · simp [same]
    · simp [same, ih, List.head?_modifyHead]

/-- What is added without a mark goes to the last part. -/
theorem splitOn_append (mark : Char) (chars : List Char) :
    ∃ front last, ∀ tail, mark ∉ tail → (chars ++ tail).splitOn mark = front ++ [last ++ tail] := by
  induction chars with
  | nil => exact ⟨[], [], fun tail whole => List.splitOn_eq_singleton whole⟩
  | cons c rest ih =>
    obtain ⟨front, last, cut⟩ := ih
    by_cases same : c = mark
    · refine ⟨[] :: front, last, fun tail whole => ?_⟩
      rw [List.cons_append, List.splitOn_cons_eq_if_modifyHead, cut tail whole]
      simp [same]
    · cases front with
      | nil =>
        refine ⟨[], c :: last, fun tail whole => ?_⟩
        rw [List.cons_append, List.splitOn_cons_eq_if_modifyHead, cut tail whole]
        simp [same]
      | cons first front =>
        refine ⟨(c :: first) :: front, last, fun tail whole => ?_⟩
        rw [List.cons_append, List.splitOn_cons_eq_if_modifyHead, cut tail whole]
        simp [same]

theorem parts_append (mark : Char) (text : String) :
    ∃ front last, ∀ tail : String, mark ∉ tail.toList →
      parts mark (text ++ tail) = front ++ [last ++ tail] := by
  obtain ⟨front, last, cut⟩ := splitOn_append mark text.toList
  refine ⟨front.map String.ofList, String.ofList last, fun tail whole => ?_⟩
  simp [parts, cut tail.toList whole]

theorem parts_intercalate {tokens : List String} (whole : ∀ token ∈ tokens, mark ∉ token.toList)
    (nonempty : tokens ≠ []) :
    parts mark ((String.singleton mark).intercalate tokens) = tokens := by
  have cut : (List.intercalate [mark] (tokens.map String.toList)).splitOn mark =
      tokens.map String.toList := by
    apply List.splitOn_intercalate
    · intro chars listed
      obtain ⟨token, member, rfl⟩ := List.mem_map.mp listed
      exact whole token member
    · simpa using nonempty
  rw [parts, String.toList_intercalate, String.toList_singleton, cut, List.map_map]
  simp [Function.comp_def]

theorem dropFinal_eq_self (other : chars.getLast? ≠ some mark) : dropFinal mark chars = chars := by
  unfold dropFinal
  split
  next c last =>
    apply if_neg
    rintro rfl
    exact other last
  next empty => exact (List.getLast?_eq_none_iff.mp empty).symm

/-- One line of text without white space at either end. -/
structure IsLine (text : String) : Prop where
  whole : '\n' ∉ text.toList
  start : ∀ c ∈ text.toList.head?, isWhiteSpace c = false
  stop : ∀ c ∈ text.toList.getLast?, isWhiteSpace c = false

private theorem isLine_iff {text : String} : IsLine text ↔
    '\n' ∉ text.toList ∧ (text.toList.head?.all fun c => !isWhiteSpace c) = true ∧
      (text.toList.getLast?.all fun c => !isWhiteSpace c) = true := by
  simp only [Option.all_eq_true, Bool.not_eq_true']
  exact ⟨fun line => ⟨line.whole, line.start, line.stop⟩,
    fun ⟨whole, start, stop⟩ => ⟨whole, start, stop⟩⟩

instance (text : String) : Decidable (IsLine text) := decidable_of_iff _ isLine_iff.symm

theorem dropWhile_eq_self {p : Char → Bool} (kept : ∀ c ∈ chars.head?, p c = false) :
    chars.dropWhile p = chars := by
  cases chars with
  | nil => rfl
  | cons c rest => exact List.dropWhile_cons_of_neg (by simp [kept c rfl])

/-- What is left of a text without the white space around it. -/
structure Trimmed (whole inner : List Char) : Prop where
  around : ∃ before after, whole = before ++ inner ++ after ∧
    (∀ c ∈ before, isWhiteSpace c = true) ∧ ∀ c ∈ after, isWhiteSpace c = true
  start : ∀ c ∈ inner.head?, isWhiteSpace c = false
  stop : ∀ c ∈ inner.getLast?, isWhiteSpace c = false

private theorem dropEndWhile_append (p : Char → Bool) (chars : List Char) :
    ∃ after, chars = dropEndWhile p chars ++ after ∧ (∀ c ∈ after, p c = true) ∧
      ∀ c ∈ (dropEndWhile p chars).getLast?, p c = false := by
  refine ⟨(chars.reverse.takeWhile p).reverse, ?_, ?_, ?_⟩
  · rw [dropEndWhile, ← List.reverse_append, List.takeWhile_append_dropWhile, List.reverse_reverse]
  · intro c member
    exact List.all_eq_true.mp List.all_takeWhile c (List.mem_reverse.mp member)
  · intro c shown
    rw [dropEndWhile, List.getLast?_reverse] at shown
    have refused := List.head?_dropWhile_not p chars.reverse
    rw [shown] at refused
    exact refused

theorem trimmed_trimChars (chars : List Char) : Trimmed chars (trimChars chars) := by
  obtain ⟨after, split, white, stop⟩ :=
    dropEndWhile_append isWhiteSpace (chars.dropWhile isWhiteSpace)
  refine ⟨⟨chars.takeWhile isWhiteSpace, after, ?_, List.all_eq_true.mp List.all_takeWhile, white⟩,
    ?_, stop⟩
  · rw [List.append_assoc, trimChars, ← split, List.takeWhile_append_dropWhile]
  · intro c shown
    -- What is trimmed at the end does not change how the text begins.
    have first : (chars.dropWhile isWhiteSpace).head? = some c := by
      rw [split, List.head?_append, ← trimChars, shown, Option.some_or]
    have refused := List.head?_dropWhile_not isWhiteSpace chars
    rw [first] at refused
    exact refused

/-- There is one way to trim a text. -/
theorem Trimmed.trimChars_eq {whole inner : List Char} (trimmed : Trimmed whole inner) :
    trimChars whole = inner := by
  obtain ⟨before, after, rfl, leading, trailing⟩ := trimmed.around
  rw [trimChars, List.append_assoc, List.dropWhile_append_of_pos leading]
  cases inner with
  | nil =>
    rw [List.nil_append]
    exact trimChars_eq_nil_of_all after trailing
  | cons c rest =>
    have kept : ((c :: rest) ++ after).dropWhile isWhiteSpace = (c :: rest) ++ after :=
      List.dropWhile_cons_of_neg (by simp [trimmed.start c rfl])
    have ended : (c :: rest).reverse.dropWhile isWhiteSpace = (c :: rest).reverse := by
      apply dropWhile_eq_self
      rw [List.head?_reverse]
      exact trimmed.stop
    rw [kept, dropEndWhile, List.reverse_append,
      List.dropWhile_append_of_pos fun c listed => trailing c (List.mem_reverse.mp listed), ended,
      List.reverse_reverse]

theorem trimChars_eq_nil_iff : trimChars chars = [] ↔ ∀ c ∈ chars, isWhiteSpace c = true := by
  constructor
  · intro empty c listed
    obtain ⟨⟨before, after, split, leading, trailing⟩, _⟩ := trimmed_trimChars chars
    rw [split, empty, List.append_nil] at listed
    exact (List.mem_append.mp listed).elim (leading c) (trailing c)
  · exact trimChars_eq_nil_of_all chars

/-- Trimming does not see white space that is put around a text. -/
theorem trimChars_surround {before after : List Char}
    (leading : ∀ c ∈ before, isWhiteSpace c = true)
    (trailing : ∀ c ∈ after, isWhiteSpace c = true) (chars : List Char) :
    trimChars (before ++ chars ++ after) = trimChars chars := by
  obtain ⟨⟨first, last, split, white, clear⟩, start, stop⟩ := trimmed_trimChars chars
  refine Trimmed.trimChars_eq ⟨⟨before ++ first, last ++ after, ?_, ?_, ?_⟩, start, stop⟩
  · calc before ++ chars ++ after
      _ = before ++ (first ++ trimChars chars ++ last) ++ after :=
        congrArg (fun inside => before ++ inside ++ after) split
      _ = before ++ first ++ trimChars chars ++ (last ++ after) := by simp only [List.append_assoc]
  · intro c listed
    exact (List.mem_append.mp listed).elim (leading c) (white c)
  · intro c listed
    exact (List.mem_append.mp listed).elim (clear c) (trailing c)

theorem trimChars_return (chars : List Char) : trimChars (chars ++ ['\r']) = trimChars chars := by
  have white : ∀ c ∈ ['\r'], isWhiteSpace c = true := List.all_eq_true.mp (by decide)
  exact trimChars_surround (fun _ listed => absurd listed List.not_mem_nil) white chars

theorem IsLine.trimChars {text : String} (line : IsLine text) :
    trimChars text.toList = text.toList := by
  refine Trimmed.trimChars_eq ⟨⟨[], [], ?_, ?_, ?_⟩, line.start, line.stop⟩
  · rw [List.nil_append, List.append_nil]
  · exact fun c listed => absurd listed List.not_mem_nil
  · exact fun c listed => absurd listed List.not_mem_nil

theorem IsLine.trim {text : String} (line : IsLine text) : trim text = text := by
  rw [Text.trim, line.trimChars, String.ofList_toList]

/-- A line does not start with a space. -/
theorem IsLine.unspaced {text : String} (line : IsLine text) :
    ∀ c ∈ text.toList.head?, (c == ' ') = false := by
  intro c shown
  apply beq_eq_false_iff_ne.mpr
  rintro rfl
  cases isWhiteSpace_space.symm.trans (line.start ' ' shown)

/-- Lines as one text, each of them ended by a line feed. -/
def unlines (lines : List String) : String :=
  String.ofList (lines.flatMap fun line => line.toList ++ ['\n'])

theorem splitOn_unlines {lines : List String} (whole : ∀ line ∈ lines, '\n' ∉ line.toList) :
    (lines.flatMap fun line => line.toList ++ ['\n']).splitOn '\n' =
      lines.map String.toList ++ [[]] := by
  induction lines with
  | nil => rfl
  | cons line rest ih =>
    simp only [List.flatMap_cons, List.append_assoc, List.cons_append, List.nil_append,
      List.map_cons]
    rw [List.splitOn_append_cons_self_of_not_mem (whole line List.mem_cons_self)]
    rw [ih fun other listed => whole other (List.mem_cons_of_mem line listed)]

theorem endedLines_concat (parts : List (List Char)) :
    endedLines (parts ++ [[]]) = parts.map dropCarriageReturn := by
  induction parts with
  | nil => rfl
  | cons part rest ih =>
    rw [List.map_cons, ← ih]
    cases rest <;> rfl

theorem IsLine.dropCarriageReturn {text : String} (line : IsLine text) :
    dropCarriageReturn text.toList = text.toList := by
  apply if_neg
  intro ended
  have white : isWhiteSpace '\r' = true := by decide
  cases white.symm.trans (line.stop '\r' ended)

/-- Lines are found again in their text, unless it starts with a mark of the byte order. -/
theorem physicalLines_unlines {lines : List String} (each : ∀ line ∈ lines, IsLine line)
    (unmarked : (unlines lines).toList.head? ≠ some byteOrderMark) :
    physicalLines (unlines lines) = lines := by
  have start : dropByteOrderMark (unlines lines).toList = (unlines lines).toList := by
    cases shown : (unlines lines).toList with
    | nil => rfl
    | cons c rest =>
      rw [shown] at unmarked
      exact if_neg fun same => unmarked (congrArg some same)
  rw [physicalLines, start, unlines, String.toList_ofList,
    splitOn_unlines fun line listed => (each line listed).whole,
    endedLines_concat, List.map_map, List.map_map]
  refine (List.map_congr_left fun line listed => ?_).trans (List.map_id lines)
  simp only [Function.comp_apply, (each line listed).dropCarriageReturn, String.ofList_toList, id]

/-- No part holds the mark that the parts are cut at. -/
theorem not_mem_of_mem_splitOn {part : List Char} (listed : part ∈ chars.splitOn mark) :
    mark ∉ part := by
  induction chars generalizing part with
  | nil =>
    rw [List.splitOn_nil, List.mem_singleton] at listed
    rw [listed]
    exact List.not_mem_nil
  | cons c rest ih =>
    rw [List.splitOn_cons_eq_if_modifyHead] at listed
    split at listed
    next =>
      rcases List.mem_cons.mp listed with rfl | later
      · exact List.not_mem_nil
      · exact ih later
    next other =>
      cases cut : rest.splitOn mark with
      | nil =>
        rw [cut] at listed
        cases listed
      | cons first parts =>
        rw [cut, List.modifyHead_cons] at listed
        rcases List.mem_cons.mp listed with rfl | later
        · have absent : mark ∉ first := ih (cut ▸ List.mem_cons_self)
          simp only [beq_iff_eq] at other
          exact fun member => (List.mem_cons.mp member).elim (fun same => other same.symm) absent
        · exact ih (cut ▸ List.mem_cons_of_mem first later)

private theorem not_mem_dropCarriageReturn (absent : mark ∉ chars) :
    mark ∉ dropCarriageReturn chars := by
  unfold dropCarriageReturn
  split
  · exact fun member => absent (List.dropLast_subset chars member)
  · exact absent

private theorem not_mem_of_mem_endedLines {parts : List (List Char)}
    (absent : ∀ part ∈ parts, mark ∉ part) {line : List Char}
    (listed : line ∈ endedLines parts) : mark ∉ line := by
  fun_induction endedLines parts with
  | case1 => cases listed
  | case2 last empty => cases listed
  | case3 last nonempty =>
    rw [List.mem_singleton.mp listed]
    exact absent last List.mem_cons_self
  | case4 part next rest ih =>
    rcases List.mem_cons.mp listed with rfl | later
    · exact not_mem_dropCarriageReturn (absent part List.mem_cons_self)
    · exact ih (fun other member => absent other (List.mem_cons_of_mem part member)) later

/-- No line of a text goes on after a line feed. -/
theorem whole_of_mem_physicalLines {text line : String} (listed : line ∈ physicalLines text) :
    '\n' ∉ line.toList := by
  obtain ⟨chars, ended, rfl⟩ := List.mem_map.mp listed
  rw [String.toList_ofList]
  exact not_mem_of_mem_endedLines (fun part => not_mem_of_mem_splitOn) ended

theorem trimChars_dropCarriageReturn (chars : List Char) :
    trimChars (dropCarriageReturn chars) = trimChars chars := by
  unfold dropCarriageReturn
  split
  next ended =>
    obtain ⟨front, rfl⟩ := List.getLast?_eq_some_iff.mp ended
    rw [List.dropLast_concat, trimChars_return]
  next => rfl

/-- A text that is marked and made of lines has these lines, trimmed as they are themselves. -/
theorem trim_physicalLines {lines : List String} (whole : ∀ line ∈ lines, '\n' ∉ line.toList) :
    (physicalLines (String.singleton byteOrderMark ++ unlines lines)).map trim =
      lines.map trim := by
  have start : dropByteOrderMark (String.singleton byteOrderMark ++ unlines lines).toList =
      (unlines lines).toList := by
    simp [dropByteOrderMark]
  rw [physicalLines, start, unlines, String.toList_ofList, splitOn_unlines whole, endedLines_concat]
  simp only [List.map_map]
  apply List.map_congr_left
  intro line _
  simp [trim, trimChars_dropCarriageReturn]

end Text

theorem Line.toList_head (line : Line) :
    line.head.toList = line.text.toList.takeWhile (· ≠ ' ') := by
  unfold head tokens
  split
  next blank =>
    have empty : line.text = "" := by simpa [isBlank] using blank
    rw [empty]
    rfl
  next =>
    have first := Text.head?_splitOn ' ' line.text.toList
    rw [Text.parts, List.headD_eq_head?_getD, List.head?_map, first]
    simp

/-- The tail of a line is what its first spaces leave of it. -/
theorem Line.tail_eq (line : Line) :
    line.tail = (line.text.toList.dropWhile (· ≠ ' ')).dropWhile fun c => c == ' ' := by
  rw [tail, ← String.length_toList, toList_head, Text.drop_length_takeWhile]

/-- The class of a line by its first character, when that is no symbol of a type. -/
theorem Line.classify_symbol {text : String} {symbol : Char} {rest : List Char}
    (shown : text.toList = symbol :: rest) (plain : DataType.ofSymbol? symbol = none) :
    (Line.mk text).classify = (Line.mk text).classOfSymbol symbol := by
  simp only [classify, symbol?, shown, List.head?_cons, plain]

end StanzaSchema
