import StanzaSchema.Line.Property
import StanzaSchema.Proofs.Descriptions
import StanzaSchema.Proofs.Directives

/-!
Lines taken apart by byte offsets. A character has up to four bytes, and what is trimmed is more
than the space that tokens are cut at, so a slice could run past its text or into a character. Here
each piece of a line is a slice that may be refused. None is refused, whatever the line, and the
pieces put together are the line again.
-/

namespace StanzaSchema

namespace Text

/-- The part of a text between two bytes. There is none if they are out of order, if one of them
lies beyond the end, or if one of them lies inside a character. -/
def slice? (text : String) (start stop : Nat) : Option String :=
  if inside : start ≤ stop ∧ String.Pos.Raw.IsValid text ⟨start⟩ ∧
    String.Pos.Raw.IsValid text ⟨stop⟩ then
    some (String.extract (text.pos ⟨start⟩ inside.2.1) (text.pos ⟨stop⟩ inside.2.2))
  else none

/-- The part of a text from a byte to its end. -/
def sliceFrom? (text : String) (start : Nat) : Option String := slice? text start text.utf8ByteSize

theorem slice?_append (before inside after : String) :
    slice? (before ++ (inside ++ after)) before.utf8ByteSize
      (before.utf8ByteSize + inside.utf8ByteSize) =
      some inside := by
  have starts : String.Pos.Raw.IsValid (before ++ (inside ++ after)) ⟨before.utf8ByteSize⟩ :=
    String.Pos.Raw.isValid_iff_exists_append.mpr ⟨before, inside ++ after, rfl, rfl⟩
  have stops :
      String.Pos.Raw.IsValid (before ++ (inside ++ after))
        ⟨before.utf8ByteSize + inside.utf8ByteSize⟩ := by
    refine String.Pos.Raw.isValid_iff_exists_append.mpr
      ⟨before ++ inside, after, String.append_assoc.symm, ?_⟩
    exact String.Pos.Raw.ext String.utf8ByteSize_append.symm
  rw [slice?, dif_pos ⟨Nat.le_add_right _ _, starts, stops⟩, Option.some_inj]
  apply String.toByteArray_inj.mp
  rw [String.toByteArray_extract, String.offset_pos, String.offset_pos]
  exact Text.extract_append_append before inside after

theorem sliceFrom?_append (before rest : String) :
    sliceFrom? (before ++ rest) before.utf8ByteSize = some rest := by
  have sliced := slice?_append before rest ""
  rwa [String.append_empty, ← String.utf8ByteSize_append] at sliced

/-- A text has the slices that it can be put together from, and no others. -/
theorem slice?_eq_some_iff {text inside : String} {start stop : Nat} :
    slice? text start stop = some inside ↔
      ∃ before after, text = before ++ (inside ++ after) ∧ start = before.utf8ByteSize ∧
        stop = before.utf8ByteSize + inside.utf8ByteSize := by
  constructor
  · intro found
    have bounds : start ≤ stop ∧ String.Pos.Raw.IsValid text ⟨start⟩ ∧
        String.Pos.Raw.IsValid text ⟨stop⟩ := by
      apply Classical.byContradiction
      intro refused
      rw [slice?, dif_neg refused] at found
      cases found
    obtain ⟨ordered, starts, stops⟩ := bounds
    obtain ⟨before, rest, rfl, first⟩ := String.Pos.Raw.isValid_iff_exists_append.mp starts
    have begun : start = before.utf8ByteSize := congrArg String.Pos.Raw.byteIdx first
    -- The second offset is seen from the first one, in what follows it.
    have within : String.Pos.Raw.IsValid rest (String.Pos.Raw.mk stop - before) := by
      rcases String.Pos.Raw.isValid_append.mp stops with early | ⟨_, later⟩
      · have same : String.Pos.Raw.mk stop - before = 0 :=
          String.Pos.Raw.ext (Nat.sub_eq_zero_of_le early.le_utf8ByteSize)
        rw [same]
        exact String.Pos.Raw.isValid_zero
      · exact later
    obtain ⟨middle, after, rfl, last⟩ := String.Pos.Raw.isValid_iff_exists_append.mp within
    have ended : stop - before.utf8ByteSize = middle.utf8ByteSize :=
      congrArg String.Pos.Raw.byteIdx last
    have total : stop = before.utf8ByteSize + middle.utf8ByteSize := by omega
    rw [begun, total, slice?_append, Option.some_inj] at found
    exact ⟨before, after, by rw [found], begun, by rw [total, found]⟩
  · rintro ⟨before, after, rfl, rfl, rfl⟩
    exact slice?_append before inside after

example : slice? "$Größe" 1 8 = some "Größe" ∧ slice? "$Größe" 4 8 = none ∧
    sliceFrom? "$" 2 = none := by decide +kernel

theorem sliceFrom?_takeWhile (p : Char → Bool) (text : String) :
    sliceFrom? text (byteLength (text.toList.takeWhile p)) =
      some (String.ofList (text.toList.dropWhile p)) := by
  have sliced :=
    sliceFrom?_append (String.ofList (text.toList.takeWhile p))
      (String.ofList (text.toList.dropWhile p))
  rwa [← String.ofList_append, List.takeWhile_append_dropWhile, String.ofList_toList,
    ← Text.byteLength_eq] at sliced

private theorem slice?_dropEndWhile (p : Char → Bool) (text : String) :
    slice? text 0 (text.utf8ByteSize - byteLength (text.toList.reverse.takeWhile p).reverse) =
      some (String.ofList (dropEndWhile p text.toList)) := by
  have whole :
      String.ofList (dropEndWhile p text.toList) ++ String.ofList
        (text.toList.reverse.takeWhile p).reverse =
      text := by
    rw [← String.ofList_append, dropEndWhile, ← List.reverse_append,
      List.takeWhile_append_dropWhile, List.reverse_reverse, String.ofList_toList]
  have size := congrArg String.utf8ByteSize whole
  have sliced := slice?_append "" (String.ofList (dropEndWhile p text.toList))
    (String.ofList (text.toList.reverse.takeWhile p).reverse)
  rw [String.empty_append, whole, String.utf8ByteSize_empty, Nat.zero_add] at sliced
  rw [String.utf8ByteSize_append] at size
  rw [Text.byteLength_eq, ← size, Nat.add_sub_cancel]
  exact sliced

/-- Trims a text by two slices, one from where the white space in front ends and one up to where
that behind begins. -/
def slicedTrim? (text : String) : Option String :=
  (sliceFrom? text (byteLength (text.toList.takeWhile isWhiteSpace))).bind fun rest =>
    slice? rest 0
      (rest.utf8ByteSize - byteLength (rest.toList.reverse.takeWhile isWhiteSpace).reverse)

theorem slicedTrim?_eq (text : String) : slicedTrim? text = some (trim text) := by
  rw [slicedTrim?, sliceFrom?_takeWhile, Option.bind_some, slice?_dropEndWhile,
    String.toList_ofList]
  rfl

/-- The bytes that the parts of a text lie between, found character by character: the part that is
being read begins at one byte, and the next character at another. -/
def partSpans (mark : Char) (start here : Nat) : List Char → List (Nat × Nat)
  | [] => [(start, here)]
  | c :: rest =>
    if c = mark then (start, here) :: partSpans mark (here + c.utf8Size) (here + c.utf8Size) rest
    else partSpans mark start (here + c.utf8Size) rest

/-- Cuts a text at every mark by slices. -/
def slicedParts? (mark : Char) (text : String) : Option (List String) :=
  (partSpans mark 0 0 text.toList).mapM fun span => slice? text span.1 span.2

/-- The parts that are still to be found, when some text is behind and a part has been begun. -/
theorem mapM_partSpans {mark : Char} {begun : String} (whole : mark ∉ begun.toList)
    (before : String) (rest : List Char) :
    (partSpans mark before.utf8ByteSize (before ++ begun).utf8ByteSize rest).mapM
        (fun span => slice? (before ++ (begun ++ String.ofList rest)) span.1 span.2) =
      some (parts mark (begun ++ String.ofList rest)) := by
  induction rest generalizing before begun with
  | nil =>
    have sliced := slice?_append before begun ""
    have uncut : parts mark begun = [begun] := by simp [parts, List.splitOn_eq_singleton whole]
    rw [String.append_empty] at sliced
    simp only [partSpans, String.ofList_nil, String.append_empty, String.utf8ByteSize_append,
      List.mapM_cons, List.mapM_nil, sliced, uncut]
    rfl
  | cons c rest ih =>
    rw [partSpans, String.ofList_cons]
    split
    next same =>
      subst same
      -- The part ends here: it falls behind together with the mark, and an empty one begins.
      have sliced := slice?_append before begun (String.singleton c ++ String.ofList rest)
      have fresh : c ∉ "".toList := List.not_mem_nil
      have later := ih fresh (before ++ (begun ++ String.singleton c))
      have cut : parts c (begun ++ (String.singleton c ++ String.ofList rest)) =
          begun :: parts c (String.ofList rest) := by
        simp [parts, List.splitOn_append_cons_self_of_not_mem whole]
      simp only [String.append_empty, String.empty_append, String.append_assoc,
        String.utf8ByteSize_append, String.utf8ByteSize_singleton] at later
      simp only [List.mapM_cons, String.utf8ByteSize_append, Nat.add_assoc, sliced, later, cut]
      rfl
    next other =>
      have further : mark ∉ (begun ++ String.singleton c).toList := by simp [whole, Ne.symm other]
      have later := ih further before
      simpa only [String.append_assoc, String.utf8ByteSize_append, String.utf8ByteSize_singleton,
        Nat.add_assoc] using later

theorem slicedParts?_eq (mark : Char) (text : String) :
    slicedParts? mark text = some (parts mark text) := by
  have fresh : mark ∉ "".toList := List.not_mem_nil
  have found := mapM_partSpans fresh "" text.toList
  simpa only [slicedParts?, String.empty_append, String.ofList_toList,
    String.utf8ByteSize_empty] using found

end Text

namespace DataType

theorem symbol_of_ofSymbol? {type : DataType} {symbol : Char}
    (known : ofSymbol? symbol = some type) :
    type.symbol = symbol := by
  have found := List.find?_some known
  exact eq_of_beq found

theorem symbol_ne_space (type : DataType) : type.symbol ≠ ' ' := by cases type <;> decide

theorem utf8Size_symbol (type : DataType) : type.symbol.utf8Size = 1 := by cases type <;> rfl

end DataType

namespace Line

variable {line : Line} {symbol : Char}

def slicedTokens? (line : Line) : Option (List String) :=
  if line.isBlank then some [] else Text.slicedParts? ' ' line.text

/-- The head without its first byte. -/
def slicedName? (line : Line) : Option String := Text.sliceFrom? line.head 1

/-- What follows the bytes of the head, without the spaces that it starts with. -/
def slicedTail? (line : Line) : Option (List Char) :=
  (Text.sliceFrom? line.text line.head.utf8ByteSize).map fun rest =>
    rest.toList.dropWhile fun c => c == ' '

def slicedDeclaration? (line : Line) (type : DataType) : Option Declaration :=
  line.slicedName?.map fun name =>
    { line.declaration type with name := if name = "" then none else some name }

/-- The class of a line that declares no column, with its name and texts as slices. Other symbols
than these call for no slice. -/
def slicedClassOfSymbol? (line : Line) (symbol : Char) : Option LineClass :=
  match symbol with
  | '!' => line.slicedName?.map .tableOpen
  | '"' =>
    line.slicedTail?.bind fun tail =>
      line.slicedName?.map fun name =>
        .columnDescription name (String.ofList (Text.dropFinal '"' tail))
  | '>' => (Text.sliceFrom? line.text 1).map .tableDescription
  | other => some (line.classOfSymbol other)

def slicedClass? (line : Line) : Option LineClass :=
  match line.symbol? with
  | none => some .blank
  | some symbol =>
    match DataType.ofSymbol? symbol with
    | some type => (line.slicedDeclaration? type).map .column
    | none => line.slicedClassOfSymbol? symbol

theorem slicedTokens?_eq (line : Line) : line.slicedTokens? = some line.tokens := by
  unfold slicedTokens? tokens
  split
  · rfl
  · exact Text.slicedParts?_eq ' ' line.text

/-- The tokens of a line with single spaces between them are its text. -/
theorem intercalate_tokens (line : Line) : " ".intercalate line.tokens = line.text := by
  unfold tokens
  split
  next blank => exact (beq_iff_eq.mp blank).symm
  next =>
    have joined : List.intercalate [' '] (line.text.toList.splitOn ' ') = line.text.toList :=
      List.intercalate_splitOn ' '
    apply String.toList_injective
    rw [String.toList_intercalate, Text.parts, List.map_map]
    simp only [Function.comp_def, String.toList_ofList, List.map_id_fun', id]
    exact joined

theorem head_of_symbol (shown : line.symbol? = some symbol) (solid : symbol ≠ ' ') :
    line.head = String.singleton symbol ++ line.name := by
  obtain ⟨rest, text⟩ := List.head?_eq_some_iff.mp shown
  have head : line.head.toList = symbol :: rest.takeWhile (· ≠ ' ') := by
    rw [toList_head, text, List.takeWhile_cons_of_pos (by simpa using solid)]
  apply String.toList_injective
  simp [name, head]

/-- A line does not start with a space, for spaces are trimmed. -/
theorem solid_of_symbol {raw : String} (shown : (ofText raw).symbol? = some symbol) :
    symbol ≠ ' ' := by
  rw [symbol?, ofText, Text.trim, String.toList_ofList] at shown
  have visible := (Text.trimmed_trimChars raw.toList).start symbol shown
  rintro rfl
  cases Text.isWhiteSpace_space.symm.trans visible

private theorem slicedName?_eq (shown : line.symbol? = some symbol) (solid : symbol ≠ ' ')
    (single : symbol.utf8Size = 1) :
    line.slicedName? = some line.name := by
  have sliced := Text.sliceFrom?_append (String.singleton symbol) line.name
  rwa [← head_of_symbol shown solid, String.utf8ByteSize_singleton, single] at sliced

private theorem slicedTail?_eq (line : Line) : line.slicedTail? = some line.tail := by
  rw [slicedTail?, ← Text.byteLength_toList line.head, toList_head, Text.sliceFrom?_takeWhile,
    Option.map_some, String.toList_ofList, tail_eq]

private theorem slicedDeclaration?_eq {type : DataType} (shown : line.symbol? = some type.symbol) :
    line.slicedDeclaration? type = some (line.declaration type) := by
  rw [slicedDeclaration?, slicedName?_eq shown type.symbol_ne_space type.utf8Size_symbol]
  rfl

private theorem slicedClassOfSymbol?_eq (shown : line.symbol? = some symbol) :
    line.slicedClassOfSymbol? symbol = some (line.classOfSymbol symbol) := by
  unfold slicedClassOfSymbol?
  split
  · rw [slicedName?_eq shown (by decide) (by decide)]
    rfl
  · rw [slicedTail?_eq, slicedName?_eq shown (by decide) (by decide)]
    rfl
  · obtain ⟨rest, text⟩ := List.head?_eq_some_iff.mp shown
    have whole : line.text = ">" ++ String.ofList rest :=
      String.toList_injective (by simpa using text)
    have sliced : Text.sliceFrom? (">" ++ String.ofList rest) 1 = some (String.ofList rest) :=
      Text.sliceFrom?_append ">" (String.ofList rest)
    rw [whole, sliced, classOfSymbol, text]
    rfl
  · rfl

theorem slicedClass?_eq (line : Line) : line.slicedClass? = some line.classify := by
  unfold slicedClass? classify
  cases shown : line.symbol? with
  | none => rfl
  | some symbol =>
    cases known : DataType.ofSymbol? symbol with
    | none => simp only [known, slicedClassOfSymbol?_eq shown]
    | some type =>
      rw [← DataType.symbol_of_ofSymbol? known] at shown
      simp only [known, slicedDeclaration?_eq shown, Option.map_some]

end Line

/-- The name on a line of the class, of the table that it opens or of the column that it declares or
describes. A column without a name has an empty one here. -/
def LineClass.name? : LineClass → Option String
  | .tableOpen name => some name
  | .column declaration => some (declaration.name.getD "")
  | .columnDescription described _ => some described
  | _ => none

theorem Line.head_of_name? {line : Line} {name : String} (given : line.classify.name? = some name) :
    ∃ symbol, line.symbol? = some symbol ∧ line.head = String.singleton symbol ++ name := by
  unfold classify at given
  split at given
  · cases given
  next symbol shown =>
    refine ⟨symbol, shown, ?_⟩
    split at given
    next type known =>
      have solid : symbol ≠ ' ' := DataType.symbol_of_ofSymbol? known ▸ type.symbol_ne_space
      have same : (line.declaration type).name.getD "" = line.name := by
        rw [declaration]
        split
        next bare => exact bare.symm
        next => rfl
      rw [head_of_symbol shown solid, ← same]
      exact congrArg _ (Option.some.inj given)
    next =>
      unfold classOfSymbol at given
      split at given
      · cases given
        exact head_of_symbol shown (by decide)
      · cases given
        exact head_of_symbol shown (by decide)
      · cases given
      · cases given
      · split at given <;> cases given
      · cases given

theorem Line.tableDescription_iff_text {line : Line} {text : String} :
    line.classify = .tableDescription text ↔ line.text = ">" ++ text := by
  rw [classify_eq_tableDescription_iff, paragraph?]
  constructor
  · intro found
    split at found
    next rest shown =>
      cases found
      exact String.toList_injective (by simpa using shown)
    next => cases found
  · intro shown
    simp [shown]

namespace PropertyLine

variable {line title : String}

/-- Reads a line with its title as a slice. -/
def sliced? (line : String) : Option PropertyLine :=
  if 2 ≤ line.utf8ByteSize ∧ line.toList.head? = some '(' ∧ line.toList.getLast? = some ')' then
    (Text.slice? line 1 (line.utf8ByteSize - 1)).map .title
  else
    some (match line.toList with
      | ':' :: assignment => ofAssignment assignment
      | chars => .valueSet (ValueSet.read chars))

theorem title?_eq_some_iff : title? line.toList = some title.toList ↔
    line = "(" ++ (title ++ ")") := by
  unfold title?
  constructor
  · intro found
    split at found
    next rest shown =>
      split at found
      next closed =>
        obtain ⟨inside, rfl⟩ := List.getLast?_eq_some_iff.mp closed
        rw [List.dropLast_concat, Option.some_inj] at found
        apply String.toList_injective
        simp [shown, found]
      next => cases found
    next => cases found
  · rintro rfl
    simp

theorem read_eq_title_iff : read line = .title title ↔ line = "(" ++ (title ++ ")") := by
  rw [← title?_eq_some_iff]
  unfold read
  constructor
  · intro found
    split at found
    next inside shown =>
      cases found
      rw [shown, String.toList_ofList]
    next =>
      split at found
      · unfold ofAssignment at found
        split at found
        · cases found
        · dsimp only at found
          split at found <;> cases found
      · cases found
  · intro shown
    rw [shown]
    simp only [String.ofList_toList]

private theorem utf8ByteSize_titled (title : String) :
    ("(" ++ (title ++ ")")).utf8ByteSize = 1 + title.utf8ByteSize + 1 := by
  rw [String.utf8ByteSize_append, String.utf8ByteSize_append, ← Nat.add_assoc]
  rfl

/-- A text that starts with the one and ends with the other parenthesis is a title between the
two. -/
theorem titled_iff (line : String) :
    2 ≤ line.utf8ByteSize ∧ line.toList.head? = some '(' ∧ line.toList.getLast? = some ')' ↔
      ∃ title, line = "(" ++ (title ++ ")") := by
  constructor
  · rintro ⟨-, first, last⟩
    obtain ⟨rest, shown⟩ := List.head?_eq_some_iff.mp first
    cases rest with
    | nil => simp [shown] at last
    | cons c rest =>
      rw [shown, List.getLast?_cons_cons] at last
      obtain ⟨inside, closed⟩ := List.getLast?_eq_some_iff.mp last
      refine ⟨String.ofList inside, String.toList_injective ?_⟩
      simp [shown, closed]
  · rintro ⟨title, rfl⟩
    have last : ("(" ++ (title ++ ")")).toList.getLast? = some ')' := by
      rw [← String.append_assoc, String.toList_append]
      exact List.getLast?_concat
    exact ⟨by rw [utf8ByteSize_titled]; omega, by simp, last⟩

private theorem sliced?_eq (line : String) : sliced? line = some (read line) := by
  unfold sliced?
  split
  next closed =>
    obtain ⟨title, rfl⟩ := (titled_iff line).mp closed
    have sliced : Text.slice? ("(" ++ (title ++ ")")) 1 (1 + title.utf8ByteSize) = some title :=
      Text.slice?_append "(" title ")"
    rw [utf8ByteSize_titled, Nat.add_sub_cancel, sliced, read_eq_title_iff.mpr rfl, Option.map_some]
  next other =>
    refine congrArg some (Eq.symm ?_)
    unfold read
    split
    next inside found =>
      rw [← String.toList_ofList (l := inside)] at found
      exact absurd ((titled_iff line).mpr ⟨_, title?_eq_some_iff.mp found⟩) other
    next => rfl

end PropertyLine

/-- A text has a slice between two bytes exactly if it can be put together with the slice in that
place. No line ever asks for another one: not when it is trimmed and cut into tokens, not for its
class, and not when it is read as a property. Nothing is lost, either. The tokens make up the line,
the head starts with the symbol, what is left of the head is the name, and what is left of a table
description or a title is its text. -/
theorem slices_lose_nothing :
    (∀ text inside start stop, Text.slice? text start stop = some inside ↔
      ∃ before after, text = before ++ (inside ++ after) ∧ start = before.utf8ByteSize ∧
        stop = before.utf8ByteSize + inside.utf8ByteSize) ∧
    (∀ raw : String,
      let line := Line.ofText raw
      Text.slicedTrim? raw = some line.text ∧ line.slicedTokens? = some line.tokens ∧
      line.slicedClass? = some line.classify ∧
      " ".intercalate line.tokens = line.text ∧
      (line.isBlank = false →
        ∃ symbol rest, line.symbol? = some symbol ∧ line.head = String.singleton symbol ++ rest) ∧
      (∀ name, line.classify.name? = some name →
        ∃ symbol, line.symbol? = some symbol ∧ line.head = String.singleton symbol ++ name) ∧
      ∀ text, line.classify = .tableDescription text ↔ line.text = ">" ++ text) ∧
    ∀ line : String, PropertyLine.sliced? line = some (PropertyLine.read line) ∧
      ∀ title, PropertyLine.read line = .title title ↔ line = "(" ++ (title ++ ")") := by
  refine ⟨fun _ _ _ _ => Text.slice?_eq_some_iff, ?_,
    fun line => ⟨PropertyLine.sliced?_eq line, fun _ => PropertyLine.read_eq_title_iff⟩⟩
  intro raw line
  refine ⟨Text.slicedTrim?_eq raw, line.slicedTokens?_eq, line.slicedClass?_eq,
    line.intercalate_tokens, ?_, fun _ => Line.head_of_name?,
    fun _ => Line.tableDescription_iff_text⟩
  intro filled
  cases first : line.symbol? with
  | none => cases filled.symm.trans (Line.symbol?_eq_none_iff.mp first)
  | some symbol =>
    exact ⟨symbol, line.name, rfl, Line.head_of_symbol first (Line.solid_of_symbol first)⟩

/-- A line between wide spaces, with letters of two bytes in its name. -/
theorem slices_lose_nothing_bookstore :
    let line := Line.ofText "\u3000\"Größe  Höhe in mm\"\u2003"
    line.isBlank = false ∧ line.classify = .columnDescription "Größe" "Höhe in mm" ∧
      line.slicedClass? = some (.columnDescription "Größe" "Höhe in mm") ∧
      " ".intercalate line.tokens = "\"Größe  Höhe in mm\"" ∧
      (∃ symbol rest, line.symbol? = some symbol ∧ line.head = String.singleton symbol ++ rest) ∧
      (∃ symbol, line.symbol? = some symbol ∧ line.head = String.singleton symbol ++ "Größe") ∧
      PropertyLine.sliced? "(Größe)" = some (.title "Größe") := by
  intro line
  have filled : line.isBlank = false := by decide +kernel
  have shown : line.classify = .columnDescription "Größe" "Höhe in mm" := by decide +kernel
  have text : line.text = "\"Größe  Höhe in mm\"" := by decide +kernel
  obtain ⟨_, lines, properties⟩ := slices_lose_nothing
  obtain ⟨_, _, sliced, joined, begun, named, _⟩ := lines "\u3000\"Größe  Höhe in mm\"\u2003"
  obtain ⟨read, titled⟩ := properties "(Größe)"
  refine ⟨filled, shown, sliced.trans (congrArg some shown), joined.trans text,
    begun filled, ?_, ?_⟩
  · exact named "Größe" (congrArg LineClass.name? shown)
  · rw [read, (titled "Größe").mpr (by decide)]

end StanzaSchema
