import StanzaSchema.Json.Reader
import StanzaSchema.Json.Text
import StanzaSchema.Proofs.Sorting

/-!
Written JSON reads back. The reader takes a value that was written in any layout with blanks between
the parts and delivers it to what is open around it, with the members of its objects in order. What
follows a value must not go on with a number, and values must not nest deeper than the reader goes.
-/

namespace StanzaSchema.Json

/-- A layout that puts only blanks between the parts of a value. -/
structure Layout.Blank (layout : Layout) : Prop where
  lineBreak : ∀ level, (layout.lineBreak level).all isBlank = true
  colon : ∃ blanks, layout.colon = ':' :: blanks ∧ blanks.all isBlank = true

theorem Layout.blank_indented (width : Nat) : (indented width).Blank := by
  constructor
  · intro level
    simp [indented, isBlank]
  · exact ⟨[' '], rfl, rfl⟩

/-- A number whose text reads back. -/
structure Number.Legible (number : Number) : Prop where
  text : ∃ first rest, number.chars = first :: rest ∧ (first = '-' ∨ isDecimalDigit first = true) ∧
    rest.all Machine.isNumeric = true
  reads : numeral number.chars = .ok (.number number)

/-- A value that has only numbers of one kind and nests at most so many levels deep. -/
inductive Confined (known : Number → Prop) : Nat → Json → Prop
  | null {depth : Nat} : Confined known depth .null
  | boolean {depth : Nat} (value : Bool) : Confined known depth (.boolean value)
  | number {depth : Nat} {value : Number} (proper : known value) :
      Confined known depth (.number value)
  | text {depth : Nat} (value : String) : Confined known depth (.text value)
  | array {depth : Nat} {items : List Json} (inside : ∀ item ∈ items, Confined known depth item) :
    Confined known (depth + 1) (.array items)
  | object {depth : Nat} {members : List (String × Json)}
      (inside : ∀ member ∈ members, Confined known depth member.2) :
    Confined known (depth + 1) (.object members)

/-- A value whose numbers are legible and which nests at most so many levels deep. -/
abbrev Readable : Nat → Json → Prop := Confined Number.Legible

/-- What may follow a value: nothing that would go on with a number. -/
def Ends : List Char → Prop
  | [] => True
  | c :: _ => Machine.isNumeric c = false

private theorem isNumeric_of_isBlank {c : Char} (blank : isBlank c = true) :
    Machine.isNumeric c = false := by
  simp only [isBlank, Bool.or_eq_true, beq_iff_eq] at blank
  rcases blank with ((rfl | rfl) | rfl) | rfl <;> rfl

/-- The first character of a number. -/
theorem visible_of_begins {first : Char} (begins : first = '-' ∨ isDecimalDigit first = true) :
    isBlank first = false ∧ first ≠ '"' ∧ first ≠ ']' := by
  rcases begins with rfl | digit
  · decide
  · refine ⟨?_, ?_, ?_⟩
    · cases blank : isBlank first
      · rfl
      · have finished := isNumeric_of_isBlank blank
        simp [Machine.isNumeric, digit] at finished
    · rintro rfl
      cases digit
    · rintro rfl
      cases digit

theorem Ends.blanks {blanks rest : List Char} (all : blanks.all isBlank = true) (ends : Ends rest) :
    Ends (blanks ++ rest) := by
  cases blanks with
  | nil => exact ends
  | cons c blanks =>
    simp only [List.all_cons, Bool.and_eq_true] at all
    exact isNumeric_of_isBlank all.1

theorem Ends.items {rest : List Char} (ends : Ends rest) (layout : Layout) (level : Nat)
    (items : List Json) :
    Ends (writeItems layout level items ++ rest) := by
  cases items with
  | nil => exact ends
  | cons item items =>
    rw [writeItems]
    rfl

theorem Ends.members {rest : List Char} (ends : Ends rest) (layout : Layout) (level : Nat)
    (members : List (String × Json)) : Ends (writeMembers layout level members ++ rest) := by
  cases members with
  | nil => exact ends
  | cons member members =>
    rw [writeMembers]
    rfl

/-- The places where blanks mean nothing. -/
def Spot.isResting : Spot → Bool
  | .string .. => false
  | .number _ => false
  | .word .. => false
  | _ => true

namespace Machine

variable {stack : List Frame} {rest : List Char}

/-- What comes of the rest of a text. -/
def conclude (machine : Machine) (chars : List Char) : Except Fault Json :=
  match chars.foldlM step machine with
  | .error fault => .error fault
  | .ok machine => machine.finish

theorem conclude_step {machine next : Machine} {c : Char} (steps : machine.step c = .ok next) :
    machine.conclude (c :: rest) = next.conclude rest := by
  simp only [conclude, List.foldlM_cons, steps]
  rfl

theorem conclude_blanks {spot : Spot} (resting : spot.isResting = true) {blanks : List Char}
    (all : blanks.all isBlank = true) :
    conclude ⟨stack, spot⟩ (blanks ++ rest) = conclude ⟨stack, spot⟩ rest := by
  induction blanks with
  | nil => rfl
  | cons c blanks ih =>
    simp only [List.all_cons, Bool.and_eq_true] at all
    have stays : step ⟨stack, spot⟩ c = .ok ⟨stack, spot⟩ := by
      cases spot with
      | string isKey taken place => cases resting
      | number taken => cases resting
      | word value left => cases resting
      | _ => simp only [step, stepSettled, all.1, ↓reduceIte]
    rw [List.cons_append, conclude_step stays, ih all.2]

/-- Hexadecimal escapes of control characters. -/
theorem hexDigits_control : ∀ n < 0x20, hexDigits n 4 = ['0', '0', Nat.digitChar (n / 16),
      Nat.digitChar (n % 16)] ∧
    isHexDigit (Nat.digitChar (n / 16)) = true ∧ isHexDigit (Nat.digitChar (n % 16)) = true ∧
    digitsValue 16 ['0', '0', Nat.digitChar (n / 16), Nat.digitChar (n % 16)] = n ∧
    (Nat.digitChar (n / 16)).utf8Size = 1 ∧ (Nat.digitChar (n % 16)).utf8Size = 1 := by decide

/-- Four hexadecimal digits that stand for a control character. -/
theorem conclude_control (isKey : Bool) (taken : List Char) {c : Char} (control : c.toNat < 0x20) :
    conclude ⟨stack, .string isKey taken .plain⟩ ('\\' :: 'u' :: hexDigits c.toNat 4 ++ rest) =
      conclude ⟨stack, .string isKey (c :: taken) .plain⟩ rest := by
  obtain ⟨digits, highHex, lowHex, value, highSize, lowSize⟩ := hexDigits_control c.toNat control
  generalize Nat.digitChar (c.toNat / 16) = high at *
  generalize Nat.digitChar (c.toNat % 16) = low at *
  have zeroSize : '0'.utf8Size = 1 := rfl
  have place (digits : List Char) (d : Char) (short : Text.byteLength (d :: digits) < 4) :
      step ⟨stack, .string isKey taken (.unit none digits)⟩ d =
        .ok ⟨stack, .string isKey taken (.unit none (d :: digits))⟩ := by
    simp [step, stepSettled, stepString, isPlainPlace, stepInside, stepUnit, short]
  have last : step ⟨stack, .string isKey taken (.unit none [high, '0', '0'])⟩ low =
      .ok ⟨stack, .string isKey (c :: taken) .plain⟩ := by
    have full : ¬ Text.byteLength [low, high, '0', '0'] < 4 := by
      simp [Text.byteLength, highSize, lowSize, zeroSize]
    have unpaired : isLowSurrogate c.toNat = false ∧ isHighSurrogate c.toNat = false := by
      simp only [isLowSurrogate, isHighSurrogate, Bool.and_eq_false_iff, decide_eq_false_iff_not]
      omega
    have hex : [low, high, '0', '0'].all isHexDigit = true := by simp [lowHex, highHex]; decide
    simp [step, stepSettled, stepString, isPlainPlace, stepInside, stepUnit, full, hex, endUnit,
      value, unpaired]
  have opened : step ⟨stack, .string isKey taken .plain⟩ '\\' =
      .ok ⟨stack, .string isKey taken .escape⟩ := rfl
  have marked : step ⟨stack, .string isKey taken .escape⟩ 'u' =
      .ok ⟨stack, .string isKey taken (.unit none [])⟩ := rfl
  rw [digits, List.cons_append, conclude_step opened, List.cons_append, conclude_step marked]
  simp only [List.cons_append, List.nil_append]
  rw [conclude_step (place [] '0' (by simp [Text.byteLength, zeroSize])),
    conclude_step (place ['0'] '0' (by simp [Text.byteLength, zeroSize])),
    conclude_step (place ['0', '0'] high (by simp [Text.byteLength, zeroSize, highSize])),
    conclude_step last]

/-- A character is escaped by a letter, escaped as a control character or written as it is. -/
theorem escapeChar_cases (c : Char) :
    (∃ letter, escapeChar c = ['\\', letter] ∧ letter ≠ 'u' ∧ escaped? letter = some c) ∨
      (c.toNat < 0x20 ∧ escapeChar c = '\\' :: 'u' :: hexDigits c.toNat 4) ∨
      (c ≠ '"' ∧ c ≠ '\\' ∧ ¬ c.toNat < 0x20 ∧ escapeChar c = [c]) := by
  by_cases lettered : c ∈ ['"', '\\', '\x08', '\x0c', '\n', '\r', '\t']
  · simp only [List.mem_cons, List.not_mem_nil, or_false] at lettered
    rcases lettered with rfl | rfl | rfl | rfl | rfl | rfl | rfl <;>
      exact .inl ⟨_, rfl, by decide, rfl⟩
  · simp only [List.mem_cons, List.not_mem_nil, or_false, not_or] at lettered
    by_cases control : c.toNat < 0x20
    · exact .inr (.inl ⟨control, by simp [escapeChar, lettered, control]⟩)
    · exact .inr (.inr ⟨lettered.1, lettered.2.1, control, by simp [escapeChar, lettered, control]⟩)

/-- An escaped character is the character. -/
theorem conclude_escapeChar (isKey : Bool) (taken : List Char) (c : Char) :
    conclude ⟨stack, .string isKey taken .plain⟩ (escapeChar c ++ rest) =
      conclude ⟨stack, .string isKey (c :: taken) .plain⟩ rest := by
  rcases escapeChar_cases c with ⟨letter, escaped, short, known⟩ | ⟨control, escaped⟩ |
    ⟨quote, backslash, printable, plain⟩
  · have opened : step ⟨stack, .string isKey taken .plain⟩ '\\' =
        .ok ⟨stack, .string isKey taken .escape⟩ := rfl
    have closed : step ⟨stack, .string isKey taken .escape⟩ letter =
        .ok ⟨stack, .string isKey (c :: taken) .plain⟩ := by
      simp [step, stepSettled, stepString, isPlainPlace, stepInside, short, known]
    rw [escaped, List.cons_append, conclude_step opened, List.cons_append, conclude_step closed]
    rfl
  · rw [escaped]
    exact conclude_control isKey taken control
  · rw [plain]
    refine conclude_step ?_
    simp [step, stepSettled, stepString, stepInside, quote, backslash, printable]

private theorem conclude_characters (isKey : Bool) (taken chars : List Char) :
    conclude ⟨stack, .string isKey taken .plain⟩ (chars.flatMap escapeChar ++ rest) =
      conclude ⟨stack, .string isKey (chars.reverse ++ taken) .plain⟩ rest := by
  induction chars generalizing taken with
  | nil => rfl
  | cons c chars ih =>
    rw [List.flatMap_cons, List.append_assoc, conclude_escapeChar, ih]
    simp

/-- A quoted text ends as the string that it quotes. -/
theorem conclude_quoted {isKey : Bool} {text : String} {next : Machine}
    (ends : endString stack isKey text.toList.reverse = .ok next) :
    conclude ⟨stack, .string isKey [] .plain⟩ (text.toList.flatMap escapeChar ++ '"' :: rest) =
      next.conclude rest := by
  rw [conclude_characters, List.append_nil]
  exact conclude_step ends

theorem conclude_key {spot : Spot} (awaited : spot = .key ∨ spot = .firstKey) (key : String) :
    conclude ⟨stack, spot⟩ (quoted key ++ rest) = conclude ⟨stack, .colon key⟩ rest := by
  have opened : step ⟨stack, spot⟩ '"' = .ok ⟨stack, .string true [] .plain⟩ := by
    rcases awaited with rfl | rfl <;> rfl
  have ends : endString stack true key.toList.reverse = .ok ⟨stack, .colon key⟩ := by
    simp [endString]
  rw [quoted, List.cons_append, List.append_assoc, conclude_step opened]
  exact conclude_quoted ends

theorem conclude_text {value : String} {next : Machine}
    (delivered : deliver stack (.text value) = .ok next) :
    conclude ⟨stack, .value⟩ (quoted value ++ rest) = next.conclude rest := by
  have opened : step ⟨stack, .value⟩ '"' = .ok ⟨stack, .string false [] .plain⟩ := rfl
  have ends : endString stack false value.toList.reverse = .ok next := by
    simpa [endString] using delivered
  rw [quoted, List.cons_append, List.append_assoc, conclude_step opened]
  exact conclude_quoted ends

theorem conclude_word {value : Json} {last : Char} {next : Machine} (word : List Char)
    (delivered : deliver stack value = .ok next) :
    conclude ⟨stack, .word value (word ++ [last])⟩ (word ++ last :: rest) = next.conclude rest := by
  induction word with
  | nil =>
    refine conclude_step ?_
    simp [step, stepSettled, stepWord, delivered]
  | cons c word ih =>
    rw [List.cons_append, List.cons_append, ← ih]
    refine conclude_step ?_
    cases word <;> simp [step, stepSettled, stepWord]

/-- A number is complete before what follows it. -/
theorem conclude_numeral {taken : List Char} {value : Json} {next : Machine}
    (complete : numeral taken.reverse = .ok value) (ends : Ends rest)
    (delivered : deliver stack value = .ok next) :
    conclude ⟨stack, .number taken⟩ rest = next.conclude rest := by
  cases rest with
  | nil =>
    simp only [conclude, List.foldlM_nil, pure, Except.pure, finish, complete]
    cases stack with
    | nil =>
      cases delivered
      rfl
    | cons frame stack => cases frame <;> cases delivered <;> rfl
  | cons c rest =>
    have finished : isNumeric c = false := ends
    have settled : next.step c = next.stepSettled c := by
      cases stack with
      | nil =>
        cases delivered
        rfl
      | cons frame stack => cases frame <;> cases delivered <;> rfl
    have same : step ⟨stack, .number taken⟩ c = next.step c := by
      rw [settled]
      simp only [step, finished, Bool.false_eq_true, ↓reduceIte, complete, delivered]
    simp only [conclude, List.foldlM_cons, same]

private theorem conclude_numeric (taken : List Char) {chars : List Char}
    (numeric : chars.all isNumeric = true) :
    conclude ⟨stack, .number taken⟩ (chars ++ rest) =
      conclude ⟨stack, .number (chars.reverse ++ taken)⟩ rest := by
  induction chars generalizing taken with
  | nil => rfl
  | cons c chars ih =>
    simp only [List.all_cons, Bool.and_eq_true] at numeric
    have taking : step ⟨stack, .number taken⟩ c = .ok ⟨stack, .number (c :: taken)⟩ := by
      simp [step, numeric.1]
    rw [List.cons_append, conclude_step taking, ih _ numeric.2]
    simp

theorem conclude_number {number : Number} (legible : number.Legible) {next : Machine}
    (ends : Ends rest) (delivered : deliver stack (.number number) = .ok next) :
    conclude ⟨stack, .value⟩ (number.chars ++ rest) = next.conclude rest := by
  obtain ⟨first, more, shown, begins, numeric⟩ := legible.text
  obtain ⟨visible, unquoted, _⟩ := visible_of_begins begins
  have opened : step ⟨stack, .value⟩ first = .ok ⟨stack, .number [first]⟩ := by
    simp [step, stepSettled, stepValue, visible, unquoted, begins]
  have complete : numeral (more.reverse ++ [first]).reverse = .ok (.number number) := by
    rw [← legible.reads, shown]
    simp
  rw [shown, List.cons_append, conclude_step opened, conclude_numeric _ numeric]
  exact conclude_numeral complete ends delivered

/-- A value whose text the reader turns into the value, whatever is open around it. -/
def Restores (layout : Layout) (depth : Nat) (value : Json) : Prop :=
  ∀ {stack : List Frame} {rest : List Char} {next : Machine} (level : Nat),
    stack.length + depth ≤ nestingLimit →
    Ends rest → deliver stack value.sorted = .ok next →
    conclude ⟨stack, .value⟩ (write layout level value ++ rest) = next.conclude rest

variable {layout : Layout} {depth level : Nat}

/-- The items of an array that has begun. -/
theorem conclude_items (blank : layout.Blank) {items : List Json}
    (inside : ∀ item ∈ items, Restores layout depth item)
    (fits : stack.length + 1 + depth ≤ nestingLimit) (ends : Ends rest) (taken : List Json) :
    conclude ⟨.array taken :: stack, .after⟩ (writeItems layout level items ++ rest) =
      conclude ⟨.array ((items.map sorted).reverse ++ taken) :: stack, .after⟩ rest := by
  induction items generalizing taken with
  | nil => rfl
  | cons item items ih =>
    have comma : step ⟨.array taken :: stack, .after⟩ ',' =
        .ok ⟨.array taken :: stack, .value⟩ := rfl
    have restored : conclude ⟨.array taken :: stack, .value⟩
          (write layout level item ++ (writeItems layout level items ++ rest)) =
        conclude ⟨.array (item.sorted :: taken) :: stack,
          .after⟩ (writeItems layout level items ++ rest) :=
      inside item List.mem_cons_self level fits (ends.items layout level items) rfl
    simp only [writeItems, List.cons_append, List.append_assoc]
    rw [conclude_step comma, conclude_blanks rfl (blank.lineBreak level), restored,
      ih (fun later member => inside later (List.mem_cons_of_mem _ member))]
    simp

/-- A key and its value. -/
theorem conclude_member (blank : layout.Blank) {spot : Spot}
    (awaited : spot = .key ∨ spot = .firstKey) {member : String × Json}
    (inside : Restores layout depth member.2) (fits : stack.length + 1 + depth ≤ nestingLimit)
    (ends : Ends rest) (taken : List (String × Json)) :
    conclude ⟨.object taken :: stack, spot⟩
        (quoted member.1 ++ (layout.colon ++ (write layout level member.2 ++ rest))) =
      conclude ⟨.object ((member.1, member.2.sorted) :: taken) :: stack, .after⟩ rest := by
  obtain ⟨blanks, colon, skipped⟩ := blank.colon
  have marked : step ⟨.object taken :: stack, .colon member.1⟩ ':' =
      .ok ⟨.member taken member.1 :: stack, .value⟩ := rfl
  rw [conclude_key awaited, colon, List.cons_append, conclude_step marked,
    conclude_blanks rfl skipped]
  exact inside level fits ends rfl

/-- The members of an object that has begun. -/
theorem conclude_members (blank : layout.Blank) {members : List (String × Json)}
    (inside : ∀ member ∈ members, Restores layout depth member.2)
    (fits : stack.length + 1 + depth ≤ nestingLimit) (ends : Ends rest)
    (taken : List (String × Json)) :
    conclude ⟨.object taken :: stack, .after⟩ (writeMembers layout level members ++ rest) =
      conclude ⟨.object ((members.map fun member =>
        (member.1, member.2.sorted)).reverse ++ taken) :: stack, .after⟩
        rest := by
  induction members generalizing taken with
  | nil => rfl
  | cons member members ih =>
    obtain ⟨key, value⟩ := member
    have comma : step ⟨.object taken :: stack, .after⟩ ',' =
        .ok ⟨.object taken :: stack, .key⟩ := rfl
    simp only [writeMembers, List.cons_append, List.append_assoc]
    rw [conclude_step comma, conclude_blanks rfl (blank.lineBreak level),
      conclude_member blank (.inl rfl) (inside (key, value) List.mem_cons_self) fits
      (ends.members layout level members),
      ih (fun later member => inside later (List.mem_cons_of_mem _ member))]
    simp

private theorem write_visible (layout : Layout) (level : Nat) {value : Json}
    (readable : Readable depth value) :
    ∃ first more, write layout level value = first :: more ∧ isBlank first = false ∧
      first ≠ ']' := by
  cases readable with
  | null => exact ⟨_, _, rfl, by decide⟩
  | boolean value => cases value <;> exact ⟨_, _, rfl, by decide⟩
  | number legible =>
    obtain ⟨first, more, shown, begins, _⟩ := legible.text
    obtain ⟨visible, _, inside⟩ := visible_of_begins begins
    exact ⟨first, more, shown, visible, inside⟩
  | text value => exact ⟨_, _, rfl, by decide⟩
  | array inside =>
    rename_i items
    cases items <;> exact ⟨_, _, rfl, by decide⟩
  | object inside =>
    rename_i members
    cases members <;> exact ⟨_, _, rfl, by decide⟩

/-- The first item of an array is read as any other value. -/
theorem conclude_firstItem {first : Char} {more : List Char} (visible : isBlank first = false)
    (inside : first ≠ ']') :
    conclude ⟨stack, .firstItem⟩ (first :: more) = conclude ⟨stack, .value⟩ (first :: more) := by
  have same : step ⟨stack, .firstItem⟩ first = step ⟨stack, .value⟩ first := by
    simp [step, stepSettled, visible, inside]
  simp only [conclude, List.foldlM_cons, same]

private theorem enter_of_lt (room : stack.length < nestingLimit) (frame : Frame) (spot : Spot) :
    enter stack frame spot = .ok ⟨frame :: stack, spot⟩ := if_pos room

private theorem restores_array (blank : layout.Blank) {items : List Json}
    (readable : ∀ item ∈ items, Readable depth item)
    (inside : ∀ item ∈ items, Restores layout depth item) :
    Restores layout (depth + 1) (.array items) := by
  intro stack rest next level fits ends delivered
  have room : stack.length < nestingLimit := by omega
  have deeper : stack.length + 1 + depth ≤ nestingLimit := by omega
  have opened : step ⟨stack, .value⟩ '[' = .ok ⟨.array [] :: stack, .firstItem⟩ :=
    enter_of_lt room (.array []) .firstItem
  rw [sorted_array] at delivered
  cases items with
  | nil =>
    rw [write, List.cons_append, conclude_step opened]
    exact conclude_step delivered
  | cons item items =>
    have finished : Ends (layout.lineBreak level ++ ']' :: rest) :=
      Ends.blanks (blank.lineBreak level) rfl
    have first : conclude ⟨.array [] :: stack, .value⟩ (write layout (level + 1) item ++
          (writeItems layout (level + 1) items ++ (layout.lineBreak level ++ ']' :: rest))) =
        conclude ⟨.array [item.sorted] :: stack, .after⟩
          (writeItems layout (level + 1) items ++ (layout.lineBreak level ++ ']' :: rest)) :=
      inside item List.mem_cons_self (level + 1) deeper
        (finished.items layout (level + 1) items) rfl
    have closed : step ⟨.array ((items.map sorted).reverse ++ [item.sorted]) :: stack,
        .after⟩ ']' = .ok next := by
      rw [← delivered]
      simp [step, stepSettled, stepAfter, isBlank, closeArray]
    obtain ⟨c, more, shown, visible, unclosed⟩ :=
      write_visible layout (level + 1) (readable item List.mem_cons_self)
    simp only [write, List.cons_append, List.append_assoc, List.nil_append]
    rw [conclude_step opened, conclude_blanks rfl (blank.lineBreak (level + 1))]
    rw [shown] at first ⊢
    rw [List.cons_append] at first ⊢
    rw [conclude_firstItem visible unclosed, first,
      conclude_items blank
        (fun later member => inside later (List.mem_cons_of_mem _ member)) deeper finished,
      conclude_blanks rfl (blank.lineBreak level)]
    exact conclude_step closed

private theorem restores_object (blank : layout.Blank) {members : List (String × Json)}
    (inside : ∀ member ∈ members, Restores layout depth member.2) :
    Restores layout (depth + 1) (.object members) := by
  intro stack rest next level fits ends delivered
  have room : stack.length < nestingLimit := by omega
  have deeper : stack.length + 1 + depth ≤ nestingLimit := by omega
  have opened : step ⟨stack, .value⟩ '\x7b' = .ok ⟨.object [] :: stack, .firstKey⟩ :=
    enter_of_lt room (.object []) .firstKey
  rw [sorted_object, ← sortMembers_eq_arrange] at delivered
  cases members with
  | nil =>
    rw [write, List.cons_append, conclude_step opened]
    exact conclude_step delivered
  | cons member members =>
    obtain ⟨key, value⟩ := member
    have finished : Ends (layout.lineBreak level ++ '\x7d' :: rest) :=
      Ends.blanks (blank.lineBreak level) rfl
    have closed : step ⟨.object ((members.map fun member => (member.1, member.2.sorted)).reverse ++
        [(key, value.sorted)]) :: stack, .after⟩ '\x7d' = .ok next := by
      rw [← delivered]
      simp [step, stepSettled, stepAfter, isBlank, closeObject]
    simp only [write, List.cons_append, List.append_assoc, List.nil_append]
    rw [conclude_step opened, conclude_blanks rfl (blank.lineBreak (level + 1)),
      conclude_member blank (.inr rfl) (inside (key, value) List.mem_cons_self) deeper
        (finished.members layout (level + 1) members),
      conclude_members blank
        (fun later member => inside later (List.mem_cons_of_mem _ member)) deeper finished,
      conclude_blanks rfl (blank.lineBreak level)]
    exact conclude_step closed

private theorem restores_of_readable (blank : layout.Blank) {value : Json}
    (readable : Readable depth value) :
    Restores layout depth value := by
  induction readable with
  | null =>
    intro stack rest next level fits ends delivered
    exact (conclude_step rfl).trans (conclude_word ['u', 'l'] delivered)
  | boolean value =>
    intro stack rest next level fits ends delivered
    cases value with
    | true => exact (conclude_step rfl).trans (conclude_word ['r', 'u'] delivered)
    | false => exact (conclude_step rfl).trans (conclude_word ['a', 'l', 's'] delivered)
  | number legible =>
    intro stack rest next level fits ends delivered
    exact conclude_number legible ends delivered
  | text value =>
    intro stack rest next level fits ends delivered
    exact conclude_text delivered
  | array readable inside => exact restores_array blank readable inside
  | object readable inside => exact restores_object blank inside

end Machine

/-- A value that was written with blanks between its parts is read back with its objects in
order. -/
theorem parse_write {layout : Layout} (blank : layout.Blank) {value : Json}
    (readable : Readable nestingLimit value) :
    parse (String.ofList (write layout 0 value)) = .ok value.sorted := by
  have restored : Machine.conclude .start (write layout 0 value ++ []) =
      Machine.conclude ⟨[], .done value.sorted⟩ [] :=
    Machine.restores_of_readable blank readable 0 (by simp) trivial rfl
  rw [List.append_nil] at restored
  rw [parse, String.toList_ofList]
  exact restored

theorem parse_pretty (width : Nat) {value : Json} (readable : Readable nestingLimit value) :
    parse (value.pretty width) = .ok value.sorted :=
  parse_write (Layout.blank_indented width) readable

end StanzaSchema.Json
