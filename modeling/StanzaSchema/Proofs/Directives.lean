import StanzaSchema.Line.Directive
import StanzaSchema.Proofs.Cutting

/-!
Directives as a language. A text is a directive if and only if it is put together from a bracket,
one of eight words, spaces, an argument and a bracket, and there is no second way to put it
together, whatever brackets and spaces the argument holds. The spans of the parts lie side by side
over the bytes of the text.
-/

namespace StanzaSchema

namespace Keyword

/-- The words that a directive may begin with, and what each of them stands for. -/
def words : List (String × Keyword) :=
  [("Domain", .domain), ("Authorization", .authorization), ("PICT-Create", .view .create),
   ("PICT-Record", .view .record), ("PICT-List", .view .list), ("PICT-Update", .view .update),
   ("PICT-Delete", .view .delete), ("Include", .includeFile)]

theorem mem_words_iff {word : String} {keyword : Keyword} :
    (word, keyword) ∈ words ↔ word = keyword.text := by
  cases keyword with
  | view kind => cases kind <;> simp [words, text, ViewKind.name]
  | _ => simp [words, text]

theorem mem_all (keyword : Keyword) : keyword ∈ all := by
  cases keyword with
  | view kind => cases kind <;> decide
  | _ => decide

/-- No keyword is the beginning of another, so it does not matter which is tried first. -/
theorem eq_of_prefix {first second : Keyword}
    (begins : first.text.toList <+: second.text.toList) : first = second := by
  have apart : ∀ first ∈ all, ∀ second ∈ all,
      first.text.toList.isPrefixOf second.text.toList = true → first = second := by decide
  exact apart first first.mem_all second second.mem_all (List.isPrefixOf_iff_prefix.mpr begins)

end Keyword

namespace Grammar

/-- A place lies behind another one, with this text between them. -/
structure Passes (cursor : Cursor) (taken : List Char) (next : Cursor) : Prop where
  rest : cursor.rest = taken ++ next.rest
  offset : next.offset = cursor.offset + Text.byteLength taken

section Rules

variable {cursor next : Cursor} {taken : List Char}

theorem passes_nil_iff : Passes cursor [] next ↔ next = cursor := by
  constructor
  · rintro ⟨rest, offset⟩
    cases cursor
    cases next
    simp_all [Text.byteLength]
  · rintro rfl
    exact ⟨rfl, rfl⟩

theorem passes_cons_iff {c : Char} :
    Passes cursor (c :: taken) next ↔ ∃ middle, Passes cursor [c] middle ∧
      Passes middle taken next := by
  constructor
  · rintro ⟨rest, offset⟩
    refine ⟨⟨taken ++ next.rest, cursor.offset + c.utf8Size⟩, ⟨rest, rfl⟩, rfl, ?_⟩
    rw [offset, Text.byteLength, Nat.add_assoc]
  · rintro ⟨middle, first, later⟩
    refine ⟨by rw [first.rest, later.rest, List.singleton_append, List.cons_append], ?_⟩
    rw [later.offset, first.offset]
    simp only [Text.byteLength, Nat.add_zero, Nat.add_assoc]

/-- A text leads to one place. -/
theorem Passes.unique {other : Cursor} (one : Passes cursor taken next)
    (two : Passes cursor taken other) : next = other := by
  have rest := List.append_cancel_left (one.rest.symm.trans two.rest)
  have offset := one.offset.trans two.offset.symm
  cases next
  cases other
  simp_all

theorem exists_passes {rest : List Char} (shown : cursor.rest = taken ++ rest) :
    ∃ next, Passes cursor taken next ∧ next.rest = rest :=
  ⟨⟨rest, cursor.offset + Text.byteLength taken⟩, ⟨shown, rfl⟩, rfl⟩

theorem Passes.upTo_eq (passes : Passes cursor taken next) : cursor.upTo next = taken := by
  rw [Cursor.upTo, passes.rest, List.length_append, Nat.add_sub_cancel, List.take_left]

theorem any?_eq_some_iff : any? cursor = some next ↔ ∃ c, Passes cursor [c] next := by
  unfold any?
  split
  next shown =>
    constructor
    · intro found
      cases found
    · rintro ⟨c, passes⟩
      cases shown.symm.trans passes.rest
  next c rest shown =>
    have passes : Passes cursor [c] ⟨rest, cursor.offset + c.utf8Size⟩ := ⟨shown, rfl⟩
    constructor
    · intro found
      cases found
      exact ⟨c, passes⟩
    · rintro ⟨d, other⟩
      cases shown.symm.trans other.rest
      exact congrArg some (passes.unique other)

theorem char?_eq_some_iff {wanted : Char} :
    char? wanted cursor = some next ↔ Passes cursor [wanted] next := by
  unfold char?
  split
  next begins =>
    rw [any?_eq_some_iff]
    refine ⟨?_, fun passes => ⟨wanted, passes⟩⟩
    rintro ⟨c, passes⟩
    rw [passes.rest] at begins
    cases begins
    exact passes
  next other =>
    constructor
    · intro found
      cases found
    · intro passes
      refine absurd ?_ other
      rw [passes.rest]
      rfl

private theorem literal?_eq_some_iff {word : List Char} :
    literal? word cursor = some next ↔ Passes cursor word next := by
  induction word generalizing cursor with
  | nil => rw [literal?, passes_nil_iff, Option.some_inj, eq_comm]
  | cons c word ih =>
    rw [literal?, Option.bind_eq_some_iff, passes_cons_iff]
    simp only [char?_eq_some_iff, ih]

theorem endOfText?_eq_some_iff :
    endOfText? cursor = some next ↔ cursor.rest = [] ∧ next = cursor := by
  rw [endOfText?, Option.ite_none_right_eq_some, List.isEmpty_iff, Option.some_inj, @eq_comm _ next]

/-- The first keyword that is found is the only one. -/
theorem keyword?_eq_some_iff {keyword : Keyword} :
    keyword? cursor = some (keyword, next) ↔ Passes cursor keyword.text.toList next := by
  have sound {keyword : Keyword} {next : Cursor} (found : keyword? cursor = some (keyword, next)) :
      Passes cursor keyword.text.toList next := by
    obtain ⟨_, _, tried⟩ := List.exists_of_findSome?_eq_some found
    obtain ⟨_, read, same⟩ := Option.map_eq_some_iff.mp tried
    cases same
    exact literal?_eq_some_iff.mp read
  refine ⟨sound, fun passes => ?_⟩
  have some_found : (keyword? cursor).isSome := by
    rw [keyword?, List.findSome?_isSome_iff]
    refine ⟨keyword, keyword.mem_all, ?_⟩
    rw [literal?_eq_some_iff.mpr passes]
    rfl
  obtain ⟨⟨other, place⟩, found⟩ := Option.isSome_iff_exists.mp some_found
  have before := sound found
  have same : other = keyword := by
    rcases List.prefix_or_prefix_of_prefix ⟨_, before.rest.symm⟩ ⟨_, passes.rest.symm⟩
      with one | two
    · exact Keyword.eq_of_prefix one
    · exact (Keyword.eq_of_prefix two).symm
  subst same
  rw [found, before.unique passes]

end Rules

namespace Move

variable {move : Move} {cursor next : Cursor}

theorem zeroOrMore_of_none (refused : move.find? cursor = none) :
    move.zeroOrMore cursor = cursor := by
  rw [zeroOrMore]
  split
  · rfl
  next found => cases refused.symm.trans found

theorem zeroOrMore_of_some (found : move.find? cursor = some next) :
    move.zeroOrMore cursor = move.zeroOrMore next := by
  rw [zeroOrMore]
  split
  next refused => cases refused.symm.trans found
  next other same => rw [Option.some.inj (same.symm.trans found)]

theorem oneOrMore?_eq_some_iff :
    move.oneOrMore? cursor = some next ↔
      (move.find? cursor).isSome ∧ move.zeroOrMore cursor = next := by
  unfold oneOrMore?
  cases found : move.find? cursor with
  | none => simp
  | some first => simp [zeroOrMore_of_some found]

end Move

section Repetition

variable {cursor next : Cursor}

/-- Spaces go up to where something else begins. -/
theorem zeroOrMore_space {count : Nat} (passes : Passes cursor (List.replicate count ' ') next)
    (other : next.rest.head? ≠ some ' ') : space.zeroOrMore cursor = next := by
  induction count generalizing cursor with
  | zero =>
    obtain rfl := passes_nil_iff.mp passes
    exact Move.zeroOrMore_of_none (if_neg other)
  | succ count ih =>
    obtain ⟨middle, first, later⟩ := passes_cons_iff.mp passes
    have found : space.find? cursor = some middle := char?_eq_some_iff.mpr first
    rw [Move.zeroOrMore_of_some found, ih later]

/-- A text is the spaces in front of it and what they leave, which begins with no space. -/
theorem exists_spaces (cursor : Cursor) :
    ∃ count next, Passes cursor (List.replicate count ' ') next ∧ next.rest.head? ≠ some ' ' := by
  have all : cursor.rest.takeWhile (fun c => c == ' ') =
      List.replicate (cursor.rest.takeWhile fun c => c == ' ').length ' ' := by
    apply List.eq_replicate_of_mem
    intro c listed
    exact beq_iff_eq.mp (List.all_eq_true.mp List.all_takeWhile c listed)
  refine ⟨(cursor.rest.takeWhile fun c => c == ' ').length,
    ⟨cursor.rest.dropWhile fun c => c == ' ', _⟩, ⟨?_, rfl⟩, ?_⟩
  · rw [← all, List.takeWhile_append_dropWhile]
  · intro space
    have refused := List.head?_dropWhile_not (fun c => c == ' ') cursor.rest
    rw [space] at refused
    cases refused

theorem spaces_eq_some_iff :
    space.oneOrMore? cursor = some next ↔
      ∃ count, count ≠ 0 ∧ Passes cursor (List.replicate count ' ') next ∧
        next.rest.head? ≠ some ' ' := by
  rw [Move.oneOrMore?_eq_some_iff]
  constructor
  · rintro ⟨begins, rfl⟩
    obtain ⟨count, last, passes, other⟩ := exists_spaces cursor
    rw [zeroOrMore_space passes other]
    refine ⟨count, ?_, passes, other⟩
    rintro rfl
    obtain rfl := passes_nil_iff.mp passes
    have refused : space.find? last = none := if_neg other
    rw [refused] at begins
    cases begins
  · rintro ⟨count, some_spaces, passes, other⟩
    refine ⟨?_, zeroOrMore_space passes other⟩
    obtain ⟨more, rfl⟩ := Nat.exists_eq_succ_of_ne_zero some_spaces
    obtain ⟨middle, first, _⟩ := passes_cons_iff.mp passes
    have found : space.find? cursor = some middle := char?_eq_some_iff.mpr first
    rw [found]
    rfl

private theorem isSome_closing?_iff : (closing? cursor).isSome ↔ cursor.rest = [']'] := by
  unfold closing?
  constructor
  · intro found
    obtain ⟨last, closed⟩ := Option.isSome_iff_exists.mp found
    obtain ⟨behind, bracket, ended⟩ := Option.bind_eq_some_iff.mp closed
    rw [(char?_eq_some_iff.mp bracket).rest, (endOfText?_eq_some_iff.mp ended).1, List.append_nil]
  · intro shown
    have passes : Passes cursor [']'] ⟨[], cursor.offset + ']'.utf8Size⟩ := ⟨shown, rfl⟩
    rw [char?_eq_some_iff.mpr passes]
    rfl

theorem argumentCharacter_eq_some_iff :
    argumentCharacter.find? cursor = some next ↔
      cursor.rest ≠ [']'] ∧ ∃ c, Passes cursor [c] next := by
  simp only [argumentCharacter, isSome_closing?_iff, Option.ite_none_left_eq_some, any?_eq_some_iff]

/-- An argument can end at this place, when this is what was taken up to it: at the bracket that
ends the text, or at the end of a text that ends in no bracket. -/
def EndsArgument (argument : List Char) (next : Cursor) : Prop :=
  next.rest = [']'] ∨ next.rest = [] ∧ argument.getLast? ≠ some ']'

/-- No character of an argument is the bracket that the rule looks ahead to. -/
theorem EndsArgument.rest_ne {c : Char} {argument : List Char}
    (ends : EndsArgument (c :: argument) next) :
    c :: (argument ++ next.rest) ≠ [']'] := by
  intro shown
  obtain ⟨rfl, none_left⟩ := List.cons.inj shown
  obtain ⟨rfl, empty⟩ := List.append_eq_nil_iff.mp none_left
  rcases ends with closed | ⟨_, other⟩
  · cases closed.symm.trans empty
  · exact other rfl

theorem EndsArgument.tail {c : Char} {argument : List Char}
    (ends : EndsArgument (c :: argument) next) :
    EndsArgument argument next := by
  refine ends.imp_right fun ⟨empty, other⟩ => ⟨empty, ?_⟩
  cases argument with
  | nil => simp
  | cons d argument => rwa [List.getLast?_cons_cons] at other

/-- Where an argument can end, no further character is taken. -/
theorem EndsArgument.find?_eq_none (ends : EndsArgument [] next) :
    argumentCharacter.find? next = none := by
  refine Option.eq_none_iff_forall_ne_some.mpr fun place found => ?_
  obtain ⟨other, c, more⟩ := argumentCharacter_eq_some_iff.mp found
  rcases ends with closed | ⟨empty, _⟩
  · exact other closed
  · cases empty.symm.trans more.rest

private theorem argumentCharacter_cons {c : Char} {argument : List Char}
    (passes : Passes cursor (c :: argument) next) (ends : EndsArgument (c :: argument) next) :
    ∃ middle, argumentCharacter.find? cursor = some middle ∧ Passes middle argument next := by
  obtain ⟨middle, first, later⟩ := passes_cons_iff.mp passes
  refine ⟨middle, argumentCharacter_eq_some_iff.mpr ⟨?_, c, first⟩, later⟩
  rw [passes.rest]
  exact ends.rest_ne

/-- Taking every character but the bracket at the end comes to that bracket. -/
theorem zeroOrMore_argumentCharacter {argument : List Char} (passes : Passes cursor argument next)
    (ends : EndsArgument argument next) : argumentCharacter.zeroOrMore cursor = next := by
  induction argument generalizing cursor with
  | nil =>
    obtain rfl := passes_nil_iff.mp passes
    exact Move.zeroOrMore_of_none ends.find?_eq_none
  | cons c argument ih =>
    obtain ⟨middle, found, later⟩ := argumentCharacter_cons passes ends
    rw [Move.zeroOrMore_of_some found, ih later ends.tail]

/-- Every text has one place where an argument at its front ends. -/
theorem exists_argument (cursor : Cursor) :
    ∃ argument next, Passes cursor argument next ∧ EndsArgument argument next := by
  by_cases closed : cursor.rest.getLast? = some ']'
  · obtain ⟨argument, shown⟩ := List.getLast?_eq_some_iff.mp closed
    exact ⟨argument, ⟨[']'], _⟩, ⟨shown, rfl⟩, .inl rfl⟩
  · exact ⟨cursor.rest, ⟨[], _⟩, ⟨(List.append_nil _).symm, rfl⟩, .inr ⟨rfl, closed⟩⟩

/-- What the repetition comes to: all of the text but a bracket at its end, if that is anything. -/
theorem argument?_eq_some_iff :
    argument? cursor = some next ↔
      ∃ argument, argument ≠ [] ∧ Passes cursor argument next ∧ EndsArgument argument next := by
  rw [argument?, Move.oneOrMore?_eq_some_iff]
  constructor
  · rintro ⟨begins, rfl⟩
    obtain ⟨argument, last, passes, ends⟩ := exists_argument cursor
    rw [zeroOrMore_argumentCharacter passes ends]
    refine ⟨argument, ?_, passes, ends⟩
    rintro rfl
    obtain rfl := passes_nil_iff.mp passes
    rw [ends.find?_eq_none] at begins
    cases begins
  · rintro ⟨argument, filled, passes, ends⟩
    refine ⟨?_, zeroOrMore_argumentCharacter passes ends⟩
    obtain ⟨c, rest, rfl⟩ := List.exists_cons_of_ne_nil filled
    obtain ⟨middle, found, _⟩ := argumentCharacter_cons passes ends
    rw [found]
    rfl

end Repetition

/-- The cuts of a directive with this many spaces and this argument. -/
structure Cuts.Made (cuts : Cuts) (start : Cursor) (spaces : Nat)
    (argument : List Char) : Prop where
  opened : Passes start ['['] cuts.opened
  worded : Passes cuts.opened cuts.keyword.text.toList cuts.worded
  spaced : Passes cuts.worded (List.replicate spaces ' ') cuts.spaced
  told : Passes cuts.spaced argument cuts.told
  closed : Passes cuts.told [']'] cuts.closed
  ended : cuts.closed.rest = []
  separate : spaces ≠ 0
  filled : argument ≠ []
  unspaced : argument.head? ≠ some ' '

section Cuts

variable {start : Cursor} {cuts : Cuts} {spaces : Nat} {argument : List Char}

theorem Cuts.Made.directive?_eq (made : cuts.Made start spaces argument) :
    directive? start = some cuts := by
  have bracket : cuts.told.rest = [']'] := by rw [made.closed.rest, made.ended, List.append_nil]
  have begins : cuts.spaced.rest.head? ≠ some ' ' := by
    rw [made.told.rest, List.head?_append, Option.or_of_isSome (List.isSome_head?.mpr made.filled)]
    exact made.unspaced
  have opened := char?_eq_some_iff.mpr made.opened
  have worded := keyword?_eq_some_iff.mpr made.worded
  have spaced := spaces_eq_some_iff.mpr ⟨spaces, made.separate, made.spaced, begins⟩
  have told := argument?_eq_some_iff.mpr ⟨argument, made.filled, made.told, .inl bracket⟩
  have closed := char?_eq_some_iff.mpr made.closed
  have ended := endOfText?_eq_some_iff.mpr ⟨made.ended, rfl⟩
  simp only [directive?, opened, worded, spaced, told, closed, ended, Option.bind_eq_bind,
    Option.bind_some, Option.pure_def]

theorem made_of_directive? (found : directive? start = some cuts) :
    ∃ spaces argument, cuts.Made start spaces argument := by
  simp only [directive?, Option.bind_eq_bind, Option.pure_def] at found
  obtain ⟨opened, open_, found⟩ := Option.bind_eq_some_iff.mp found
  obtain ⟨⟨keyword, worded⟩, word, found⟩ := Option.bind_eq_some_iff.mp found
  obtain ⟨spaced, space_, found⟩ := Option.bind_eq_some_iff.mp found
  obtain ⟨told, tell, found⟩ := Option.bind_eq_some_iff.mp found
  obtain ⟨closed, close, found⟩ := Option.bind_eq_some_iff.mp found
  obtain ⟨last, stop, found⟩ := Option.bind_eq_some_iff.mp found
  cases found
  obtain ⟨spaces, separate, spacing, begins⟩ := spaces_eq_some_iff.mp space_
  obtain ⟨argument, filled, telling, _⟩ := argument?_eq_some_iff.mp tell
  refine ⟨spaces, argument, char?_eq_some_iff.mp open_, keyword?_eq_some_iff.mp word,
    spacing, telling, char?_eq_some_iff.mp close, (endOfText?_eq_some_iff.mp stop).1,
    separate, filled, ?_⟩
  rwa [telling.rest, List.head?_append,
    Option.or_of_isSome (List.isSome_head?.mpr filled)] at begins

theorem Cuts.Made.eq_of_made {otherSpaces : Nat} {other : List Char}
    (made : cuts.Made start spaces argument) (again : cuts.Made start otherSpaces other) :
    spaces = otherSpaces ∧ argument = other := by
  have spacing := made.spaced.upTo_eq.symm.trans again.spaced.upTo_eq
  have count := congrArg List.length spacing
  rw [List.length_replicate, List.length_replicate] at count
  exact ⟨count, made.told.upTo_eq.symm.trans again.told.upTo_eq⟩

end Cuts

end Grammar

namespace Directive

/-- A directive as it may be written: a bracket, a word, spaces, an argument and a bracket. The
argument holds something besides white space. -/
structure Form where
  word : String
  keyword : Keyword
  spaces : Nat
  argument : String
  listed : (word, keyword) ∈ Keyword.words
  spaced : 0 < spaces
  unspaced : argument.toList.head? ≠ some ' '
  told : ∃ c ∈ argument.toList, Text.isWhiteSpace c = false

namespace Form

def pieces (form : Form) : List String :=
  ["[", form.word, String.ofList (List.replicate form.spaces ' '), form.argument, "]"]

def text (form : Form) : String := String.join form.pieces

/-- The cuts of a directive are those of the form. -/
def CutBy (form : Form) (cuts : Grammar.Cuts) : Prop :=
  cuts.keyword = form.keyword ∧ cuts.Made (.start form.text) form.spaces form.argument.toList

theorem toList_text (form : Form) :
    form.text.toList = '[' :: (form.keyword.text.toList ++ (List.replicate form.spaces ' ' ++
      (form.argument.toList ++ [']']))) := by
  simp [text, pieces, Keyword.mem_words_iff.mp form.listed]

private theorem exists_cuts (form : Form) : ∃ cuts, form.CutBy cuts := by
  have filled : form.argument.toList ≠ [] := by
    obtain ⟨c, listed, _⟩ := form.told
    exact List.ne_nil_of_mem listed
  have whole : (Grammar.Cursor.start form.text).rest = ['['] ++ _ := form.toList_text
  obtain ⟨opened, opening, afterBracket⟩ := Grammar.exists_passes whole
  obtain ⟨worded, wording, afterWord⟩ := Grammar.exists_passes afterBracket
  obtain ⟨spaced, spacing, afterSpaces⟩ := Grammar.exists_passes afterWord
  obtain ⟨told, telling, afterArgument⟩ := Grammar.exists_passes afterSpaces
  have bracket : told.rest = [']'] ++ [] := afterArgument
  obtain ⟨closed, closing, afterAll⟩ := Grammar.exists_passes bracket
  exact ⟨⟨form.keyword, opened, worded, spaced, told, closed⟩, rfl, opening, wording,
    spacing, telling, closing, afterAll, Nat.ne_of_gt form.spaced, filled, form.unspaced⟩

theorem directive?_text (form : Form) :
    ∃ cuts, Grammar.directive? (.start form.text) = some cuts ∧ form.CutBy cuts := by
  obtain ⟨cuts, cut⟩ := form.exists_cuts
  exact ⟨cuts, cut.2.directive?_eq, cut⟩

/-- What a directive was cut into is what it was written with. -/
theorem eq_of_cutBy {first second : Form} {cuts : Grammar.Cuts} (one : first.CutBy cuts)
    (two : second.CutBy cuts) (same : first.text = second.text) : first = second := by
  obtain ⟨keyword, made⟩ := one
  obtain ⟨otherKeyword, again⟩ := two
  rw [← same] at again
  obtain ⟨spaces, argument⟩ := made.eq_of_made again
  obtain ⟨word, _, _, _, listed, _, _, _⟩ := first
  obtain ⟨otherWord, _, _, _, otherListed, _, _, _⟩ := second
  obtain rfl := keyword.symm.trans otherKeyword
  obtain rfl := spaces
  obtain rfl := String.toList_injective argument
  obtain rfl : word = otherWord :=
    (Keyword.mem_words_iff.mp listed).trans (Keyword.mem_words_iff.mp otherListed).symm
  rfl

end Form

private theorem exists_form {text : String} {cuts : Grammar.Cuts} {spaces : Nat}
    {argument : List Char} (made : cuts.Made (.start text) spaces argument)
    (told : ∃ c ∈ argument, Text.isWhiteSpace c = false) :
    ∃ form : Form, form.text = text ∧ form.keyword = cuts.keyword ∧
      form.argument.toList = argument := by
  refine ⟨⟨cuts.keyword.text, cuts.keyword, spaces, String.ofList argument,
    Keyword.mem_words_iff.mpr rfl, Nat.pos_of_ne_zero made.separate, ?_, ?_⟩, ?_, rfl,
    String.toList_ofList⟩
  · rw [String.toList_ofList]
    exact made.unspaced
  · rw [String.toList_ofList]
    exact told
  · apply String.toList_injective
    have whole : text.toList = _ := made.opened.rest
    rw [Form.toList_text, whole, made.worded.rest, made.spaced.rest, made.told.rest,
      made.closed.rest, made.ended]
    simp

theorem read?_eq_some_iff {text : String} {directive : Directive} :
    read? text = some directive ↔
      ∃ form : Form, form.text = text ∧ directive.keyword = form.keyword ∧
        Text.Trimmed form.argument.toList directive.argument.toList := by
  constructor
  · intro found
    unfold read? at found
    split at found
    next cuts read =>
      obtain ⟨spaces, argument, made⟩ := Grammar.made_of_directive? read
      simp only [made.told.upTo_eq] at found
      split at found
      · cases found
      next filled =>
        cases found
        have told : ∃ c ∈ argument, Text.isWhiteSpace c = false := by
          apply Classical.byContradiction
          intro blank
          apply filled
          rw [List.isEmpty_iff, Text.trimChars_eq_nil_iff]
          intro c listed
          exact Bool.of_not_eq_false fun visible => blank ⟨c, listed, visible⟩
        obtain ⟨form, written, keyword, shown⟩ := exists_form made told
        refine ⟨form, written, keyword.symm, ?_⟩
        rw [shown, String.toList_ofList]
        exact Text.trimmed_trimChars argument
    next => cases found
  · rintro ⟨form, rfl, keyword, trimmed⟩
    obtain ⟨cuts, read, same, made⟩ := form.directive?_text
    have inside : Text.trimChars (cuts.spaced.upTo cuts.told) = directive.argument.toList := by
      rw [made.told.upTo_eq, trimmed.trimChars_eq]
    have filled : directive.argument.toList.isEmpty = false := by
      rw [List.isEmpty_eq_false_iff, ← trimmed.trimChars_eq]
      intro empty
      obtain ⟨c, listed, visible⟩ := form.told
      cases visible.symm.trans (Text.trimChars_eq_nil_iff.mp empty c listed)
    simp only [read?, read, inside, filled, same, ← keyword, Bool.false_eq_true, ↓reduceIte,
      String.ofList_toList]

end Directive

namespace Grammar

/-- Pieces lie over a text side by side, from one byte to another, each between the bytes that are
given with it. -/
inductive Tiles (text : String) : Nat → List (String × Nat × Nat) → Nat → Prop where
  | done (stop : Nat) : Tiles text stop [] stop
  | next {piece : String} {start middle stop : Nat} {rest : List (String × Nat × Nat)}
      (size : middle = start + piece.utf8ByteSize)
      (bytes : text.toByteArray.extract start middle = piece.toByteArray)
      (later : Tiles text middle rest stop) : Tiles text start ((piece, start, middle) :: rest) stop

/-- A place in this text: its offset is the size of what stands before it. -/
def Cursor.In (cursor : Cursor) (text : String) : Prop :=
  ∃ before, text = before ++ String.ofList cursor.rest ∧ cursor.offset = before.utf8ByteSize

theorem Cursor.in_start (text : String) : (Cursor.start text).In text :=
  ⟨"", by rw [String.empty_append]; exact String.ofList_toList.symm, rfl⟩

section Places

variable {text piece : String} {cursor next : Cursor} {rest : List (String × Nat × Nat)}
  {stop : Nat}

private theorem Passes.in_text (passes : Passes cursor piece.toList next) (here : cursor.In text) :
    next.In text := by
  obtain ⟨before, rfl, offset⟩ := here
  refine ⟨before ++ piece, ?_, ?_⟩
  · rw [passes.rest, String.ofList_append, String.ofList_toList, String.append_assoc]
  · rw [passes.offset, offset, String.utf8ByteSize_append, Text.byteLength_toList]

/-- What a rule passes is a tile between the offsets of the two places. -/
theorem Passes.tiles (passes : Passes cursor piece.toList next) (here : cursor.In text)
    (later : next.In text → Tiles text next.offset rest stop) :
    Tiles text cursor.offset ((piece, cursor.offset, next.offset) :: rest) stop := by
  refine .next (by rw [passes.offset, Text.byteLength_toList]) ?_ (later (passes.in_text here))
  obtain ⟨before, rfl, offset⟩ := here
  rw [passes.offset, Text.byteLength_toList, passes.rest, String.ofList_append,
    String.ofList_toList, offset]
  exact Text.extract_append_append before piece (String.ofList next.rest)

end Places

/-- The spans of a directive, with its brackets and spaces, lie side by side over its text. -/
def Covers (form : Directive.Form) (tree : Tree) : Prop :=
  ∃ opened worded spaced told stop,
    tree = ⟨⟨.directive, 0, stop⟩, [⟨.keyword, opened, worded⟩, ⟨.argument, spaced, told⟩,
      ⟨.endOfText, stop, stop⟩]⟩ ∧
    stop = form.text.utf8ByteSize ∧
    Tiles form.text 0 [("[", 0, opened), (form.word, opened, worded),
      (String.ofList (List.replicate form.spaces ' '), worded, spaced),
      (form.argument, spaced, told), ("]", told, stop)] stop

private theorem covers_tree {form : Directive.Form} {cuts : Cuts} (cut : form.CutBy cuts) :
    Covers form (cuts.tree (.start form.text)) := by
  obtain ⟨keyword, made⟩ := cut
  have worded : Passes cuts.opened form.word.toList cuts.worded := by
    rw [Keyword.mem_words_iff.mp form.listed, ← keyword]
    exact made.worded
  have spaced :
      Passes cuts.worded (String.ofList (List.replicate form.spaces ' ')).toList cuts.spaced := by
    rw [String.toList_ofList]
    exact made.spaced
  have opened : Passes (.start form.text) "[".toList cuts.opened := made.opened
  have closed : Passes cuts.told "]".toList cuts.closed := made.closed
  refine ⟨cuts.opened.offset, cuts.worded.offset, cuts.spaced.offset, cuts.told.offset,
    cuts.closed.offset, rfl, ?_, ?_⟩
  · have last := closed.in_text (made.told.in_text (spaced.in_text (worded.in_text
      (opened.in_text (Cursor.in_start form.text)))))
    obtain ⟨before, whole, offset⟩ := last
    rw [offset, whole, made.ended, String.ofList_nil, String.append_empty]
  · exact opened.tiles (Cursor.in_start form.text) fun here => worded.tiles here fun here =>
      spaced.tiles here fun here =>
        made.told.tiles here fun here => closed.tiles here fun _ => .done _

end Grammar

/-- A text is read as a directive if and only if it is written as one, for what it is written with:
the keyword of its word and the argument without the white space around it. There is one way to
write a text as a directive, and the parse tree lies over its bytes without a gap or an overlap. -/
theorem directive_language (text : String) :
    (∀ directive, Directive.read? text = some directive ↔
      ∃ form : Directive.Form, form.text = text ∧ directive.keyword = form.keyword ∧
        Text.Trimmed form.argument.toList directive.argument.toList) ∧
    (∀ first second : Directive.Form, first.text = text → second.text = text → first = second) ∧
    ∀ form : Directive.Form, form.text = text →
      ∃ tree, Grammar.find? .directive text = some tree ∧ Grammar.Covers form tree := by
  refine ⟨fun _ => Directive.read?_eq_some_iff, ?_, ?_⟩
  · rintro first second rfl same
    obtain ⟨cuts, read, cut⟩ := first.directive?_text
    obtain ⟨otherCuts, again, otherCut⟩ := second.directive?_text
    rw [same, read] at again
    obtain rfl := Option.some.inj again
    exact Directive.Form.eq_of_cutBy cut otherCut same.symm
  · rintro form rfl
    obtain ⟨cuts, read, cut⟩ := form.directive?_text
    refine ⟨cuts.tree (.start form.text), ?_, Grammar.covers_tree cut⟩
    rw [Grammar.find?, read, Option.map_some]

/-- A file whose name holds a bracket and a character of two bytes, with white space after it. -/
def Bookstore.annex : Directive.Form where
  word := "Include"
  keyword := .includeFile
  spaces := 2
  argument := "bücher] 2 \t"
  listed := by decide
  spaced := by decide
  unspaced := by decide
  told := ⟨'b', by decide, by decide⟩

theorem directive_language_bookstore :
    Directive.read? "[Include  bücher] 2 \t]" = some ⟨.includeFile, "bücher] 2"⟩ ∧
      (∀ other : Directive.Form, other.text = "[Include  bücher] 2 \t]" → other = Bookstore.annex) ∧
      ∃ tree, Grammar.find? .directive "[Include  bücher] 2 \t]" = some tree ∧
        Grammar.Covers Bookstore.annex tree := by
  have written : Bookstore.annex.text = "[Include  bücher] 2 \t]" := by decide
  have trimmed : Text.Trimmed Bookstore.annex.argument.toList "bücher] 2".toList := by
    refine ⟨⟨[], [' ', '\t'], by decide, List.all_eq_true.mp (by decide),
      List.all_eq_true.mp (by decide)⟩, ?_, ?_⟩
    · rintro _ ⟨⟩
      decide
    · rintro _ ⟨⟩
      decide
  obtain ⟨read, unique, lies⟩ := directive_language "[Include  bücher] 2 \t]"
  refine ⟨(read _).mpr ⟨Bookstore.annex, written, rfl, trimmed⟩, ?_, lies Bookstore.annex written⟩
  intro other same
  exact unique other Bookstore.annex same written

end StanzaSchema
