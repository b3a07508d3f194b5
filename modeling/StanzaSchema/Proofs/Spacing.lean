import StanzaSchema.Proofs.Bounded
import StanzaSchema.Proofs.Cutting

/-!
The layout of a text. Carriage returns before line feeds, the end of the last line, white space
around lines and a mark of the byte order change nothing in the lines of a text once they are
trimmed, and nothing else of a text is read. Only a text that is nothing but a mark has no line that
could be ended.
-/

namespace StanzaSchema

namespace Text

/-- The text with a carriage return before each line feed. -/
def withReturns (chars : List Char) : List Char :=
  chars.flatMap fun c => if c = '\n' then ['\r', '\n'] else [c]

/-- White space that ends no line. -/
def IsPadding (chars : List Char) : Prop := ∀ c ∈ chars, isWhiteSpace c = true ∧ c ≠ '\n'

instance (chars : List Char) : Decidable (IsPadding chars) := List.decidableBAll _ chars

/-- One of the lines of a text. It begins with the text, after a leading mark of the byte order or
after another line, and goes to a line feed, with or without a carriage return before it, or to the
end of the text. At the end of the text there is no line without a character. -/
structure HasLine (chars before line after : List Char) : Prop where
  split : chars = before ++ line ++ after
  whole : '\n' ∉ line
  start : before = [] ∧ chars.head? ≠ some byteOrderMark ∨ before = [byteOrderMark] ∨
    before.getLast? = some '\n'
  stop : after = [] ∧ line ≠ [] ∨ after.head? = some '\n' ∨ ∃ rest, after = '\r' :: '\n' :: rest

/-- Another layout of a text, by any number of changes one after the other. -/
inductive Relaid : String → String → Prop where
  | refl (text : String) : Relaid text text
  | trans {first second third : String} (one : Relaid first second) (next : Relaid second third) :
      Relaid first third
  | returned (text : String) : Relaid text (String.ofList (withReturns text.toList))
  | ended {text : String} (filled : dropByteOrderMark text.toList ≠ [])
      (unended : text.toList.getLast? ≠ some '\n') :
      Relaid text (text ++ "\n")
  | padded {text : String} {before line after front back : List Char}
      (within : HasLine text.toList before line after)
      (leading : IsPadding front) (trailing : IsPadding back) :
      Relaid text (String.ofList (before ++ (front ++ line ++ back) ++ after))
  | marked {text : String} (unmarked : text.toList.head? ≠ some byteOrderMark) :
      Relaid text (String.singleton byteOrderMark ++ text)

/-- The lines of a text without a mark, trimmed. -/
def trimmedLines (chars : List Char) : List (List Char) :=
  (endedLines (chars.splitOn '\n')).map trimChars

theorem trim_physicalLines_eq (text : String) :
    (physicalLines text).map trim =
      (trimmedLines (dropByteOrderMark text.toList)).map String.ofList := by
  simp [physicalLines, trimmedLines, trim, Function.comp_def]

section Lines

variable {line rest chars : List Char}

/-- What holds of the last line, and goes on to hold with one more line in front, holds of any
text. -/
theorem lines_induction {Holds : List Char → Prop} (last : ∀ line, '\n' ∉ line → Holds line)
    (next : ∀ line rest, '\n' ∉ line → Holds rest → Holds (line ++ '\n' :: rest))
    (chars : List Char) : Holds chars := by
  induction bound : chars.length using Nat.strongRecOn generalizing chars with
  | ind length ih =>
    by_cases cut : '\n' ∈ chars
    · obtain ⟨line, rest, rfl, whole⟩ := List.eq_append_cons_of_mem cut
      refine next line rest whole (ih rest.length ?_ rest rfl)
      rw [← bound, List.length_append, List.length_cons]
      omega
    · exact last chars cut

theorem trimmedLines_last (whole : '\n' ∉ line) :
    trimmedLines line = if line = [] then [] else [trimChars line] := by
  rw [trimmedLines, List.splitOn_eq_singleton whole, endedLines]
  by_cases empty : line = [] <;> simp [empty]

theorem trimmedLines_cons (whole : '\n' ∉ line) (rest : List Char) :
    trimmedLines (line ++ '\n' :: rest) = trimChars line :: trimmedLines rest := by
  rw [trimmedLines, List.splitOn_append_cons_self_of_not_mem whole]
  obtain ⟨part, parts, cut⟩ := List.exists_cons_of_ne_nil (List.splitOn_ne_nil '\n' rest)
  rw [cut, endedLines, List.map_cons, trimChars_dropCarriageReturn, ← cut, trimmedLines]

/-- Lines that are ended do not depend on what follows them. -/
theorem trimmedLines_append (ended : chars = [] ∨ chars.getLast? = some '\n') (rest : List Char) :
    trimmedLines (chars ++ rest) = trimmedLines chars ++ trimmedLines rest := by
  induction chars using lines_induction with
  | last line whole =>
    rcases ended with rfl | closed
    · rfl
    · exact absurd (List.mem_of_getLast? closed) whole
  | next line others whole ih =>
    have closed : others = [] ∨ others.getLast? = some '\n' := by
      cases others with
      | nil => exact .inl rfl
      | cons c others => simpa using ended
    rw [List.append_assoc, List.cons_append, trimmedLines_cons whole,
      trimmedLines_cons whole, ih closed, List.cons_append]

theorem trimmedLines_withReturns (chars : List Char) :
    trimmedLines (withReturns chars) = trimmedLines chars := by
  have unchanged {line : List Char} (whole : '\n' ∉ line) : withReturns line = line := by
    induction line with
    | nil => rfl
    | cons c rest ih =>
      rw [List.mem_cons, not_or] at whole
      rw [withReturns, List.flatMap_cons, ← withReturns, ih whole.2, if_neg (Ne.symm whole.1),
        List.singleton_append]
  induction chars using lines_induction with
  | last line whole => rw [unchanged whole]
  | next line rest whole ih =>
    have split : withReturns (line ++ '\n' :: rest) =
        line ++ ['\r'] ++ '\n' :: withReturns rest := by
      rw [withReturns, List.flatMap_append, ← withReturns, unchanged whole, List.flatMap_cons]
      simp [withReturns]
    have longer : '\n' ∉ line ++ ['\r'] := by simpa using whole
    rw [split, trimmedLines_cons longer, ih, trimmedLines_cons whole, trimChars_return]

theorem trimmedLines_ended (filled : chars ≠ []) (unended : chars.getLast? ≠ some '\n') :
    trimmedLines (chars ++ ['\n']) = trimmedLines chars := by
  induction chars using lines_induction with
  | last line whole =>
    rw [trimmedLines_cons whole, trimmedLines_last whole, if_neg filled]
    rfl
  | next line rest whole ih =>
    have more : rest ≠ [] ∧ rest.getLast? ≠ some '\n' := by
      cases rest with
      | nil => simp at unended
      | cons c rest => exact ⟨List.cons_ne_nil c rest, by simpa using unended⟩
    rw [List.append_assoc, List.cons_append, trimmedLines_cons whole, trimmedLines_cons whole,
      ih more.1 more.2]

end Lines

section Padding

variable {chars before line after front back : List Char}

theorem IsPadding.white (padding : IsPadding chars) : ∀ c ∈ chars, isWhiteSpace c = true :=
  fun c listed => (padding c listed).1

theorem IsPadding.whole (padding : IsPadding chars) : '\n' ∉ chars :=
  fun listed => (padding '\n' listed).2 rfl

/-- White space around the first line of a text is not seen. -/
theorem trimmedLines_padded (whole : '\n' ∉ line)
    (stop : after = [] ∧ line ≠ [] ∨ after.head? = some '\n' ∨ ∃ rest, after = '\r' :: '\n' :: rest)
    (leading : IsPadding front) (trailing : IsPadding back) :
    trimmedLines (front ++ line ++ back ++ after) = trimmedLines (line ++ after) := by
  have wider : '\n' ∉ front ++ line ++ back := by
    simp only [List.mem_append, not_or]
    exact ⟨⟨leading.whole, whole⟩, trailing.whole⟩
  have same := trimChars_surround leading.white trailing.white line
  rcases stop with ⟨rfl, filled⟩ | next | ⟨rest, rfl⟩
  · have still : front ++ line ++ back ≠ [] := by simp [filled]
    rw [List.append_nil, List.append_nil, trimmedLines_last wider, trimmedLines_last whole,
      if_neg still, if_neg filled, same]
  · obtain ⟨rest, rfl⟩ := List.head?_eq_some_iff.mp next
    rw [trimmedLines_cons wider, trimmedLines_cons whole, same]
  · -- The carriage return is trimmed together with what stands before it.
    have returned (text : List Char) : text ++ '\r' :: '\n' :: rest =
        text ++ ['\r'] ++ '\n' :: rest := by simp
    rw [returned, returned, trimmedLines_cons (by simpa using wider),
      trimmedLines_cons (by simpa using whole), trimChars_return, trimChars_return, same]

theorem dropByteOrderMark_append (filled : before ≠ []) (rest : List Char) :
    dropByteOrderMark (before ++ rest) = dropByteOrderMark before ++ rest := by
  obtain ⟨c, others, rfl⟩ := List.exists_cons_of_ne_nil filled
  simp only [List.cons_append, dropByteOrderMark]
  split <;> rfl

theorem dropByteOrderMark_unmarked (unmarked : chars.head? ≠ some byteOrderMark) :
    dropByteOrderMark chars = chars := by
  cases chars with
  | nil => rfl
  | cons c rest => exact if_neg fun same => unmarked (congrArg some same)

theorem getLast?_dropByteOrderMark (filled : dropByteOrderMark chars ≠ []) :
    (dropByteOrderMark chars).getLast? = chars.getLast? := by
  by_cases marked : chars.head? = some byteOrderMark
  · obtain ⟨rest, rfl⟩ := List.head?_eq_some_iff.mp marked
    rw [dropByteOrderMark, if_pos rfl] at filled ⊢
    rw [List.getLast?_cons_of_ne_nil filled]
  · rw [dropByteOrderMark_unmarked marked]

private theorem dropByteOrderMark_withReturns (chars : List Char) :
    dropByteOrderMark (withReturns chars) = withReturns (dropByteOrderMark chars) := by
  by_cases marked : chars.head? = some byteOrderMark
  · obtain ⟨rest, rfl⟩ := List.head?_eq_some_iff.mp marked
    rfl
  · have still : (withReturns chars).head? ≠ some byteOrderMark := by
      cases chars with
      | nil => exact marked
      | cons c rest =>
        by_cases feed : c = '\n'
        · simp [withReturns, feed, byteOrderMark]
        · simpa [withReturns, feed] using marked
    rw [dropByteOrderMark_unmarked marked, dropByteOrderMark_unmarked still]

/-- White space around a line does not put a mark in front of it. -/
theorem unmarked_padded (leading : IsPadding front) (trailing : IsPadding back)
    (unmarked : (line ++ after).head? ≠ some byteOrderMark) :
    (front ++ line ++ back ++ after).head? ≠ some byteOrderMark := by
  have white {c : Char} {others : List Char} (padding : IsPadding (c :: others)) :
      c ≠ byteOrderMark := by
    rintro rfl
    cases (padding byteOrderMark List.mem_cons_self).1
  cases front with
  | cons c front => simpa using white leading
  | nil =>
    cases line with
    | cons c line => simpa using unmarked
    | nil =>
      cases back with
      | cons c back => simpa using white trailing
      | nil => exact unmarked

private theorem HasLine.trimmedLines_eq (within : HasLine chars before line after)
    (leading : IsPadding front) (trailing : IsPadding back) :
    trimmedLines (dropByteOrderMark (before ++ (front ++ line ++ back) ++ after)) =
      trimmedLines (dropByteOrderMark chars) := by
  obtain ⟨split, whole, start, stop⟩ := within
  have same := trimmedLines_padded whole stop leading trailing
  rw [split, List.append_assoc before, List.append_assoc before]
  rcases start with ⟨rfl, unmarked⟩ | rfl | closed
  · rw [split, List.nil_append] at unmarked
    have still := unmarked_padded leading trailing unmarked
    rw [List.nil_append, List.nil_append, dropByteOrderMark_unmarked still,
      dropByteOrderMark_unmarked unmarked, same]
  · rw [dropByteOrderMark_append (List.cons_ne_nil _ []),
      dropByteOrderMark_append (List.cons_ne_nil _ [])]
    exact same
  · have filled : before ≠ [] := by
      rintro rfl
      cases closed
    have ended : dropByteOrderMark before = [] ∨
        (dropByteOrderMark before).getLast? = some '\n' := by
      by_cases empty : dropByteOrderMark before = []
      · exact .inl empty
      · exact .inr ((getLast?_dropByteOrderMark empty).trans closed)
    rw [dropByteOrderMark_append filled, dropByteOrderMark_append filled, trimmedLines_append ended,
      trimmedLines_append ended, same]

end Padding

/-- Another layout has the same lines, once they are trimmed. -/
theorem Relaid.trim_physicalLines {text other : String} (relaid : Relaid text other) :
    (physicalLines text).map trim = (physicalLines other).map trim := by
  induction relaid with
  | refl => rfl
  | trans _ _ first second => exact first.trans second
  | returned text =>
    rw [trim_physicalLines_eq, trim_physicalLines_eq, String.toList_ofList,
      dropByteOrderMark_withReturns, trimmedLines_withReturns]
  | @ended text filled unended =>
    have nonempty : text.toList ≠ [] := by
      intro empty
      rw [empty] at filled
      exact filled rfl
    rw [trim_physicalLines_eq, trim_physicalLines_eq, String.toList_append,
      dropByteOrderMark_append nonempty]
    rw [← getLast?_dropByteOrderMark filled] at unended
    exact congrArg _ (trimmedLines_ended filled unended).symm
  | padded within leading trailing =>
    rw [trim_physicalLines_eq, trim_physicalLines_eq, String.toList_ofList,
      within.trimmedLines_eq leading trailing]
  | @marked text unmarked =>
    have dropped : dropByteOrderMark (String.singleton byteOrderMark ++ text).toList =
        text.toList := by
      simp [dropByteOrderMark]
    rw [trim_physicalLines_eq, trim_physicalLines_eq, dropped, dropByteOrderMark_unmarked unmarked]

end Text

/-- A session sees no more of a line than is left when it is trimmed. -/
theorem Session.readLines_congr {first second : List String}
    (same : first.map Text.trim = second.map Text.trim)
    (file : Path) (number : Nat) (session : Session) :
    readLines file number first session = readLines file number second session := by
  induction first generalizing second number session with
  | nil =>
    rw [List.map_nil] at same
    rw [List.map_eq_nil_iff.mp same.symm]
  | cons raw rest ih =>
    obtain ⟨other, others, rfl, trimmed, later⟩ := List.map_eq_cons_iff.mp same.symm
    have line : Line.ofText other = Line.ofText raw := congrArg Line.mk trimmed
    simp only [readLines, line, ih later.symm]

private theorem compileText_congr_lines {first second : String}
    (same : (Text.physicalLines first).map Text.trim = (Text.physicalLines second).map Text.trim)
    (volume : Volume) (origin : Path) :
    compileText volume first origin = compileText volume second origin := by
  have read (session : Session) : session.readFile origin first =
      session.readFile origin second := by
    simp only [Session.readFile, Session.readLines_congr same]
  simp only [compileText, read]

/-- A text that is nothing but a mark has no line, and it comes to have one when a line feed is
added. -/
theorem compileText_mark (volume : Volume) (origin : Path) :
    (compileText volume "\uFEFF" origin).result = .ok ⟨.empty, [], ⟨1, 0, 0, 0⟩⟩ ∧
      (compileText volume ("\uFEFF" ++ "\n") origin).result = .ok ⟨.empty, [], ⟨1, 1, 0, 0⟩⟩ := by
  have unended : Text.physicalLines "\uFEFF" = [] := by decide
  have ended : Text.physicalLines ("\uFEFF" ++ "\n") = [""] := by decide
  constructor
  · simp only [compileText, Session.readFile, unended, Session.readLines, Frontier.afterRoot_eq,
      Session.explore_done]
    rfl
  · have closed (progress : Progress) (place : Place) : progress.readLine place (.ofText "") =
        .silent { progress with position := progress.position.close } := if_pos (by decide)
    simp only [compileText, Session.readFile, ended, Session.readLines, closed, Outcome.silent,
      Session.accept, Option.toList_none, List.append_nil, Frontier.afterRoot_eq,
      Session.explore_done]
    rfl

/-- Layout does not matter. All that comes of a text, and of what it includes, comes of it in any
other layout too: the model, the counts, the warnings with their places, the failure and the events.
A line feed after a mark that is all of a text is no other layout; it adds one to the number of
lines and changes nothing else. -/
theorem layout_does_not_matter (volume : Volume) (origin : Path) :
    (∀ text other, Text.Relaid text other →
      compileText volume text origin = compileText volume other origin) ∧
      ∃ bare ended, (compileText volume "\uFEFF" origin).result = .ok bare ∧
        (compileText volume ("\uFEFF" ++ "\n") origin).result = .ok ended ∧
        ended = { bare with tally := { bare.tally with lines := bare.tally.lines + 1 } } := by
  constructor
  · intro text other relaid
    exact compileText_congr_lines relaid.trim_physicalLines volume origin
  · obtain ⟨unended, ended⟩ := compileText_mark volume origin
    exact ⟨_, _, unended, ended, rfl⟩

namespace Bookstore

/-- A text and another layout of it, with white space around its last line, line feeds after
carriage returns, an end to the last line and a mark in front. -/
theorem relaid : Text.Relaid "!Book\n@ID" "\uFEFF!Book\r\n\t@ID \r\n" := by
  have line : Text.HasLine "!Book\n@ID".toList "!Book\n".toList "@ID".toList [] := by
    refine ⟨by decide, by decide, .inr (.inr ?_), .inl ⟨rfl, ?_⟩⟩
    · decide
    · decide
  have tab : Text.IsPadding ['\t'] := by decide
  have space : Text.IsPadding [' '] := by decide
  have ended := (Text.Relaid.padded line tab space).trans (.ended (by decide) (by decide))
  have marked := (ended.trans (.returned _)).trans (.marked (by decide))
  have written : String.singleton Text.byteOrderMark ++
      String.ofList (Text.withReturns (String.ofList
      ("!Book\n".toList ++ (['\t'] ++ "@ID".toList ++ [' ']) ++ []) ++ "\n").toList) =
        "\uFEFF!Book\r\n\t@ID \r\n" := by decide
  rwa [written] at marked

end Bookstore

theorem layout_does_not_matter_bookstore :
    Text.Relaid "!Book\n@ID" "\uFEFF!Book\r\n\t@ID \r\n" ∧
      compileText Bookstore.volume "!Book\n@ID" Bookstore.origin =
        compileText Bookstore.volume "\uFEFF!Book\r\n\t@ID \r\n" Bookstore.origin :=
  ⟨Bookstore.relaid,
   (layout_does_not_matter Bookstore.volume Bookstore.origin).1 _ _ Bookstore.relaid⟩

/-- Not every text that is not empty and not ended has the same lines when it is ended. -/
theorem lone_mark_gains_line :
    "\uFEFF" ≠ "" ∧ "\uFEFF".toList.getLast? ≠ some '\n' ∧
      (compileText Bookstore.volume "\uFEFF" Bookstore.origin).result ≠
        (compileText Bookstore.volume ("\uFEFF" ++ "\n") Bookstore.origin).result := by
  obtain ⟨unended, ended⟩ := compileText_mark Bookstore.volume Bookstore.origin
  refine ⟨by decide, by decide, ?_⟩
  rw [unended, ended]
  intro same
  cases same

end StanzaSchema
