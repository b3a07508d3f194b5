import StanzaSchema.Proofs.Cutting
import StanzaSchema.Proofs.Directives
import StanzaSchema.Reading.Step

/-!
Drafts of a schema and the lines that they are written as. A draft holds names, sizes, joins and
descriptions that lines can express, with the proof that they can; each of its lines is then
classified as what it was written for, whatever marks the texts hold.
-/

namespace StanzaSchema

namespace Text

/-- A text without white space that is not empty. -/
structure IsWord (text : String) : Prop where
  filled : text ≠ ""
  solid : ∀ c ∈ text.toList, isWhiteSpace c = false

/-- A line that is not empty. -/
structure IsPhrase (text : String) : Prop extends IsLine text where
  filled : text ≠ ""

/-- A text for the rest of a line, not empty and without white space at its end. -/
structure IsParagraph (text : String) : Prop where
  filled : text ≠ ""
  whole : '\n' ∉ text.toList
  stop : ∀ c ∈ text.toList.getLast?, isWhiteSpace c = false

end Text

/-- A size that a declaration can give: digits, and for decimals also commas. -/
structure DataType.IsSize (type : DataType) (token : String) : Prop where
  sized : type.isSized = true
  filled : token ≠ ""
  digits : ∀ c ∈ token.toList, '0' ≤ c ∧ c ≤ '9' ∨ type = .decimal ∧ c = ','

structure ColumnDraft where
  name : String
  type : DataType
  size : Option String
  join : Option String
  tableJoin : Option String
  /-- The lines of the description. -/
  notes : List String
  named : Text.IsWord name
  sized : size = type.defaultSize? ∨ ∃ token, size = some token ∧ type.IsSize token
  joined : ∀ target ∈ join, Text.IsWord target
  tableJoined : ∀ target ∈ tableJoin, Text.IsWord target
  joinedOnce : join = none ∨ tableJoin = none
  noted : ∀ note ∈ notes, Text.IsPhrase note ∧ note.toList.getLast? ≠ some '"'

structure TableDraft where
  name : String
  domain : String
  columns : List ColumnDraft
  paragraphs : List String
  named : Text.IsWord name
  placed : Text.IsPhrase domain
  distinct : (columns.map ColumnDraft.name).Nodup
  told : ∀ paragraph ∈ paragraphs, Text.IsParagraph paragraph

structure SchemaDraft where
  tables : List TableDraft
  distinct : (tables.map TableDraft.name).Nodup

namespace ColumnDraft

variable (draft : ColumnDraft)

def column : Column where
  name := draft.name
  type := draft.type
  size := draft.size
  join := draft.join
  tableJoin := draft.tableJoin
  description := if draft.notes = [] then none else some ("\n".intercalate draft.notes)

/-- The size as it is written; the default size of the type goes without saying. -/
def sizeToken? : Option String := if draft.size = draft.type.defaultSize? then none else draft.size

def declaration : Declaration :=
  ⟨draft.type, some draft.name, draft.sizeToken?, draft.join, draft.tableJoin⟩

def head : String := String.singleton draft.type.symbol ++ draft.name

def tokens : List String :=
  draft.head :: (draft.sizeToken?.toList ++ (draft.join.toList.flatMap fun target =>
    ["->", target]) ++
    draft.tableJoin.toList.flatMap fun target => ["=>", target])

def line : String := " ".intercalate draft.tokens

def noteLine (note : String) : String := "\"" ++ draft.name ++ " " ++ note

end ColumnDraft

namespace TableDraft

variable (draft : TableDraft)

def table : Table where
  name := draft.name
  domain := draft.domain
  columns := draft.columns.map ColumnDraft.column
  description := "\n\n".intercalate draft.paragraphs
  derived := none

def domainLine : String := "[Domain " ++ draft.domain ++ "]"

def nameLine : String := "!" ++ draft.name

def noteLines : List String := draft.columns.flatMap fun column => column.notes.map column.noteLine

def paragraphLines : List String := draft.paragraphs.map fun paragraph => ">" ++ paragraph

def lines : List String :=
  [draft.domainLine, "", draft.nameLine] ++ draft.columns.map ColumnDraft.line ++ draft.noteLines ++
    draft.paragraphLines ++ [""]

end TableDraft

def SchemaDraft.lines (schema : SchemaDraft) : List String := schema.tables.flatMap TableDraft.lines

def SchemaDraft.text (schema : SchemaDraft) : String := Text.unlines schema.lines

namespace Text

variable {text first last : String}

private theorem isWord_iff : IsWord text ↔
    text ≠ "" ∧ (text.toList.all fun c => !isWhiteSpace c) = true := by
  simp only [List.all_eq_true, Bool.not_eq_true']
  exact ⟨fun word => ⟨word.filled, word.solid⟩, fun ⟨filled, solid⟩ => ⟨filled, solid⟩⟩

private theorem isPhrase_iff : IsPhrase text ↔ IsLine text ∧ text ≠ "" :=
  ⟨fun phrase => ⟨phrase.toIsLine, phrase.filled⟩, fun ⟨line, filled⟩ => ⟨line, filled⟩⟩

private theorem isParagraph_iff : IsParagraph text ↔
    text ≠ "" ∧ '\n' ∉ text.toList ∧ (text.toList.getLast?.all fun c => !isWhiteSpace c) =
      true := by
  simp only [Option.all_eq_true, Bool.not_eq_true']
  exact ⟨fun told => ⟨told.filled, told.whole, told.stop⟩,
    fun ⟨filled, whole, stop⟩ => ⟨filled, whole, stop⟩⟩

instance (text : String) : Decidable (IsWord text) := decidable_of_iff _ isWord_iff.symm

instance (text : String) : Decidable (IsPhrase text) := decidable_of_iff _ isPhrase_iff.symm

instance (text : String) : Decidable (IsParagraph text) := decidable_of_iff _ isParagraph_iff.symm

theorem isLine_blank : IsLine "" := by decide

theorem IsWord.without (word : IsWord text) {c : Char} (white : isWhiteSpace c = true) :
    c ∉ text.toList := by
  intro member
  cases white.symm.trans (word.solid c member)

theorem IsWord.phrase (word : IsWord text) : IsPhrase text where
  whole := word.without (by decide)
  start c shown := word.solid c (List.mem_of_head? shown)
  stop c shown := word.solid c (List.mem_of_getLast? shown)
  filled := word.filled

theorem IsPhrase.paragraph (phrase : IsPhrase text) : IsParagraph text :=
  ⟨phrase.filled, phrase.whole, phrase.stop⟩

theorem IsWord.paragraph (word : IsWord text) : IsParagraph text := word.phrase.paragraph

theorem toList_ne_nil (filled : text ≠ "") : text.toList ≠ [] :=
  fun empty => filled (String.toList_eq_nil_iff.mp empty)

private theorem IsParagraph.prepend (ended : IsParagraph last) (whole : '\n' ∉ first.toList) :
    IsParagraph (first ++ last) where
  filled empty := ended.filled (String.append_eq_empty_iff.mp empty).2
  whole := by
    rw [String.toList_append, List.mem_append]
    rintro (before | after)
    · exact whole before
    · exact ended.whole after
  stop := by
    intro c shown
    rw [String.toList_append, List.getLast?_append] at shown
    rcases Option.or_eq_some_iff.mp shown with found | ⟨empty, _⟩
    · exact ended.stop c found
    · exact absurd (List.getLast?_eq_none_iff.mp empty) (toList_ne_nil ended.filled)

/-- A line starts as its first part starts and ends as its last part ends. -/
theorem IsParagraph.isPhrase_append (ended : IsParagraph last) {c : Char}
    (begun : first.toList.head? = some c) (visible : isWhiteSpace c = false)
    (whole : '\n' ∉ first.toList) : IsPhrase (first ++ last) where
  whole := (ended.prepend whole).whole
  start := by
    intro other shown
    rw [String.toList_append, List.head?_append, begun, Option.some_or] at shown
    cases shown
    exact visible
  stop := (ended.prepend whole).stop
  filled := (ended.prepend whole).filled

theorem isPhrase_intercalate {words : List String} (each : ∀ word ∈ words, IsWord word)
    (nonempty : words ≠ []) :
    IsPhrase (" ".intercalate words) := by
  induction words with
  | nil => exact absurd rfl nonempty
  | cons word rest ih =>
    have this := (each word List.mem_cons_self).phrase
    obtain ⟨c, inside, shown⟩ := List.exists_cons_of_ne_nil (toList_ne_nil this.filled)
    have begun : word.toList.head? = some c := by rw [shown, List.head?_cons]
    cases rest with
    | nil => exact this
    | cons next rest =>
      have others :=
        ih (fun other listed => each other (List.mem_cons_of_mem word listed))
          (List.cons_ne_nil _ _)
      rw [String.intercalate_cons_cons, String.append_assoc]
      exact (others.paragraph.prepend (by decide)).isPhrase_append begun
        (this.start c begun) this.whole

end Text

namespace Line

theorem ofText_of_isLine {text : String} (line : Text.IsLine text) : ofText text = ⟨text⟩ :=
  congrArg Line.mk line.trim

theorem isBlank_of_isPhrase {text : String} (phrase : Text.IsPhrase text) :
    (Line.mk text).isBlank = false :=
  beq_eq_false_iff_ne.mpr phrase.filled

theorem tokens_of_not_mem {text : String} (filled : text ≠ "") (whole : ' ' ∉ text.toList) :
    (Line.mk text).tokens = [text] := by
  have written : (Line.mk text).isBlank = false := beq_eq_false_iff_ne.mpr filled
  simp [tokens, written, Text.parts, List.splitOn_eq_singleton whole]

end Line

namespace Directive

/-- A phrase is read as the argument that it was written as. -/
theorem read?_phrase (keyword : Keyword) {argument : String} (phrase : Text.IsPhrase argument) :
    read? ("[" ++ keyword.text ++ " " ++ argument ++ "]") = some ⟨keyword, argument⟩ := by
  have unspaced : argument.toList.head? ≠ some ' ' := by
    intro space
    cases phrase.unspaced ' ' space
  have told : ∃ c ∈ argument.toList, Text.isWhiteSpace c = false := by
    obtain ⟨c, rest, shown⟩ := List.exists_cons_of_ne_nil (Text.toList_ne_nil phrase.filled)
    exact ⟨c, shown ▸ List.mem_cons_self, phrase.start c (by rw [shown]; rfl)⟩
  let form : Form :=
    ⟨keyword.text, keyword, 1, argument, Keyword.mem_words_iff.mpr rfl, Nat.one_pos, unspaced, told⟩
  have trimmed : Text.Trimmed argument.toList argument.toList := by
    have kept := Text.trimmed_trimChars argument.toList
    rwa [phrase.trimChars] at kept
  refine read?_eq_some_iff.mpr ⟨form, String.toList_injective ?_, rfl, trimmed⟩
  rw [form.toList_text]
  simp [form]

end Directive

namespace DataType

theorem isWhiteSpace_symbol (type : DataType) : Text.isWhiteSpace type.symbol = false := by
  cases type <;> decide

theorem IsSize.accepted {type : DataType} {token : String} (size : type.IsSize token) :
    Line.acceptsSize type token = true := by
  have filled : (token != "") = true := bne_iff_ne.mpr size.filled
  have digits (other : type ≠ .decimal) : Line.isSizeToken token = true := by
    rw [Line.isSizeToken, filled, Bool.true_and, List.all_eq_true]
    intro c member
    rcases size.digits c member with shown | ⟨same, _⟩
    · simpa using shown
    · exact absurd same other
  have sized := size.sized
  cases type with
  | decimal =>
    rw [Line.acceptsSize, Line.isPrecisionToken, filled, Bool.true_and, List.all_eq_true]
    intro c member
    rcases size.digits c member with shown | ⟨_, comma⟩
    · simp [shown]
    · simp [comma]
  | string => exact digits (by decide)
  | guid => exact digits (by decide)
  | numeric => exact digits (by decide)
  | _ => cases sized

theorem IsSize.word {type : DataType} {token : String} (size : type.IsSize token) :
    Text.IsWord token := by
  have visible {c : Char} (least : '0' ≤ c) (most : c ≤ '9') : Text.isWhiteSpace c = false := by
    have below : 48 ≤ c.toNat := least
    have above : c.toNat ≤ 57 := most
    simp only [Text.isWhiteSpace, Text.whiteSpaceRanges, List.any_cons, List.any_nil,
      Bool.or_eq_false_iff, Bool.and_eq_false_iff, decide_eq_false_iff_not, and_true]
    omega
  refine ⟨size.filled, fun c member => ?_⟩
  rcases size.digits c member with ⟨least, most⟩ | ⟨_, rfl⟩
  · exact visible least most
  · decide

end DataType

namespace TableDraft

variable (draft : TableDraft)

theorem isPhrase_domainLine : Text.IsPhrase draft.domainLine := by
  have bracket : Text.IsParagraph "]" := by decide
  have begun : ("[Domain " ++ draft.domain).toList.head? = some '[' := by simp
  exact bracket.isPhrase_append begun (by decide) (by simpa using draft.placed.whole)

theorem classify_domainLine :
    (Line.mk draft.domainLine).classify = .directive ⟨.domain, draft.domain⟩ := by
  have shown : draft.domainLine.toList =
      '[' :: ("Domain ".toList ++ draft.domain.toList ++ [']']) := by
    simp [domainLine]
  have read : Directive.read? draft.domainLine = some ⟨.domain, draft.domain⟩ := by
    have found := Directive.read?_phrase .domain draft.placed
    simpa [domainLine, Keyword.text, String.append_assoc] using found
  rw [Line.classify_symbol shown (by decide), Line.classOfSymbol, read]

theorem isPhrase_nameLine : Text.IsPhrase draft.nameLine :=
  draft.named.paragraph.isPhrase_append rfl (by decide) (by decide)

theorem classify_nameLine : (Line.mk draft.nameLine).classify = .tableOpen draft.name := by
  have shown : draft.nameLine.toList = '!' :: draft.name.toList := by simp [nameLine]
  have whole : (Line.mk draft.nameLine).tokens = [draft.nameLine] := by
    apply Line.tokens_of_not_mem draft.isPhrase_nameLine.filled
    simpa [shown] using draft.named.without Text.isWhiteSpace_space
  rw [Line.classify_symbol shown (by decide), Line.classOfSymbol, Line.name, Line.head, whole,
    List.headD_cons, shown, List.drop_succ_cons, List.drop_zero, String.ofList_toList]

end TableDraft

namespace ColumnDraft

variable (draft : ColumnDraft)

private theorem isWord_head : Text.IsWord draft.head := by
  refine ⟨by simp [head], fun c member => ?_⟩
  simp only [head, String.toList_append, String.toList_singleton, List.singleton_append,
    List.mem_cons] at member
  rcases member with rfl | inside
  · exact draft.type.isWhiteSpace_symbol
  · exact draft.named.solid c inside

theorem isSize_of_sizeToken? {token : String} (written : draft.sizeToken? = some token) :
    draft.type.IsSize token := by
  unfold sizeToken? at written
  split at written
  next => cases written
  next other =>
    rcases draft.sized with same | ⟨size, given, accepted⟩
    · exact absurd same other
    · cases given.symm.trans written
      exact accepted

theorem sizeToken?_or : draft.sizeToken?.or draft.type.defaultSize? = draft.size := by
  unfold sizeToken?
  split
  next same => rw [same, Option.none_or]
  next other =>
    rcases draft.sized with same | ⟨size, given, _⟩
    · exact absurd same other
    · rw [given, Option.some_or]

private theorem isWord_of_mem_tokens : ∀ token ∈ draft.tokens, Text.IsWord token := by
  have joinMark : Text.IsWord "->" := by decide
  have tableJoinMark : Text.IsWord "=>" := by decide
  intro token listed
  simp only [tokens, List.mem_cons, List.mem_append, Option.mem_toList, List.mem_flatMap,
    List.not_mem_nil, or_false] at listed
  rcases listed with rfl | (size | ⟨target, found, rfl | rfl⟩) | ⟨target, found, rfl | rfl⟩
  · exact draft.isWord_head
  · exact (draft.isSize_of_sizeToken? size).word
  · exact joinMark
  · exact draft.joined token found
  · exact tableJoinMark
  · exact draft.tableJoined token found

theorem isPhrase_line : Text.IsPhrase draft.line :=
  Text.isPhrase_intercalate draft.isWord_of_mem_tokens (List.cons_ne_nil _ _)

private theorem tokens_line : (Line.mk draft.line).tokens = draft.tokens := by
  have cut : Text.parts ' ' draft.line = draft.tokens :=
    Text.parts_intercalate
      (fun token listed =>
        (draft.isWord_of_mem_tokens token listed).without Text.isWhiteSpace_space)
      (List.cons_ne_nil _ _)
  simp only [Line.tokens, Line.isBlank_of_isPhrase draft.isPhrase_line, Bool.false_eq_true,
    ↓reduceIte, cut]

private theorem acceptsSize_mark (type : DataType) :
    Line.acceptsSize type "->" = false ∧ Line.acceptsSize type "=>" = false := by
  cases type <;> decide

private theorem declaration_line :
    (Line.mk draft.line).declaration draft.type = draft.declaration := by
  have named : (Line.mk draft.line).name = draft.name := by
    simp [Line.name, Line.head, tokens_line, tokens, head]
  obtain ⟨noJoin, noTableJoin⟩ := acceptsSize_mark draft.type
  have accepted {token : String} (written : draft.sizeToken? = some token) :
      Line.acceptsSize draft.type token = true := (draft.isSize_of_sizeToken? written).accepted
  simp only [Line.declaration, declaration, named, draft.named.filled, tokens_line, ↓reduceIte,
    Declaration.mk.injEq, true_and]
  -- A mark is never taken for a size, and with a target it comes last of three tokens at least.
  rcases draft.joinedOnce with unjoined | unjoined
  · cases written : draft.sizeToken? <;> cases joined : draft.tableJoin <;>
      simp [tokens, written, joined, unjoined, Line.target?, Line.joinMark, Line.tableJoinMark,
        noTableJoin, accepted]
  · cases written : draft.sizeToken? <;> cases joined : draft.join <;>
      simp [tokens, written, joined, unjoined, Line.target?, Line.joinMark, Line.tableJoinMark,
        noJoin, accepted]

theorem classify_line : (Line.mk draft.line).classify = .column draft.declaration := by
  have shown : (Line.mk draft.line).symbol? = some draft.type.symbol := by
    rw [Line.symbol?, line, String.toList_intercalate, tokens, List.map_cons, head]
    generalize List.map String.toList _ = rest
    cases rest <;> simp
  simp only [Line.classify, shown, DataType.ofSymbol?_symbol, declaration_line]

/-- The column without its description. -/
def declared : Column := { draft.column with description := none }

@[simp] theorem name_column : draft.column.name = draft.name := rfl

@[simp] theorem name_declared : draft.declared.name = draft.name := rfl

theorem column_declaration (scope : String) : draft.declaration.column scope = draft.declared := by
  simp [Declaration.column, declaration, Column.ofType, sizeToken?_or, declared, column]

theorem isPhrase_noteLine {note : String} (listed : note ∈ draft.notes) :
    Text.IsPhrase (draft.noteLine note) := by
  have begun : ("\"" ++ draft.name ++ " ").toList.head? = some '"' := by simp
  have whole : '\n' ∉ draft.name.toList := draft.named.without (by decide)
  exact (draft.noted note listed).1.paragraph.isPhrase_append begun (by decide)
    (by simpa using whole)

theorem classify_noteLine {note : String} (listed : note ∈ draft.notes) :
    (Line.mk (draft.noteLine note)).classify = .columnDescription draft.name note := by
  obtain ⟨phrase, unquoted⟩ := draft.noted note listed
  have shown : (draft.noteLine note).toList = '"' :: (draft.name.toList ++ ' ' :: note.toList) := by
    simp [noteLine]
  have head : (Line.mk (draft.noteLine note)).head = String.ofList ('"' :: draft.name.toList) := by
    have whole : ' ' ∉ '"' :: draft.name.toList := by
      simpa using draft.named.without Text.isWhiteSpace_space
    rw [Line.head, Line.tokens, Line.isBlank_of_isPhrase (draft.isPhrase_noteLine listed),
      Text.parts, shown, ← List.cons_append, List.splitOn_append_cons_self_of_not_mem whole]
    rfl
  have named : (Line.mk (draft.noteLine note)).name = draft.name := by simp [Line.name, head]
  have tail : (Line.mk (draft.noteLine note)).tail = note.toList := by
    rw [Line.tail, head, shown, ← List.cons_append, String.length_ofList, List.drop_left,
      List.dropWhile_cons_of_pos (by decide)]
    exact Text.dropWhile_eq_self phrase.unspaced
  rw [Line.classify_symbol shown (by decide), Line.classOfSymbol, named, tail,
    Text.dropFinal_eq_self unquoted, String.ofList_toList]

end ColumnDraft

theorem Line.isPhrase_paragraph {paragraph : String} (told : Text.IsParagraph paragraph) :
    Text.IsPhrase (">" ++ paragraph) := told.isPhrase_append rfl (by decide) (by decide)

theorem Line.classify_paragraph (paragraph : String) :
    (Line.mk (">" ++ paragraph)).classify = .tableDescription paragraph := by
  have shown : (">" ++ paragraph).toList = '>' :: paragraph.toList := by simp
  rw [classify_symbol shown (by decide), classOfSymbol, shown, List.drop_succ_cons, List.drop_zero,
    String.ofList_toList]

private theorem TableDraft.isLine_of_mem_lines (draft : TableDraft) :
    ∀ line ∈ draft.lines, Text.IsLine line := by
  intro line listed
  simp only [lines, noteLines, paragraphLines, List.mem_append, List.mem_cons, List.mem_map,
    List.mem_flatMap, List.not_mem_nil, or_false] at listed
  rcases listed with
    ((((rfl | rfl | rfl) | ⟨column, _, rfl⟩) | ⟨column, _, note, noted,
      rfl⟩) | ⟨paragraph, told, rfl⟩) | rfl
  · exact draft.isPhrase_domainLine.toIsLine
  · exact Text.isLine_blank
  · exact draft.isPhrase_nameLine.toIsLine
  · exact column.isPhrase_line.toIsLine
  · exact (column.isPhrase_noteLine noted).toIsLine
  · exact (Line.isPhrase_paragraph (draft.told paragraph told)).toIsLine
  · exact Text.isLine_blank

theorem SchemaDraft.physicalLines_text (schema : SchemaDraft) :
    Text.physicalLines schema.text = schema.lines := by
  apply Text.physicalLines_unlines
  · intro line listed
    obtain ⟨draft, _, inside⟩ := List.mem_flatMap.mp listed
    exact draft.isLine_of_mem_lines line inside
  · rw [lines, Text.unlines, String.toList_ofList]
    cases schema.tables with
    | nil => decide
    | cons draft rest => simp [TableDraft.lines, TableDraft.domainLine, Text.byteOrderMark]

end StanzaSchema
