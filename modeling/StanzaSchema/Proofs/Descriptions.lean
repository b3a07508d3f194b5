import StanzaSchema.Proofs.Columns
import StanzaSchema.Proofs.Cutting
import StanzaSchema.Proofs.Places

/-!
The descriptions of tables and columns after a run. They are spread over stanzas and files, like
declarations, and come before, between and after these: a table keeps all that is said of it from
the first text on, and a column all that is said of it from its first declaration on. What is said
of a column too early is warned about and lost.
-/

namespace StanzaSchema

namespace Line

variable {line : Line}

/-- The text of a line that describes its table: all that follows the mark. -/
def paragraph? (line : Line) : Option String :=
  match line.text.toList with
  | '>' :: rest => some (String.ofList rest)
  | _ => none

/-- The name and the text of a line that describes a column. The name ends at the first space, the
text begins after the spaces there, and a quote that ends it is no part of it. -/
def note? (line : Line) : Option (String × String) :=
  match line.text.toList with
  | '"' :: rest =>
    some (String.ofList (rest.takeWhile (· ≠ ' ')),
      String.ofList (Text.dropFinal '"' ((rest.dropWhile (· ≠ ' ')).dropWhile (· = ' '))))
  | _ => none

private theorem classify_of_paragraph {rest : List Char} (shown : line.text.toList = '>' :: rest) :
    line.classify = .tableDescription (String.ofList rest) := by
  have found : line.classify = line.classOfSymbol '>' := classify_symbol shown (by decide)
  rw [found, classOfSymbol, shown, List.drop_succ_cons, List.drop_zero]

private theorem classify_of_note {rest : List Char} (shown : line.text.toList = '"' :: rest) :
    line.classify = .columnDescription (String.ofList (rest.takeWhile (· ≠ ' ')))
      (String.ofList (Text.dropFinal '"' ((rest.dropWhile (· ≠ ' ')).dropWhile (· = ' ')))) := by
  have found : line.classify = line.classOfSymbol '"' := classify_symbol shown (by decide)
  have head : line.head.toList = '"' :: rest.takeWhile (· ≠ ' ') := by
    rw [toList_head, shown, List.takeWhile_cons_of_pos (by decide)]
  have tail : line.tail = (rest.dropWhile (· ≠ ' ')).dropWhile (· = ' ') := by
    rw [tail_eq, shown, List.dropWhile_cons_of_pos (by decide)]
    rfl
  rw [found, classOfSymbol, name, head, tail, List.drop_succ_cons, List.drop_zero]

/-- A description starts with its mark. -/
theorem symbol_of_classify :
    (∀ {text}, line.classify = .tableDescription text → line.symbol? = some '>') ∧
      ∀ {column text}, line.classify = .columnDescription column text →
        line.symbol? = some '"' := by
  unfold classify
  split
  · simp
  next symbol shown =>
    split
    · simp
    · unfold classOfSymbol
      split <;> try simp [shown]
      split <;> simp

theorem classify_eq_tableDescription_iff {text : String} :
    line.classify = .tableDescription text ↔ line.paragraph? = some text := by
  unfold paragraph?
  constructor
  · intro found
    obtain ⟨rest, shown⟩ := List.head?_eq_some_iff.mp (symbol_of_classify.1 found)
    rw [classify_of_paragraph shown] at found
    cases found
    simp only [shown]
  · intro found
    split at found
    next shown =>
      cases found
      exact classify_of_paragraph shown
    next => cases found

theorem classify_eq_columnDescription_iff {column text : String} :
    line.classify = .columnDescription column text ↔ line.note? = some (column, text) := by
  unfold note?
  constructor
  · intro found
    obtain ⟨rest, shown⟩ := List.head?_eq_some_iff.mp (symbol_of_classify.2 found)
    rw [classify_of_note shown] at found
    cases found
    simp only [shown]
  · intro found
    split at found
    next shown =>
      cases found
      exact classify_of_note shown
    next => cases found

end Line

namespace RoutedLine

variable {δ : Type} {table : String} {routed : RoutedLine}

/-- What a line of a table stanza of this table says. -/
def inTable? (table : String) (read : Line → Option δ) (routed : RoutedLine) : Option δ :=
  if routed.position.stanza = .table ∧ routed.position.scope = some table then read routed.line
  else none

/-- The text that a line adds to the description of this table. -/
def paragraph? (table : String) (routed : RoutedLine) : Option String :=
  routed.inTable? table Line.paragraph?

/-- The column of this table that a line describes, and the text. -/
def note? (table : String) (routed : RoutedLine) : Option (String × String) :=
  routed.inTable? table fun line => line.note?.map fun (column, text) =>
    (if column = "" then table ++ "_UnknownColumn" else column, text)

/-- The text that a line adds to the description of a column of this table, unless it is empty. -/
def remark? (table column : String) (routed : RoutedLine) : Option String :=
  ((routed.note? table).filter fun note => note.1 = column ∧ note.2 ≠ "").map Prod.snd

def declares (table column : String) (routed : RoutedLine) : Bool :=
  (routed.declared? table).any fun declared => declared.name == column

/-- What is read of a line in its stanza is what the line asks for there. -/
theorem inTable?_eq_some_iff {read : Line → Option δ} (ask : δ → Request)
    (home : ∀ said, (ask said).home? = some .table) (scope : ∀ said, (ask said).scope? = some table)
    (reads : ∀ line said, read line = some said ↔ Request.inTable table line.classify = ask said)
    {said : δ} :
    routed.inTable? table read = some said ↔ routed.request = ask said := by
  obtain ⟨position, line⟩ := routed
  have made (here : position.stanza = .table) (about : position.scope = some table) :
      Request.ofLine position line = ask said ↔ Request.inTable table line.classify = ask said := by
    unfold Request.ofLine
    split
    next blank =>
      have homed := home said
      rw [Line.classify_of_isBlank blank]
      constructor <;> intro asked <;> rw [← asked] at homed <;> cases homed
    next => simp only [here, about]
  simp only [inTable?, request]
  constructor
  · intro found
    split at found
    next both => exact (made both.1 both.2).mpr ((reads line said).mp found)
    next => cases found
  · intro asked
    have here : position.stanza = .table := Request.home_ofLine (by rw [asked, home])
    have about : position.scope = some table := Request.scope_ofLine (by rw [asked, scope])
    rw [if_pos ⟨here, about⟩]
    exact (reads line said).mpr ((made here about).mp asked)

theorem paragraph?_eq_some_iff {text : String} :
    routed.paragraph? table = some text ↔ routed.request = .describeTable table text := by
  refine inTable?_eq_some_iff (.describeTable table) (fun _ => rfl) (fun _ => rfl) ?_
  intro line text
  rw [← Line.classify_eq_tableDescription_iff]
  cases line.classify <;> simp [Request.inTable]

theorem note?_eq_some_iff {column text : String} :
    routed.note? table = some (column, text) ↔
      routed.request = .describeColumn table column text := by
  refine inTable?_eq_some_iff (fun note : String × String => .describeColumn table note.1 note.2)
    (fun _ => rfl) (fun _ => rfl) ?_
  rintro line ⟨column, text⟩
  rw [Option.map_eq_some_iff]
  constructor
  · rintro ⟨⟨name, told⟩, noted, same⟩
    rw [← Line.classify_eq_columnDescription_iff] at noted
    cases same
    rw [noted]
    rfl
  · intro asked
    cases found : line.classify with
    | columnDescription name told =>
      rw [found] at asked
      cases asked
      exact ⟨(name, text), Line.classify_eq_columnDescription_iff.mp found, rfl⟩
    | _ =>
      rw [found] at asked
      cases asked

theorem remark?_of_describeColumn {name text : String}
    (asked : routed.request = .describeColumn table name text)
    (column : String) :
    routed.remark? table column = if name = column ∧ text ≠ "" then some text else none := by
  rw [remark?, note?_eq_some_iff.mpr asked, Option.filter_some]
  split <;> simp_all

theorem remark?_of_other (other : ∀ name text, routed.request ≠ .describeColumn table name text)
    (column : String) :
    routed.remark? table column = none := by
  have silent : routed.note? table = none :=
    Option.eq_none_iff_forall_ne_some.mpr fun note told =>
      other note.1 note.2 (note?_eq_some_iff.mp told)
  rw [remark?, silent]
  rfl

theorem filled_of_remark? {column text : String} (told : routed.remark? table column = some text) :
    text ≠ "" := by
  obtain ⟨note, noted, rfl⟩ := Option.map_eq_some_iff.mp told
  exact (of_decide_eq_true (Option.filter_eq_some_iff.mp noted).2).2

theorem remark?_of_declares {column : String} (declares : routed.declares table column) :
    routed.remark? table column = none := by
  obtain ⟨declared, found, _⟩ := (Option.any_eq_true ..).mp declares
  obtain ⟨declaration, asked, _⟩ := declared?_eq_some_iff.mp found
  apply remark?_of_other
  simp [asked]

end RoutedLine

/-- The texts that lines add to the description of a table. Empty ones before all others leave no
trace. -/
def paragraphsOf (table : String) (lines : List RoutedLine) : List String :=
  (lines.filterMap (RoutedLine.paragraph? table)).dropWhile (· = "")

/-- The texts that lines add to the description of a column, which start with its first
declaration. -/
def notesOf (table column : String) (lines : List RoutedLine) : List String :=
  (lines.dropWhile fun routed =>
    !routed.declares table column).filterMap (RoutedLine.remark? table column)

/-- Texts one after the other, with a mark between them; nothing if there are none. -/
def Text.joined? (mark : String) (texts : List String) : Option String :=
  if texts = [] then none else some (mark.intercalate texts)

private theorem Text.intercalate_ne_empty (mark : String) {first : String} (begun : first ≠ "")
    (rest : List String) :
    mark.intercalate (first :: rest) ≠ "" := by
  cases rest with
  | nil => simpa using begun
  | cons second rest => simp [String.intercalate_cons_cons, begun]

private theorem Text.intercalate_concat (mark : String) {texts : List String}
    (nonempty : texts ≠ []) (text : String) :
    mark.intercalate (texts ++ [text]) = mark.intercalate texts ++ mark ++ text := by
  rw [String.intercalate_append_of_ne_nil nonempty (List.cons_ne_nil text []),
    String.intercalate_singleton]

section Texts

variable {texts : List String}

theorem Table.description_describe {table : Table}
    (told : table.description = "\n\n".intercalate (texts.dropWhile (· = ""))) (text : String) :
    (table.describe text).description =
      "\n\n".intercalate ((texts ++ [text]).dropWhile (· = "")) := by
  rw [List.dropWhile_append]
  cases begun : texts.dropWhile (· = "") with
  | nil =>
    rw [begun] at told
    by_cases empty : text = "" <;> simp [describe, told, empty]
  | cons first rest =>
    have filled : first ≠ "" := by
      have first := List.head?_dropWhile_not (fun text : String => decide (text = "")) texts
      simpa [begun] using first
    have more := Text.intercalate_ne_empty "\n\n" filled rest
    rw [begun] at told
    rw [← told] at more
    rw [describe, if_neg more, told, List.isEmpty_cons, if_neg Bool.false_ne_true,
      Text.intercalate_concat _ (List.cons_ne_nil first rest)]

theorem Column.description_describe {column : Column}
    (told : column.description = Text.joined? "\n" texts)
    (filled : ∀ text ∈ texts, text ≠ "") {text : String} (more : text ≠ "") :
    (column.describe text).description = Text.joined? "\n" (texts ++ [text]) := by
  cases texts with
  | nil => simp_all [describe, Text.joined?]
  | cons first rest =>
    have begun := Text.intercalate_ne_empty "\n" (filled first List.mem_cons_self) rest
    simp only [Text.joined?, List.cons_ne_nil, ↓reduceIte] at told
    simp only [describe, more, told, begun, ↓reduceIte]
    rw [Text.joined?, if_neg (by simp), Text.intercalate_concat _ (List.cons_ne_nil first rest)]

end Texts

section Lines

variable {table column : String} {lines : List RoutedLine}

theorem declaredFor_concat (table : String) (lines : List RoutedLine) (routed : RoutedLine) :
    declaredFor table (lines ++ [routed]) =
      declaredFor table lines ++ (routed.declared? table).toList := by
  rw [declaredFor, List.filterMap_append]
  cases found : routed.declared? table <;> simp [declaredFor, found]

private theorem mem_names_declaredFor_iff :
    column ∈ (declaredFor table lines).map Column.name ↔
      ∃ routed ∈ lines, routed.declares table column := by
  simp only [declaredFor, List.mem_map, List.mem_filterMap, RoutedLine.declares,
    Option.any_eq_true, beq_iff_eq]
  constructor
  · rintro ⟨declared, ⟨routed, listed, found⟩, named⟩
    exact ⟨routed, listed, declared, found, named⟩
  · rintro ⟨routed, listed, declared, found, named⟩
    exact ⟨declared, ⟨routed, listed, found⟩, named⟩

theorem notesOf_concat_of_mem (known : column ∈ (declaredFor table lines).map Column.name)
    (routed : RoutedLine) :
    notesOf table column (lines ++ [routed]) =
      notesOf table column lines ++ (routed.remark? table column).toList := by
  obtain ⟨first, listed, declares⟩ := mem_names_declaredFor_iff.mp known
  have reached : lines.dropWhile (fun routed => !routed.declares table column) ≠ [] := by
    intro missing
    have undeclared :=
      List.any_dropWhile (p := fun routed : RoutedLine =>
        !routed.declares table column) (l := lines)
    rw [missing, List.any_nil, eq_comm, Bool.not_eq_false', List.all_eq_true] at undeclared
    simpa [declares] using undeclared first listed
  rw [notesOf, List.dropWhile_append, if_neg (by simpa using reached),
    List.filterMap_append, ← notesOf]
  cases told : routed.remark? table column <;> simp [told]

/-- What is said of a column before its first declaration is lost. -/
theorem notesOf_concat_of_not_mem (unknown : column ∉ (declaredFor table lines).map Column.name)
    (routed : RoutedLine) : notesOf table column (lines ++ [routed]) = [] := by
  have undeclared : ∀ other ∈ lines, (!other.declares table column) = true := by
    intro other listed
    rw [Bool.not_eq_true', Bool.eq_false_iff]
    exact fun declares => unknown (mem_names_declaredFor_iff.mpr ⟨other, listed, declares⟩)
  rw [notesOf, List.dropWhile_append_of_pos undeclared]
  cases declares : routed.declares table column with
  | true => simp [declares, RoutedLine.remark?_of_declares declares]
  | false => simp [declares]

theorem filled_of_mem_notesOf {text : String} (listed : text ∈ notesOf table column lines) :
    text ≠ "" := by
  obtain ⟨routed, _, told⟩ := List.mem_filterMap.mp listed
  exact RoutedLine.filled_of_remark? told

end Lines

/-- What lines say of a table, and of its columns once these are declared, is what stands in it. -/
structure Table.Described (name : String) (lines : List RoutedLine) (table : Table) : Prop where
  declared : Declared (declaredFor name lines) table.columns
  paragraphs : table.description = "\n\n".intercalate (paragraphsOf name lines)
  notes : ∀ column ∈ table.columns, column.description =
    Text.joined? "\n" (notesOf name column.name lines)

namespace Table

variable {name : String} {lines : List RoutedLine} {table : Table} {column : Column}
  {routed : RoutedLine}

private theorem description_follow
    (told : table.description = "\n\n".intercalate (paragraphsOf name lines))
    (routed : RoutedLine) :
    (table.follow name routed.request).description =
      "\n\n".intercalate (paragraphsOf name (lines ++ [routed])) := by
  rw [paragraphsOf, List.filterMap_append]
  cases found : routed.paragraph? name with
  | some text =>
    have asked := RoutedLine.paragraph?_eq_some_iff.mp found
    simp only [asked, follow, ↓reduceIte, List.filterMap_cons, found, List.filterMap_nil]
    exact description_describe told text
  | none =>
    simp only [List.filterMap_cons, found, List.filterMap_nil, List.append_nil]
    rw [← paragraphsOf, ← told]
    cases asked : routed.request with
    | declare scope declaration =>
      simp only [follow]
      split
      · unfold declare
        split <;> rfl
      · rfl
    | describeColumn scope column text =>
      simp only [follow]
      split <;> rfl
    | describeTable scope text =>
      have other : scope ≠ name := by
        rintro rfl
        rw [RoutedLine.paragraph?_eq_some_iff.mpr asked] at found
        cases found
      simp only [follow, other, ↓reduceIte]
    | _ => rfl

/-- A column after a line is a former one with what the line says of it, or it is new and not
described. -/
theorem mem_columns_follow (distinct : table.columnNames.Nodup)
    (member : column ∈ (table.follow name routed.request).columns) :
    (∃ former ∈ table.columns, former.name = column.name ∧
      column.description =
        ((routed.remark? name column.name).elim former former.describe).description) ∨
    column.name ∉ table.columnNames ∧ column.description = none := by
  have silent (quiet : ∀ column text, routed.request ≠ .describeColumn name column text)
      {former : Column} (present : former ∈ table.columns) (same : former.name = column.name)
      (kept : column.description = former.description) :
      ∃ former ∈ table.columns, former.name = column.name ∧
        column.description =
          ((routed.remark? name column.name).elim former former.describe).description := by
    refine ⟨former, present, same, ?_⟩
    rw [RoutedLine.remark?_of_other quiet]
    exact kept
  cases asked : routed.request with
  | declare scope declaration =>
    simp only [asked, follow] at member
    split at member
    next =>
      unfold declare at member
      split at member
      next =>
        rcases Declared.mem_modifyFirst distinct member with ⟨present, _⟩ |
          ⟨former, present, _, rfl⟩
        · exact .inl (silent (by simp [asked]) present rfl rfl)
        · exact .inl (silent (by simp [asked]) present rfl rfl)
      next absent =>
        rcases List.mem_append.mp member with present | here
        · exact .inl (silent (by simp [asked]) present rfl rfl)
        · rw [List.mem_singleton.mp here]
          exact .inr ⟨column?_eq_none_iff.mp absent, rfl⟩
    next => exact .inl (silent (by simp [asked]) member rfl rfl)
  | describeColumn scope described text =>
    simp only [asked, follow] at member
    split at member
    next same =>
      subst same
      rcases Declared.mem_modifyFirst distinct member with ⟨present, other⟩ |
        ⟨former, present, named, rfl⟩
      · refine .inl ⟨column, present, rfl, ?_⟩
        rw [RoutedLine.remark?_of_describeColumn asked, if_neg fun both => other both.1.symm]
        rfl
      · refine .inl ⟨former, present, (former.describe_name text).symm, ?_⟩
        rw [RoutedLine.remark?_of_describeColumn asked, Column.describe_name]
        by_cases empty : text = "" <;> simp [Column.describe, named, empty]
    next other => exact .inl (silent (by simp [asked, other]) member rfl rfl)
  | describeTable scope text =>
    simp only [asked, follow] at member
    split at member <;> exact .inl (silent (by simp [asked]) member rfl rfl)
  | _ =>
    rw [asked] at member
    exact .inl (silent (by simp [asked]) member rfl rfl)

namespace Described

theorem empty (name domain : String) : Described name [] (.ofName name domain) :=
  ⟨.nil, rfl, fun _ member => nomatch member⟩

theorem follow (described : Described name lines table) (distinct : table.columnNames.Nodup)
    (routed : RoutedLine) :
    Described name (lines ++ [routed]) (table.follow name routed.request) where
  declared := by
    rw [declaredFor_concat]
    exact described.declared.follow routed distinct
  paragraphs := description_follow described.paragraphs routed
  notes := by
    intro column member
    have known : column.name ∈ table.columnNames ↔
        column.name ∈ (declaredFor name lines).map Column.name := by
      rw [columnNames, described.declared.names, List.mem_eraseDups]
    rcases mem_columns_follow distinct member with ⟨former, present, same, told⟩ |
      ⟨fresh, undescribed⟩
    · have before := described.notes former present
      rw [same] at before
      rw [told, notesOf_concat_of_mem (known.mp (same ▸ List.mem_map_of_mem present))]
      cases remarked : routed.remark? name column.name with
      | none => simpa using before
      | some text =>
        exact Column.description_describe before (fun _ => filled_of_mem_notesOf)
          (RoutedLine.filled_of_remark? remarked)
    · rw [undescribed, notesOf_concat_of_not_mem fun member => fresh (known.mpr member)]
      rfl

end Described

end Table

/-- The table of a name, empty if it does not exist. -/
def Model.tableOf (model : Model) (name : String) : Table :=
  (model.tables.get? name).getD (.ofName name "")

namespace Progress

variable {progress : Progress} {name : String} {lines : List RoutedLine}

private theorem described_follow (coherent : progress.model.Coherent) (seated : progress.Seated)
    (described : Table.Described name lines (progress.model.tableOf name)) (line : Line) :
    Table.Described name (lines ++ [⟨progress.position, line⟩])
      ((progress.follow (.ofLine progress.position line)).model.tableOf name) := by
  simp only [follow, Model.tableOf, Model.table_follow] at described ⊢
  cases found : progress.model.tables.get? name with
  | some table =>
    rw [found] at described
    simpa [RoutedLine.request]
      using described.follow (coherent.tables found).distinct ⟨progress.position, line⟩
  | none =>
    rw [found] at described
    -- Only lines of its table stanzas say something of a table, and these are open to tables that
    -- exist.
    have unasked : (Request.ofLine progress.position line).home? = some .table →
        (Request.ofLine progress.position line).scope? ≠ some name := by
      intro homed about
      exact OrderedMap.get?_eq_none_iff.mp found
        (seated.table (Request.scope_ofLine about) (.inl (Request.home_ofLine homed)))
    have followed := described.follow List.nodup_nil ⟨progress.position, line⟩
    rw [Option.getD_none, RoutedLine.request, Table.follow_elsewhere _ unasked] at followed
    cases Request.ofLine progress.position line with
    | openTable stanza opened domain =>
      simp only [Request.table?]
      split <;> exact ⟨followed.declared, followed.paragraphs, followed.notes⟩
    | _ => exact followed

theorem described_readAll (name : String) (lines : List Line) :
    Table.Described name (Position.start.route lines)
      ((start.readAll lines).model.tableOf name) := by
  have told : Table.Described name ((Position.start.route lines).filterMap some)
      ((start.readAll lines).model.tableOf name) := by
    refine account_readAll
      (fun said progress => Table.Described name said (progress.model.tableOf name)) ?_
      (.empty name "") lines
    intro progress said coherent seated described line
    exact described_follow coherent seated described line
  rwa [List.filterMap_some] at told

end Progress

/-- Whether a line describes a column of its table that none of these declares. -/
def RoutedLine.isStray (earlier : List RoutedLine) (routed : RoutedLine) : Bool :=
  routed.position.scope.any fun table =>
    (routed.note? table).any fun note => note.1 ∉ (declaredFor table earlier).map Column.name

/-- The warnings about descriptions that come too early. Each line is held against those before
it. -/
def strayNotes (earlier : List RoutedLine) : List (Place × RoutedLine) → List Warning
  | [] => []
  | (place, routed) :: rest =>
    (if routed.isStray earlier then [⟨place.file.text, place.line, .unknownColumn,
      routed.line.text⟩] else []) ++
      strayNotes (earlier ++ [routed]) rest

private theorem Model.describeColumn_iff (model : Model) (scope column text : String) :
    (model.describeColumn scope column text).2 = true ↔
      column ∈ (model.columnsOf scope).map Column.name := by
  unfold describeColumn columnsOf
  cases model.tables.get? scope with
  | none => simp
  | some table =>
    have unknown : table.column? column = none ↔ column ∉ table.columns.map Column.name :=
      Table.column?_eq_none_iff
    cases found : table.column? column with
    | none =>
      simp only [found, Option.map_some, Option.getD_some, Bool.false_eq_true, false_iff]
      exact unknown.mp found
    | some existing =>
      simp only [found, Option.map_some, Option.getD_some, true_iff]
      apply Classical.byContradiction
      intro absent
      rw [unknown.mpr absent] at found
      cases found

section Strays

variable {model : Model} {earlier : List RoutedLine}

/-- A column is unknown where a line describes it that no earlier line declares, and nowhere
else. -/
theorem RoutedLine.isStray_iff
    (declared : ∀ table, Table.Declared (declaredFor table earlier) (model.columnsOf table))
    (routed : RoutedLine) :
    routed.isStray earlier ↔ model.objection? routed.request = some .unknownColumn := by
  have unknown (table column text : String) : column ∉ (declaredFor table earlier).map Column.name ↔
      (model.describeColumn table column text).2 = false := by
    rw [← Bool.not_eq_true, model.describeColumn_iff, (declared table).names, List.mem_eraseDups]
  simp only [isStray, Option.any_eq_true, decide_eq_true_eq]
  constructor
  · rintro ⟨table, _, ⟨column, text⟩, noted, absent⟩
    rw [note?_eq_some_iff.mp noted, Model.objection?, (unknown table column text).mp absent]
    rfl
  · intro objected
    cases asked : routed.request with
    | refused kind =>
      rw [asked] at objected
      cases objected
      rcases Request.kind_of_refused asked with kind | kind | kind <;> cases kind
    | describeColumn scope column text =>
      have about : routed.position.scope = some scope :=
        Request.scope_ofLine (by rw [← request, asked]; rfl)
      refine ⟨scope, about, (column, text), note?_eq_some_iff.mpr asked,
        (unknown scope column text).mpr ?_⟩
      rw [asked, Model.objection?] at objected
      cases known : (model.describeColumn scope column text).2 with
      | true => simp [known] at objected
      | false => rfl
    | authorize scope operation role authorizer =>
      rw [asked, Model.objection?] at objected
      split at objected <;> cases objected
    | changeView scope kind line =>
      rw [asked] at objected
      simp only [Model.objection?] at objected
      split at objected
      next =>
        split at objected
        next => cases objected
        next rejected =>
          cases objected
          rcases View.kind_of_readLine rejected with kind | kind <;> cases kind
      next => cases objected
    | _ =>
      rw [asked] at objected
      cases objected

end Strays

/-- Unknown columns are told of in the order of the lines, as long as the columns are those that
earlier lines declare. -/
theorem Progress.unknownColumns_gather {progress : Progress} {earlier : List RoutedLine}
    (coherent : progress.model.Coherent) (seated : progress.Seated)
    (declared : ∀ table,
      Table.Declared (declaredFor table earlier) (progress.model.columnsOf table))
    (lines : List PlacedLine) :
    (progress.gather PlacedLine.report? lines).filter (fun warning =>
      warning.kind = .unknownColumn) =
      strayNotes earlier
        ((lines.map PlacedLine.place).zip
          (progress.position.route (lines.map PlacedLine.line))) := by
  induction lines generalizing progress earlier with
  | nil => rfl
  | cons placed rest ih =>
    have later (table : String) :
        Table.Declared (declaredFor table (earlier ++ [⟨progress.position, placed.line⟩]))
        ((progress.follow (.ofLine progress.position placed.line)).model.columnsOf table) := by
      rw [declaredFor_concat]
      exact declared_follow coherent seated (declared table) placed.line
    have stray := RoutedLine.isStray_iff declared ⟨progress.position, placed.line⟩
    rw [gather, List.filter_append, ih (coherent.follow _) (seated.step placed.line) later,
      position_follow]
    simp only [List.map_cons, Position.route, List.zip_cons_cons, strayNotes]
    congr 1
    rw [PlacedLine.report?]
    rw [RoutedLine.request] at stray
    cases objected : progress.model.objection? (.ofLine progress.position placed.line) with
    | none => simp_all
    | some kind => by_cases unknown : kind = .unknownColumn <;> simp_all

section Success

variable {volume : Volume} {text : String} {origin : Path} {compilation : Compilation}

private theorem unknownColumns_of_ok
    (success : (compileText volume text origin).result = .ok compilation) :
    compilation.warnings.filter (fun warning => warning.kind = .unknownColumn) =
      strayNotes [] (((scannedPlaces volume text origin).map PlacedLine.place).zip
        (transcript volume text origin)) := by
  have aboutLines : compilation.warnings.filter (fun warning => warning.kind = .unknownColumn) =
      (Warning.ofLines compilation.warnings).filter fun warning =>
        warning.kind = .unknownColumn := by
    rw [Warning.ofLines, List.filter_filter]
    apply List.filter_congr
    intro warning _
    by_cases unknown : warning.kind = .unknownColumn <;> simp [unknown]
  have initial : ∀ table,
      Table.Declared (declaredFor table []) (Progress.start.model.columnsOf table) := fun _ => .nil
  rw [aboutLines, ofLines_of_ok success, Progress.unknownColumns_gather .empty .start initial,
    lines_scannedPlaces]
  rfl

end Success

/-- After a run, a table is described by all texts of its stanzas from the first one on that is not
empty, with a blank line between them, and a column by all texts about it from its first declaration
on, empty ones left out, each on a line of its own. Declaring a column again, opening a table again
or going on in another file takes no part in it. A text about a column that is not declared yet adds
nothing, and the lines of such texts are those warned about for an unknown column. -/
theorem descriptions_add_up {volume : Volume} {text : String} {origin : Path}
    {compilation : Compilation}
    (success : (compileText volume text origin).result = .ok compilation) :
    (∀ name table, compilation.model.tables.get? name = some table →
      table.description = "\n\n".intercalate (paragraphsOf name (transcript volume text origin)) ∧
      ∀ column ∈ table.columns,
        column.description =
        Text.joined? "\n" (notesOf name column.name (transcript volume text origin))) ∧
    compilation.warnings.filter (fun warning => warning.kind = .unknownColumn) =
      strayNotes [] (((scannedPlaces volume text origin).map PlacedLine.place).zip
        (transcript volume text origin)) := by
  refine ⟨?_, unknownColumns_of_ok success⟩
  intro name table found
  have described := Progress.described_readAll name (scannedLines volume text origin)
  rw [← model_of_ok success, Model.tableOf, found, Option.getD_some] at described
  exact ⟨described.paragraphs, described.notes⟩

namespace Bookstore

/-- The file that the guidebook includes. It goes on with the stanza that the guidebook leaves
open. -/
def commentary : String := "#Price 8\n\"Price per copy\n>apart\n\"Pages none"

def guidebook : String :=
  "[Include commentary]\n!Book\n>\n>sold\n\"Price early\n.Price 8,2\n\"Price net\"\n>\n\n!Book\n@\n\" no"

def commented : Volume := .ofTexts (.ofEntries [("commentary", commentary)])

private theorem guidebook_compileWithin :
    (compileWithin 1 commented guidebook origin).map (fun compilation =>
        ((compilation.model.tables.get? "Book").map fun table =>
          (table.description, table.columns.map fun column => (column.name, column.description)),
         compilation.warnings)) =
      some (some ("sold\n\n\n\napart",
        [("Price", some "net\nper copy"), ("Book_UnknownColumn", some "no")]),
        [⟨"catalogue", 5, .unknownColumn, "\"Price early"⟩,
         ⟨"commentary", 4, .unknownColumn, "\"Pages none"⟩]) := by
  decide +kernel

end Bookstore

/-- The books are described in two stanzas, the second of which goes on in another file. A first
empty text is dropped and a later one kept, the price keeps its text where it is declared again, and
two texts are about columns that are not there. -/
theorem descriptions_add_up_bookstore :
    ∃ compilation table,
      (compileText Bookstore.commented Bookstore.guidebook Bookstore.origin).result =
      .ok compilation ∧
      compilation.model.tables.get? "Book" = some table ∧
      "\n\n".intercalate
          (paragraphsOf "Book"
            (transcript Bookstore.commented Bookstore.guidebook Bookstore.origin)) =
        "sold\n\n\n\napart" ∧
      (∀ column ∈ table.columns,
        column.description = Text.joined? "\n"
          (notesOf "Book" column.name
            (transcript Bookstore.commented Bookstore.guidebook Bookstore.origin))) ∧
      table.columns.map (fun column => (column.name, column.description)) =
        [("Price", some "net\nper copy"), ("Book_UnknownColumn", some "no")] ∧
      strayNotes []
        (((scannedPlaces Bookstore.commented Bookstore.guidebook Bookstore.origin).map
          PlacedLine.place).zip
          (transcript Bookstore.commented Bookstore.guidebook Bookstore.origin)) =
        [⟨"catalogue", 5, .unknownColumn, "\"Price early"⟩,
         ⟨"commentary", 4, .unknownColumn, "\"Pages none"⟩] := by
  obtain ⟨compilation, finished, told⟩ :=
    Option.map_eq_some_iff.mp Bookstore.guidebook_compileWithin
  simp only [Prod.mk.injEq, Option.map_eq_some_iff] at told
  obtain ⟨⟨table, found, description, columns⟩, warnings⟩ := told
  have success := compileText_of_compileWithin finished
  obtain ⟨described, unknown⟩ := descriptions_add_up success
  obtain ⟨paragraphs, notes⟩ := described "Book" table found
  refine ⟨compilation, table, success, found, paragraphs.symm.trans description, notes, columns, ?_⟩
  rw [← unknown, warnings]
  rfl

end StanzaSchema
