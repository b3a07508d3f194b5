import StanzaSchema.Proofs.Coherence
import StanzaSchema.Proofs.Drafts
import StanzaSchema.Proofs.Notices

/-!
Drafts read back. Each line of a draft takes the reader from one state to the next without a warning
and without a file to include; put together, the text of a draft is read as the tables that were
drafted, in their order.
-/

namespace StanzaSchema

namespace Progress

/-- No line is objected to, and none includes a file. -/
def Unhindered : Progress → List Line → Prop
  | _, [] => True
  | progress, line :: rest =>
    let request := Request.ofLine progress.position line
    progress.model.objection? request = none ∧ request.target? = none ∧
      (progress.follow request).Unhindered rest

variable {progress : Progress} {lines : List Line}

theorem Unhindered.append {first second : List Line} (before : progress.Unhindered first)
    (after : (progress.readAll first).Unhindered second) :
    progress.Unhindered (first ++ second) := by
  induction first generalizing progress with
  | nil => exact after
  | cons line rest ih =>
    obtain ⟨unobjected, untargeted, others⟩ := before
    exact ⟨unobjected, untargeted, ih others after⟩

theorem Unhindered.warnings (unhindered : progress.Unhindered lines) (file : Path) (number : Nat) :
    progress.warnings file number lines = [] := by
  induction lines generalizing progress number with
  | nil => rfl
  | cons line rest ih =>
    obtain ⟨unobjected, _, others⟩ := unhindered
    simp only [Progress.warnings, unobjected, Option.map_none, Option.toList_none,
      List.nil_append, ih others]

theorem Unhindered.targets (unhindered : progress.Unhindered lines) :
    progress.position.targets lines = [] := by
  induction lines generalizing progress with
  | nil => rfl
  | cons line rest ih =>
    obtain ⟨_, untargeted, others⟩ := unhindered
    rw [Position.targets_cons, ← Request.target?_ofLine, untargeted, Option.toList_none,
      List.nil_append]
    exact ih others

end Progress

/-- A text without a line that hinders is read without warnings, and for what its lines say. -/
theorem compileText_of_unhindered {text : String}
    (unhindered : Progress.start.Unhindered ((Text.physicalLines text).map Line.ofText))
    (volume : Volume) (origin : Path) :
    ∃ compilation, (compileText volume text origin).result = .ok compilation ∧
      compilation.warnings = [] ∧
      compilation.model =
        (Progress.start.readAll ((Text.physicalLines text).map Line.ofText)).model := by
  have unwarned : (Session.start.readFile origin text).1.warnings = [] := by
    refine (Session.warnings_readLines origin 1 (Text.physicalLines text) _).trans
      (List.append_eq_nil_iff.mpr ⟨?_, rfl⟩)
    exact List.reverse_eq_nil_iff.mpr (unhindered.warnings origin 1)
  refine ⟨_, compileText_of_targets_nil unhindered.targets volume origin, ?_, ?_⟩
  · rw [Session.compilation, unwarned, List.reverse_nil]
  · exact congrArg Progress.model (Session.progress_readFile .start ⟨origin, text⟩)

/-- Lines lead from any state of one kind to a state of another, with no line that hinders. -/
def Leads (before : Progress → Prop) (lines : List String) (after : Progress → Prop) : Prop :=
  ∀ progress, before progress →
    progress.Unhindered (lines.map Line.ofText) ∧ after (progress.readAll (lines.map Line.ofText))

namespace Leads

variable {before between after : Progress → Prop}

theorem nil : Leads before [] before := fun _ holds => ⟨trivial, holds⟩

theorem append {first second : List String} (head : Leads before first between)
    (tail : Leads between second after) :
    Leads before (first ++ second) after := by
  intro progress holds
  obtain ⟨unhindered, reached⟩ := head progress holds
  obtain ⟨others, ended⟩ := tail _ reached
  rw [List.map_append, Progress.readAll_append]
  exact ⟨unhindered.append others, ended⟩

theorem line {text : String} (written : Text.IsLine text)
    (step : ∀ progress, before progress →
      let request := Request.ofLine progress.position ⟨text⟩
      progress.model.objection? request = none ∧ request.target? = none ∧
        after (progress.follow request)) :
    Leads before [text] after := by
  intro progress holds
  obtain ⟨unobjected, untargeted, reached⟩ := step progress holds
  rw [List.map_singleton, Line.ofText_of_isLine written]
  exact ⟨⟨unobjected, untargeted, trivial⟩, reached⟩

end Leads

/-- The model with one more table, as it is when the table is new. -/
def Model.withTable (model : Model) (table : Table) : Model :=
  { model with
    tables := model.tables.insert table.name table
    sequence := model.sequence ++ [table.name]
    authorization := model.authorization.insert table.name .template
    endpoints := defaultEndpoints }

theorem Model.openTable_of_not_mem {model : Model} {name : String} (new : name ∉ model.tables.keys)
    (domain : String) :
    (model.openTable name domain).1 = model.withTable (.ofName name domain) := by
  rw [openTable, if_neg fun held => new (OrderedMap.contains_iff.mp held)]
  rfl

theorem Model.keys_withTable {model : Model} {table : Table}
    (new : table.name ∉ model.tables.keys) :
    (model.withTable table).tables.keys = model.tables.keys ++ [table.name] :=
  OrderedMap.keys_insert_of_not_mem new table

/-- Outside any stanza, with this model. -/
structure AtRest (model : Model) (progress : Progress) : Prop where
  stanza : progress.position.stanza = .none
  model : progress.model = model

/-- Outside any stanza, with this model, where new tables belong to this domain. -/
structure InDomain (model : Model) (domain : String) (progress : Progress) :
    Prop extends AtRest model progress where
  domain : progress.position.domain = domain

/-- In the stanza of a new table, which has come so far. -/
structure InTable (model : Model) (table : Table) (progress : Progress) : Prop where
  stanza : progress.position.stanza = .table
  scope : progress.position.scope = some table.name
  model : progress.model = model.withTable table

namespace Request

variable {position : Position} {line : Line}

theorem ofLine_outside (closed : position.stanza = .none) (written : line.isBlank = false) :
    ofLine position line = outside position.domain line.classify := by
  simp only [ofLine, written, closed, Bool.false_eq_true, ↓reduceIte]

theorem ofLine_inTable {scope : String} (here : position.stanza = .table)
    (about : position.scope = some scope) (written : line.isBlank = false) :
    ofLine position line = inTable scope line.classify := by
  simp only [ofLine, written, here, about, Bool.false_eq_true, ↓reduceIte]

end Request

/-- A request that changes the table of the stanza. -/
theorem InTable.follow {model : Model} {table : Table} {progress : Progress}
    (inside : InTable model table progress) {request : Request} (change : Table → Table)
    (staying : progress.position.follow request = progress.position)
    (changed : progress.model.follow request =
      { progress.model with tables := progress.model.tables.modify table.name change })
    (named : (change table).name = table.name) :
    InTable model (change table) (progress.follow request) where
  stanza := by rw [Progress.position_follow, staying, inside.stanza]
  scope := by rw [Progress.position_follow, staying, inside.scope, named]
  model := by
    rw [Progress.follow, changed, inside.model]
    simp only [Model.withTable, OrderedMap.modify_insert, named]

section Steps

variable (model : Model) (draft : TableDraft) (table : Table) {column : ColumnDraft}

theorem leads_domain : Leads (AtRest model) [draft.domainLine] (InDomain model draft.domain) := by
  apply Leads.line draft.isPhrase_domainLine.toIsLine
  intro progress resting
  rw [Request.ofLine_outside resting.stanza (Line.isBlank_of_isPhrase draft.isPhrase_domainLine),
    draft.classify_domainLine]
  exact ⟨rfl, rfl, ⟨resting.stanza, resting.model⟩, rfl⟩

theorem leads_blank (domain : String) :
    Leads (InDomain model domain) [""] (InDomain model domain) := by
  apply Leads.line Text.isLine_blank
  intro progress resting
  exact ⟨rfl, rfl, ⟨rfl, resting.model⟩, resting.domain⟩

theorem leads_name (new : draft.name ∉ model.tables.keys) :
    Leads (InDomain model draft.domain) [draft.nameLine]
      (InTable model (.ofName draft.name draft.domain)) := by
  apply Leads.line draft.isPhrase_nameLine.toIsLine
  intro progress resting
  rw [Request.ofLine_outside resting.stanza (Line.isBlank_of_isPhrase draft.isPhrase_nameLine),
    draft.classify_nameLine, Request.outside, if_neg draft.named.filled, resting.domain]
  refine ⟨rfl, rfl, rfl, rfl, ?_⟩
  rw [Progress.follow, Model.follow, resting.model, Model.openTable_of_not_mem new]

theorem leads_column (new : column.name ∉ table.columnNames) :
    Leads (InTable model table) [column.line]
      (InTable model (table.pushColumn column.declared)) := by
  apply Leads.line column.isPhrase_line.toIsLine
  intro progress inside
  have pushed : table.declare column.declared = table.pushColumn column.declared := by
    have absent : table.column? column.declared.name = none := Table.column?_eq_none_iff.mpr new
    simp only [Table.declare, absent]
  rw [Request.ofLine_inTable inside.stanza inside.scope
    (Line.isBlank_of_isPhrase column.isPhrase_line),
    column.classify_line, Request.inTable, ← pushed]
  refine ⟨rfl, rfl,
    inside.follow (fun table => table.declare column.declared) rfl ?_ (by rw [pushed]; rfl)⟩
  rw [Model.follow, Model.declareColumn_eq, column.column_declaration]

theorem leads_note {note : String} (listed : note ∈ column.notes)
    (present : column.name ∈ table.columnNames) :
    Leads (InTable model table) [column.noteLine note]
      (InTable model (table.modifyColumn column.name fun existing => existing.describe note)) := by
  apply Leads.line (column.isPhrase_noteLine listed).toIsLine
  intro progress inside
  rw [Request.ofLine_inTable inside.stanza inside.scope
    (Line.isBlank_of_isPhrase (column.isPhrase_noteLine listed)),
    column.classify_noteLine listed, Request.inTable, if_neg column.named.filled]
  refine ⟨?_, rfl, inside.follow
    (fun table => table.modifyColumn column.name fun existing => existing.describe note)
    rfl (progress.model.describeColumn_eq table.name column.name note) rfl⟩
  obtain ⟨found, held⟩ : ∃ found, table.column? column.name = some found := by
    apply Option.ne_none_iff_exists'.mp
    intro missing
    exact Table.column?_eq_none_iff.mp missing present
  simp [Model.objection?, Model.describeColumn, inside.model, Model.withTable, held]

theorem leads_paragraph {paragraph : String} (told : Text.IsParagraph paragraph) :
    Leads (InTable model table) [">" ++ paragraph] (InTable model (table.describe paragraph)) := by
  apply Leads.line (Line.isPhrase_paragraph told).toIsLine
  intro progress inside
  rw [Request.ofLine_inTable inside.stanza inside.scope
    (Line.isBlank_of_isPhrase (Line.isPhrase_paragraph told)),
    Line.classify_paragraph, Request.inTable]
  exact ⟨rfl, rfl, inside.follow (fun table => table.describe paragraph) rfl
    (progress.model.describeTable_eq table.name paragraph) rfl⟩

theorem leads_close : Leads (InTable model table) [""] (AtRest (model.withTable table)) := by
  apply Leads.line Text.isLine_blank
  intro progress inside
  exact ⟨rfl, rfl, ⟨rfl, inside.model⟩⟩

end Steps

/-- A text that goes on is one more text to join. -/
theorem Text.intercalate_extend (mark first second : String) (rest : List String) :
    mark.intercalate ((first ++ mark ++ second) :: rest) =
      mark.intercalate (first :: second :: rest) := by
  rw [String.intercalate_cons_append, String.intercalate_cons_cons]

theorem Column.foldl_describe {column : Column} {told : String}
    (described : column.description = some told) (begun : told ≠ "") {notes : List String}
    (filled : ∀ note ∈ notes, note ≠ "") :
    notes.foldl describe column =
      { column with description := some ("\n".intercalate (told :: notes)) } := by
  induction notes generalizing column told with
  | nil =>
    cases column
    cases described
    rfl
  | cons note rest ih =>
    have this := filled note List.mem_cons_self
    have added : column.describe note =
        { column with description := some (told ++ "\n" ++ note) } := by
      simp only [describe, this, described, begun, ↓reduceIte]
    rw [List.foldl_cons, added,
      ih rfl (by simp [this]) fun other listed => filled other (List.mem_cons_of_mem note listed),
      Text.intercalate_extend]

theorem ColumnDraft.foldl_describe (draft : ColumnDraft) :
    draft.notes.foldl Column.describe draft.declared = draft.column := by
  have filled : ∀ note ∈ draft.notes, note ≠ "" :=
    fun note listed => (draft.noted note listed).1.filled
  unfold declared column
  cases shown : draft.notes with
  | nil => rfl
  | cons note rest =>
    rw [shown] at filled
    have this := filled note List.mem_cons_self
    rw [List.foldl_cons, Column.describe, if_neg this]
    exact Column.foldl_describe rfl this fun other listed =>
      filled other (List.mem_cons_of_mem note listed)

theorem Table.foldl_describe {table : Table} (begun : table.description ≠ "")
    (paragraphs : List String) :
    paragraphs.foldl describe table =
      { table with description := "\n\n".intercalate (table.description :: paragraphs) } := by
  induction paragraphs generalizing table with
  | nil =>
    cases table
    rfl
  | cons paragraph rest ih =>
    have added : table.describe paragraph =
        { table with description := table.description ++ "\n\n" ++ paragraph } := by
      simp only [describe, begun, ↓reduceIte]
    rw [List.foldl_cons, added, ih (by simp), Text.intercalate_extend]

theorem TableDraft.foldl_describe (draft : TableDraft) :
    draft.paragraphs.foldl Table.describe
      { Table.ofName draft.name draft.domain with
        columns := draft.columns.map ColumnDraft.column } = draft.table := by
  unfold table
  cases shown : draft.paragraphs with
  | nil => rfl
  | cons paragraph rest =>
    have begun : paragraph ≠ "" := (draft.told paragraph (shown ▸ List.mem_cons_self)).filled
    rw [List.foldl_cons, Table.describe, Table.ofName, if_pos rfl]
    exact Table.foldl_describe begun rest

private theorem Table.modifyFirst_append {name : String} {change : Column → Column}
    {before : List Column} (absent : name ∉ before.map Column.name) {column : Column}
    (named : column.name = name) (after : List Column) :
    modifyFirst name change (before ++ column :: after) = before ++ change column :: after := by
  induction before with
  | nil => simp [modifyFirst, named]
  | cons first rest ih =>
    simp only [List.map_cons, List.mem_cons, not_or] at absent
    simp [modifyFirst, Ne.symm absent.1, ih absent.2]

/-- Of distinct names, the next one is none of those before, and may as well be counted among
them. -/
theorem nodup_next {before rest : List String} {name : String}
    (distinct : (before ++ name :: rest).Nodup) :
    name ∉ before ∧ (before ++ [name] ++ rest).Nodup := by
  refine ⟨?_, by simpa using distinct⟩
  intro present
  exact (List.nodup_append.mp distinct).2.2 name present name List.mem_cons_self rfl

section Runs

variable (model : Model)

theorem leads_columns (table : Table) (columns : List ColumnDraft)
    (distinct : (table.columnNames ++ columns.map ColumnDraft.name).Nodup) :
    Leads (InTable model table) (columns.map ColumnDraft.line)
      (InTable model
        { table with columns := table.columns ++ columns.map ColumnDraft.declared }) := by
  induction columns generalizing table with
  | nil =>
    cases table
    rw [List.map_nil, List.map_nil, List.append_nil]
    exact .nil
  | cons column rest ih =>
    obtain ⟨new, later⟩ := nodup_next distinct
    have others :=
      ih (table.pushColumn column.declared)
        (by simpa [Table.columnNames, Table.pushColumn] using later)
    simp only [Table.pushColumn, List.append_assoc, List.singleton_append] at others
    exact (leads_column model table new).append others

/-- The notes on one column, when those before it are told. -/
theorem leads_notes (table : Table) {column : ColumnDraft} {before : List Column}
    (absent : column.name ∉ before.map Column.name) {current : Column}
    (named : current.name = column.name) (after : List Column) {notes : List String}
    (listed : ∀ note ∈ notes, note ∈ column.notes) :
    Leads (InTable model { table with columns := before ++ current :: after })
      (notes.map column.noteLine)
      (InTable model
        { table with columns := before ++ notes.foldl Column.describe current :: after }) := by
  induction notes generalizing current with
  | nil => exact .nil
  | cons note rest ih =>
    have present : column.name ∈ (before ++ current :: after).map Column.name := by simp [named]
    have step :=
      leads_note model { table with columns := before ++ current :: after }
        (listed note List.mem_cons_self)
      present
    simp only [Table.modifyColumn, Table.modifyFirst_append absent named] at step
    exact step.append (ih ((Column.describe_name current note).trans named) fun other later =>
      listed other (List.mem_cons_of_mem note later))

private theorem leads_noteLines (table : Table) (before : List Column) (columns : List ColumnDraft)
    (distinct : (before.map Column.name ++ columns.map ColumnDraft.name).Nodup) :
    Leads (InTable model { table with columns := before ++ columns.map ColumnDraft.declared })
      (columns.flatMap fun column => column.notes.map column.noteLine)
      (InTable model { table with columns := before ++ columns.map ColumnDraft.column }) := by
  induction columns generalizing before with
  | nil => exact .nil
  | cons column rest ih =>
    obtain ⟨absent, later⟩ := nodup_next distinct
    have this :=
      leads_notes model table absent column.name_declared (rest.map ColumnDraft.declared)
        (fun _ same => same)
    have others := ih (before ++ [column.column]) (by simpa using later)
    rw [column.foldl_describe] at this
    simp only [List.append_assoc, List.singleton_append] at others
    exact this.append others

private theorem leads_paragraphs (table : Table) {paragraphs : List String}
    (told : ∀ paragraph ∈ paragraphs, Text.IsParagraph paragraph) :
    Leads (InTable model table) (paragraphs.map fun paragraph => ">" ++ paragraph)
      (InTable model (paragraphs.foldl Table.describe table)) := by
  induction paragraphs generalizing table with
  | nil => exact .nil
  | cons paragraph rest ih =>
    exact (leads_paragraph model table (told paragraph List.mem_cons_self)).append
      (ih (table.describe paragraph) fun other listed =>
        told other (List.mem_cons_of_mem paragraph listed))

/-- All that is written of a table makes the table. -/
theorem leads_table (draft : TableDraft) (new : draft.name ∉ model.tables.keys) :
    Leads (AtRest model) draft.lines (AtRest (model.withTable draft.table)) := by
  let opened := Table.ofName draft.name draft.domain
  let filled := { opened with columns := draft.columns.map ColumnDraft.column }
  have start :=
    ((leads_domain model draft).append (leads_blank model draft.domain)).append
      (leads_name model draft new)
  have columns := leads_columns model opened draft.columns draft.distinct
  have notes := leads_noteLines model opened [] draft.columns draft.distinct
  have paragraphs := leads_paragraphs model filled draft.told
  have stop := leads_close model draft.table
  rw [draft.foldl_describe] at paragraphs
  exact (((start.append columns).append notes).append paragraphs).append stop

private theorem leads_tables (drafts : List TableDraft)
    (distinct : (model.tables.keys ++ drafts.map TableDraft.name).Nodup) :
    Leads (AtRest model) (drafts.flatMap TableDraft.lines)
      (AtRest (drafts.foldl (fun model draft => model.withTable draft.table) model)) := by
  induction drafts generalizing model with
  | nil => exact .nil
  | cons draft rest ih =>
    obtain ⟨new, later⟩ := nodup_next distinct
    have keys : (model.withTable draft.table).tables.keys = model.tables.keys ++ [draft.name] :=
      Model.keys_withTable new
    exact (leads_table model draft new).append (ih (model.withTable draft.table) (keys ▸ later))

end Runs

private theorem Model.foldl_withTable {model : Model} {drafts : List TableDraft}
    (distinct : (model.tables.keys ++ drafts.map TableDraft.name).Nodup) :
    let filled := drafts.foldl (fun model draft => model.withTable draft.table) model
    filled.tables.entries =
        model.tables.entries ++ drafts.map (fun draft => (draft.name, draft.table)) ∧
      filled.sequence = model.sequence ++ drafts.map TableDraft.name := by
  induction drafts generalizing model with
  | nil => simp
  | cons draft rest ih =>
    obtain ⟨new, later⟩ := nodup_next distinct
    have entries : (model.withTable draft.table).tables.entries =
        model.tables.entries ++ [(draft.name, draft.table)] :=
      OrderedMap.entries_insert_of_not_mem new draft.table
    have keys : (model.withTable draft.table).tables.keys = model.tables.keys ++ [draft.name] :=
      keys_withTable new
    obtain ⟨tables, sequence⟩ := ih (keys ▸ later)
    refine ⟨?_, ?_⟩
    · rw [List.foldl_cons, tables, entries, List.append_assoc]
      rfl
    · rw [List.foldl_cons, sequence, withTable, List.append_assoc]
      rfl

/-- A draft is read back from its text, whatever files there are: no line is warned about, and the
model has the tables of the draft and no others, each as it was drafted and in the order of the
draft. -/
theorem draft_reads_back (schema : SchemaDraft) (volume : Volume) (origin : Path) :
    ∃ compilation, (compileText volume schema.text origin).result = .ok compilation ∧
      compilation.warnings = [] ∧
      compilation.model.tables.entries =
        schema.tables.map (fun draft => (draft.name, draft.table)) ∧
      compilation.model.sequence = schema.tables.map TableDraft.name := by
  have resting : AtRest .empty Progress.start := ⟨rfl, rfl⟩
  have distinct : (Model.empty.tables.keys ++ schema.tables.map TableDraft.name).Nodup :=
    schema.distinct
  obtain ⟨unhindered, reached⟩ := leads_tables .empty schema.tables distinct .start resting
  have lines : schema.tables.flatMap TableDraft.lines = Text.physicalLines schema.text :=
    schema.physicalLines_text.symm
  rw [lines] at unhindered reached
  obtain ⟨compilation, success, quiet, told⟩ := compileText_of_unhindered unhindered volume origin
  obtain ⟨tables, sequence⟩ := Model.foldl_withTable distinct
  rw [reached.model] at told
  exact ⟨compilation, success, quiet, told ▸ tables, told ▸ sequence⟩

namespace Bookstore

/-- A column with marks for a name and a target. -/
def price : ColumnDraft where
  name := "->"
  type := .decimal
  size := some "8,2"
  join := some "=>"
  tableJoin := none
  notes := ["(net) of \"tax\", once"]
  named := by decide
  sized := .inr ⟨"8,2", rfl, ⟨rfl, by decide, by simp⟩⟩
  joined := by decide
  tableJoined := by decide
  joinedOnce := .inr rfl
  noted := by decide

def books : TableDraft where
  name := "!Book"
  domain := "Shop ] [1"
  columns := [price]
  paragraphs := ["  > all books"]
  named := by decide
  placed := by decide
  distinct := by decide
  told := by decide

example : (SchemaDraft.mk [books] (by decide)).text =
    "[Domain Shop ] [1]\n\n!!Book\n.-> 8,2 -> =>\n\"-> (net) of \"tax\", once\n>  > all books\n\n" := by
  decide +kernel

end Bookstore

end StanzaSchema
