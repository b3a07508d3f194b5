import StanzaSchema.Proofs.Bounded
import StanzaSchema.Proofs.Stanzas

/-!
The columns of a table after a run. Declarations of a column are spread over stanzas and files: the
first one gives it its place, the last one its type and size, and each join is that of the last
declaration that has one.
-/

namespace StanzaSchema

namespace Line

/-- The last token of a line that has the mark before it, after a first token. -/
def trailing? (mark : String) (line : Line) : Option String :=
  if line.tokens.tail.dropLast.getLast? = some mark then line.tokens.getLast? else none

/-- The column that a line declares in a table, by its symbol. -/
def column? (table : String) (line : Line) : Option Column :=
  (line.symbol?.bind DataType.ofSymbol?).map fun type =>
    { name := if line.name = "" then table ++ "_UnknownColumn" else line.name
      type
      size := ((line.tokens[1]?).filter (acceptsSize type)).or type.defaultSize?
      join := line.trailing? "->"
      tableJoin := line.trailing? "=>"
      description := none }

private theorem target?_eq_trailing? (mark : String) (line : Line) :
    target? mark line.tokens = line.trailing? mark := by
  unfold target? trailing?
  obtain ⟨front, shown⟩ : ∃ front, line.tokens.reverse = front := ⟨_, rfl⟩
  rw [List.reverse_eq_iff] at shown
  rw [shown, List.reverse_reverse]
  match front with
  | [] => simp
  | [target] => simp
  | [target, found] => simp
  | target :: found :: first :: rest =>
    have shape : (target :: found :: first :: rest).reverse.tail.dropLast =
        (first :: rest).reverse.tail ++ [found] := by
      have inner : (found :: first :: rest).reverse ≠ [] := by simp
      have outer : (first :: rest).reverse ≠ [] := by simp
      rw [List.reverse_cons, List.tail_append_of_ne_nil inner, List.dropLast_concat,
        List.reverse_cons, List.tail_append_of_ne_nil outer]
    rw [shape]
    simp

theorem classify_eq_column {line : Line} {declaration : Declaration}
    (found : line.classify = .column declaration) :
    ∃ type, line.symbol?.bind DataType.ofSymbol? = some type ∧
      declaration = line.declaration type := by
  unfold classify at found
  split at found
  · cases found
  next symbol shown =>
    split at found
    next type known =>
      cases found
      exact ⟨type, by rw [shown, Option.bind_some, known], rfl⟩
    next =>
      unfold classOfSymbol at found
      split at found <;> try cases found
      split at found <;> cases found

theorem column_declaration (table : String) (line : Line) {type : DataType}
    (known : line.symbol?.bind DataType.ofSymbol? = some type) :
    line.column? table = some ((line.declaration type).column table) := by
  simp only [column?, known, Option.map_some, Declaration.column, declaration, Column.ofType,
    unknownColumn, joinMark, tableJoinMark, target?_eq_trailing?]
  by_cases bare : line.name = "" <;> simp [bare]

private theorem acceptsSize_unsized {type : DataType} (unsized : type.defaultSize? = none)
    (token : String) :
    acceptsSize type token = false := by
  cases type <;> first | rfl | cases unsized

theorem column?_sized {table : String} {line : Line} {column : Column}
    (found : line.column? table = some column) :
    column.size.isSome = column.type.isSized := by
  obtain ⟨type, known, rfl⟩ := Option.map_eq_some_iff.mp found
  cases default : type.defaultSize? with
  | some size => simp [DataType.isSized, default]
  | none =>
    have refused : Option.filter (acceptsSize type) line.tokens[1]? = none :=
      Option.filter_eq_none_iff.mpr fun token _ => by simp [acceptsSize_unsized default]
    simp [DataType.isSized, default, refused]

end Line

/-- The column that a line of a table stanza of this table declares. -/
def RoutedLine.declared? (table : String) (routed : RoutedLine) : Option Column :=
  if routed.position.stanza = .table ∧ routed.position.scope = some table then
    routed.line.column? table
  else none

theorem RoutedLine.declared?_eq_some_iff {table : String} {routed : RoutedLine} {column : Column} :
    routed.declared? table = some column ↔
      ∃ declaration, routed.request = .declare table declaration ∧
        declaration.column table = column := by
  obtain ⟨position, line⟩ := routed
  constructor
  · intro found
    unfold declared? at found
    split at found
    next both =>
      obtain ⟨here, about⟩ : position.stanza = .table ∧ position.scope = some table := both
      obtain ⟨type, known, _⟩ := Option.map_eq_some_iff.mp found
      have classified : line.classify = .column (line.declaration type) := by
        obtain ⟨symbol, shown, typed⟩ := Option.bind_eq_some_iff.mp known
        simp only [Line.classify, shown, typed]
      have written : line.isBlank = false := by
        cases blank : line.isBlank
        · rfl
        · simp [Line.symbol?_eq_none_iff.mpr blank] at known
      refine ⟨line.declaration type, ?_, ?_⟩
      · simp [request, Request.ofLine, written, here, about, Request.inTable, classified]
      · rw [Line.column_declaration table line known] at found
        exact Option.some.inj found
    next => cases found
  · rintro ⟨declaration, asked, rfl⟩
    have here : position.stanza = .table :=
      Request.home_ofLine (by rw [request] at asked; rw [asked]; rfl)
    have about : position.scope = some table :=
      Request.scope_ofLine (by rw [request] at asked; rw [asked]; rfl)
    simp only [request, Request.ofLine, here, about] at asked
    split at asked
    · cases asked
    · unfold Request.inTable at asked
      split at asked <;> cases asked
      next classified =>
        obtain ⟨type, known, rfl⟩ := Line.classify_eq_column classified
        simp [declared?, here, about, Line.column_declaration table line known]

/-- A column is what its declarations say, of which the last counts for each part. -/
structure Column.Settled (declared : List Column) (column : Column) : Prop where
  last : ∃ last, (declared.filter fun other => other.name == column.name).getLast? = some last ∧
    column.type = last.type ∧ column.size = last.size
  join : column.join =
    ((declared.filter fun other => other.name == column.name).filterMap Column.join).getLast?
  tableJoin : column.tableJoin =
    ((declared.filter fun other => other.name == column.name).filterMap Column.tableJoin).getLast?

/-- Columns are those declared, each once and in the place of its first declaration. -/
structure Table.Declared (declared columns : List Column) : Prop where
  names : columns.map Column.name = (declared.map Column.name).eraseDups
  settled : ∀ column ∈ columns, column.Settled declared

namespace Column.Settled

variable {declared : List Column} {column new : Column}

/-- A declaration of another column changes nothing. -/
theorem other (settled : column.Settled declared) (other : new.name ≠ column.name) :
    column.Settled (declared ++ [new]) := by
  have unseen : (declared ++ [new]).filter (fun other => other.name == column.name) =
      declared.filter fun other => other.name == column.name := by simp [List.filter_append, other]
  constructor
  · rw [unseen]
    exact settled.last
  · rw [unseen]
    exact settled.join
  · rw [unseen]
    exact settled.tableJoin

theorem redeclare (settled : column.Settled declared) (same : new.name = column.name) :
    (column.redeclare new).Settled (declared ++ [new]) := by
  have seen : (declared ++ [new]).filter (fun other => other.name == (column.redeclare new).name) =
      (declared.filter fun other => other.name == column.name) ++ [new] := by
    simp [List.filter_append, same]
  constructor
  · rw [seen]
    exact ⟨new, List.getLast?_concat, rfl, rfl⟩
  · rw [seen, List.getLast?_filterMap_concat, ← settled.join]
    rfl
  · rw [seen, List.getLast?_filterMap_concat, ← settled.tableJoin]
    rfl

/-- The first declaration of a column is all there is to it. -/
theorem first (fresh : new.name ∉ declared.map Column.name) : new.Settled (declared ++ [new]) := by
  have earlier : declared.filter (fun other => other.name == new.name) = [] := by
    rw [List.filter_eq_nil_iff]
    intro other member same
    exact fresh (List.mem_map.mpr ⟨other, member, beq_iff_eq.mp same⟩)
  have seen : (declared ++ [new]).filter (fun other => other.name == new.name) = [] ++ [new] := by
    simp [List.filter_append, earlier]
  constructor
  · rw [seen]
    exact ⟨new, List.getLast?_concat, rfl, rfl⟩
  · rw [seen, List.getLast?_filterMap_concat]
    exact (Option.or_none).symm
  · rw [seen, List.getLast?_filterMap_concat]
    exact (Option.or_none).symm

theorem describe (settled : column.Settled declared) (text : String) :
    (column.describe text).Settled declared := by
  have kept : (column.describe text).type = column.type ∧
      (column.describe text).size = column.size ∧
      (column.describe text).join = column.join ∧
      (column.describe text).tableJoin = column.tableJoin := by
    unfold Column.describe
    split
    · exact ⟨rfl, rfl, rfl, rfl⟩
    · split
      · split <;> exact ⟨rfl, rfl, rfl, rfl⟩
      · exact ⟨rfl, rfl, rfl, rfl⟩
  obtain ⟨type, size, join, tableJoin⟩ := kept
  constructor
  · rw [type, size, describe_name]
    exact settled.last
  · rw [join, describe_name]
    exact settled.join
  · rw [tableJoin, describe_name]
    exact settled.tableJoin

end Column.Settled

namespace Table.Declared

variable {declared columns : List Column} {table : Table}

theorem nil : Declared [] [] := by
  refine ⟨rfl, ?_⟩
  intro column member
  cases member

/-- Where names are distinct, only the column of the name is changed. -/
theorem mem_modifyFirst {name : String} {change : Column → Column} {column : Column}
    (distinct : (columns.map Column.name).Nodup)
    (member : column ∈ modifyFirst name change columns) :
    column ∈ columns ∧ column.name ≠ name ∨ ∃ former ∈ columns, former.name = name ∧
      column = change former := by
  induction columns with
  | nil => cases member
  | cons first rest ih =>
    obtain ⟨fresh, distinct⟩ := List.nodup_cons.mp distinct
    rw [modifyFirst] at member
    split at member
    next here =>
      rcases List.mem_cons.mp member with rfl | later
      · exact .inr ⟨first, List.mem_cons_self, here, rfl⟩
      · refine .inl ⟨List.mem_cons_of_mem _ later, ?_⟩
        rintro rfl
        exact fresh (here ▸ List.mem_map_of_mem later)
    next elsewhere =>
      rcases List.mem_cons.mp member with rfl | later
      · exact .inl ⟨List.mem_cons_self, elsewhere⟩
      · rcases ih distinct later with ⟨present, other⟩ | ⟨former, present, named, changed⟩
        · exact .inl ⟨List.mem_cons_of_mem _ present, other⟩
        · exact .inr ⟨former, List.mem_cons_of_mem _ present, named, changed⟩

theorem describeColumn (holds : Declared declared table.columns)
    (distinct : table.columnNames.Nodup) (name text : String) :
    Declared declared (table.modifyColumn name fun existing => existing.describe text).columns := by
  constructor
  · rw [modifyColumn, names_modifyFirst _ _ fun column => Column.describe_name column text]
    exact holds.names
  · intro column member
    rcases mem_modifyFirst distinct member with ⟨present, _⟩ | ⟨former, present, _, rfl⟩
    · exact holds.settled column present
    · exact (holds.settled former present).describe text

theorem declare (holds : Declared declared table.columns) (distinct : table.columnNames.Nodup)
    (new : Column) :
    Declared (declared ++ [new]) (table.declare new).columns := by
  have known : new.name ∈ table.columnNames ↔ new.name ∈ declared.map Column.name := by
    rw [columnNames, holds.names, List.mem_eraseDups]
  have names : ((declared ++ [new]).map Column.name).eraseDups =
      if new.name ∈ declared.map Column.name then table.columnNames
      else table.columnNames ++ [new.name] := by
    rw [columnNames, holds.names, List.map_append]
    exact List.eraseDups_concat ..
  unfold Table.declare
  split
  next existing found =>
    have present : new.name ∈ table.columnNames := by
      apply Classical.byContradiction
      intro absent
      rw [column?_eq_none_iff.mpr absent] at found
      cases found
    constructor
    · rw [names, if_pos (known.mp present), modifyColumn,
        names_modifyFirst _ _ fun column => Column.redeclare_name column new]
      rfl
    · intro column member
      rcases mem_modifyFirst distinct member with ⟨present, other⟩ | ⟨former, present, same, rfl⟩
      · exact (holds.settled column present).other (Ne.symm other)
      · exact (holds.settled former present).redeclare same.symm
  next absent =>
    have fresh := column?_eq_none_iff.mp absent
    constructor
    · rw [names, if_neg fun member => fresh (known.mpr member), pushColumn, List.map_append]
      rfl
    · intro column member
      rcases List.mem_append.mp member with present | here
      · refine (holds.settled column present).other ?_
        intro same
        exact fresh (same ▸ List.mem_map_of_mem present)
      · rw [List.mem_singleton.mp here]
        exact .first fun member => fresh (known.mpr member)

end Table.Declared

/-- The columns of a table, none if it does not exist. -/
def Model.columnsOf (model : Model) (table : String) : List Column :=
  ((model.tables.get? table).map Table.columns).getD []

/-- The declarations for a table among the lines of a run, in their order. -/
def declaredFor (table : String) (lines : List RoutedLine) : List Column :=
  lines.filterMap (RoutedLine.declared? table)

/-- A line of a run declares what it says of a table and leaves the other columns alone. -/
theorem Table.Declared.follow {declared : List Column} {name : String} {table : Table}
    (routed : RoutedLine) (holds : Declared declared table.columns)
    (distinct : table.columnNames.Nodup) :
    Declared (declared ++ (routed.declared? name).toList)
      (table.follow name routed.request).columns := by
  cases found : routed.declared? name with
  | some column =>
    obtain ⟨declaration, asked, rfl⟩ := RoutedLine.declared?_eq_some_iff.mp found
    simp only [asked, Table.follow, ↓reduceIte]
    exact holds.declare distinct _
  | none =>
    simp only [Option.toList_none, List.append_nil]
    cases asked : routed.request with
    | declare scope declaration =>
      have other : scope ≠ name := by
        rintro rfl
        rw [RoutedLine.declared?_eq_some_iff.mpr ⟨declaration, asked, rfl⟩] at found
        cases found
      simpa only [Table.follow, other, ↓reduceIte] using holds
    | describeColumn scope column text =>
      simp only [Table.follow]
      split
      · exact holds.describeColumn distinct column text
      · exact holds
    | describeTable scope text =>
      simp only [Table.follow]
      split <;> exact holds
    | _ => exact holds

namespace Progress

variable {progress : Progress}

theorem declared_follow (coherent : progress.model.Coherent) (seated : progress.Seated)
    {table : String} {declared : List Column}
    (holds : Table.Declared declared (progress.model.columnsOf table)) (line : Line) :
    Table.Declared (declared ++ ((RoutedLine.mk progress.position line).declared? table).toList)
      ((progress.follow (.ofLine progress.position line)).model.columnsOf table) := by
  simp only [follow, Model.columnsOf, Model.table_follow] at holds ⊢
  cases found : progress.model.tables.get? table with
  | some existing =>
    simp only [found, Option.map_some, Option.getD_some] at holds
    simpa [RoutedLine.request]
      using holds.follow ⟨progress.position, line⟩ (coherent.tables found).distinct
  | none =>
    have undeclared : (RoutedLine.mk progress.position line).declared? table = none := by
      apply if_neg
      rintro ⟨here, about⟩
      exact OrderedMap.get?_eq_none_iff.mp found (seated.table about (.inl here))
    have bare : (((Request.ofLine progress.position line).table? table).map Table.columns).getD [] =
        [] := by
      cases Request.ofLine progress.position line with
      | openTable stanza name domain =>
        simp only [Request.table?]
        split <;> rfl
      | _ => rfl
    simpa [found, undeclared, bare] using holds

private theorem declared_readAll (table : String) (lines : List Line) :
    Table.Declared (declaredFor table (Position.start.route lines))
      ((start.readAll lines).model.columnsOf table) :=
  account_readAll
    (fun declared progress => Table.Declared declared (progress.model.columnsOf table))
    (fun coherent seated declared line => declared_follow coherent seated declared line) .nil lines

end Progress

/-- After a run, the columns of a table are those that the lines of its table stanzas declare, over
all files: once each, in the order of their first declarations, with the type and the size of the
last one and the joins of the last that give them. A column has a size if its type is sized,
whatever it was declared as before. -/
theorem columns_last_declaration {volume : Volume} {text : String} {origin : Path}
    {compilation : Compilation}
    (success : (compileText volume text origin).result = .ok compilation) :
    ∀ name table, compilation.model.tables.get? name = some table →
      table.columnNames =
        ((declaredFor name (transcript volume text origin)).map Column.name).eraseDups ∧
      table.columnNames.Nodup ∧
      ∀ column ∈ table.columns,
        column.Settled (declaredFor name (transcript volume text origin)) ∧
        column.size.isSome = column.type.isSized := by
  intro name table found
  have coherent := Progress.coherent_readAll (scannedLines volume text origin)
  have declared := Progress.declared_readAll name (scannedLines volume text origin)
  rw [← model_of_ok success] at coherent declared
  simp only [Model.columnsOf, found, Option.map_some, Option.getD_some] at declared
  refine ⟨declared.names, (coherent.tables found).distinct, ?_⟩
  intro column member
  have settled := declared.settled column member
  obtain ⟨last, latest, type, size⟩ := settled.last
  obtain ⟨routed, _, spoken⟩ :=
    List.mem_filterMap.mp (List.mem_filter.mp (List.mem_of_getLast? latest)).1
  refine ⟨settled, ?_⟩
  unfold RoutedLine.declared? at spoken
  split at spoken
  · rw [type, size, Line.column?_sized spoken]
  · cases spoken

/-- A decimal that becomes a foreign key and then a number keeps its place and its join. -/
theorem columns_last_declaration_bookstore :
    ∃ compilation table,
      (compileText Bookstore.volume Bookstore.catalogue Bookstore.origin).result = .ok compilation ∧
      compilation.model.tables.get? "Book" = some table ∧
      ((declaredFor "Book" (transcript Bookstore.volume Bookstore.catalogue Bookstore.origin)).map
        Column.name).eraseDups = ["ID", "Price"] ∧
      table.columns = [⟨"ID", .identity, none, none, none, none⟩,
        ⟨"Price", .numeric, some "int", some "ID", none, none⟩] ∧
      ∀ column ∈ table.columns,
        column.Settled
        (declaredFor "Book" (transcript Bookstore.volume Bookstore.catalogue Bookstore.origin)) ∧
        column.size.isSome = column.type.isSized := by
  obtain ⟨compilation, success, told⟩ := Bookstore.success
  simp only [Bookstore.outline, Prod.mk.injEq, Option.map_eq_some_iff] at told
  obtain ⟨⟨table, found, columns⟩, _⟩ := told
  obtain ⟨names, _, settled⟩ := columns_last_declaration success "Book" table found
  refine ⟨compilation, table, success, found, ?_, columns, settled⟩
  rw [← names, Table.columnNames, columns]
  rfl

end StanzaSchema
