import StanzaSchema.Artifact
import StanzaSchema.Proofs.Legibility
import StanzaSchema.Proofs.Likeness

/-!
Artifacts read back. The text of the whole model is loaded as a model like the one that was written,
derived schemas included, and the text of the tables alone as these tables.
-/

namespace StanzaSchema

open Json (Shape Readable nestingLimit)

/-- Data whose layout is read back with all maps in order, nests at most so deep, and is told apart
from what is read by the order of map entries only. -/
structure ReadsBack {α : Type} (shape : Shape α) (encode : α → Json) (order : α → α)
    (alike : α → α → Prop) (depth : Nat) (data : α) : Prop where
  reads : shape (encode data).sorted = .ok (order data)
  readable : Readable depth (encode data)
  alike : alike data (order data)

abbrev Table.Restorable := ReadsBack Table.shape Table.toJson Table.sorted Table.Alike

abbrev DerivedSchema.Restorable :=
  ReadsBack DerivedSchema.shape DerivedSchema.toJson DerivedSchema.sorted DerivedSchema.Alike

abbrev JsonSchema.Restorable :=
  ReadsBack JsonSchema.shape JsonSchema.toJson JsonSchema.sorted JsonSchema.Alike

abbrev Model.Restorable := ReadsBack Model.shape Model.toJson Model.sorted Model.Alike

variable {depth : Nat}

theorem Table.restorable {table : Table} (room : 2 ≤ depth)
    (inner : ∀ derived, table.derived = some derived → derived.Restorable depth) :
    table.Restorable (depth + 1) where
  reads := shape_toJson fun derived held => (inner derived held).reads
  readable :=
    confined_toJson ((Json.confined_map fun column _ => column.confined_toJson).mono room)
      fun derived held => (inner derived held).readable
  alike := alike_sorted fun derived held => (inner derived held).alike

theorem JsonSchema.restorable {schema : JsonSchema} (room : 2 ≤ depth)
    (inner : ∀ table, schema.table = some table → table.Restorable depth) :
    schema.Restorable (depth + 1) where
  reads := shape_toJson fun table held => (inner table held).reads
  readable :=
    confined_toJson ((Json.confined_ofMap fun entry _ => entry.2.confined_toJson).mono room)
      ((Json.confined_map fun _ _ => .text _).mono (Nat.le_of_succ_le room))
      fun table held => (inner table held).readable
  alike := alike_sorted fun table held => (inner table held).alike

theorem DerivedSchema.restorable {derived : DerivedSchema} (room : 2 ≤ depth)
    (defaults : ∀ entry ∈ derived.defaults.entries, Readable 0 entry.2 ∧ entry.2 = entry.2.sorted)
    (canonical : derived.authorization.Canonical)
    (inner : ∀ schema, derived.jsonSchema = some schema → schema.Restorable depth) :
    derived.Restorable (depth + 1) where
  reads := shape_toJson (Policy.shape_toJson canonical) fun schema held => (inner schema held).reads
  readable :=
    confined_toJson ((Json.confined_map fun entry _ => entry.confined_toJson).mono room)
      ((Json.confined_ofMap fun entry listed =>
        (defaults entry listed).1).mono (Nat.le_of_succ_le room))
      (derived.authorization.confined_toJson.mono room) fun schema held =>
        (inner schema held).readable
  alike :=
    alike_sorted (fun entry listed => (defaults entry listed).2) fun schema held =>
      (inner schema held).alike

private theorem DataType.sorted_defaultValue (type : DataType) :
    type.defaultValue = type.defaultValue.sorted := by
  cases type <;> rfl

namespace Table

variable {table : Table}

private theorem defaults_outline (distinct : table.columnNames.Nodup)
    (authorization : Option Policy) :
    ∀ entry ∈ (table.outline authorization).defaults.entries, Readable 0 entry.2 ∧
      entry.2 = entry.2.sorted := by
  have keys : (Entries.keys (table.columns.map fun column =>
      (column.name, column.type.defaultValue))).Nodup := by
    simpa [Entries.keys, columnNames, Function.comp_def] using distinct
  intro entry listed
  rw [outline, OrderedMap.entries_ofEntries keys] at listed
  obtain ⟨column, _, rfl⟩ := List.mem_map.mp listed
  exact ⟨column.type.readable_defaultValue, column.type.sorted_defaultValue⟩

/-- A table with its derived schema, in which the table stands once more with an outline. -/
theorem restorable_withDerived {authorization : Option Policy} (distinct : table.columnNames.Nodup)
    (canonical : ∀ policy, authorization = some policy → policy.Canonical) :
    (table.withDerived authorization).Restorable 7 := by
  have ruled : (authorization.getD .empty).Canonical := by
    cases authorization with
    | none =>
      intro role listed
      cases listed
    | some policy => exact canonical policy rfl
  have bare : ({ table with derived := none } : Table).columnNames.Nodup := distinct
  generalize shown : ({ table with derived := none } : Table) = base at bare
  have outline : (base.outline authorization).Restorable 3 :=
    DerivedSchema.restorable (by omega) (defaults_outline bare authorization) ruled nofun
  have embedded :
      ({ base with derived := some (base.outline authorization) } : Table).Restorable 4 := by
    refine Table.restorable (by omega) ?_
    intro derived held
    cases held
    exact outline
  have jsonSchema : (base.jsonSchema authorization).Restorable 5 := by
    refine JsonSchema.restorable (by omega) ?_
    intro table held
    cases held
    exact embedded
  have derived : (base.derive authorization).Restorable 6 := by
    refine DerivedSchema.restorable (by omega) (defaults_outline bare authorization) ruled ?_
    intro schema held
    cases held
    exact jsonSchema
  refine Table.restorable (by omega) ?_
  intro schema held
  rw [withDerived, shown] at held
  cases held
  exact derived

end Table

theorem Json.Plain.sorted {value : Json} (plain : value.Plain) : value = value.sorted := by
  rcases plain with ⟨truth, rfl⟩ | ⟨text, rfl⟩ <;> rfl

theorem ViewSet.alike_sorted {views : ViewSet} (tidy : views.Tidy) : views.Alike views.sorted := by
  intro kind
  rw [view_sorted]
  exact View.alike_sorted fun entry listed =>
    ((tidy kind).plain (OrderedMap.mem_entries_iff.mp listed)).sorted

namespace Model

variable {model : Model}

theorem restorable (room : 4 ≤ depth)
    (tables : ∀ entry ∈ model.tables.entries, entry.2.Restorable depth)
    (policies : ∀ entry ∈ model.authorization.entries, entry.2.Canonical)
    (views : ∀ entry ∈ model.views.entries, entry.2.Tidy) : model.Restorable (depth + 2) where
  reads :=
    shape_toJson (Shape.map_ofMap fun entry listed => (tables entry listed).reads)
      (Shape.map_ofMap fun entry listed => Policy.shape_toJson (policies entry listed))
      (Shape.map_ofMap fun entry listed =>
        ViewSet.shape_toJson fun kind => (views entry listed kind).separate.reads)
  readable := by
    have texts : Readable 1 (Json.ofTexts model.sequence) := Json.confined_map fun _ _ => .text _
    have rules : Readable 3 model.authorizationJson :=
      Json.confined_ofMap fun entry _ => entry.2.confined_toJson
    have truths : Readable 1 model.endpointsJson := Json.confined_ofMap fun _ _ => .boolean _
    have shown : Readable 5 model.viewsJson :=
      Json.confined_ofMap fun entry listed => (views entry listed).readable
    exact confined_toJson (Json.confined_ofMap fun entry listed => (tables entry listed).readable)
      (texts.mono (by omega)) (rules.mono (by omega)) (truths.mono (by omega))
        (shown.mono (by omega))
  alike :=
    { tables := OrderedMap.alike_sorted_map fun entry listed => (tables entry listed).alike
      sequence := rfl
      authorization := OrderedMap.alike_sorted_map fun entry _ => entry.2.alike_sorted
      endpoints := model.endpoints.alike_sorted
      views :=
        OrderedMap.alike_sorted_map fun entry listed => ViewSet.alike_sorted (views entry listed) }

theorem parse_pretty (reads : Model.shape model.toJson.sorted = .ok model.sorted)
    (readable : Readable nestingLimit model.toJson) (indent : Nat) :
    Model.parse (model.toJson.pretty indent) = .ok ⟨model.sorted, true⟩ := by
  have told : model.toJson.sorted.hasMember "Authorization" = true := by
    have laid : model.toJson = .object model.members := rfl
    rw [laid, Json.sorted_eq_inOrder, Json.hasMember, Json.member?_eq_find?,
      Json.find?_inOrder model.keys_members_nodup]
    rfl
  simp only [parse, Json.parse_pretty indent readable, reads, told]

theorem parse_toJson (restorable : model.Restorable depth) (fits : depth ≤ nestingLimit)
    (indent : Nat) :
    Model.parse (model.toJson.pretty indent) = .ok ⟨model.sorted, true⟩ :=
  parse_pretty restorable.reads (restorable.readable.mono fits) indent

theorem parse_baseJson (tables : ∀ entry ∈ model.tables.entries, entry.2.Restorable depth)
    (fits : depth + 2 ≤ nestingLimit) (indent : Nat) :
    Model.parse (model.baseJson.pretty indent) =
      .ok ⟨{ empty with tables := model.tables.sorted.map Table.sorted }, false⟩ := by
  have distinct : (Entries.keys [("Tables", model.tablesJson)]).Nodup :=
    (by decide : ["Tables"].Nodup)
  have untold : model.baseJson.sorted.hasMember "Authorization" = false := by
    rw [baseJson, Json.sorted_eq_inOrder, Json.hasMember, Json.member?_eq_find?,
      Json.find?_inOrder distinct]
    rfl
  have readable : Readable (depth + 2) model.baseJson := by
    refine .object ?_
    simp only [List.forall_mem_cons]
    exact ⟨Json.confined_ofMap fun entry listed => (tables entry listed).readable, by simp⟩
  simp only [parse, Json.parse_pretty indent (readable.mono fits),
    shape_baseJson fun entry listed => (tables entry listed).reads, untold]

/-- Where every table stands in the sequence under its own name, the order of the map does not
matter. -/
theorem names_tablesInOrder_sorted
    (listed : ∀ entry ∈ model.tables.entries, entry.2.name = entry.1 ∧ entry.1 ∈ model.sequence) :
    model.sorted.tablesInOrder.map Table.name = model.tablesInOrder.map Table.name := by
  have named (table : Table) : table.sorted.name = table.name := by rw [Table.sorted_eq]
  have unlisted (tables : List Table) (own : ∀ table ∈ tables, table.name ∈ model.sequence) :
      tables.filter (fun table => !model.sequence.contains table.name) = [] := by
    rw [List.filter_eq_nil_iff]
    intro table member
    simp [own table member]
  have first : ∀ table ∈ model.tables.values, table.name ∈ model.sequence := by
    intro table member
    obtain ⟨entry, present, rfl⟩ := List.mem_map.mp member
    exact (listed entry present).1 ▸ (listed entry present).2
  have second : ∀ table ∈ model.sorted.tables.values, table.name ∈ model.sequence := by
    intro table member
    obtain ⟨moved, present, rfl⟩ := List.mem_map.mp member
    obtain ⟨entry, inside, rfl⟩ := List.mem_map.mp present
    rw [named]
    exact first entry.2 (List.mem_map_of_mem (model.tables.entries_sorted_perm.mem_iff.mp inside))
  have found (name : String) : (model.sorted.tables.get? name).map Table.name =
      (model.tables.get? name).map Table.name := by
    rw [sorted, OrderedMap.get?_map, OrderedMap.get?_sorted, Option.map_map]
    congr 1
    exact funext named
  simp only [tablesInOrder, List.map_append, unlisted _ first]
  rw [show model.sorted.sequence = model.sequence from rfl, unlisted _ second, List.map_filterMap,
    List.map_filterMap]
  simp only [found]

end Model

section Success

variable {volume : Volume} {text : String} {origin : Path} {compilation : Compilation}

theorem coherent_of_ok (success : (compileText volume text origin).result = .ok compilation) :
    compilation.model.Coherent := by
  rw [model_of_ok success]
  exact Progress.coherent_readAll _

theorem canonical_of_ok (success : (compileText volume text origin).result = .ok compilation)
    {name : String} {policy : Policy}
    (found : compilation.model.authorization.get? name = some policy) : policy.Canonical := by
  rw [model_of_ok success] at found
  exact Progress.canonical_readAll _ name policy found

/-- The model of a run with its derived schemas. -/
theorem restorable_derive (success : (compileText volume text origin).result = .ok compilation) :
    compilation.model.derive.Restorable 9 := by
  have coherent := coherent_of_ok success
  have tidy := Progress.tidy_readAll (scannedLines volume text origin)
  rw [← model_of_ok success] at tidy
  refine Model.restorable (by omega) ?_ ?_ ?_
  · intro entry listed
    obtain ⟨former, present, rfl⟩ := List.mem_map.mp listed
    have sound := coherent.tables (OrderedMap.mem_entries_iff.mp present)
    exact Table.restorable_withDerived sound.distinct fun policy found =>
      canonical_of_ok success found
  · exact fun entry listed => canonical_of_ok success (OrderedMap.mem_entries_iff.mp listed)
  · exact fun entry listed => tidy _ _ (OrderedMap.mem_entries_iff.mp listed)

/-- The tables of a run as they stand. -/
theorem restorable_tables (success : (compileText volume text origin).result = .ok compilation) :
    ∀ entry ∈ compilation.model.tables.entries, entry.2.Restorable 3 ∧
      entry.2 = entry.2.sorted := by
  have coherent := coherent_of_ok success
  intro entry listed
  have underived := (coherent.tables (OrderedMap.mem_entries_iff.mp listed)).underived
  constructor
  · refine Table.restorable (by omega) ?_
    intro derived held
    rw [underived] at held
    cases held
  · obtain ⟨name, table⟩ := entry
    cases table
    cases underived
    rfl

private theorem names_inOrder_derive
    (success : (compileText volume text origin).result = .ok compilation) :
    compilation.model.derive.sorted.tablesInOrder.map Table.name =
      compilation.model.derive.tablesInOrder.map Table.name := by
  have coherent := coherent_of_ok success
  refine Model.names_tablesInOrder_sorted ?_
  intro entry listed
  obtain ⟨former, present, rfl⟩ := List.mem_map.mp listed
  have key : former.1 ∈ compilation.model.tables.keys := List.mem_map_of_mem present
  rw [coherent.sequence] at key
  exact ⟨(coherent.tables (OrderedMap.mem_entries_iff.mp present)).name_eq, key⟩

end Success

/-- The artifacts of a run are read back, whatever their indentation. The whole model comes back
with its derived schemas like the one that was written, up to the order of map entries, and shows
its tables in the same order; the base comes back as the tables of the run and nothing else. -/
theorem artifacts_read_back {volume : Volume} {text : String} {origin : Path}
    {compilation : Compilation}
    (success : (compileText volume text origin).result = .ok compilation) (indent : Nat) :
    (∃ loaded, Model.parse (Artifact.extended.text compilation.model indent) = .ok loaded ∧
      loaded.extended = true ∧ compilation.model.derive.Alike loaded.model ∧
      loaded.model.tablesInOrder.map Table.name =
        compilation.model.derive.tablesInOrder.map Table.name) ∧
    ∃ loaded, Model.parse (Artifact.base.text compilation.model indent) = .ok loaded ∧
      loaded.extended = false ∧
      compilation.model.tables.Alike Eq loaded.model.tables ∧ loaded.model.sequence = [] ∧
      loaded.model.authorization = .empty ∧ loaded.model.endpoints = .empty ∧
      loaded.model.views = .empty := by
  have whole := restorable_derive success
  have tables := restorable_tables success
  constructor
  · exact ⟨_, Model.parse_toJson whole (by decide) indent, rfl, whole.alike,
      names_inOrder_derive success⟩
  · refine ⟨_,
      Model.parse_baseJson (fun entry listed => (tables entry listed).1) (by decide) indent,
      rfl, ?_, rfl, rfl,
      rfl, rfl⟩
    exact OrderedMap.alike_sorted_map fun entry listed => (tables entry listed).2

/-- The columns of a table that two files declare, read back from the base. -/
theorem artifacts_read_back_bookstore :
    ∃ compilation loaded base,
      (compileText Bookstore.volume Bookstore.catalogue Bookstore.origin).result = .ok compilation ∧
      Model.parse (Artifact.extended.text compilation.model 4) = .ok loaded ∧
      loaded.extended = true ∧ compilation.model.derive.Alike loaded.model ∧
      Model.parse (Artifact.base.text compilation.model 4) = .ok base ∧ base.extended = false ∧
      (base.model.tables.get? "Book").map Table.columns =
        some [⟨"ID", .identity, none, none, none, none⟩,
          ⟨"Price", .numeric, some "int", some "ID", none, none⟩] := by
  obtain ⟨compilation, success, told⟩ := Bookstore.success
  obtain ⟨⟨loaded, whole, extended, alike, _⟩, base, bare, reduced, tables, _⟩ :=
    artifacts_read_back success 4
  refine ⟨compilation, loaded, base, success, whole, extended, alike, bare, reduced, ?_⟩
  simp only [Bookstore.outline, Prod.mk.injEq] at told
  rw [← tables.get?_eq, told.1]

end StanzaSchema
