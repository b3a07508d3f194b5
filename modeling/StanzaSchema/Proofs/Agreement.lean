import StanzaSchema.Proofs.Completion
import StanzaSchema.Proofs.RoundTrip

/-!
The artifacts of one run say the same. What the base tells of the tables is what the whole model
tells of them without their derived schemas, the views stand in both of the other artifacts, and
derived schemas come out again when they are derived from what was read back, from the base without
the policies that it does not tell.
-/

namespace StanzaSchema

open Json (Readable nestingLimit)

/-- The table without its derived schema. -/
def Table.bare (table : Table) : Table := { table with derived := none }

mutual
/-- The table with no policy in its derived schema, nor in that of the table embedded there. -/
def Table.unruled : Table → Table
  | { name, domain, columns, description, derived } =>
    match derived with
    | none => { name, domain, columns, description, derived := none }
    | some derived => { name, domain, columns, description, derived := some derived.unruled }
def DerivedSchema.unruled : DerivedSchema → DerivedSchema
  | { scope, identifier, domain, entries, defaults, jsonSchema, authorization := _ } =>
    match jsonSchema with
    | none =>
      { scope, identifier, domain, entries, defaults, jsonSchema := none, authorization := .empty }
    | some schema =>
      { scope, identifier, domain, entries, defaults,
        jsonSchema := some schema.unruled, authorization := .empty }
def JsonSchema.unruled : JsonSchema → JsonSchema
  | { title, type, properties, required, table } =>
    match table with
    | none => { title, type, properties, required, table := none }
    | some table => { title, type, properties, required, table := some table.unruled }
end

theorem Policy.sorted_sorted (policy : Policy) : policy.sorted.sorted = policy.sorted := by
  simp only [sorted, OrderedMap.sorted_map, OrderedMap.sorted_sorted, OrderedMap.map_map]

theorem Policy.Canonical.sorted {policy : Policy} (canonical : policy.Canonical) :
    policy.sorted.Canonical := by
  intro role listed operation member
  obtain ⟨former, present, rfl⟩ := List.mem_map.mp listed
  have role_present := policy.roles.entries_sorted_perm.mem_iff.mp present
  exact canonical former role_present operation (former.2.entries_sorted_perm.mem_iff.mp member)

namespace Table

variable {table : Table}

theorem bare_eq_self (underived : table.derived = none) : table.bare = table := by
  cases table
  cases underived
  rfl

theorem sorted_eq_self (underived : table.derived = none) : table.sorted = table := by
  cases table
  cases underived
  rfl

theorem bare_sorted_withDerived (table : Table) (authorization : Option Policy) :
    (table.withDerived authorization).sorted.bare = table.bare := rfl

/-- In order, derived schemas are alike to the last entry when the policies are. -/
theorem sorted_withDerived_congr (table : Table) {first second : Option Policy}
    (same : (first.getD .empty).sorted = (second.getD .empty).sorted) :
    (table.withDerived first).sorted = (table.withDerived second).sorted := by
  simp only [withDerived, derive, jsonSchema, outline, sorted_eq, DerivedSchema.sorted_eq,
    JsonSchema.sorted_eq, Option.map_some, Option.map_none, same]

theorem unruled_sorted_withDerived (table : Table) (authorization : Option Policy) :
    (table.withDerived authorization).sorted.unruled = (table.withDerived none).sorted := rfl

/-- Deriving again from a table in order gives back what was there, up to the order of map
entries. -/
theorem alike_withDerived_sorted {authorization : Option Policy}
    (distinct : table.columnNames.Nodup)
    (canonical : ∀ policy, authorization = some policy → policy.Canonical) :
    ((table.withDerived authorization).sorted.withDerived (authorization.map Policy.sorted)).Alike
      (table.withDerived authorization).sorted := by
  have again :
      (table.withDerived authorization).sorted.withDerived (authorization.map Policy.sorted) =
      table.withDerived (authorization.map Policy.sorted) := rfl
  have ordered : ((authorization.map Policy.sorted).getD .empty).sorted =
      (authorization.getD .empty).sorted := by
    cases authorization with
    | none => rfl
    | some policy => exact policy.sorted_sorted
  have kept : ∀ policy, authorization.map Policy.sorted = some policy → policy.Canonical := by
    intro policy held
    obtain ⟨former, present, rfl⟩ := Option.map_eq_some_iff.mp held
    exact (canonical former present).sorted
  rw [again, ← table.sorted_withDerived_congr ordered]
  exact (restorable_withDerived distinct kept).alike

end Table

namespace Model

variable {model : Model}

/-- The tables that come back from the text of a derived model. -/
theorem tables_sorted_derive (model : Model) :
    model.derive.sorted.tables =
      model.tables.sorted.map fun table =>
        (table.withDerived (model.authorization.get? table.name)).sorted := by
  simp only [sorted, derive, OrderedMap.sorted_map, OrderedMap.map_map]

theorem get?_authorization_sorted (model : Model) (name : String) :
    model.sorted.authorization.get? name = (model.authorization.get? name).map Policy.sorted := by
  rw [sorted, OrderedMap.get?_map, OrderedMap.get?_sorted]

/-- A model whose tables have nothing derived yet and can be derived from. -/
structure Underived (model : Model) : Prop where
  tables : ∀ {name table}, model.tables.get? name = some table →
    table.derived = none ∧ table.columnNames.Nodup
  policies : ∀ {name policy}, model.authorization.get? name = some policy → policy.Canonical

theorem Underived.of_mem (underived : model.Underived) {entry : String × Table}
    (listed : entry ∈ model.tables.sorted.entries) :
    entry.2.derived = none ∧ entry.2.columnNames.Nodup :=
  underived.tables
    (OrderedMap.mem_entries_iff.mp (model.tables.entries_sorted_perm.mem_iff.mp listed))

theorem Underived.bare_tables (underived : model.Underived) :
    model.tables.sorted.map Table.sorted = model.derive.sorted.tables.map Table.bare := by
  rw [tables_sorted_derive, OrderedMap.map_map]
  apply OrderedMap.map_congr
  intro entry listed
  have plain := (underived.of_mem listed).1
  rw [Table.bare_sorted_withDerived, Table.bare_eq_self plain, Table.sorted_eq_self plain]

/-- Deriving once more changes nothing but the order of map entries. -/
theorem Underived.derive_sorted_derive (underived : model.Underived) :
    model.derive.sorted.derive.Alike model.derive.sorted where
  tables := by
    rw [derive, tables_sorted_derive, OrderedMap.map_map]
    apply OrderedMap.alike_map
    intro entry listed
    have named : (entry.2.withDerived (model.authorization.get? entry.2.name)).sorted.name =
        entry.2.name := rfl
    rw [named, get?_authorization_sorted]
    exact Table.alike_withDerived_sorted (underived.of_mem listed).2 fun policy found =>
      underived.policies found
  sequence := rfl
  authorization := .refl Policy.Alike.refl _
  endpoints := .refl (fun _ => rfl) _
  views := .refl ViewSet.Alike.refl _

/-- Without policies, the tables alone derive what the whole model holds but for the policies. -/
theorem Underived.derive_base (underived : model.Underived) :
    ({ empty with tables := model.tables.sorted.map Table.sorted } : Model).derive.tables.Alike
      Table.Alike
      (model.derive.sorted.tables.map Table.unruled) := by
  rw [derive, tables_sorted_derive, OrderedMap.map_map, OrderedMap.map_map]
  apply OrderedMap.alike_map
  intro entry listed
  obtain ⟨plain, distinct⟩ := underived.of_mem listed
  have unruled : (empty : Model).authorization.get? entry.2.sorted.name = none := rfl
  have canonical : ∀ policy, (none : Option Policy) = some policy → policy.Canonical := nofun
  rw [unruled, Table.sorted_eq_self plain, Table.unruled_sorted_withDerived]
  exact (Table.restorable_withDerived distinct canonical).alike

/-- The views stand in the text of the model as in their own. -/
theorem parse_viewsJson (readable : Readable nestingLimit model.toJson) (indent : Nat) :
    ∃ members, Json.parse (model.toJson.pretty indent) = .ok (.object members) ∧
      Json.parse (model.viewsJson.pretty indent) = .ok model.viewsJson.sorted ∧
      Json.member? "Pict" members = some model.viewsJson.sorted := by
  have inside : Readable nestingLimit model.viewsJson := by
    cases readable with
    | object inside => exact (inside ("Pict", model.viewsJson) (by simp)).mono (Nat.le_succ _)
  have laid : model.toJson = .object model.members := rfl
  refine ⟨Json.inOrder model.members, ?_, Json.parse_pretty indent inside, ?_⟩
  · rw [Json.parse_pretty indent readable, laid, Json.sorted_eq_inOrder]
  · rw [Json.member?_eq_find?, Json.find?_inOrder model.keys_members_nodup]
    rfl

end Model

private theorem underived_of_ok {volume : Volume} {text : String} {origin : Path}
    {compilation : Compilation}
    (success : (compileText volume text origin).result = .ok compilation) :
    compilation.model.Underived := by
  refine ⟨?_, canonical_of_ok success⟩
  intro name table found
  have sound := (coherent_of_ok success).tables found
  exact ⟨sound.underived, sound.distinct⟩

/-- The JSON value in the file at `path`. -/
def FileSystem.json? (system : FileSystem) (path : Path) : Option Json :=
  match system.readText path with
  | .ok text => (Json.parse text).toOption
  | .error _ => none

theorem loadFile_ok {volume : Volume} {path : Path} {text : String} {loaded : LoadedModel}
    (readable : volume.read path = .ok text) (parsed : Model.parse text = .ok loaded) :
    (loadFile volume path).result = .ok loaded := by
  simp only [loadFile, readable, loadText, parsed]

/-- The artifacts that a job leaves behind agree. The whole model comes back as the one that was
compiled; without derived schemas it has the tables of the base, to the order of the entries; and
its views are the value that stands in the last artifact. Deriving schemas from it again changes
nothing but the order of map entries, and deriving them from the base gives the same tables with
empty policies in place of those that the base does not tell. -/
theorem artifacts_agree {job : Job} {system : FileSystem} {compilation : Compilation}
    (success : (job.run system).report.result = .ok compilation) :
    let disk := (job.run system).system
    ∃ base extended members views,
      (loadFile disk.volume (job.place .base)).result = .ok base ∧
      (loadFile disk.volume (job.place .extended)).result = .ok extended ∧
      disk.json? (job.place .extended) = some (.object members) ∧
      disk.json? (job.place .views) = some views ∧ compilation.model.Alike extended.model ∧
      base.model.tables = extended.model.tables.map Table.bare ∧
      Json.member? "Pict" members = some views ∧
      extended.model.derive.Alike extended.model ∧
      base.model.derive.tables.Alike Table.Alike (extended.model.tables.map Table.unruled) := by
  intro disk
  obtain ⟨made, reading, completed, rfl⟩ := Job.completed_of_ok success
  have held := completed.readText_place
  obtain ⟨text, readable, same⟩ := compileFile_ok completed.read
  have read := completed.read
  rw [same] at read
  have whole := restorable_derive read
  have tables := restorable_tables read
  have underived := underived_of_ok read
  obtain ⟨members, parsed, views, member⟩ :=
    Model.parse_viewsJson (whole.readable.mono (by decide)) job.indent
  refine ⟨_, _, members, _,
    loadFile_ok (held .base)
      (Model.parse_baseJson (fun entry listed => (tables entry listed).1) (by decide) job.indent),
    loadFile_ok (held .extended) (Model.parse_toJson whole (by decide) job.indent), ?_,
    ?_, whole.alike, underived.bare_tables, member, underived.derive_sorted_derive,
    underived.derive_base⟩
  · simp only [disk, FileSystem.json?, held .extended]
    exact congrArg Except.toOption parsed
  · simp only [disk, FileSystem.json?, held .views]
    exact congrArg Except.toOption views

/-- The books, read back from the base and from the whole model. -/
theorem artifacts_agree_bookstore :
    let ended := Bookstore.job.run Bookstore.disk
    ∃ compilation base extended,
      ended.report.result = .ok compilation ∧
      (loadFile ended.system.volume (Bookstore.job.place .base)).result = .ok base ∧
      (loadFile ended.system.volume (Bookstore.job.place .extended)).result = .ok extended ∧
      base.model.tables = extended.model.tables.map Table.bare ∧
      extended.model.derive.Alike extended.model ∧
      base.model.derive.tables.Alike Table.Alike (extended.model.tables.map Table.unruled) ∧
      (extended.model.tables.get? "Book").map Table.columns =
        some [⟨"ID", .identity, none, none, none, none⟩,
          ⟨"Price", .numeric, some "int", some "ID", none, none⟩] := by
  intro ended
  obtain ⟨compilation, completed, outlined, _⟩ := Bookstore.completed
  have success : ended.report.result =
      .ok { compilation with model := compilation.model.derive } := by
    rw [show ended = _ from completed.run_eq]
    rfl
  obtain ⟨base, extended, _, _, bare, whole, _, _, alike, tables, _, again, derived⟩ :=
    artifacts_agree success
  refine ⟨_, base, extended, success, bare, whole, tables, again, derived, ?_⟩
  simp only [Bookstore.outline, Prod.mk.injEq] at outlined
  have columns (one other : Table) (alike : one.Alike other) : one.columns = other.columns := by
    obtain ⟨_, _, columns, _, _⟩ := alike
    exact columns
  rw [← alike.tables.map_get?_eq columns, Model.derive, OrderedMap.get?_map, Option.map_map,
    ← outlined.1]
  rfl

end StanzaSchema
