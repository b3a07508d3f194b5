import StanzaSchema.Proofs.Agreement

/-!
What foreign keys refer to. The index of identity columns gives the last table that has an identity
column of the name, by the order of the map: the order of declaration in a model that was compiled,
and the order of names in one that was read back. So a name that several tables give to their
identity may lead to another of them after a round trip, and nothing else may.
-/

namespace StanzaSchema

/-- Whether the table has an identity column of this name. -/
def Table.isIdentifiedBy (table : Table) (column : String) : Bool :=
  table.columns.any fun own => own.isIdentity && own.name == column

namespace Model

/-- The tables with an identity column of this name, in the order of the map. -/
def owners (model : Model) (column : String) : List String :=
  (model.tables.values.filter fun table => table.isIdentifiedBy column).map Table.name

end Model

/-- What a table writes to the index under a name. -/
theorem Table.getLast?_identities (table : Table) (column : String) :
    (((table.columns.filter Column.isIdentity).map fun own => (own.name, table.name)).filterMap
      fun entry => if entry.1 = column then some entry.2 else none).getLast? =
      if table.isIdentifiedBy column then some table.name else none := by
  unfold isIdentifiedBy
  induction table.columns with
  | nil => rfl
  | cons own rest ih =>
    by_cases identity : own.isIdentity = true
    · by_cases same : own.name = column
      · simp only [List.filter_cons_of_pos identity, List.map_cons, same,
          List.filterMap_cons, ↓reduceIte, List.getLast?_cons, ih, List.any_cons, identity,
          beq_self_eq_true, Bool.and_self, Bool.true_or]
        split <;> rfl
      · simp only [List.filter_cons_of_pos identity, List.map_cons, same, List.filterMap_cons,
          ↓reduceIte, ih, List.any_cons, beq_eq_false_iff_ne.mpr same, Bool.and_false,
          Bool.false_or]
    · simp only [List.filter_cons_of_neg identity, ih, List.any_cons, identity, Bool.false_and,
        Bool.false_or]

namespace Model

variable {model : Model}

/-- The index gives the last owner. -/
theorem get?_identityIndex (model : Model) (column : String) :
    model.identityIndex.get? column = (model.owners column).getLast? := by
  rw [identityIndex, OrderedMap.get?_ofEntries, List.filterMap_flatMap, owners]
  induction model.tables.values with
  | nil => rfl
  | cons table rest ih =>
    rw [List.flatMap_cons, List.getLast?_append, ih, table.getLast?_identities]
    by_cases owned : table.isIdentifiedBy column = true
    · simp only [owned, ↓reduceIte, List.filter_cons, List.map_cons, List.getLast?_cons]
      cases ((rest.filter fun table => table.isIdentifiedBy column).map Table.name).getLast? <;> rfl
    · simp only [owned, Bool.false_eq_true, ↓reduceIte, List.filter_cons, Option.or_none]

/-- The model with its tables in the order of their keys. -/
def inKeyOrder (model : Model) : Model := { model with tables := model.tables.sorted }

theorem owners_inKeyOrder_perm (model : Model) (column : String) :
    (model.inKeyOrder.owners column).Perm (model.owners column) :=
  (((model.tables.entries_sorted_perm.map Prod.snd).filter _).map Table.name)

/-- In key order owners are in the order of their names. -/
theorem ascending_owners (named : ∀ entry ∈ model.tables.entries, entry.2.name = entry.1)
    (column : String) :
    (model.inKeyOrder.owners column).Pairwise (· < ·) := by
  have entries : model.tables.sorted.entries.Pairwise fun first second =>
    first.2.name < second.2.name := by
    refine (Entries.ascending_arrange model.tables.entries).imp_of_mem ?_
    intro first second one another less
    rw [named first (model.tables.entries_sorted_perm.mem_iff.mp one),
      named second (model.tables.entries_sorted_perm.mem_iff.mp another)]
    exact less
  exact ((entries.map Prod.snd fun _ _ less => less).filter _).map Table.name fun _ _ less => less

end Model

/-- The last of ascending names is the greatest. -/
theorem getLast?_of_ascending {names : List String} (ascending : names.Pairwise (· < ·))
    {name : String} :
    names.getLast? = some name ↔ name ∈ names ∧ ∀ other ∈ names, other ≤ name := by
  rcases List.eq_nil_or_concat names with rfl | ⟨front, last, rfl⟩
  · simp
  rw [List.concat_eq_append] at ascending ⊢
  obtain ⟨_, _, less⟩ := List.pairwise_append.mp ascending
  have below : ∀ other ∈ front ++ [last], other ≤ last := by
    intro other listed
    rcases List.mem_append.mp listed with earlier | same
    · exact String.not_lt.mp (String.lt_asymm (less other earlier last (by simp)))
    · exact List.mem_singleton.mp same ▸ String.le_refl _
  rw [List.getLast?_concat, Option.some.injEq]
  constructor
  · rintro rfl
    exact ⟨by simp, below⟩
  · rintro ⟨listed, greatest⟩
    exact String.le_antisymm (greatest last (by simp)) (below name listed)

namespace Model

variable {model other : Model} {column : String}

/-- In key order the index gives the owner whose name is the greatest. -/
theorem get?_identityIndex_inKeyOrder
    (named : ∀ entry ∈ model.tables.entries, entry.2.name = entry.1) {name : String} :
    model.inKeyOrder.identityIndex.get? column = some name ↔
      name ∈ model.owners column ∧ ∀ other ∈ model.owners column, other ≤ name := by
  rw [get?_identityIndex, getLast?_of_ascending (ascending_owners named column)]
  simp only [(model.owners_inKeyOrder_perm column).mem_iff]

/-- The index does not tell tables apart but by name and columns. -/
theorem get?_identityIndex_map {change : Table → Table}
    (shown : other.tables = model.tables.sorted.map change)
    (same : ∀ table, (change table).name = table.name ∧ (change table).columns = table.columns) :
    other.identityIndex.get? column = model.inKeyOrder.identityIndex.get? column := by
  have values : other.tables.values = model.tables.sorted.values.map change := by
    simp [shown, OrderedMap.values, OrderedMap.map, Function.comp_def]
  have owned (table : Table) : (change table).isIdentifiedBy column =
      table.isIdentifiedBy column := by
    rw [Table.isIdentifiedBy, Table.isIdentifiedBy, (same table).2]
  rw [get?_identityIndex, get?_identityIndex, owners, owners, values, List.filter_map, List.map_map]
  simp only [Function.comp_def, owned, (same _).1, inKeyOrder]

private theorem get?_identityIndex_derive_sorted (model : Model) (column : String) :
    model.derive.sorted.identityIndex.get? column = model.inKeyOrder.identityIndex.get? column :=
  get?_identityIndex_map (tables_sorted_derive model) fun _ => ⟨rfl, rfl⟩

private theorem get?_identityIndex_base (model : Model) (column : String) :
    ({ empty with tables := model.tables.sorted.map Table.sorted } : Model).identityIndex.get?
      column =
      model.inKeyOrder.identityIndex.get? column := by
  refine get?_identityIndex_map rfl ?_
  intro table
  rw [Table.sorted_eq]
  exact ⟨rfl, rfl⟩

end Model

section Success

variable {volume : Volume} {text : String} {origin : Path} {compilation : Compilation}

theorem named_of_ok (success : (compileText volume text origin).result = .ok compilation) :
    ∀ entry ∈ compilation.model.tables.entries, entry.2.name = entry.1 := by
  intro entry listed
  exact ((coherent_of_ok success).tables (OrderedMap.mem_entries_iff.mp listed)).name_eq

/-- Both artifacts are read back with an index like that of the tables in key order. -/
theorem index_of_ok (success : (compileText volume text origin).result = .ok compilation)
    (indent : Nat) :
    ∃ extended base,
      Model.parse (Artifact.extended.text compilation.model indent) = .ok extended ∧
      Model.parse (Artifact.base.text compilation.model indent) = .ok base ∧
      ∀ column,
        extended.tableForIdentity? column = compilation.model.inKeyOrder.identityIndex.get? column ∧
        base.tableForIdentity? column = compilation.model.inKeyOrder.identityIndex.get? column := by
  have tables := restorable_tables success
  refine ⟨_, _, Model.parse_toJson (restorable_derive success) (by decide) indent,
    Model.parse_baseJson (fun entry listed => (tables entry listed).1) (by decide) indent, ?_⟩
  intro column
  exact ⟨compilation.model.get?_identityIndex_derive_sorted column,
    compilation.model.get?_identityIndex_base column⟩

end Success

/-- Foreign keys over a round trip. Of the tables with an identity column of the name, the compiled
model gives the one that was declared last. The artifacts are both read back with the one whose name
is the greatest: the same table if and only if no other of these tables comes after the last
declared one by name, and a table at all if and only if the compiled model gives one. -/
theorem foreign_keys_read_back {volume : Volume} {text : String} {origin : Path}
    {compilation : Compilation}
    (success : (compileText volume text origin).result = .ok compilation) (indent : Nat)
    (column : String) :
    ∃ extended base,
      Model.parse (Artifact.extended.text compilation.model indent) = .ok extended ∧
      Model.parse (Artifact.base.text compilation.model indent) = .ok base ∧
      let owners := compilation.model.owners column
      let compiled := compilation.model.identityIndex.get? column
      compiled = owners.getLast? ∧
      extended.tableForIdentity? column = base.tableForIdentity? column ∧
      (∀ name, base.tableForIdentity? column = some name ↔
        name ∈ owners ∧ ∀ other ∈ owners, other ≤ name) ∧
      (base.tableForIdentity? column = none ↔ compiled = none) ∧
      (base.tableForIdentity? column = compiled ↔
        ∀ last, owners.getLast? = some last → ∀ other ∈ owners, other ≤ last) := by
  obtain ⟨extended, base, whole, bare, index⟩ := index_of_ok success indent
  refine ⟨extended, base, whole, bare, ?_⟩
  intro owners compiled
  have last : compiled = owners.getLast? := compilation.model.get?_identityIndex column
  have greatest (name : String) :
      base.tableForIdentity? column = some name ↔
        name ∈ owners ∧ ∀ other ∈ owners, other ≤ name := by
    rw [(index column).2]
    exact Model.get?_identityIndex_inKeyOrder (named_of_ok success)
  have missing : base.tableForIdentity? column = none ↔ compiled = none := by
    rw [(index column).2, Model.get?_identityIndex, last, List.getLast?_eq_none_iff,
      List.getLast?_eq_none_iff, ← List.length_eq_zero_iff,
      (compilation.model.owners_inKeyOrder_perm column).length_eq, List.length_eq_zero_iff]
  refine ⟨last, (index column).1.trans (index column).2.symm, greatest, missing, ?_⟩
  rw [last] at missing ⊢
  cases found : owners.getLast? with
  | none => simpa using missing.mpr found
  | some name =>
    rw [greatest]
    constructor
    · rintro ⟨_, all⟩ last same
      cases same
      exact all
    · exact fun all => ⟨List.mem_of_getLast? found, all name rfl⟩

namespace Bookstore

/-- Two tables with an identity column of the same name, and one of them with another. -/
def numbered : String := "!Shelf\n@ID\n\n!Book\n@ID\n@Number\n"

private theorem owners_compileWithin :
    (compileWithin 1 volume numbered origin).map (fun compilation =>
      (compilation.model.owners "ID", compilation.model.owners "Number")) =
      some (["Shelf", "Book"], ["Book"]) := by decide +kernel

end Bookstore

/-- The number leads to the books before and after. -/
theorem foreign_keys_read_back_bookstore :
    ∃ compilation extended base,
      (compileText Bookstore.volume Bookstore.numbered Bookstore.origin).result = .ok compilation ∧
      Model.parse (Artifact.extended.text compilation.model 4) = .ok extended ∧
      Model.parse (Artifact.base.text compilation.model 4) = .ok base ∧
      compilation.model.identityIndex.get? "Number" = some "Book" ∧
      extended.tableForIdentity? "Number" = some "Book" ∧
      base.tableForIdentity? "Number" = some "Book" := by
  obtain ⟨compilation, finished, told⟩ := Option.map_eq_some_iff.mp Bookstore.owners_compileWithin
  have success := compileText_of_compileWithin finished
  obtain ⟨_, owned⟩ := Prod.mk.inj told
  obtain ⟨extended, base, whole, bare, last, agree, greatest, _, _⟩ :=
    foreign_keys_read_back success 4 "Number"
  rw [owned] at last greatest
  have found : base.tableForIdentity? "Number" = some "Book" := (greatest "Book").mpr (by simp)
  exact ⟨compilation, extended, base, success, whole, bare, last, agree.trans found, found⟩

/-- The identity that two tables share leads to the books at first, which were declared last, and to
the shelves when either artifact is read back. -/
theorem shared_identity_moves :
    ∃ compilation extended base,
      (compileText Bookstore.volume Bookstore.numbered Bookstore.origin).result = .ok compilation ∧
      Model.parse (Artifact.extended.text compilation.model 4) = .ok extended ∧
      Model.parse (Artifact.base.text compilation.model 4) = .ok base ∧
      compilation.model.identityIndex.get? "ID" = some "Book" ∧
      extended.tableForIdentity? "ID" = some "Shelf" ∧
      base.tableForIdentity? "ID" = some "Shelf" := by
  obtain ⟨compilation, finished, told⟩ := Option.map_eq_some_iff.mp Bookstore.owners_compileWithin
  have success := compileText_of_compileWithin finished
  obtain ⟨owned, _⟩ := Prod.mk.inj told
  obtain ⟨extended, base, whole, bare, index⟩ := index_of_ok success 4
  have compiled : compilation.model.identityIndex.get? "ID" = some "Book" := by
    rw [Model.get?_identityIndex, owned]
    rfl
  have read : compilation.model.inKeyOrder.identityIndex.get? "ID" = some "Shelf" := by
    rw [Model.get?_identityIndex_inKeyOrder (named_of_ok success), owned]
    decide
  exact ⟨compilation, extended, base, success, whole, bare, compiled, (index "ID").1.trans read,
    (index "ID").2.trans read⟩

end StanzaSchema
