import StanzaSchema.Command.Run
import StanzaSchema.Proofs.Agreement

/-!
In which order tables are shown. The sequence is looked up by key, while a table is left for the end
by its own name. Where a table stands under another name than its own, or a name stands in the
sequence twice, it may be shown twice or not at all. All other models show every table once, those
of the sequence first.
-/

namespace StanzaSchema

namespace Model

variable {model : Model} {key : String} {table : Table}

/-- The keys of the tables that are shown, in their order. -/
def listing (model : Model) : List String :=
  model.sequence.filter model.tables.contains ++
    (model.tables.entries.filter fun entry => !model.sequence.contains entry.2.name).map Prod.fst

theorem tablesInOrder_eq (model : Model) :
    model.tablesInOrder = model.listing.filterMap model.tables.get? := by
  have first : (model.sequence.filter model.tables.contains).filterMap model.tables.get? =
      model.sequence.filterMap model.tables.get? := by
    rw [List.filterMap_filter]
    congr 1
    funext name
    unfold OrderedMap.contains
    cases model.tables.get? name <;> rfl
  rw [listing, List.filterMap_append, first,
    OrderedMap.filterMap_get? fun entry listed => (List.mem_filter.mp listed).1,
    tablesInOrder, OrderedMap.values, List.filter_map]
  rfl

/-- A table is shown as often as its key stands in the sequence, and once more if its name does
not. -/
theorem count_listing (found : model.tables.get? key = some table) :
    model.listing.count key =
      model.sequence.count key + if table.name ∈ model.sequence then 0 else 1 := by
  have present : model.tables.contains key = true := by rw [OrderedMap.contains, found]; rfl
  have rest : ((model.tables.entries.filter fun entry =>
      !model.sequence.contains entry.2.name).map Prod.fst).count key =
      if table.name ∈ model.sequence then 0 else 1 := by
    have distinct :
        ((model.tables.entries.filter fun entry =>
          !model.sequence.contains entry.2.name).map Prod.fst).Nodup :=
      (List.filter_sublist.map Prod.fst).nodup model.tables.distinct
    rw [distinct.count]
    have member : key ∈ (model.tables.entries.filter fun entry =>
        !model.sequence.contains entry.2.name).map Prod.fst ↔
        table.name ∉ model.sequence := by
      constructor
      · intro listed
        obtain ⟨entry, kept, rfl⟩ := List.mem_map.mp listed
        obtain ⟨inside, unnamed⟩ := List.mem_filter.mp kept
        cases found.symm.trans (OrderedMap.mem_entries_iff.mp inside)
        simpa using unnamed
      · intro unnamed
        exact List.mem_map_of_mem (List.mem_filter.mpr ⟨OrderedMap.mem_entries_iff.mpr found,
          by simpa using unnamed⟩)
    by_cases named : table.name ∈ model.sequence
    · rw [if_neg fun listed => member.mp listed named, if_pos named]
    · rw [if_pos (member.mpr named), if_neg named]
  rw [listing, List.count_append, List.count_filter present, rest]

private theorem listing_subset (model : Model) : model.listing ⊆ model.tables.keys := by
  intro key listed
  rcases List.mem_append.mp listed with sequenced | left
  · exact OrderedMap.contains_iff.mp (List.mem_filter.mp sequenced).2
  · obtain ⟨entry, kept, rfl⟩ := List.mem_map.mp left
    exact List.mem_map_of_mem (List.mem_filter.mp kept).1

/-- A model in whose sequence a key stands once if the name of its table stands there, and not at
all otherwise. -/
def Sequenced (model : Model) : Prop :=
  ∀ key table, model.tables.get? key = some table →
    model.sequence.count key = if table.name ∈ model.sequence then 1 else 0

/-- Every table is shown once in these models and in no others. -/
theorem listing_perm_iff (model : Model) : model.listing.Perm model.tables.keys ↔
    model.Sequenced := by
  have counted {key : String} {table : Table} (found : model.tables.get? key = some table) :
      model.listing.count key = model.tables.keys.count key ↔
        model.sequence.count key = if table.name ∈ model.sequence then 1 else 0 := by
    have once : model.tables.keys.count key = 1 := by
      rw [OrderedMap.keys, model.tables.distinct.count]
      exact if_pos (OrderedMap.mem_keys_of_get? found)
    rw [once, count_listing found]
    split <;> omega
  rw [List.perm_iff_count]
  constructor
  · intro same key table found
    exact (counted found).mp (same key)
  · intro sequenced key
    by_cases present : key ∈ model.tables.keys
    · obtain ⟨table, found⟩ := OrderedMap.mem_keys_iff.mp present
      exact (counted found).mpr (sequenced key table found)
    · rw [List.count_eq_zero.mpr present,
        List.count_eq_zero.mpr fun listed => present (model.listing_subset listed)]

/-- Where every table is shown once, those that are not in the sequence follow in the order of the
map. -/
theorem Sequenced.listing_eq (sequenced : model.Sequenced) :
    model.listing =
      model.sequence.filter model.tables.contains ++ model.tables.keys.filter fun key =>
        !model.sequence.contains key := by
  have same : ∀ entry ∈ model.tables.entries,
      (!model.sequence.contains entry.2.name) = !model.sequence.contains entry.1 := by
    intro entry listed
    have counted := sequenced entry.1 entry.2 (OrderedMap.mem_entries_iff.mp listed)
    by_cases named : entry.2.name ∈ model.sequence
    · rw [if_pos named] at counted
      have keyed : entry.1 ∈ model.sequence := List.count_pos_iff.mp (by omega)
      simp [named, keyed]
    · rw [if_neg named] at counted
      have unkeyed : entry.1 ∉ model.sequence := List.count_eq_zero.mp counted
      simp [named, unkeyed]
  rw [listing, OrderedMap.keys, Entries.keys, List.filter_map, List.filter_congr same]
  rfl

/-- Where every table is shown once, the tables shown are those of the map. -/
theorem Sequenced.tablesInOrder_perm (sequenced : model.Sequenced) :
    model.tablesInOrder.Perm model.tables.values := by
  have all : model.tables.keys.filterMap model.tables.get? = model.tables.values :=
    OrderedMap.filterMap_get? fun _ listed => listed
  rw [tablesInOrder_eq, ← all]
  exact (model.listing_perm_iff.mpr sequenced).filterMap _

end Model

namespace Command

/-- What is printed of a model before its tables. -/
def infoFacts (path : Path) (loaded : LoadedModel) : String :=
  Output.title "Model Info" ++
    (Output.fact "File" path.text ++
      Output.fact "Extended" (if loaded.extended then "yes" else "no") ++
      Output.fact "Tables" (natText loaded.model.tableCount) ++
      Output.fact "Columns" (natText loaded.model.columnCount)) ++
    Output.emptyLine ++ Output.heading "Tables"

def tableItem (table : Table) : String :=
  Output.item (table.name ++ " (" ++ natText table.columns.length ++ " columns)")

private theorem output_infoEffect {system : FileSystem} {path : Path} {text : String}
    {loaded : LoadedModel} (readable : system.readText path = .ok text)
    (accepted : Model.parse text = .ok loaded) :
    (infoEffect system path).output =
      infoFacts path loaded ++ String.join (loaded.model.tablesInOrder.map tableItem) := by
  obtain ⟨location, resolved, _⟩ := FileSystem.readText_eq_ok_iff.mp readable
  have there : system.pathExists path = true := by
    rw [FileSystem.pathExists, resolved]
    rfl
  have success : (loadFile system.volume path).result = .ok loaded := loadFile_ok readable accepted
  simp only [infoEffect, there, ↓reduceIte, success]
  rfl

end Command

/-- What is shown of any model that can be read, edited by hand or not. A table is shown as often as
its key stands in the sequence, and once more if its name does not stand there. So every table is
shown once exactly in the models where a key stands once in the sequence if the name of its table
does, and not at all otherwise. These models show the tables of the sequence first, then the others
in the order of the map, and as many items are printed as tables are counted. -/
theorem tables_shown {text : String} {loaded : LoadedModel}
    (accepted : Model.parse text = .ok loaded) :
    let model := loaded.model
    model.tablesInOrder = model.listing.filterMap model.tables.get? ∧
    (∀ key table, model.tables.get? key = some table →
      model.listing.count key =
        model.sequence.count key + if table.name ∈ model.sequence then 0 else 1) ∧
    (model.listing.Perm model.tables.keys ↔ model.Sequenced) ∧
    (model.Sequenced →
      model.listing =
        model.sequence.filter model.tables.contains ++ (model.tables.keys.filter fun key =>
          !model.sequence.contains key) ∧
      model.tablesInOrder.length = model.tableCount) ∧
    ∀ system path, FileSystem.readText system path = .ok text →
      (Command.infoEffect system path).output =
        Command.infoFacts path loaded ++
          String.join (model.tablesInOrder.map Command.tableItem) := by
  intro model
  refine ⟨model.tablesInOrder_eq, fun key table => Model.count_listing,
    model.listing_perm_iff, ?_, ?_⟩
  · intro sequenced
    refine ⟨sequenced.listing_eq, ?_⟩
    rw [sequenced.tablesInOrder_perm.length_eq, OrderedMap.values, List.length_map]
    rfl
  · exact fun system path readable => Command.output_infoEffect readable accepted

namespace Bookstore

/-- A model whose only table was given another name, which stands in the sequence, and was left
under its old key. -/
def edited : Model :=
  { Model.empty with
    tables := .ofEntries [("Book", .ofName "Books" "Default")]
    sequence := ["Books"] }

private theorem restorable_edited : edited.Restorable 6 := by
  refine Model.restorable (by decide) ?_ (by simp [edited, Model.empty, OrderedMap.empty])
    (by simp [edited, Model.empty, OrderedMap.empty])
  intro entry listed
  rw [List.mem_singleton.mp listed]
  refine Table.restorable (by decide) ?_
  intro derived held
  cases held

end Bookstore

/-- The table that was renamed is counted and not shown. -/
theorem tables_shown_bookstore :
    ∃ loaded, Model.parse (Bookstore.edited.toJson.pretty 2) = .ok loaded ∧
      loaded.model.tableCount = 1 ∧
      loaded.model.tablesInOrder = [] ∧ ¬ loaded.model.listing.Perm loaded.model.tables.keys := by
  have accepted := Model.parse_toJson Bookstore.restorable_edited (by decide) 2
  obtain ⟨shown, _, once, _⟩ := tables_shown accepted
  have unlisted : Bookstore.edited.sorted.listing = [] := by decide
  refine ⟨_, accepted, rfl, ?_, ?_⟩
  · rw [shown, unlisted]
    rfl
  · rw [once]
    intro sequenced
    cases sequenced "Book" _ rfl

end StanzaSchema
