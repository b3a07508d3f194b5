import StanzaSchema.OrderedMap
import StanzaSchema.Proofs.Prelude

/-!
Laws of lists of entries and of ordered maps: which keys they hold, and what lookups find after a
change.
-/

namespace StanzaSchema

namespace Entries

variable {α β γ : Type} [DecidableEq α]

theorem find?_eq_none_iff {key : α} {entries : List (α × β)} : find? key entries = none ↔
    key ∉ keys entries := by
  induction entries with
  | nil => simp [find?, keys]
  | cons entry rest ih =>
    by_cases same : entry.1 = key
    · simp [find?, keys, same]
    · simpa [find?, keys, same, Ne.symm same] using ih

theorem mem_of_find? {key : α} {value : β} {entries : List (α × β)}
    (found : find? key entries = some value) :
    (key, value) ∈ entries := by
  induction entries with
  | nil => simp [find?] at found
  | cons entry rest ih =>
    obtain ⟨name, content⟩ := entry
    simp only [find?] at found
    split at found
    next same =>
      cases same
      cases found
      exact List.mem_cons_self
    next => exact List.mem_cons_of_mem _ (ih found)

/-- Where no key stands twice, an entry is what a lookup finds. -/
theorem find?_of_mem {key : α} {value : β} {entries : List (α × β)}
    (distinct : (keys entries).Nodup) (member : (key, value) ∈ entries) :
    find? key entries = some value := by
  induction entries with
  | nil => simp at member
  | cons entry rest ih =>
    obtain ⟨absent, distinct⟩ := List.nodup_cons.mp distinct
    rcases List.mem_cons.mp member with same | inside
    · subst same
      simp [find?]
    · have other : entry.1 ≠ key := by
        intro same
        exact absent (same ▸ List.mem_map_of_mem inside)
      simpa [find?, other] using ih distinct inside

theorem put_self {key : α} {value : β} {entries : List (α × β)}
    (found : find? key entries = some value) :
    put key value entries = entries := by
  induction entries with
  | nil => simp [find?] at found
  | cons entry rest ih =>
    obtain ⟨name, content⟩ := entry
    simp only [find?] at found
    split at found
    next same =>
      cases same
      cases found
      simp [put]
    next other =>
      simp only [put, other, ↓reduceIte]
      rw [ih found]

/-- A new key goes to the end. -/
theorem put_new {key : α} (value : β) {entries : List (α × β)} (new : key ∉ keys entries) :
    put key value entries = entries ++ [(key, value)] := by
  induction entries with
  | nil => rfl
  | cons entry rest ih =>
    simp only [keys, List.map_cons, List.mem_cons, not_or] at new
    simp only [put, Ne.symm new.1, ↓reduceIte, List.cons_append]
    rw [ih new.2]

theorem put_put (key : α) (first second : β) (entries : List (α × β)) :
    put key second (put key first entries) = put key second entries := by
  induction entries with
  | nil => simp [put]
  | cons entry rest ih => by_cases same : entry.1 = key <;> simp [put, same, ih]

theorem find?_map (change : β → γ) (key : α) (entries : List (α × β)) :
    find? key (entries.map fun entry => (entry.1, change entry.2)) =
      (find? key entries).map change := by
  induction entries with
  | nil => rfl
  | cons entry rest ih => by_cases same : entry.1 = key <;> simp [find?, same, ih]

/-- Where no key stands twice, dropping a key leaves the entries of all others. -/
theorem drop_eq_filter {key : α} {entries : List (α × β)} (distinct : (keys entries).Nodup) :
    drop key entries = entries.filter fun entry => entry.1 ≠ key := by
  induction entries with
  | nil => rfl
  | cons entry rest ih =>
    obtain ⟨absent, distinct⟩ := List.nodup_cons.mp distinct
    by_cases same : entry.1 = key
    · have others : ∀ other ∈ rest, decide (other.1 ≠ key) = true := by
        intro other member
        rw [decide_eq_true_iff]
        rintro rfl
        exact absent (same ▸ List.mem_map_of_mem member)
      simp only [drop, same, ↓reduceIte]
      rw [List.filter_cons_of_neg (by simp [same]), List.filter_eq_self.mpr others]
    · rw [drop, if_neg same, List.filter_cons_of_pos (by simp [same]), ih distinct]

theorem not_mem_keys_drop {key : α} {entries : List (α × β)} (distinct : (keys entries).Nodup) :
    key ∉ keys (drop key entries) := by
  rw [drop_eq_filter distinct]
  intro listed
  obtain ⟨entry, kept, same⟩ := List.mem_map.mp listed
  exact of_decide_eq_true (List.mem_filter.mp kept).2 same

theorem find?_drop {key other : α} (apart : key ≠ other) (entries : List (α × β)) :
    find? other (drop key entries) = find? other entries := by
  induction entries with
  | nil => rfl
  | cons entry rest ih =>
    by_cases same : entry.1 = key
    · simp [drop, find?, same, apart]
    · simp [drop, find?, same, ih]

/-- Looking up in the table of a function. -/
theorem find?_tabulate (value : α → β) (key : α) (names : List α) :
    find? key (names.map fun name => (name, value name)) =
      if key ∈ names then some (value key) else none := by
  induction names with
  | nil => rfl
  | cons name rest ih =>
    by_cases same : name = key
    · simp [find?, same]
    · simp [find?, same, Ne.symm same, ih]

/-- Writing to a key that is there exchanges the parts of its old value for those of the new one. -/
theorem length_flatMap_put {δ : Type} (parts : β → List δ) {key : α} {old : β} (new : β)
    {entries : List (α × β)} (found : find? key entries = some old) :
    (((put key new entries).map Prod.snd).flatMap parts).length + (parts old).length =
      ((entries.map Prod.snd).flatMap parts).length + (parts new).length := by
  induction entries with
  | nil => cases found
  | cons entry rest ih =>
    simp only [find?] at found
    split at found
    next same =>
      cases found
      simp only [put, same, ↓reduceIte, List.map_cons, List.flatMap_cons, List.length_append]
      omega
    next other =>
      have later := ih found
      simp only [put, other, ↓reduceIte, List.map_cons, List.flatMap_cons, List.length_append]
      omega

theorem map_put (change : β → γ) (key : α) (value : β) (entries : List (α × β)) :
    (put key value entries).map (fun entry => (entry.1, change entry.2)) =
      put key (change value) (entries.map fun entry => (entry.1, change entry.2)) := by
  induction entries with
  | nil => rfl
  | cons entry rest ih => by_cases same : entry.1 = key <;> simp [put, same, ih]

end Entries

namespace OrderedMap

variable {β γ : Type} {map : OrderedMap β} {key : String} {value : β}

theorem get?_eq_none_iff : map.get? key = none ↔ key ∉ map.keys := Entries.find?_eq_none_iff

theorem mem_keys_iff : key ∈ map.keys ↔ ∃ value, map.get? key = some value := by
  rw [← Option.ne_none_iff_exists', ne_eq, get?_eq_none_iff, Classical.not_not]

theorem mem_keys_of_get? (found : map.get? key = some value) : key ∈ map.keys :=
  mem_keys_iff.mpr ⟨value, found⟩

theorem contains_iff : map.contains key = true ↔ key ∈ map.keys := by
  rw [contains, Option.isSome_iff_exists, mem_keys_iff]

theorem mem_entries_iff : (key, value) ∈ map.entries ↔ map.get? key = some value :=
  ⟨Entries.find?_of_mem map.distinct, Entries.mem_of_find?⟩

/-- Writing to a key what it holds already changes nothing. -/
theorem insert_self (found : map.get? key = some value) : map.insert key value = map :=
  ext_entries (Entries.put_self found)

theorem keys_insert_of_mem (present : key ∈ map.keys) (value : β) :
    (map.insert key value).keys = map.keys := by
  rw [keys_insert, if_pos present]

theorem keys_insert_of_not_mem (absent : key ∉ map.keys) (value : β) :
    (map.insert key value).keys = map.keys ++ [key] := by
  rw [keys_insert, if_neg absent]

theorem entries_insert_of_not_mem (absent : key ∉ map.keys) (value : β) :
    (map.insert key value).entries = map.entries ++ [(key, value)] := Entries.put_new value absent

theorem insert_insert (map : OrderedMap β) (key : String) (first second : β) :
    (map.insert key first).insert key second = map.insert key second :=
  ext_entries (Entries.put_put key first second map.entries)

theorem not_mem_keys_erase (map : OrderedMap β) (key : String) : key ∉ (map.erase key).keys :=
  Entries.not_mem_keys_drop map.distinct

theorem keys_erase_subset (map : OrderedMap β) (key : String) : (map.erase key).keys ⊆ map.keys :=
  (Entries.keys_drop_sublist key map.entries).subset

theorem get?_map (change : β → γ) (key : String) :
    (map.map change).get? key = (map.get? key).map change :=
  Entries.find?_map change key map.entries

theorem map_insert (map : OrderedMap β) (key : String) (value : β) (change : β → γ) :
    (map.insert key value).map change = (map.map change).insert key (change value) :=
  ext_entries (Entries.map_put change key value map.entries)

@[simp] theorem map_id (map : OrderedMap β) : map.map id = map := ext_entries (List.map_id _)

theorem map_map {δ : Type} (map : OrderedMap β) (first : β → γ) (second : γ → δ) :
    (map.map first).map second = map.map fun value => second (first value) := by
  apply ext_entries
  simp [OrderedMap.map, Function.comp_def]

theorem map_congr {map : OrderedMap β} {first second : β → γ}
    (each : ∀ entry ∈ map.entries, first entry.2 = second entry.2) :
    map.map first = map.map second :=
  ext_entries (List.map_congr_left fun entry listed => by rw [each entry listed])

theorem keys_modify (map : OrderedMap β) (key : String) (change : β → β) :
    (map.modify key change).keys = map.keys := by
  unfold modify
  split
  next found => exact keys_insert_of_mem (mem_keys_of_get? found) _
  next => rfl

theorem modify_insert (map : OrderedMap β) (key : String) (value : β) (change : β → β) :
    (map.insert key value).modify key change = map.insert key (change value) := by
  simp only [modify, get?_insert, ↓reduceIte, insert_insert]

theorem get?_modify (map : OrderedMap β) (key other : String) (change : β → β) :
    (map.modify key change).get? other = (map.get? other).map fun value =>
      if key = other then change value else value := by
  unfold modify
  split
  next value found =>
    by_cases same : key = other
    · subst same
      simp [found]
    · simp [same]
  next missing =>
    by_cases same : key = other
    · subst same
      simp [missing]
    · simp [same]

/-- A key that is there already is not given the value. -/
theorem get?_of_contains (present : map.contains key = true) (other : String) (value : β) :
    map.get? other = (map.get? other).or (if key = other then some value else none) := by
  by_cases same : key = other
  · subst same
    obtain ⟨old, found⟩ := Option.isSome_iff_exists.mp present
    simp [found]
  · simp [same]

/-- A new key is given the value. -/
theorem get?_insert_of_not_contains (absent : ¬ map.contains key = true) (other : String)
    (value : β) :
    (map.insert key value).get? other =
      (map.get? other).or (if key = other then some value else none) := by
  by_cases same : key = other
  · subst same
    have missing : map.get? key = none := by simpa [contains] using absent
    simp [missing]
  · simp [same]

/-- Entries without a repeated key are kept as they are. -/
theorem entries_ofEntries {entries : List (String × β)} (distinct : (Entries.keys entries).Nodup) :
    (ofEntries entries).entries = entries := by
  have general (later : List (String × β)) (map : OrderedMap β)
      (distinct : (Entries.keys (map.entries ++ later)).Nodup) :
      (later.foldl (fun map entry => map.insert entry.1 entry.2) map).entries =
        map.entries ++ later := by
    induction later generalizing map with
    | nil => simp
    | cons entry rest ih =>
      have new : entry.1 ∉ Entries.keys map.entries := by
        simp only [Entries.keys, List.map_append, List.map_cons, List.nodup_append,
          List.mem_cons] at distinct
        intro member
        exact distinct.2.2 entry.1 member entry.1 (.inl rfl) rfl
      have grown : (map.insert entry.1 entry.2).entries = map.entries ++ [entry] :=
        Entries.put_new entry.2 new
      rw [List.foldl_cons, ih _ (by simpa [grown] using distinct), grown]
      simp
  simpa [ofEntries, empty] using general entries empty (by simpa [empty] using distinct)

/-- The last of the entries with a key gives it its value. -/
theorem get?_ofEntries (entries : List (String × β)) (key : String) :
    (ofEntries entries).get? key =
      (entries.filterMap fun entry => if entry.1 = key then some entry.2 else none).getLast? := by
  have general (map : OrderedMap β) :
      (entries.foldl (fun map entry => map.insert entry.1 entry.2) map).get? key =
      (entries.filterMap fun entry =>
        if entry.1 = key then some entry.2 else none).getLast?.or (map.get? key) := by
    induction entries generalizing map with
    | nil => rfl
    | cons entry rest ih =>
      rw [List.foldl_cons, ih, get?_insert]
      by_cases same : entry.1 = key
      · simp only [List.filterMap_cons, same, ↓reduceIte, List.getLast?_cons]
        cases (rest.filterMap fun entry =>
          if entry.1 = key then some entry.2 else none).getLast? <;> rfl
      · simp only [List.filterMap_cons, same, ↓reduceIte]
  rw [ofEntries, general, get?_empty, Option.or_none]

/-- Each key stands where it first occurs. -/
theorem keys_ofEntries (entries : List (String × β)) :
    (ofEntries entries).keys = (Entries.keys entries).eraseDups := by
  have general (before : List String) (map : OrderedMap β) (same : map.keys = before.eraseDups) :
      (entries.foldl (fun map entry => map.insert entry.1 entry.2) map).keys =
        (before ++ Entries.keys entries).eraseDups := by
    induction entries generalizing before map with
    | nil => simpa [Entries.keys] using same
    | cons entry rest ih =>
      have grown : (map.insert entry.1 entry.2).keys = (before ++ [entry.1]).eraseDups := by
        simp only [keys_insert, same, List.mem_eraseDups, List.eraseDups_concat]
      rw [List.foldl_cons, ih _ _ grown, List.append_assoc]
      rfl
  exact general [] empty rfl

/-- The keys of some entries lead to their values. -/
theorem filterMap_get? {entries : List (String × β)}
    (within : ∀ entry ∈ entries, entry ∈ map.entries) :
    (entries.map Prod.fst).filterMap map.get? = entries.map Prod.snd := by
  induction entries with
  | nil => rfl
  | cons entry rest ih =>
    have found : map.get? entry.1 = some entry.2 :=
      mem_entries_iff.mp (within entry List.mem_cons_self)
    rw [List.map_cons, List.filterMap_cons_some found,
      ih fun other listed => within other (List.mem_cons_of_mem _ listed), List.map_cons]

end OrderedMap

end StanzaSchema
