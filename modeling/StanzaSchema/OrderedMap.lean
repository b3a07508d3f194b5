/-!
Lists of entries and maps that remember the order in which their keys came. Writing to a key that is
present keeps its position, a new key goes to the end, and no key of a map occurs twice.
-/

namespace StanzaSchema

namespace Entries

variable {α β : Type} [DecidableEq α]

def keys (entries : List (α × β)) : List α := entries.map Prod.fst

def find? (key : α) : List (α × β) → Option β
  | [] => none
  | entry :: rest => if entry.1 = key then some entry.2 else find? key rest

def put (key : α) (value : β) : List (α × β) → List (α × β)
  | [] => [(key, value)]
  | entry :: rest => if entry.1 = key then (key, value) :: rest else entry :: put key value rest

def drop (key : α) : List (α × β) → List (α × β)
  | [] => []
  | entry :: rest => if entry.1 = key then rest else entry :: drop key rest

theorem keys_put (key : α) (value : β) (entries : List (α × β)) :
    keys (put key value entries) =
      if key ∈ keys entries then keys entries else keys entries ++ [key] := by
  induction entries with
  | nil => simp [keys, put]
  | cons entry rest ih =>
    by_cases same : entry.1 = key
    · simp [keys, put, same]
    · simp only [keys] at ih ⊢
      by_cases member : key ∈ rest.map Prod.fst <;> simp [put, same, ih, member, Ne.symm same]

theorem keys_drop_sublist (key : α) (entries : List (α × β)) :
    (keys (drop key entries)).Sublist (keys entries) := by
  induction entries with
  | nil => exact .slnil
  | cons entry rest ih =>
    by_cases same : entry.1 = key
    · simp [keys, drop, same]
    · simpa [keys, drop, same] using ih

theorem nodup_keys_put (key : α) (value : β) (entries : List (α × β))
    (distinct : (keys entries).Nodup) :
    (keys (put key value entries)).Nodup := by
  rw [keys_put]
  split
  next => exact distinct
  next absent =>
    rw [List.nodup_append]
    refine ⟨distinct, by simp, ?_⟩
    intro a member b last
    rw [List.mem_singleton.mp last]
    intro same
    exact absent (same ▸ member)

theorem find?_put (key other : α) (value : β) (entries : List (α × β)) :
    find? other (put key value entries) =
      if key = other then some value else find? other entries := by
  induction entries with
  | nil => simp [put, find?]
  | cons entry rest ih =>
    by_cases same : entry.1 = key
    · by_cases asked : key = other <;> simp [put, find?, same, asked]
    · by_cases asked : key = other
      · have differs : entry.1 ≠ other := asked ▸ same
        simpa [put, find?, same, differs, asked] using ih
      · by_cases head : entry.1 = other
        · simp [put, find?, head, asked, Ne.symm asked]
        · simpa [put, find?, same, head, asked] using ih

end Entries

structure OrderedMap (β : Type) where
  entries : List (String × β)
  distinct : (Entries.keys entries).Nodup
deriving DecidableEq

namespace OrderedMap

variable {β : Type}

def empty : OrderedMap β := ⟨[], .nil⟩

instance : EmptyCollection (OrderedMap β) := ⟨empty⟩
instance : Inhabited (OrderedMap β) := ⟨empty⟩

def keys (map : OrderedMap β) : List String := Entries.keys map.entries

def values (map : OrderedMap β) : List β := map.entries.map Prod.snd

def size (map : OrderedMap β) : Nat := map.entries.length

def isEmpty (map : OrderedMap β) : Bool := map.entries.isEmpty

def get? (map : OrderedMap β) (key : String) : Option β := Entries.find? key map.entries

def contains (map : OrderedMap β) (key : String) : Bool := (map.get? key).isSome

def insert (map : OrderedMap β) (key : String) (value : β) : OrderedMap β :=
  ⟨Entries.put key value map.entries, Entries.nodup_keys_put key value map.entries map.distinct⟩

/-- The map without `key`; the other entries keep their order. -/
def erase (map : OrderedMap β) (key : String) : OrderedMap β :=
  ⟨Entries.drop key map.entries, (Entries.keys_drop_sublist key map.entries).nodup map.distinct⟩

/-- Changes the value at `key`, if the key is present. -/
def modify (map : OrderedMap β) (key : String) (change : β → β) : OrderedMap β :=
  match map.get? key with
  | some value => map.insert key (change value)
  | none => map

def map {γ : Type} (change : β → γ) (m : OrderedMap β) : OrderedMap γ :=
  ⟨m.entries.map fun entry => (entry.1, change entry.2), by
    simpa [Entries.keys, Function.comp_def] using m.distinct⟩

/-- Inserts the entries one after the other: the last value of a repeated key stands at its first
position. -/
def ofEntries (entries : List (String × β)) : OrderedMap β :=
  entries.foldl (fun map entry => map.insert entry.1 entry.2) empty

theorem ext_entries {first second : OrderedMap β} (same : first.entries = second.entries) :
    first = second := by
  cases first; cases second; cases same; rfl

@[simp] theorem keys_insert (map : OrderedMap β) (key : String) (value : β) :
    (map.insert key value).keys = if key ∈ map.keys then map.keys else map.keys ++ [key] :=
  Entries.keys_put key value map.entries

@[simp] theorem get?_insert (map : OrderedMap β) (key other : String) (value : β) :
    (map.insert key value).get? other = if key = other then some value else map.get? other :=
  Entries.find?_put key other value map.entries

@[simp] theorem get?_empty (key : String) : (empty : OrderedMap β).get? key = none := rfl

end OrderedMap

end StanzaSchema
