import StanzaSchema.Proofs.Legibility
import StanzaSchema.Proofs.Settling

/-!
Data that is read from settled values. Such data is normal: its layout is read back as it is, down
to the order of its maps, and nests no deeper than what it was read from. Lists, maps and the fields
of records hand this on from what they hold.
-/

namespace StanzaSchema

theorem Entries.ascending_iff_keys {β : Type} {entries : List (String × β)} :
    Ascending entries ↔ (keys entries).Pairwise fun first second => first < second :=
  List.pairwise_map.symm

theorem OrderedMap.map_eq_self {β : Type} {map : OrderedMap β} {change : β → β}
    (same : ∀ entry ∈ map.entries, change entry.2 = entry.2) : map.map change = map :=
  (map_congr same).trans map.map_id

theorem OrderedMap.sorted_eq_self {β : Type} {map : OrderedMap β}
    (ascending : Entries.Ascending map.entries) :
    map.sorted = map :=
  ext_entries ascending.arrange_eq

namespace Json

/-- How one type of data is read and laid out, and what putting its maps in order does. -/
structure Codec (α : Type) where
  shape : Shape α
  encode : α → Json
  order : α → α

namespace Codec

variable {α : Type} {codec : Codec α} {depth : Nat}

/-- Data whose layout tells all of it and nests at most so many levels deep. -/
structure Normal (codec : Codec α) (depth : Nat) (data : α) : Prop where
  reads : codec.shape (codec.encode data).sorted = .ok (codec.order data)
  ordered : codec.order data = data
  nests : Nests depth (codec.encode data)

/-- Whatever is read from a settled value is normal. -/
def Normalizes (codec : Codec α) (depth : Nat) : Prop :=
  ∀ ⦃value data⦄, Settled depth value → codec.shape value = .ok data → codec.Normal depth data

def text : Codec String := ⟨Shape.text, .text, id⟩

def boolean : Codec Bool := ⟨Shape.boolean, .boolean, id⟩

def anything : Codec Json := ⟨Shape.anything, id, sorted⟩

def list (codec : Codec α) : Codec (List α) :=
  ⟨Shape.list codec.shape, fun items => .array (items.map codec.encode), List.map codec.order⟩

def map (codec : Codec α) : Codec (OrderedMap α) :=
  ⟨Shape.map codec.shape, ofMap codec.encode, fun map => map.sorted.map codec.order⟩

theorem normalizes_text (depth : Nat) : text.Normalizes depth := fun _ _ _ _ => ⟨rfl, rfl, .text _⟩

theorem normalizes_boolean (depth : Nat) : boolean.Normalizes depth :=
  fun _ _ _ _ => ⟨rfl, rfl, .boolean _⟩

theorem normalizes_anything (depth : Nat) : anything.Normalizes depth := by
  intro value data settled read
  cases read
  exact ⟨rfl, settled.ordered, settled.nests⟩

theorem normal_nil (codec : Codec α) (depth : Nat) : codec.list.Normal (depth + 1) [] :=
  ⟨rfl, rfl, .array nofun⟩

theorem normal_empty (codec : Codec α) (depth : Nat) : codec.map.Normal (depth + 1) .empty :=
  ⟨rfl, rfl, .object nofun⟩

theorem normalizes_list (inner : ∀ {below}, depth = below + 1 → codec.Normalizes below) :
    codec.list.Normalizes depth := by
  intro value items settled read
  cases value with
  | array contents =>
    obtain ⟨below, rfl, each⟩ := settled_array_iff.mp settled
    have normal : ∀ item ∈ items, codec.Normal below item := by
      intro item listed
      obtain ⟨content, present, known⟩ := Except.exists_of_mapM read listed
      exact inner rfl (each content present) known
    exact ⟨Shape.list_array fun item listed => (normal item listed).reads,
      List.map_eq_self_iff.mpr fun item listed => (normal item listed).ordered,
      confined_map fun item listed => (normal item listed).nests⟩
  | _ => cases read

/-- Members that are in order make a map in order. -/
theorem Normalizes.entries (normalizes : codec.Normalizes depth) {members : List (String × Json)}
    {map : OrderedMap α} (ascending : Entries.Ascending members)
    (settled : ∀ member ∈ members, Settled depth member.2)
    (read : Shape.entries codec.shape members = .ok map) :
    map.keys = Entries.keys members ∧ map.sorted = map ∧
      ∀ entry ∈ map.entries, codec.Normal depth entry.2 := by
  obtain ⟨results, finished, rfl⟩ := Except.exists_of_map read
  have names : Entries.keys results = Entries.keys members := by
    refine Except.map_eq_of_mapM ?_ finished
    intro member result one
    obtain ⟨_, _, rfl⟩ := Except.exists_of_map one
    rfl
  have arranged : Entries.Ascending results := by
    rw [Entries.ascending_iff_keys] at ascending ⊢
    exact names ▸ ascending
  have entries : (OrderedMap.ofEntries results).entries = results :=
    OrderedMap.entries_ofEntries arranged.keys_nodup
  refine ⟨?_, OrderedMap.sorted_eq_self (entries.symm ▸ arranged), ?_⟩
  · rw [OrderedMap.keys, entries, names]
  · intro entry listed
    rw [entries] at listed
    obtain ⟨member, present, one⟩ := Except.exists_of_mapM finished listed
    obtain ⟨_, known, rfl⟩ := Except.exists_of_map one
    exact normalizes (settled member present) known

theorem normalizes_map (inner : ∀ {below}, depth = below + 1 → codec.Normalizes below) :
    codec.map.Normalizes depth := by
  intro value map settled read
  cases value with
  | object members =>
    obtain ⟨below, rfl, ascending, each⟩ := settled_object_iff.mp settled
    obtain ⟨_, ordered, normal⟩ := (inner rfl).entries ascending each read
    refine ⟨Shape.map_ofMap fun entry listed => (normal entry listed).reads, ?_,
      confined_ofMap fun entry listed => (normal entry listed).nests⟩
    show map.sorted.map codec.order = map
    rw [ordered]
    exact OrderedMap.map_eq_self fun entry listed => (normal entry listed).ordered
  | _ => cases read

end Codec

namespace Record

variable {α : Type} {record : Record} {fields : Fields} {members : List (String × Json)}
  {depth : Nat} {value : Json}

/-- The fields that are there are settled. -/
def Holds (record : Record) (fields : Fields) (depth : Nat) : Prop :=
  ∀ ⦃name content⦄, record.field? fields name = some content → Settled depth content

theorem holds_named (settled : ∀ member ∈ members, Settled depth member.2) :
    record.Holds (.named members) depth := by
  intro name content found
  rw [field?, member?_eq_find?] at found
  exact settled (name, content) (Entries.mem_of_find? found)

theorem holds_of_fieldsOf (settled : Settled depth value)
    (opened : record.fieldsOf value = .ok fields) :
    ∃ below, depth = below + 1 ∧ record.Holds fields below := by
  cases value with
  | object members =>
    cases opened
    obtain ⟨below, rfl, _, each⟩ := settled_object_iff.mp settled
    exact ⟨below, rfl, holds_named each⟩
  | array items =>
    cases opened
    obtain ⟨below, rfl, each⟩ := settled_array_iff.mp settled
    exact ⟨below, rfl, fun _ _ found => each _ (List.mem_of_getElem? found)⟩
  | _ => cases opened

theorem settled_of_membersOf (settled : Settled depth value)
    (opened : record.membersOf value = .ok members) :
    ∃ below, depth = below + 1 ∧ Entries.Ascending members ∧
      ∀ member ∈ members, Settled below member.2 := by
  cases value with
  | object members =>
    cases opened
    exact settled_object_iff.mp settled
  | _ => cases opened

theorem exists_of_slot {shape : Shape α} {key : String} {data : α}
    (read : record.slot fields key shape = .ok (some data)) :
    ∃ content, record.field? fields key = some content ∧ shape content = .ok data := by
  unfold slot at read
  split at read
  next => cases read
  next content found =>
    obtain ⟨_, known, same⟩ := Except.exists_of_map read
    cases same
    exact ⟨content, found, known⟩

end Record

namespace Slot

variable {α : Type} {slot : Slot α} {data default : α}

private theorem eq_of_require {name : String} (read : slot.require name = .ok data) :
    slot = .ok (some data) := by
  unfold require at read
  split at read <;> cases read
  rfl

private theorem eq_of_orElse (read : slot.orElse default = .ok data) :
    data = default ∨ slot = .ok (some data) := by
  unfold orElse at read
  split at read <;> cases read
  · exact .inr rfl
  · exact .inl rfl

end Slot

namespace Codec.Normalizes

variable {α : Type} {codec : Codec α} {depth : Nat} {record : Record} {fields : Fields}
  {key name : String}

theorem require (normalizes : codec.Normalizes depth) (held : record.Holds fields depth) {data : α}
    (read : (record.slot fields key codec.shape).require name = .ok data) :
    codec.Normal depth data := by
  obtain ⟨content, found, known⟩ := Record.exists_of_slot (Slot.eq_of_require read)
  exact normalizes (held found) known

theorem orElse (normalizes : codec.Normalizes depth) (held : record.Holds fields depth)
    {default data : α} (plain : codec.Normal depth default)
    (read : (record.slot fields key codec.shape).orElse default = .ok data) :
    codec.Normal depth data := by
  rcases Slot.eq_of_orElse read with rfl | read
  · exact plain
  · obtain ⟨content, found, known⟩ := Record.exists_of_slot read
    exact normalizes (held found) known

theorem optional (normalizes : codec.Normalizes depth) (held : record.Holds fields depth)
    {data : Option α}
    (read : (record.slot fields key (Shape.option codec.shape)).orElse none = .ok data) :
    ∀ content, data = some content → codec.Normal depth content := by
  rintro content rfl
  rcases Slot.eq_of_orElse read with absent | read
  · cases absent
  · obtain ⟨value, found, known⟩ := Record.exists_of_slot read
    cases value with
    | null => cases known
    | _ =>
      obtain ⟨_, known, same⟩ := Except.exists_of_map known
      cases same
      exact normalizes (held found) known

/-- A record of which all data nests one level deep only. -/
theorem of_normal {next : Fields → Except ShapeFault α}
    (opens : ∀ value, codec.shape value = (record.fieldsOf value >>= next))
    (normal : ∀ data, codec.Normal 1 data) (depth : Nat) : codec.Normalizes depth := by
  intro value data settled read
  rw [opens] at read
  obtain ⟨fields, opened, _⟩ := Except.exists_of_bind read
  obtain ⟨below, rfl, _⟩ := Record.holds_of_fieldsOf settled opened
  exact ⟨(normal data).reads, (normal data).ordered,
    (normal data).nests.mono (Nat.le_add_left 1 below)⟩

end Codec.Normalizes

theorem Codec.map_order_eq_self {α : Type} {codec : Codec α} {depth : Nat} {data : Option α}
    (normal : ∀ content, data = some content → codec.Normal depth content) :
    data.map codec.order = data := by
  cases data with
  | none => rfl
  | some content => exact congrArg some (normal content rfl).ordered

end Json

end StanzaSchema
