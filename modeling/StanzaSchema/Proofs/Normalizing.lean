import StanzaSchema.Proofs.Codecs
import StanzaSchema.Proofs.RoundTrip

/-!
Loading normalises. Whatever text a model was loaded from, be it with fields left out, in another
order or in a list, the layout of the loaded model is loaded as the same model.

Fields that were left out are laid out all the same, so a layout may nest deeper than the text: a
table without columns gets an empty list of them. There is room for it, because tables are embedded
in each other at every third level only.
-/

namespace StanzaSchema

open Json (Codec Nests Record Settled nestingLimit)
open Json.Codec

def Column.codec : Codec Column := ⟨shape, toJson, id⟩

def Authorizer.codec : Codec Authorizer := ⟨shape, fun authorizer => .text authorizer.token, id⟩

def Policy.codec : Codec Policy := ⟨shape, toJson, sorted⟩

def SchemaEntry.codec : Codec SchemaEntry := ⟨shape, toJson, id⟩

def SchemaProperty.codec : Codec SchemaProperty := ⟨shape, toJson, id⟩

def Table.codec : Codec Table := ⟨shape, toJson, sorted⟩

def DerivedSchema.codec : Codec DerivedSchema := ⟨shape, toJson, sorted⟩

def JsonSchema.codec : Codec JsonSchema := ⟨shape, toJson, sorted⟩

def ViewColumn.codec : Codec ViewColumn := ⟨shape, toJson, sorted⟩

def View.codec : Codec View := ⟨shape, toJson, sorted⟩

def ViewSet.codec : Codec ViewSet := ⟨shape, toJson, sorted⟩

def Model.codec : Codec Model := ⟨shape, toJson, sorted⟩

variable {depth : Nat}

theorem Column.normalizes (depth : Nat) : codec.Normalizes depth :=
  .of_normal (fun _ => rfl) (fun column => ⟨column.shape_toJson, rfl, column.confined_toJson⟩) depth

theorem SchemaEntry.normalizes (depth : Nat) : codec.Normalizes depth :=
  .of_normal (fun _ => rfl) (fun entry => ⟨entry.shape_toJson, rfl, entry.confined_toJson⟩) depth

theorem SchemaProperty.normalizes (depth : Nat) : codec.Normalizes depth :=
  .of_normal (fun _ => rfl)
    (fun property => ⟨property.shape_toJson, rfl, property.confined_toJson⟩) depth

theorem Authorizer.normalizes (depth : Nat) : codec.Normalizes depth := by
  intro value authorizer _ read
  obtain ⟨token, _, rfl⟩ := Except.exists_of_map read
  exact ⟨congrArg Except.ok (canonical_ofToken token), rfl, .text _⟩

namespace Policy

private theorem normal_mk {roles : OrderedMap Operations}
    (normal : Authorizer.codec.map.map.Normal depth roles) :
    codec.Normal depth ⟨roles⟩ := by
  have order : Authorizer.codec.map.order = OrderedMap.sorted := funext fun _ => OrderedMap.map_id _
  have ordered : roles.sorted.map OrderedMap.sorted = roles := by
    rw [← order]
    exact normal.ordered
  refine ⟨?_, congrArg Policy.mk ordered, normal.nests⟩
  show (Authorizer.codec.map.map.shape (Authorizer.codec.map.map.encode roles).sorted).map
    Policy.mk = _
  rw [normal.reads, normal.ordered]
  exact congrArg (fun roles => Except.ok (Policy.mk roles)) ordered.symm

theorem normalizes (depth : Nat) : codec.Normalizes depth := by
  intro value policy settled read
  obtain ⟨roles, known, rfl⟩ := Except.exists_of_map read
  have reading : Authorizer.codec.map.map.Normalizes depth :=
    normalizes_map fun _ => normalizes_map fun _ => Authorizer.normalizes _
  exact normal_mk (reading settled known)

end Policy

theorem Table.normalizes_succ (room : 1 ≤ depth) (inner : DerivedSchema.codec.Normalizes depth) :
    codec.Normalizes (depth + 1) := by
  intro value table settled read
  obtain ⟨below, rfl⟩ := Nat.exists_eq_add_of_le' room
  obtain ⟨fields, opened, read⟩ := Except.exists_of_bind ((shape_eq value).symm.trans read)
  obtain ⟨_, _, read⟩ := Except.exists_of_bind read
  obtain ⟨name, _, read⟩ := Except.exists_of_bind read
  obtain ⟨domain, _, read⟩ := Except.exists_of_bind read
  obtain ⟨columns, columnsRead, read⟩ := Except.exists_of_bind read
  obtain ⟨description, _, read⟩ := Except.exists_of_bind read
  obtain ⟨derived, derivedRead, read⟩ := Except.exists_of_bind read
  cases read
  obtain ⟨_, ⟨⟩, held⟩ := Record.holds_of_fieldsOf settled opened
  have columns : Column.codec.list.Normal (below + 1) columns :=
    (normalizes_list fun _ =>
      Column.normalizes _).orElse held (normal_nil Column.codec below) columnsRead
  have derived := inner.optional held derivedRead
  refine ⟨shape_toJson fun content found => (derived content found).reads, ?_,
    confined_toJson columns.nests fun content found => (derived content found).nests⟩
  show Table.sorted _ = _
  rw [sorted_eq]
  exact congrArg (Table.mk name domain _ description) (map_order_eq_self derived)

theorem DerivedSchema.normalizes_succ (inner : JsonSchema.codec.Normalizes depth) :
    codec.Normalizes (depth + 1) := by
  intro value derived settled read
  obtain ⟨fields, opened, read⟩ := Except.exists_of_bind ((shape_eq value).symm.trans read)
  obtain ⟨_, _, read⟩ := Except.exists_of_bind read
  obtain ⟨scope, _, read⟩ := Except.exists_of_bind read
  obtain ⟨identifier, _, read⟩ := Except.exists_of_bind read
  obtain ⟨domain, _, read⟩ := Except.exists_of_bind read
  obtain ⟨entries, entriesRead, read⟩ := Except.exists_of_bind read
  obtain ⟨defaults, defaultsRead, read⟩ := Except.exists_of_bind read
  obtain ⟨jsonSchema, schemaRead, read⟩ := Except.exists_of_bind read
  obtain ⟨authorization, authorizationRead, read⟩ := Except.exists_of_bind read
  cases read
  obtain ⟨_, ⟨⟩, held⟩ := Record.holds_of_fieldsOf settled opened
  have entries : SchemaEntry.codec.list.Normal depth entries :=
    (normalizes_list fun _ => SchemaEntry.normalizes _).require held entriesRead
  have defaults : anything.map.Normal depth defaults :=
    (normalizes_map fun _ => normalizes_anything _).require held defaultsRead
  have schema := inner.optional held schemaRead
  -- the entries have to be there and are a list, which leaves a level for the policy that may be
  -- left out
  obtain ⟨below, rfl⟩ : ∃ below, depth = below + 1 := by
    cases entries.nests
    exact ⟨_, rfl⟩
  have authorization : Policy.codec.Normal (below + 1) authorization :=
    (Policy.normalizes _).orElse held (Policy.normal_mk (normal_empty _ below)) authorizationRead
  refine ⟨shape_toJson authorization.reads fun content found => (schema content found).reads, ?_,
    confined_toJson entries.nests defaults.nests authorization.nests fun content found =>
      (schema content found).nests⟩
  show DerivedSchema.sorted _ = _
  rw [sorted_eq, DerivedSchema.mk.injEq]
  exact ⟨rfl, rfl, rfl, rfl, defaults.ordered, map_order_eq_self schema, authorization.ordered⟩

namespace JsonSchema

private theorem normalizes_zero : codec.Normalizes 0 := by
  intro value schema settled read
  obtain ⟨fields, opened, _⟩ := Except.exists_of_bind ((shape_eq value).symm.trans read)
  obtain ⟨_, ⟨⟩, _⟩ := Record.holds_of_fieldsOf settled opened

theorem normalizes_succ (inner : Table.codec.Normalizes depth) : codec.Normalizes (depth + 1) := by
  intro value schema settled read
  obtain ⟨fields, opened, read⟩ := Except.exists_of_bind ((shape_eq value).symm.trans read)
  obtain ⟨_, _, read⟩ := Except.exists_of_bind read
  obtain ⟨title, _, read⟩ := Except.exists_of_bind read
  obtain ⟨type, _, read⟩ := Except.exists_of_bind read
  obtain ⟨properties, propertiesRead, read⟩ := Except.exists_of_bind read
  obtain ⟨required, requiredRead, read⟩ := Except.exists_of_bind read
  obtain ⟨table, tableRead, read⟩ := Except.exists_of_bind read
  cases read
  obtain ⟨_, ⟨⟩, held⟩ := Record.holds_of_fieldsOf settled opened
  have properties : SchemaProperty.codec.map.Normal depth properties :=
    (normalizes_map fun _ => SchemaProperty.normalizes _).require held propertiesRead
  have required : text.list.Normal depth required :=
    (normalizes_list fun _ => normalizes_text _).require held requiredRead
  have table := inner.optional held tableRead
  refine ⟨shape_toJson fun content found => (table content found).reads, ?_,
    confined_toJson properties.nests required.nests fun content found =>
      (table content found).nests⟩
  show JsonSchema.sorted _ = _
  rw [sorted_eq, JsonSchema.mk.injEq]
  refine ⟨rfl, rfl, ?_, rfl, map_order_eq_self table⟩
  exact (OrderedMap.map_id _).symm.trans properties.ordered

end JsonSchema

/-- Two levels are left for the innermost table, and what would be derived from it has no room. -/
theorem Table.normalizes (embedded : Nat) : codec.Normalizes (3 * embedded + 2) := by
  induction embedded with
  | zero =>
    exact normalizes_succ (by omega) (DerivedSchema.normalizes_succ JsonSchema.normalizes_zero)
  | succ embedded ih =>
    exact normalizes_succ (by omega) (DerivedSchema.normalizes_succ (JsonSchema.normalizes_succ ih))

section Views

/-- Members that are no fields make free entries under other names. -/
theorem free_entries {α : Type} {codec : Codec α} (normalizes : codec.Normalizes depth)
    {record : Record} {members : List (String × Json)} {map : OrderedMap α}
    (ascending : Entries.Ascending members) (settled : ∀ member ∈ members, Settled depth member.2)
    (read : Json.Shape.entries codec.shape (record.others members) = .ok map) :
    (∀ name ∈ map.keys, name ∉ record.fieldNames) ∧ map.sorted = map ∧
      ∀ entry ∈ map.entries, codec.Normal depth entry.2 := by
  obtain ⟨names, ordered, normal⟩ := normalizes.entries (ascending.sublist List.filter_sublist)
    (fun member listed => settled member (List.mem_filter.mp listed).1) read
  refine ⟨?_, ordered, normal⟩
  intro name listed
  rw [names] at listed
  obtain ⟨member, free, rfl⟩ := List.mem_map.mp listed
  simpa using (List.mem_filter.mp free).2

theorem ViewColumn.normalizes (depth : Nat) : codec.Normalizes depth := by
  intro value column settled read
  obtain ⟨members, opened, read⟩ := Except.exists_of_bind read
  obtain ⟨_, _, read⟩ := Except.exists_of_bind read
  obtain ⟨name, _, read⟩ := Except.exists_of_bind read
  obtain ⟨kind, _, read⟩ := Except.exists_of_bind read
  obtain ⟨attributes, attributesRead, read⟩ := Except.exists_of_bind read
  cases read
  obtain ⟨below, rfl, ascending, each⟩ := Record.settled_of_membersOf settled opened
  obtain ⟨separate, ordered, _⟩ :=
    free_entries (normalizes_text below) ascending each attributesRead
  exact ⟨shape_toJson separate, congrArg (ViewColumn.mk name kind) ordered,
    (confined_toJson _).mono (Nat.le_add_left 1 below)⟩

theorem View.normalizes_succ (room : 1 ≤ depth) : codec.Normalizes (depth + 1) := by
  intro value view settled read
  obtain ⟨below, rfl⟩ := Nat.exists_eq_add_of_le' room
  obtain ⟨members, opened, read⟩ := Except.exists_of_bind read
  obtain ⟨_, _, read⟩ := Except.exists_of_bind read
  obtain ⟨enabled, _, read⟩ := Except.exists_of_bind read
  obtain ⟨columns, columnsRead, read⟩ := Except.exists_of_bind read
  obtain ⟨title, _, read⟩ := Except.exists_of_bind read
  obtain ⟨properties, propertiesRead, read⟩ := Except.exists_of_bind read
  cases read
  obtain ⟨_, ⟨⟩, ascending, each⟩ := Record.settled_of_membersOf settled opened
  have columns : ViewColumn.codec.list.Normal (below + 1) columns :=
    (normalizes_list fun _ => ViewColumn.normalizes _).orElse (Record.holds_named each)
      (normal_nil ViewColumn.codec below) columnsRead
  obtain ⟨apart, ordered, free⟩ :=
    free_entries (normalizes_anything (below + 1)) ascending each propertiesRead
  refine ⟨shape_toJson apart columns.reads, ?_,
    confined_toJson columns.nests fun entry listed => (free entry listed).nests⟩
  show View.sorted _ = _
  rw [sorted, View.mk.injEq]
  refine ⟨rfl, columns.ordered, rfl, ?_⟩
  rw [ordered]
  exact OrderedMap.map_eq_self fun entry listed => (free entry listed).ordered

theorem ViewSet.normalizes_succ (inner : View.codec.Normalizes depth) :
    codec.Normalizes (depth + 1) := by
  intro value views settled read
  obtain ⟨fields, opened, read⟩ := Except.exists_of_bind read
  obtain ⟨_, _, read⟩ := Except.exists_of_bind read
  obtain ⟨create, createRead, read⟩ := Except.exists_of_bind read
  obtain ⟨record, recordRead, read⟩ := Except.exists_of_bind read
  obtain ⟨update, updateRead, read⟩ := Except.exists_of_bind read
  obtain ⟨list, listRead, read⟩ := Except.exists_of_bind read
  obtain ⟨delete, deleteRead, read⟩ := Except.exists_of_bind read
  cases read
  obtain ⟨_, ⟨⟩, held⟩ := Record.holds_of_fieldsOf settled opened
  have views (kind : ViewKind) :
      View.codec.Normal depth (ViewSet.view ⟨create, record, update, list, delete⟩ kind) := by
    cases kind with
    | create => exact inner.require held createRead
    | record => exact inner.require held recordRead
    | update => exact inner.require held updateRead
    | list => exact inner.require held listRead
    | delete => exact inner.require held deleteRead
  refine ⟨shape_toJson fun kind => (views kind).reads, ?_,
    confined_toJson fun kind => (views kind).nests⟩
  show ViewSet.sorted _ = _
  rw [sorted, ViewSet.mk.injEq]
  exact ⟨(views .create).ordered, (views .record).ordered, (views .update).ordered,
    (views .list).ordered, (views .delete).ordered⟩

end Views

namespace Model

theorem normalizes : codec.Normalizes nestingLimit := by
  intro value model settled read
  obtain ⟨fields, opened, read⟩ := Except.exists_of_bind read
  obtain ⟨_, _, read⟩ := Except.exists_of_bind read
  obtain ⟨tables, tablesRead, read⟩ := Except.exists_of_bind read
  obtain ⟨sequence, sequenceRead, read⟩ := Except.exists_of_bind read
  obtain ⟨authorization, authorizationRead, read⟩ := Except.exists_of_bind read
  obtain ⟨endpoints, endpointsRead, read⟩ := Except.exists_of_bind read
  obtain ⟨views, viewsRead, read⟩ := Except.exists_of_bind read
  cases read
  obtain ⟨_, ⟨⟩, held⟩ := Record.holds_of_fieldsOf settled opened
  have tables : Table.codec.map.Normal 126 tables := by
    refine (normalizes_map ?_).orElse held (normal_empty _ 125) tablesRead
    rintro _ ⟨⟩
    exact Table.normalizes 41
  have sequence : text.list.Normal 126 sequence :=
    (normalizes_list fun _ => normalizes_text _).orElse held (normal_nil _ 125) sequenceRead
  have authorization : Policy.codec.map.Normal 126 authorization :=
    (normalizes_map fun _ => Policy.normalizes _).orElse held (normal_empty _ 125) authorizationRead
  have endpoints : boolean.map.Normal 126 endpoints :=
    (normalizes_map fun _ => normalizes_boolean _).orElse held (normal_empty _ 125) endpointsRead
  have views : ViewSet.codec.map.Normal 126 views := by
    refine (normalizes_map ?_).orElse held (normal_empty _ 125) viewsRead
    rintro _ ⟨⟩
    exact ViewSet.normalizes_succ (View.normalizes_succ (by decide))
  refine ⟨shape_toJson tables.reads authorization.reads views.reads, ?_,
    confined_toJson tables.nests sequence.nests authorization.nests endpoints.nests views.nests⟩
  show Model.sorted _ = _
  rw [sorted, Model.mk.injEq]
  refine ⟨tables.ordered, rfl, authorization.ordered, ?_, views.ordered⟩
  exact (OrderedMap.map_id _).symm.trans endpoints.ordered

private theorem shape_of_parse {raw : String} {loaded : LoadedModel}
    (accepted : Model.parse raw = .ok loaded) :
    ∃ value, Json.parse raw = .ok value ∧ Model.shape value = .ok loaded.model := by
  unfold Model.parse at accepted
  split at accepted
  next => cases accepted
  next value read =>
    split at accepted
    next => cases accepted
    next shaped =>
      cases accepted
      exact ⟨value, read, shaped⟩

end Model

/-- The layout of a model that was loaded is loaded as the same model, with its maps in the same
order, whatever the indentation. Only floating-point numbers that the model holds have to stand for
themselves. -/
theorem loading_normalises {raw : String} {loaded : LoadedModel}
    (accepted : Model.parse raw = .ok loaded)
    (numbers : ∀ x ∈ loaded.model.toJson.floats, Json.IsRead x) (indent : Nat) :
    ∃ again, Model.parse (loaded.model.toJson.pretty indent) = .ok again ∧
      again.model = loaded.model ∧
      again.identityIndex = loaded.identityIndex ∧ again.extended = true := by
  obtain ⟨value, read, shaped⟩ := Model.shape_of_parse accepted
  have normal : Model.codec.Normal nestingLimit loaded.model :=
    Model.normalizes (Json.settled_of_parse read) shaped
  have again := Model.parse_pretty normal.reads (Json.readable_of_nests normal.nests numbers) indent
  have same : loaded.model.sorted = loaded.model := normal.ordered
  refine ⟨_, again, same, ?_, rfl⟩
  exact congrArg Model.identityIndex same

namespace Bookstore

/-- A text with a table twice, a table whose fields are listed, and nothing about authorization. -/
def handwritten : String :=
  "\x7b\"Tables\": \x7b\"Order\": [\"Order\", \"Store\", [[\"IDOrder\", \"ID\"]], \"\",
    [\"Order\", \"IDOrder\", \"Store\", [], \x7b\"Price\": 5e-1\x7d]],
    \"Book\": \x7b\"TableName\": \"Books\"\x7d, \"Book\": \x7b\"TableName\": \"Book\"\x7d\x7d\x7d"

def half : Binary64 := ⟨false, power 2 52, -53, by decide⟩

private theorem handwritten_parse :
    (Model.parse handwritten).toOption.map (fun loaded =>
      (loaded.extended, loaded.model.tables.keys, loaded.identityIndex.get? "IDOrder",
       loaded.model.toJson.floats)) =
      some (false, ["Book", "Order"], some "Order", [half]) := by decide +kernel

end Bookstore

theorem loading_normalises_bookstore :
    ∃ loaded again, Model.parse Bookstore.handwritten = .ok loaded ∧ loaded.extended = false ∧
      loaded.model.tables.keys = ["Book", "Order"] ∧ Bookstore.half ∈ loaded.model.toJson.floats ∧
      Json.IsRead Bookstore.half ∧ Model.parse (loaded.model.toJson.pretty 4) = .ok again ∧
      again.model = loaded.model ∧ again.identityIndex.get? "IDOrder" = some "Order" ∧
      again.extended = true := by
  have told := Bookstore.handwritten_parse
  have stands : Json.IsRead Bookstore.half := by decide +kernel
  cases accepted : Model.parse Bookstore.handwritten with
  | error fault =>
    rw [accepted] at told
    cases told
  | ok loaded =>
    rw [accepted] at told
    simp only [Except.toOption, Option.map_some, Option.some.injEq, Prod.mk.injEq] at told
    obtain ⟨extended, keys, index, floats⟩ := told
    have numbers : ∀ x ∈ loaded.model.toJson.floats, Json.IsRead x := by
      rw [floats]
      intro x listed
      rw [List.mem_singleton.mp listed]
      exact stands
    obtain ⟨again, read, same, sameIndex, told⟩ := loading_normalises accepted numbers 4
    refine ⟨loaded, again, rfl, extended, keys, ?_, stands, read, same, ?_, told⟩
    · rw [floats]
      exact List.mem_singleton_self _
    · rw [sameIndex, index]

end StanzaSchema
