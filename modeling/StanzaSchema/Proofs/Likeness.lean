import StanzaSchema.Proofs.Loading

/-!
Models that differ in the order of map entries only. Lists have to agree item by item. Putting maps
in order leaves a model like itself.
-/

namespace StanzaSchema

namespace OrderedMap

variable {β γ : Type}

/-- Maps with the same keys and related values under each of them, in whatever order. -/
def Alike (related : β → γ → Prop) (first : OrderedMap β) (second : OrderedMap γ) : Prop :=
  ∀ key, Option.Rel related (first.get? key) (second.get? key)

theorem Alike.get?_eq {first second : OrderedMap β} (alike : first.Alike Eq second) (key : String) :
    first.get? key = second.get? key := by
  have same := alike key
  generalize first.get? key = left at same
  generalize second.get? key = right at same
  cases same with
  | none => rfl
  | some same => rw [same]

/-- What related values have in common is found under each key of both maps. -/
theorem Alike.map_get?_eq {δ : Type} {related : β → γ → Prop} {first : OrderedMap β}
    {second : OrderedMap γ} (alike : first.Alike related second) {left : β → δ} {right : γ → δ}
    (common : ∀ one other, related one other → left one = right other) (key : String) :
    (first.get? key).map left = (second.get? key).map right := by
  have same := alike key
  generalize first.get? key = one at same
  generalize second.get? key = other at same
  cases same with
  | none => rfl
  | some same => exact congrArg some (common _ _ same)

theorem alike_sorted_map {related : β → γ → Prop} {change : β → γ} {map : OrderedMap β}
    (each : ∀ entry ∈ map.entries, related entry.2 (change entry.2)) :
    map.Alike related (map.sorted.map change) := by
  intro key
  rw [get?_map, get?_sorted]
  cases found : map.get? key with
  | none => exact .none
  | some value => exact .some (each (key, value) (mem_entries_iff.mpr found))

theorem alike_map {δ : Type} {related : γ → δ → Prop} {first : β → γ} {second : β → δ}
    {map : OrderedMap β} (each : ∀ entry ∈ map.entries, related (first entry.2) (second entry.2)) :
    (map.map first).Alike related (map.map second) := by
  intro key
  rw [get?_map, get?_map]
  cases found : map.get? key with
  | none => exact .none
  | some value => exact .some (each (key, value) (mem_entries_iff.mpr found))

theorem Alike.refl {related : β → β → Prop} (self : ∀ value, related value value)
    (map : OrderedMap β) :
    map.Alike related map := by
  intro key
  cases map.get? key with
  | none => exact .none
  | some value => exact .some (self value)

theorem alike_sorted (map : OrderedMap β) : map.Alike Eq map.sorted := by
  intro key
  rw [get?_sorted]
  cases map.get? key with
  | none => exact .none
  | some value => exact .some rfl

end OrderedMap

def Policy.Alike (first second : Policy) : Prop :=
  first.roles.Alike (OrderedMap.Alike Eq) second.roles

mutual
inductive Table.Alike : Table → Table → Prop
  | mk {first second : Table} (name : first.name = second.name)
    (domain : first.domain = second.domain) (columns : first.columns = second.columns)
    (description : first.description = second.description)
    (derived : Option.Rel DerivedSchema.Alike first.derived second.derived) :
    Table.Alike first second
inductive DerivedSchema.Alike : DerivedSchema → DerivedSchema → Prop
  | mk {first second : DerivedSchema} (scope : first.scope = second.scope)
    (identifier : first.identifier = second.identifier) (domain : first.domain = second.domain)
    (entries : first.entries = second.entries) (defaults : first.defaults.Alike Eq second.defaults)
    (jsonSchema : Option.Rel JsonSchema.Alike first.jsonSchema second.jsonSchema)
    (authorization : first.authorization.Alike second.authorization) :
    DerivedSchema.Alike first second
inductive JsonSchema.Alike : JsonSchema → JsonSchema → Prop
  | mk {first second : JsonSchema} (title : first.title = second.title)
    (type : first.type = second.type) (properties : first.properties.Alike Eq second.properties)
    (required : first.required = second.required)
    (table : Option.Rel Table.Alike first.table second.table) : JsonSchema.Alike first second
end

structure ViewColumn.Alike (first second : ViewColumn) : Prop where
  name : first.name = second.name
  kind : first.kind = second.kind
  attributes : first.attributes.Alike Eq second.attributes

structure View.Alike (first second : View) : Prop where
  enabled : first.enabled = second.enabled
  title : first.title = second.title
  columns : ∀ index : Nat, Option.Rel ViewColumn.Alike first.columns[index]? second.columns[index]?
  properties : first.properties.Alike Eq second.properties

def ViewSet.Alike (first second : ViewSet) : Prop :=
  ∀ kind, (first.view kind).Alike (second.view kind)

structure Model.Alike (first second : Model) : Prop where
  tables : first.tables.Alike Table.Alike second.tables
  sequence : first.sequence = second.sequence
  authorization : first.authorization.Alike Policy.Alike second.authorization
  endpoints : first.endpoints.Alike Eq second.endpoints
  views : first.views.Alike ViewSet.Alike second.views

theorem Policy.Alike.refl (policy : Policy) : policy.Alike policy :=
  OrderedMap.Alike.refl (OrderedMap.Alike.refl fun _ => rfl) policy.roles

theorem ViewSet.Alike.refl (views : ViewSet) : views.Alike views := by
  intro kind
  refine ⟨rfl, rfl, ?_, .refl (fun _ => rfl) _⟩
  intro index
  cases (views.view kind).columns[index]? with
  | none => exact .none
  | some column => exact .some ⟨rfl, rfl, .refl (fun _ => rfl) _⟩

theorem Policy.alike_sorted (policy : Policy) : policy.Alike policy.sorted :=
  OrderedMap.alike_sorted_map fun entry _ => entry.2.alike_sorted

theorem Table.alike_sorted {table : Table}
    (inner : ∀ derived, table.derived = some derived → derived.Alike derived.sorted) :
    table.Alike table.sorted := by
  rw [sorted_eq]
  refine .mk rfl rfl rfl rfl ?_
  cases held : table.derived with
  | none => exact .none
  | some derived => exact .some (inner derived held)

theorem DerivedSchema.alike_sorted {derived : DerivedSchema}
    (plain : ∀ entry ∈ derived.defaults.entries, entry.2 = entry.2.sorted)
    (inner : ∀ schema, derived.jsonSchema = some schema → schema.Alike schema.sorted) :
    derived.Alike derived.sorted := by
  rw [sorted_eq]
  refine .mk rfl rfl rfl rfl (OrderedMap.alike_sorted_map plain) ?_
    derived.authorization.alike_sorted
  cases held : derived.jsonSchema with
  | none => exact .none
  | some schema => exact .some (inner schema held)

theorem JsonSchema.alike_sorted {schema : JsonSchema}
    (inner : ∀ table, schema.table = some table → table.Alike table.sorted) :
    schema.Alike schema.sorted := by
  rw [sorted_eq]
  refine .mk rfl rfl schema.properties.alike_sorted rfl ?_
  cases held : schema.table with
  | none => exact .none
  | some table => exact .some (inner table held)

theorem ViewColumn.alike_sorted (column : ViewColumn) : column.Alike column.sorted :=
  ⟨rfl, rfl, column.attributes.alike_sorted⟩

theorem View.alike_sorted {view : View}
    (plain : ∀ entry ∈ view.properties.entries, entry.2 = entry.2.sorted) :
    view.Alike view.sorted := by
  refine ⟨rfl, rfl, ?_, OrderedMap.alike_sorted_map plain⟩
  intro index
  rw [sorted, List.getElem?_map]
  cases view.columns[index]? with
  | none => exact .none
  | some column => exact .some column.alike_sorted

end StanzaSchema
