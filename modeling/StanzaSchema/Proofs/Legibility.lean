import StanzaSchema.Proofs.Numerals
import StanzaSchema.Proofs.Tidiness

/-!
How deep the layout of a model nests, and which numbers occur in it: the only ones are the default
values of columns.
-/

namespace StanzaSchema

open Json (Confined Readable)

namespace Json

section Confined

variable {β : Type} {known : Number → Prop} {encode : β → Json} {depth : Nat}

theorem Confined.mono {deeper : Nat} {value : Json} (confined : Confined known depth value)
    (fits : depth ≤ deeper) :
    Confined known deeper value := by
  induction confined generalizing deeper with
  | null => exact .null
  | boolean value => exact .boolean value
  | number proper => exact .number proper
  | text value => exact .text value
  | array _ inside =>
    obtain ⟨deeper, rfl⟩ := Nat.exists_eq_add_of_le' (Nat.le_trans (Nat.le_add_left 1 _) fits)
    exact .array fun item member => inside item member (by omega)
  | object _ inside =>
    obtain ⟨deeper, rfl⟩ := Nat.exists_eq_add_of_le' (Nat.le_trans (Nat.le_add_left 1 _) fits)
    exact .object fun item member => inside item member (by omega)

theorem confined_ofMap {map : OrderedMap β}
    (inside : ∀ entry ∈ map.entries, Confined known depth (encode entry.2)) :
    Confined known (depth + 1) (ofMap encode map) := by
  refine .object ?_
  intro member listed
  obtain ⟨entry, present, rfl⟩ := List.mem_map.mp listed
  exact inside entry present

theorem confined_map {items : List β}
    (inside : ∀ item ∈ items, Confined known depth (encode item)) :
    Confined known (depth + 1) (array (items.map encode)) := by
  refine .array ?_
  intro member listed
  obtain ⟨item, present, rfl⟩ := List.mem_map.mp listed
  exact inside item present

theorem confined_optional {name : String} {value : Option β}
    (inside : ∀ content, value = some content → Confined known depth (encode content)) :
    ∀ member ∈ optional name encode value, Confined known depth member.2 := by
  intro member listed
  cases value with
  | none => cases listed
  | some content =>
    rw [List.mem_singleton.mp listed]
    exact inside content rfl

end Confined

private theorem readable_zero : Readable 0 zero := .number (Number.legible_whole _)

private theorem readable_floatingZero : Readable 0 floatingZero :=
  .number (Number.legible_floating (by decide +kernel))

theorem Plain.readable {value : Json} (plain : value.Plain) : Readable 0 value := by
  rcases plain with ⟨truth, rfl⟩ | ⟨text, rfl⟩
  · exact .boolean truth
  · exact .text text

end Json

theorem DataType.readable_defaultValue (type : DataType) : Readable 0 type.defaultValue := by
  cases type with
  | identity => exact Json.readable_zero
  | foreignKey => exact Json.readable_zero
  | numeric => exact Json.readable_zero
  | decimal => exact Json.readable_floatingZero
  | guid => exact .text _
  | string => exact .text _
  | text => exact .text _
  | dateTime => exact .null
  | boolean => exact .boolean _

variable {known : Json.Number → Prop} {depth : Nat}

theorem Column.confined_toJson (column : Column) : Confined known 1 column.toJson := by
  have text (value : Option String) (name : String) :
      ∀ member ∈ Json.optional name Json.text value, Confined known 0 member.2 :=
    Json.confined_optional fun content _ => .text content
  refine .object ?_
  simp only [List.forall_mem_append, List.forall_mem_cons]
  exact ⟨⟨⟨⟨⟨.text _, .text _, by simp⟩, text _ _⟩, text _ _⟩, text _ _⟩, text _ _⟩

theorem Policy.confined_toJson (policy : Policy) : Confined known 2 policy.toJson :=
  Json.confined_ofMap fun _ _ => Json.confined_ofMap fun _ _ => .text _

theorem SchemaEntry.confined_toJson (entry : SchemaEntry) : Confined known 1 entry.toJson := by
  refine .object ?_
  simp only [List.forall_mem_cons]
  exact ⟨.text _, .text _, .text _, by simp⟩

theorem SchemaProperty.confined_toJson (property : SchemaProperty) :
    Confined known 1 property.toJson := by
  refine .object ?_
  simp only [List.forall_mem_cons]
  exact ⟨.text _, .text _, by simp⟩

theorem Table.confined_toJson {table : Table}
    (columns : Confined known depth (.array (table.columns.map Column.toJson)))
    (inner : ∀ derived, table.derived = some derived → Confined known depth derived.toJson) :
    Confined known (depth + 1) table.toJson := by
  rw [toJson_eq]
  refine .object ?_
  simp only [members, List.forall_mem_append, List.forall_mem_cons]
  exact ⟨⟨.text _, .text _, columns, .text _, by simp⟩, Json.confined_optional inner⟩

theorem DerivedSchema.confined_toJson {derived : DerivedSchema}
    (entries : Confined known depth (.array (derived.entries.map SchemaEntry.toJson)))
    (defaults : Confined known depth (Json.ofMap id derived.defaults))
    (authorization : Confined known depth derived.authorization.toJson)
    (inner : ∀ schema, derived.jsonSchema = some schema → Confined known depth schema.toJson) :
    Confined known (depth + 1) derived.toJson := by
  rw [toJson_eq]
  refine .object ?_
  simp only [members, List.forall_mem_append, List.forall_mem_cons]
  exact ⟨⟨⟨.text _, .text _, .text _, entries, defaults, by simp⟩, Json.confined_optional inner⟩,
    authorization, by simp⟩

theorem JsonSchema.confined_toJson {schema : JsonSchema}
    (properties : Confined known depth (Json.ofMap SchemaProperty.toJson schema.properties))
    (required : Confined known depth (Json.ofTexts schema.required))
    (inner : ∀ table, schema.table = some table → Confined known depth table.toJson) :
    Confined known (depth + 1) schema.toJson := by
  rw [toJson_eq]
  refine .object ?_
  simp only [members, List.forall_mem_append, List.forall_mem_cons]
  exact ⟨⟨.text _, .text _, properties, required, by simp⟩, Json.confined_optional inner⟩

theorem ViewColumn.confined_toJson (column : ViewColumn) : Confined known 1 column.toJson := by
  refine .object ?_
  simp only [List.forall_mem_append, List.forall_mem_cons]
  refine ⟨⟨.text _, Json.confined_optional fun _ _ => .text _⟩, ?_⟩
  intro member listed
  obtain ⟨entry, _, rfl⟩ := List.mem_map.mp listed
  exact .text _

theorem View.confined_toJson {view : View}
    (columns : Confined known depth (.array (view.columns.map ViewColumn.toJson)))
    (properties : ∀ entry ∈ view.properties.entries, Confined known depth entry.2) :
    Confined known (depth + 1) view.toJson := by
  refine .object ?_
  simp only [List.forall_mem_append, List.forall_mem_cons]
  exact ⟨⟨.boolean _, columns, .text _, by simp⟩, properties⟩

theorem ViewSet.confined_toJson {views : ViewSet}
    (inner : ∀ kind, Confined known depth (views.view kind).toJson) :
    Confined known (depth + 1) views.toJson := by
  refine .object ?_
  intro member listed
  obtain ⟨kind, _, rfl⟩ := List.mem_map.mp listed
  exact inner kind

theorem Model.confined_toJson {model : Model} (tables : Confined known depth model.tablesJson)
    (sequence : Confined known depth (Json.ofTexts model.sequence))
    (authorization : Confined known depth model.authorizationJson)
    (endpoints : Confined known depth model.endpointsJson)
    (views : Confined known depth model.viewsJson) :
    Confined known (depth + 1) model.toJson := by
  refine .object ?_
  simp only [List.forall_mem_cons]
  exact ⟨tables, sequence, authorization, endpoints, views, by simp⟩

theorem ViewSet.Tidy.readable {views : ViewSet} (tidy : views.Tidy) : Readable 4 views.toJson := by
  refine ViewSet.confined_toJson fun kind => View.confined_toJson ?_ ?_
  · exact Json.confined_map fun column _ => column.confined_toJson
  · intro entry listed
    exact ((tidy kind).plain (OrderedMap.mem_entries_iff.mp listed)).readable.mono (Nat.zero_le 2)

end StanzaSchema
