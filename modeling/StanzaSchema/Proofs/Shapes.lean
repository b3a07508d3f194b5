import StanzaSchema.Json.Shape
import StanzaSchema.Model.Layout
import StanzaSchema.Proofs.Sorting

/-!
Reading data out of a value whose objects were put in order. Lists come back item by item, maps come
back sorted, and the fields of a record are found by their names wherever they stand.
-/

namespace StanzaSchema

namespace Entries

variable {α β : Type} [DecidableEq α]

@[simp] theorem find?_append (key : α) (first second : List (α × β)) :
    find? key (first ++ second) = (find? key first).or (find? key second) := by
  induction first with
  | nil => rfl
  | cons entry rest ih => by_cases same : entry.1 = key <;> simp [find?, same, ih]

end Entries

namespace Json

variable {α β : Type}

@[simp] theorem find?_optional (key name : String) (encode : α → Json) (value : Option α) :
    Entries.find? key (optional name encode value) =
      if name = key then value.map encode else none := by
  cases value <;> simp [optional, Entries.find?]

theorem keys_optional_sublist (name : String) (encode : α → Json) (value : Option α) :
    (Entries.keys (optional name encode value)).Sublist [name] := by
  cases value
  · exact List.nil_sublist _
  · exact .refl _

/-- The members of an object after sorting. -/
def inOrder (members : List (String × Json)) : List (String × Json) :=
  Entries.arrange (members.map fun member => (member.1, member.2.sorted))

theorem sorted_eq_inOrder (members : List (String × Json)) :
    (object members).sorted = .object (inOrder members) :=
  sorted_object members

theorem find?_inOrder {members : List (String × Json)} (distinct : (Entries.keys members).Nodup)
    (key : String) :
    Entries.find? key (inOrder members) = (Entries.find? key members).map sorted := by
  rw [inOrder, Entries.arrange_map, Entries.find?_map, Entries.find?_arrange distinct]

namespace Shape

private theorem mapM_eq_ok {fault : Type} {read : β → Except fault α} {result : β → α}
    {items : List β} (reads : ∀ item ∈ items, read item = .ok (result item)) :
    items.mapM read = .ok (items.map result) := by
  induction items with
  | nil => rfl
  | cons item items ih =>
    rw [List.mapM_cons, reads item List.mem_cons_self,
      ih fun later member => reads later (List.mem_cons_of_mem _ member)]
    rfl

theorem list_array {shape : Shape α} {encode : β → Json} {result : β → α} {items : List β}
    (reads : ∀ item ∈ items, shape (encode item).sorted = .ok (result item)) :
    Shape.list shape (array (items.map encode)).sorted = .ok (items.map result) := by
  rw [sorted_array, Shape.list, List.map_map, List.mapM_map]
  exact mapM_eq_ok reads

theorem entries_inOrder {shape : Shape α} {encode : β → Json} {result : β → α} {map : OrderedMap β}
    (reads : ∀ entry ∈ map.entries, shape (encode entry.2).sorted = .ok (result entry.2)) :
    Shape.entries shape (inOrder (map.entries.map fun entry => (entry.1, encode entry.2))) =
      .ok (map.sorted.map result) := by
  have arranged : inOrder (map.entries.map fun entry => (entry.1, encode entry.2)) =
      map.sorted.entries.map fun entry => (entry.1, (encode entry.2).sorted) := by
    rw [inOrder, List.map_map]
    exact Entries.arrange_map (fun value : β => (encode value).sorted) map.entries
  have read : (inOrder (map.entries.map fun entry =>
      (entry.1, encode entry.2))).mapM (entry shape) =
      .ok (map.sorted.map result).entries := by
    rw [arranged, List.mapM_map]
    refine mapM_eq_ok ?_
    intro item member
    rw [Function.comp_apply, entry, reads item (map.entries_sorted_perm.mem_iff.mp member)]
    rfl
  rw [entries, read]
  exact congrArg Except.ok
    (OrderedMap.ext_entries (OrderedMap.entries_ofEntries (map.sorted.map result).distinct))

theorem map_ofMap {shape : Shape α} {encode : β → Json} {result : β → α} {map : OrderedMap β}
    (reads : ∀ entry ∈ map.entries, shape (encode entry.2).sorted = .ok (result entry.2)) :
    Shape.map shape (ofMap encode map).sorted = .ok (map.sorted.map result) := by
  rw [ofMap, sorted_eq_inOrder, Shape.map]
  exact entries_inOrder reads

theorem text_sorted (value : String) : Shape.text (Json.text value).sorted = .ok value := rfl

theorem text_solid (value : String) : (Json.text value).sorted ≠ .null := by
  intro null
  cases null

theorem boolean_sorted (value : Bool) : Shape.boolean (Json.boolean value).sorted = .ok value := rfl

end Shape

namespace Slot

@[simp] theorem fault?_ok (value : Option α) : fault? (.ok value) = none := rfl

@[simp] theorem require_ok (name : String) (value : α) :
    require name (.ok (some value)) = .ok value := rfl

@[simp] theorem orElse_ok (default value : α) : orElse default (.ok (some value)) = .ok value := rfl

@[simp] theorem orElse_map_some (value : Option α) :
    orElse none (.ok (value.map some)) = .ok value := by
  cases value <;> rfl

end Slot

namespace Record

variable {record : Record} {members : List (String × Json)}

theorem fieldsOf_bind {value : Json} {fields : Fields} (shaped : value.fields? = some fields)
    (read : Fields → Except ShapeFault α) : (record.fieldsOf value >>= read) = read fields := by
  rw [fieldsOf, shaped]
  rfl

theorem fieldsOf_sorted (record : Record) (members : List (String × Json)) :
    record.fieldsOf (object members).sorted = .ok (.named (inOrder members)) := by
  rw [sorted_eq_inOrder]
  rfl

theorem membersOf_sorted (record : Record) (members : List (String × Json)) :
    record.membersOf (object members).sorted = .ok (inOrder members) := by
  rw [sorted_eq_inOrder]
  rfl

theorem field?_inOrder (distinct : (Entries.keys members).Nodup) (name : String) :
    record.field? (.named (inOrder members)) name = (Entries.find? name members).map sorted := by
  rw [field?, member?_eq_find?, find?_inOrder distinct]

theorem slot_absent {name : String} (distinct : (Entries.keys members).Nodup)
    (missing : Entries.find? name members = none) (shape : Shape α) :
    record.slot (.named (inOrder members)) name shape = .ok none := by
  rw [slot, field?_inOrder distinct, missing]
  rfl

theorem slot_present {shape : Shape α} {name : String} {content : Json} {value : α}
    (distinct : (Entries.keys members).Nodup) (found : Entries.find? name members = some content)
    (reads : shape content.sorted = .ok value) :
    record.slot (.named (inOrder members)) name shape = .ok (some value) := by
  rw [slot, field?_inOrder distinct, found]
  simp only [Option.map_some, reads]
  rfl

/-- A field with a value in it, where there might have been none. -/
theorem slot_option {shape : Shape α} {fields : Fields} {name : String} {content : Json}
    (solid : content ≠ .null) (found : record.field? fields name = some content) :
    record.slot fields name (Shape.option shape) = (shape content).map fun value =>
      some (some value) := by
  have read : Shape.option shape content = (shape content).map some := by
    cases content with
    | null => exact absurd rfl solid
    | _ => rfl
  simp only [slot, found, read]
  cases shape content <;> rfl

/-- A field that may be left out is read as what was written. -/
theorem slot_optional {shape : Shape α} {encode : β → Json} {result : β → α} {name : String}
    {value : Option β} (distinct : (Entries.keys members).Nodup)
    (found : Entries.find? name members = value.map encode)
    (solid : ∀ content, (encode content).sorted ≠ .null)
    (reads : ∀ content, value = some content →
      shape (encode content).sorted = .ok (result content)) :
    record.slot (.named (inOrder members)) name (Shape.option shape) =
      .ok ((value.map result).map some) := by
  have field : record.field? (.named (inOrder members)) name = (value.map encode).map sorted := by
    rw [field?_inOrder distinct, found]
  cases value with
  | none =>
    rw [slot, field]
    rfl
  | some content =>
    rw [slot_option (solid content) field, reads content rfl]
    rfl

/-- Named fields pass when none is at fault and what has to be there is. -/
theorem check_inOrder {faults : List (String × Option ShapeFault)}
    (distinct : (Entries.keys members).Nodup) (clean : ∀ fault ∈ faults, fault.2 = none)
    (complete : ∀ field ∈ record.fields, field.2 = true →
      (Entries.find? field.1 members).isSome = true) :
    record.check (.named (inOrder members)) faults = .ok () := by
  have faultless : record.firstFault? (.named (inOrder members)) faults = none := by
    rw [firstFault?, List.findSome?_eq_none_iff]
    intro name _
    cases found : faults.lookup name with
    | none => rfl
    | some fault =>
      obtain ⟨before, after, listed, _⟩ := List.lookup_eq_some_iff.mp found
      exact clean (name, fault) (by simp [listed])
  have present : record.firstMissing? (.named (inOrder members)) = none := by
    rw [firstMissing?, Option.map_eq_none_iff, List.find?_eq_none]
    intro field member missing
    obtain ⟨needed, absent⟩ := Bool.and_eq_true_iff.mp missing
    have listed := complete field.1 (List.fst_mem_of_mem_zipIdx member) needed
    rw [field?_inOrder distinct, Option.isNone_map] at absent
    simp [Option.isNone_iff_eq_none.mp absent] at listed
  simp only [check, faultless, present, excess?]

/-- The members that are no fields, behind fields that are. -/
theorem others_inOrder {fixed free : List (String × Json)}
    (distinct : (Entries.keys (fixed ++ free)).Nodup)
    (known : ∀ member ∈ fixed, member.1 ∈ record.fieldNames)
    (unknown : ∀ member ∈ free, member.1 ∉ record.fieldNames) :
    record.others (inOrder (fixed ++ free)) = inOrder free := by
  have moved :
      (Entries.keys ((fixed ++ free).map fun member => (member.1, member.2.sorted))).Nodup := by
    simpa [Entries.keys, Function.comp_def] using distinct
  rw [others, inOrder, inOrder,
    Entries.filter_arrange moved fun name => !record.fieldNames.contains name,
    List.map_append, List.filter_append]
  congr 1
  have none : (fixed.map fun member => (member.1, member.2.sorted)).filter
      (fun member => !record.fieldNames.contains member.1) = [] := by
    rw [List.filter_eq_nil_iff]
    intro member moved
    obtain ⟨former, present, rfl⟩ := List.mem_map.mp moved
    simp [known former present]
  have all : (free.map fun member => (member.1, member.2.sorted)).filter
      (fun member => !record.fieldNames.contains member.1) = free.map fun member =>
        (member.1, member.2.sorted) := by
    rw [List.filter_eq_self]
    intro member moved
    obtain ⟨former, present, rfl⟩ := List.mem_map.mp moved
    simp [unknown former present]
  rw [none, all, List.nil_append]

end Record

end Json

end StanzaSchema
