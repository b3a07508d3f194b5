import StanzaSchema.Json.Value
import StanzaSchema.Proofs.Maps

/-!
Entries in the order of their keys. Sorting entries of distinct keys moves them and does nothing
else, and there is only one sorted order, so that whatever keeps the keys commutes with it.
-/

namespace StanzaSchema

private theorem Text.precedesChars_iff (first second : List Char) :
    precedesChars first second = true ↔ first < second := by
  induction first generalizing second with
  | nil => cases second <;> simp [precedesChars]
  | cons a as ih =>
    cases second with
    | nil => simp [precedesChars]
    | cons b bs =>
      rw [precedesChars, List.cons_lt_cons_iff]
      by_cases less : a.toNat < b.toNat
      · simp [less, show a < b from less]
      · by_cases more : b.toNat < a.toNat
        · have apart : a ≠ b := by
            rintro rfl
            omega
          simp [more, show ¬ a < b from less, less, apart]
        · have same : a = b := Char.toNat_inj.mp (by omega)
          simp [same, ih]

/-- Keys are in the order of strings. -/
theorem Text.precedes_iff (first second : String) : precedes first second = true ↔ first < second :=
  precedesChars_iff first.toList second.toList

namespace Entries

variable {β γ : Type}

/-- Puts an entry at its place in a sorted list, over an equal key. -/
def place (key : String) (value : β) : List (String × β) → List (String × β)
  | [] => [(key, value)]
  | entry :: rest =>
    if key < entry.1 then (key, value) :: entry :: rest
    else if entry.1 < key then entry :: place key value rest
    else (key, value) :: rest

/-- Entries in the order of their keys, the last of equal ones remaining. -/
def arrange (entries : List (String × β)) : List (String × β) :=
  entries.foldl (fun sorted entry => place entry.1 entry.2 sorted) []

/-- No key stands before a smaller one or twice. -/
def Ascending (entries : List (String × β)) : Prop :=
  entries.Pairwise fun first second => first.1 < second.1

theorem mem_place {key : String} {value : β} {entries : List (String × β)} {entry : String × β}
    (member : entry ∈ place key value entries) : entry = (key, value) ∨ entry ∈ entries := by
  induction entries with
  | nil => exact .inl (List.mem_singleton.mp member)
  | cons first rest ih =>
    rw [place] at member
    split at member
    · exact List.mem_cons.mp member
    · split at member
      · rcases List.mem_cons.mp member with rfl | later
        · exact .inr List.mem_cons_self
        · exact (ih later).imp_right (List.mem_cons_of_mem _)
      · exact (List.mem_cons.mp member).imp_right (List.mem_cons_of_mem _)

private theorem ascending_place (key : String) (value : β) {entries : List (String × β)}
    (ascending : Ascending entries) :
    Ascending (place key value entries) := by
  induction entries with
  | nil => exact List.pairwise_singleton ..
  | cons first rest ih =>
    obtain ⟨least, ascending⟩ := List.pairwise_cons.mp ascending
    rw [place]
    split
    next before =>
      refine List.pairwise_cons.mpr ⟨?_, List.pairwise_cons.mpr ⟨least, ascending⟩⟩
      intro entry member
      rcases List.mem_cons.mp member with rfl | later
      · exact before
      · exact String.lt_trans before (least entry later)
    next =>
      split
      next after =>
        refine List.pairwise_cons.mpr ⟨?_, ih ascending⟩
        intro entry member
        rcases mem_place member with rfl | later
        · exact after
        · exact least entry later
      next notBefore notAfter =>
        have same : key = first.1 :=
          String.le_antisymm (String.not_lt.mp notAfter) (String.not_lt.mp notBefore)
        exact List.pairwise_cons.mpr ⟨fun entry later => same ▸ least entry later, ascending⟩

private theorem place_perm {key : String} (value : β) {entries : List (String × β)}
    (new : key ∉ keys entries) :
    (place key value entries).Perm ((key, value) :: entries) := by
  induction entries with
  | nil => exact .refl _
  | cons first rest ih =>
    simp only [keys, List.map_cons, List.mem_cons, not_or] at new
    rw [place]
    split
    · exact .refl _
    · split
      · exact ((ih new.2).cons first).trans (.swap ..)
      next notBefore notAfter =>
        exact absurd (String.le_antisymm (String.not_lt.mp notAfter) (String.not_lt.mp notBefore))
          new.1

theorem ascending_arrange (entries : List (String × β)) : Ascending (arrange entries) := by
  have general (sorted : List (String × β)) (ascending : Ascending sorted) :
      Ascending (entries.foldl (fun sorted entry => place entry.1 entry.2 sorted) sorted) := by
    induction entries generalizing sorted with
    | nil => exact ascending
    | cons entry rest ih => exact ih _ (ascending_place entry.1 entry.2 ascending)
  exact general [] .nil

/-- Sorting entries of distinct keys only moves them. -/
theorem arrange_perm {entries : List (String × β)} (distinct : (keys entries).Nodup) :
    (arrange entries).Perm entries := by
  have general (later sorted : List (String × β)) (distinct : (keys (later ++ sorted)).Nodup) :
      (later.foldl (fun sorted entry => place entry.1 entry.2 sorted) sorted).Perm
        (later ++ sorted) := by
    induction later generalizing sorted with
    | nil => exact .refl _
    | cons entry rest ih =>
      simp only [List.cons_append, keys, List.map_cons, List.nodup_cons] at distinct
      obtain ⟨absent, distinct⟩ := distinct
      have new : entry.1 ∉ keys sorted := by
        intro member
        rw [List.map_append] at absent
        exact absent (List.mem_append_right _ member)
      have moved : (rest ++ place entry.1 entry.2 sorted).Perm (entry :: rest ++ sorted) :=
        ((place_perm entry.2 new).append_left rest).trans List.perm_middle
      refine (ih _ ?_).trans moved
      exact (moved.map Prod.fst).nodup_iff.mpr (List.nodup_cons.mpr ⟨absent, distinct⟩)
  simpa [arrange] using general entries [] (by simpa using distinct)

theorem mem_arrange {entries : List (String × β)} {entry : String × β}
    (member : entry ∈ arrange entries) :
    entry ∈ entries := by
  have general (later sorted : List (String × β))
      (member : entry ∈ later.foldl (fun sorted entry => place entry.1 entry.2 sorted) sorted) :
      entry ∈ later ∨ entry ∈ sorted := by
    induction later generalizing sorted with
    | nil => exact .inr member
    | cons first rest ih =>
      rcases ih _ member with listed | placed
      · exact .inl (List.mem_cons_of_mem _ listed)
      · rcases mem_place placed with rfl | earlier
        · exact .inl List.mem_cons_self
        · exact .inr earlier
  simpa using general entries [] member

theorem Ascending.keys_nodup {entries : List (String × β)} (ascending : Ascending entries) :
    (keys entries).Nodup := by
  rw [keys, List.nodup_iff_pairwise_ne, List.pairwise_map]
  refine ascending.imp ?_
  intro first second less same
  exact String.lt_irrefl _ (same ▸ less)

theorem keys_arrange_nodup (entries : List (String × β)) : (keys (arrange entries)).Nodup :=
  (ascending_arrange entries).keys_nodup

/-- There is one sorted order only. -/
theorem Ascending.eq_of_perm {first second : List (String × β)} (left : Ascending first)
    (right : Ascending second) (moved : first.Perm second) : first = second :=
  moved.eq_of_pairwise (fun _ _ _ _ less more => absurd more (String.lt_asymm less)) left right

/-- Entries that are in order stay as they are. -/
theorem Ascending.arrange_eq {entries : List (String × β)} (ascending : Ascending entries) :
    arrange entries = entries :=
  (ascending_arrange entries).eq_of_perm ascending (arrange_perm ascending.keys_nodup)

theorem arrange_map (change : β → γ) (entries : List (String × β)) :
    arrange (entries.map fun entry => (entry.1, change entry.2)) =
      (arrange entries).map fun entry => (entry.1, change entry.2) := by
  have placed (key : String) (value : β) (sorted : List (String × β)) :
      place key (change value) (sorted.map fun entry => (entry.1, change entry.2)) =
        (place key value sorted).map fun entry => (entry.1, change entry.2) := by
    induction sorted with
    | nil => rfl
    | cons entry rest ih =>
      simp only [List.map_cons, place]
      split
      · rfl
      · split <;> simp [ih]
  have general (sorted : List (String × β)) :
      (entries.map fun entry => (entry.1, change entry.2)).foldl
        (fun sorted entry => place entry.1 entry.2 sorted)
          (sorted.map fun entry => (entry.1, change entry.2)) =
        (entries.foldl (fun sorted entry => place entry.1 entry.2 sorted) sorted).map
          fun entry => (entry.1, change entry.2) := by
    induction entries generalizing sorted with
    | nil => rfl
    | cons entry rest ih =>
      rw [List.map_cons, List.foldl_cons, List.foldl_cons, placed]
      exact ih _
  exact general []

theorem filter_arrange {entries : List (String × β)} (distinct : (keys entries).Nodup)
    (kept : String → Bool) :
    (arrange entries).filter (fun entry => kept entry.1) =
      arrange (entries.filter fun entry => kept entry.1) := by
  have fewer : (keys (entries.filter fun entry => kept entry.1)).Nodup :=
    (List.filter_sublist.map Prod.fst).nodup distinct
  refine Ascending.eq_of_perm ?_ (ascending_arrange _) ?_
  · exact (ascending_arrange entries).sublist List.filter_sublist
  · exact ((arrange_perm distinct).filter _).trans (arrange_perm fewer).symm

private theorem find?_perm {first second : List (String × β)} (distinct : (keys first).Nodup)
    (moved : first.Perm second) (key : String) : find? key first = find? key second := by
  have distinct' : (keys second).Nodup := (moved.map Prod.fst).nodup_iff.mp distinct
  cases found : find? key second with
  | none =>
    rw [find?_eq_none_iff] at found ⊢
    intro member
    exact found ((moved.map Prod.fst).mem_iff.mp member)
  | some value => exact find?_of_mem distinct (moved.mem_iff.mpr (mem_of_find? found))

theorem find?_arrange {entries : List (String × β)} (distinct : (keys entries).Nodup)
    (key : String) :
    find? key (arrange entries) = find? key entries :=
  find?_perm (keys_arrange_nodup entries) (arrange_perm distinct) key

end Entries

namespace OrderedMap

variable {β γ : Type}

/-- The map with its keys in order. -/
def sorted (map : OrderedMap β) : OrderedMap β :=
  ⟨Entries.arrange map.entries, Entries.keys_arrange_nodup map.entries⟩

theorem get?_sorted (map : OrderedMap β) (key : String) : map.sorted.get? key = map.get? key :=
  Entries.find?_arrange map.distinct key

theorem entries_sorted_perm (map : OrderedMap β) : map.sorted.entries.Perm map.entries :=
  Entries.arrange_perm map.distinct

theorem sorted_map (map : OrderedMap β) (change : β → γ) :
    (map.map change).sorted = map.sorted.map change :=
  ext_entries (Entries.arrange_map change map.entries)

/-- A map that is in order stays as it is. -/
theorem sorted_sorted (map : OrderedMap β) : map.sorted.sorted = map.sorted :=
  ext_entries (Entries.ascending_arrange map.entries).arrange_eq

end OrderedMap

namespace Json

theorem member?_eq_find? (key : String) (members : List (String × Json)) :
    member? key members = Entries.find? key members := by
  induction members with
  | nil => rfl
  | cons entry rest ih => rw [member?, Entries.find?, ih]

private theorem putSorted_eq_place (key : String) (value : Json) (members : List (String × Json)) :
    putSorted key value members = Entries.place key value members := by
  induction members with
  | nil => rfl
  | cons entry rest ih => simp only [putSorted, Entries.place, Text.precedes_iff, ih]

theorem sortMembers_eq_arrange (members : List (String × Json)) :
    sortMembers members = Entries.arrange members := by
  simp only [sortMembers, Entries.arrange, putSorted_eq_place]

mutual
/-- The value with the members of every object in order. -/
def sorted : Json → Json
  | .array items => .array (sortedItems items)
  | .object members => .object (sortMembers (sortedMembers members))
  | value => value
def sortedItems : List Json → List Json
  | [] => []
  | item :: rest => item.sorted :: sortedItems rest
def sortedMembers : List (String × Json) → List (String × Json)
  | [] => []
  | (key, value) :: rest => (key, value.sorted) :: sortedMembers rest
end

@[simp] theorem sorted_array (items : List Json) :
    (array items).sorted = .array (items.map sorted) := by
  have general : sortedItems items = items.map sorted := by
    induction items with
    | nil => rfl
    | cons item rest ih => rw [sortedItems, ih, List.map_cons]
  rw [sorted, general]

@[simp] theorem sorted_object (members : List (String × Json)) :
    (object members).sorted =
      .object (Entries.arrange (members.map fun member => (member.1, member.2.sorted))) := by
  have general : sortedMembers members = members.map fun member => (member.1, member.2.sorted) := by
    induction members with
    | nil => rfl
    | cons member rest ih => rw [sortedMembers, ih, List.map_cons]
  rw [sorted, general, sortMembers_eq_arrange]

end Json

end StanzaSchema
