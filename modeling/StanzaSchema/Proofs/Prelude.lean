/-!
Lists, results and encoded texts in general: what the other modules ask of them beyond the library.
-/

namespace List

variable {α β : Type}

theorem map_eq_self_iff {change : α → α} {items : List α} :
    items.map change = items ↔ ∀ item ∈ items, change item = item := by
  have unchanged : items.map change = items.map id ↔ ∀ item ∈ items, change item = id item :=
    List.map_inj_left
  rwa [List.map_id] at unchanged

theorem getLast?_filterMap_concat (part : α → Option β) (items : List α) (item : α) :
    ((items ++ [item]).filterMap part).getLast? =
      (part item).or (items.filterMap part).getLast? := by
  rw [List.filterMap_append, List.getLast?_append]
  cases shown : part item <;> simp [shown]

theorem eraseDups_concat [DecidableEq α] (names : List α) (name : α) :
    (names ++ [name]).eraseDups =
      if name ∈ names then names.eraseDups else names.eraseDups ++ [name] := by
  rw [List.eraseDups_append]
  by_cases member : name ∈ names
  · have gone : [name].removeAll names = [] := by
      simp [List.removeAll, List.elem_eq_contains, member]
    simp [gone, member]
  · have kept : [name].removeAll names = [name] := by
      simp [List.removeAll, List.elem_eq_contains, member]
    simp [kept, member, List.eraseDups_cons]

end List

namespace Except

variable {α β γ ε : Type}

theorem eq_ok_of_toOption {result : Except ε α} {value : α} (found : result.toOption = some value) :
    result = .ok value := by
  cases result with
  | error fault => cases found
  | ok held => exact congrArg Except.ok (Option.some.inj found)

theorem exists_of_bind {result : Except ε α} {next : α → Except ε β} {value : β}
    (bound : (result >>= next) = .ok value) :
    ∃ first, result = .ok first ∧ next first = .ok value := by
  cases result with
  | error fault => cases bound
  | ok first => exact ⟨first, rfl, bound⟩

theorem exists_of_map {result : Except ε α} {change : α → β} {value : β}
    (mapped : result.map change = .ok value) :
    ∃ first, result = .ok first ∧ change first = value := by
  cases result with
  | error fault => cases mapped
  | ok first =>
    cases mapped
    exact ⟨first, rfl, rfl⟩

variable {read : β → Except ε α} {items : List β} {results : List α}

private theorem exists_of_mapM_cons {item : β}
    (finished : (item :: items).mapM read = .ok results) :
    ∃ first rest, read item = .ok first ∧ items.mapM read = .ok rest ∧ results = first :: rest := by
  rw [List.mapM_cons] at finished
  obtain ⟨first, head, finished⟩ := exists_of_bind finished
  obtain ⟨rest, tail, finished⟩ := exists_of_bind finished
  cases finished
  exact ⟨first, rest, head, tail, rfl⟩

theorem exists_of_mapM (finished : items.mapM read = .ok results) {result : α}
    (listed : result ∈ results) :
    ∃ item ∈ items, read item = .ok result := by
  induction items generalizing results with
  | nil =>
    cases finished
    cases listed
  | cons item items ih =>
    obtain ⟨first, rest, head, tail, rfl⟩ := exists_of_mapM_cons finished
    rcases List.mem_cons.mp listed with rfl | later
    · exact ⟨item, List.mem_cons_self, head⟩
    · obtain ⟨source, present, known⟩ := ih tail later
      exact ⟨source, List.mem_cons_of_mem _ present, known⟩

/-- Names that each reading keeps are kept throughout. -/
theorem map_eq_of_mapM {key : α → γ} {name : β → γ}
    (keeps : ∀ item result, read item = .ok result → key result = name item)
    (finished : items.mapM read = .ok results) : results.map key = items.map name := by
  induction items generalizing results with
  | nil =>
    cases finished
    rfl
  | cons item items ih =>
    obtain ⟨first, rest, head, tail, rfl⟩ := exists_of_mapM_cons finished
    rw [List.map_cons, List.map_cons, keeps item first head, ih tail]

end Except

namespace String

theorem fromUTF8?_eq_some_iff {content : ByteArray} {text : String} :
    String.fromUTF8? content = some text ↔ content = text.toUTF8 := by
  constructor
  · intro decoded
    unfold String.fromUTF8? at decoded
    split at decoded
    · cases decoded
      rfl
    · cases decoded
  · rintro rfl
    rw [String.fromUTF8?, String.toUTF8_eq_toByteArray, dif_pos text.isValidUTF8]
    rfl

end String
