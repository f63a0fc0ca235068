import Steward.OrderedMap

/-!
# Lookups in ordered maps

An ordered map is known by what its lookups answer.  The lemmas say what an
insertion or a removal does to every lookup, whether the key was there before or
not, and where the entries stand in the order.
-/

namespace Steward.OrderedMap

variable {κ ν : Type} [DecidableEq κ]

@[simp]
theorem get?_empty (key : κ) :
    (empty : OrderedMap κ ν).get? key = none := by
  rfl

theorem find?_put (key other : κ) (value : ν) (entries : List (κ × ν)) :
    find? other (put key value entries) =
      if key = other then some value else find? other entries := by
  induction entries with
  | nil =>
      simp [put, find?]
  | cons entry rest ih =>
      rcases entry with ⟨first, old⟩
      by_cases same : first = key
      · subst same
        by_cases wanted : first = other <;> simp [put, find?, wanted]
      · by_cases wanted : first = other
        · have distinct : key ≠ other := fun equal => same (wanted.trans equal.symm)
          simp [put, find?, wanted, Ne.symm distinct, distinct]
        · simp [put, find?, same, wanted, ih]

/-- An insertion answers at its own key and changes no other lookup. -/
theorem get?_insert (map : OrderedMap κ ν) (key other : κ) (value : ν) :
    (map.insert key value).get? other =
      if key = other then some value else map.get? other := by
  exact find?_put key other value map.entries

@[simp]
theorem get?_insert_self (map : OrderedMap κ ν) (key : κ) (value : ν) :
    (map.insert key value).get? key = some value := by
  rw [get?_insert, if_pos rfl]

theorem get?_insert_of_ne (map : OrderedMap κ ν) {key other : κ} (value : ν)
    (distinct : key ≠ other) :
    (map.insert key value).get? other = map.get? other := by
  rw [get?_insert, if_neg distinct]

theorem get?_insertNew (map : OrderedMap κ ν) (key other : κ) (value : ν) :
    (map.insertNew key value).get? other =
      (map.get? other).or (if key = other then some value else none) := by
  cases found : map.get? key with
  | some old =>
      have isKnown : map.contains key = true := by
        simp [contains, found]
      rw [insertNew, if_pos isKnown]
      by_cases same : key = other
      · subst same
        simp [found]
      · simp [same]
  | none =>
      have isNew : ¬ map.contains key = true := by
        simp [contains, found]
      rw [insertNew, if_neg isNew, get?_insert]
      by_cases same : key = other
      · subst same
        simp [found]
      · simp [same]

theorem find?_filter_ne (key other : κ) (entries : List (κ × ν)) :
    find? other (entries.filter fun entry => entry.1 != key) =
      if key = other then none else find? other entries := by
  induction entries with
  | nil =>
      simp [find?]
  | cons entry rest ih =>
      by_cases dropped : entry.1 = key
      · have goes : (entry.1 != key) = false := by
          simp [dropped]
        rw [List.filter_cons_of_neg (by simp [goes]), ih, find?, dropped]
        split
        · rfl
        · rfl
      · by_cases wanted : entry.1 = other
        · simp [find?, ← wanted, dropped, Ne.symm dropped]
        · simp [find?, dropped, wanted, ih]

/-- A removal takes its own key away and changes no other lookup. -/
theorem get?_erase (map : OrderedMap κ ν) (key other : κ) :
    (map.erase key).get? other = if key = other then none else map.get? other := by
  exact find?_filter_ne key other map.entries

/-! ## Entries and their order -/

theorem find?_eq_none_iff {key : κ} {entries : List (κ × ν)} :
    find? key entries = none ↔ key ∉ entries.map Prod.fst := by
  induction entries with
  | nil =>
      simp [find?]
  | cons entry rest ih =>
      by_cases wanted : entry.1 = key
      · simp [find?, wanted]
      · simp [find?, wanted, ih, Ne.symm wanted]

theorem get?_eq_none_iff {map : OrderedMap κ ν} {key : κ} :
    map.get? key = none ↔ key ∉ map.keys := by
  exact find?_eq_none_iff

theorem put_of_new {key : κ} {entries : List (κ × ν)} (isNew : key ∉ entries.map Prod.fst)
    (value : ν) : put key value entries = entries ++ [(key, value)] := by
  induction entries with
  | nil =>
      rfl
  | cons entry rest ih =>
      simp only [List.map_cons, List.mem_cons, not_or] at isNew
      simp [put, Ne.symm isNew.1, ih isNew.2]

/-- A new key goes to the end. -/
theorem entries_insert_of_new {map : OrderedMap κ ν} {key : κ} (isNew : key ∉ map.keys)
    (value : ν) : (map.insert key value).entries = map.entries ++ [(key, value)] := by
  exact put_of_new isNew value

theorem put_of_old {key : κ} {entries : List (κ × ν)} (isOld : key ∈ entries.map Prod.fst)
    (value : ν) : (put key value entries).map Prod.fst = entries.map Prod.fst := by
  induction entries with
  | nil =>
      cases isOld
  | cons entry rest ih =>
      by_cases same : entry.1 = key
      · simp [put, same]
      · have later : key ∈ rest.map Prod.fst :=
          (List.mem_cons.1 isOld).resolve_left (Ne.symm same)
        simp only [put, same, if_false, List.map_cons, ih later]

theorem keys_insert (map : OrderedMap κ ν) (key : κ) (value : ν) :
    (map.insert key value).keys = if key ∈ map.keys then map.keys else map.keys ++ [key] := by
  split
  · rename_i isOld
    exact put_of_old isOld value
  · rename_i isNew
    rw [keys, entries_insert_of_new isNew, List.map_append]
    rfl

theorem contains_iff {map : OrderedMap κ ν} {key : κ} :
    map.contains key = true ↔ key ∈ map.keys := by
  rw [contains, Option.isSome_iff_ne_none, ne_eq, get?_eq_none_iff, Classical.not_not]

theorem nodup_keys_insert {map : OrderedMap κ ν} (distinct : map.keys.Nodup) (key : κ)
    (value : ν) : (map.insert key value).keys.Nodup := by
  rw [keys_insert]
  split
  · exact distinct
  · rename_i isNew
    rw [List.nodup_append]
    refine ⟨distinct, by simp, ?_⟩
    intro other isKey new isLast same
    rw [same, List.mem_singleton.1 isLast] at isKey
    exact isNew isKey

theorem nodup_keys_erase {map : OrderedMap κ ν} (distinct : map.keys.Nodup) (key : κ) :
    (map.erase key).keys.Nodup := by
  exact distinct.sublist (List.filter_sublist.map Prod.fst)

theorem get?_of_mem {map : OrderedMap κ ν} (distinct : map.keys.Nodup) {key : κ} {value : ν}
    (isEntry : (key, value) ∈ map.entries) : map.get? key = some value := by
  rcases map with ⟨entries⟩
  induction entries with
  | nil =>
      cases isEntry
  | cons entry rest ih =>
      rcases List.mem_cons.1 isEntry with rfl | later
      · simp [get?, find?]
      · have isKey : key ∈ rest.map Prod.fst := List.mem_map_of_mem later
        have other : entry.1 ≠ key := by
          intro same
          exact (List.nodup_cons.1 distinct).1 (same ▸ isKey)
        simp only [get?, find?, other, if_false]
        exact ih (List.nodup_cons.1 distinct).2 later

theorem mem_of_get? {map : OrderedMap κ ν} {key : κ} {value : ν}
    (found : map.get? key = some value) : (key, value) ∈ map.entries := by
  rcases map with ⟨entries⟩
  induction entries with
  | nil =>
      cases found
  | cons entry rest ih =>
      simp only [get?, find?] at found
      split at found
      · rename_i same
        cases found
        simp [← same]
      · exact List.mem_cons_of_mem _ (ih found)

theorem entries_foldl_insert {rest : List (κ × ν)} {map : OrderedMap κ ν}
    (distinct : ((map.entries ++ rest).map Prod.fst).Nodup) :
    (rest.foldl (fun map (key, value) => map.insert key value) map).entries =
      map.entries ++ rest := by
  induction rest generalizing map with
  | nil =>
      simp
  | cons entry rest ih =>
      have isNew : entry.1 ∉ map.keys := by
        rw [List.map_append, List.nodup_append] at distinct
        intro member
        exact distinct.2.2 _ member _ (by simp) rfl
      have added := entries_insert_of_new isNew entry.2
      rw [List.foldl_cons, ih (by simpa [added] using distinct), added]
      simp

/-- A list of entries with different keys is kept as it is. -/
theorem entries_ofList {entries : List (κ × ν)} (distinct : (entries.map Prod.fst).Nodup) :
    (ofList entries).entries = entries := by
  have kept : (ofList entries).entries = (empty : OrderedMap κ ν).entries ++ entries :=
    entries_foldl_insert distinct
  exact kept

theorem ofList_concat (entries : List (κ × ν)) (key : κ)
    (value : ν) : ofList (entries ++ [(key, value)]) = (ofList entries).insert key value := by
  simp [ofList]

/-! ## Values -/

theorem of_mem_put {key : κ} {value : ν} {entry : κ × ν} {entries : List (κ × ν)}
    (isEntry : entry ∈ put key value entries) : entry.2 = value ∨ entry ∈ entries := by
  induction entries with
  | nil =>
      rw [List.mem_singleton.1 isEntry]
      exact .inl rfl
  | cons first rest ih =>
      rw [put] at isEntry
      split at isEntry
      · rcases List.mem_cons.1 isEntry with rfl | isLater
        · exact .inl rfl
        · exact .inr (List.mem_cons_of_mem first isLater)
      · rcases List.mem_cons.1 isEntry with rfl | isLater
        · exact .inr List.mem_cons_self
        · exact (ih isLater).imp id (List.mem_cons_of_mem first)

theorem mem_values_insert_self (map : OrderedMap κ ν) (key : κ) (value : ν) :
    value ∈ (map.insert key value).values := by
  exact List.mem_map.2 ⟨(key, value), mem_of_get? (get?_insert_self map key value), rfl⟩

theorem of_mem_values_insert {map : OrderedMap κ ν} {key : κ} {value other : ν}
    (isValue : other ∈ (map.insert key value).values) : other = value ∨ other ∈ map.values := by
  rcases List.mem_map.1 isValue with ⟨entry, isEntry, rfl⟩
  rcases of_mem_put isEntry with isNew | isOld
  · exact .inl isNew
  · exact .inr (List.mem_map.2 ⟨entry, isOld, rfl⟩)

theorem of_mem_values_ofList {entries : List (κ × ν)} {value : ν}
    (isValue : value ∈ (ofList entries).values) : value ∈ entries.map Prod.snd := by
  have among : ∀ (rest : List (κ × ν)) (map : OrderedMap κ ν),
      value ∈ (rest.foldl (fun map (key, value) => map.insert key value) map).values →
      value ∈ map.values ∨ value ∈ rest.map Prod.snd := by
    intro rest
    induction rest with
    | nil => exact fun map => .inl
    | cons entry rest ih =>
        intro map member
        rcases ih _ member with earlier | later
        · rcases of_mem_values_insert earlier with rfl | earlier
          · exact .inr List.mem_cons_self
          · exact .inl earlier
        · exact .inr (List.mem_cons_of_mem _ later)
  exact (among entries empty isValue).resolve_left List.not_mem_nil

end Steward.OrderedMap
