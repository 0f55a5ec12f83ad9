import TableScript.Data.Keyed
import Mathlib.Data.List.Nodup

/-!
# What the operations on keyed lists do

Each operation is described by two views of the list it leaves: its keys in order (`keys_put_of_mem`,
`keys_put_of_not_mem`, `keys_erase`) and what it gives for a key (`get?_put`, `get?_erase_of_ne`,
`get?_erase_self`). Everything later about frames, workbooks and scopes goes through these views.

Keys are distinct in every list that is made by the operations, and distinctness is what makes a key
stand for one entry (`get?_of_mem`) and what makes erasing final (`get?_erase_self`).
-/

namespace TableScript.Keyed

variable {α : Type}

/-! ## Looking up -/

/-- Without entries there are no keys. -/
@[simp] theorem keys_nil : keys ([] : Keyed α) = [] := rfl

/-- The key of the first entry is the first key. -/
@[simp] theorem keys_cons (entry : String × α) (rest : Keyed α) :
    keys (entry :: rest) = entry.1 :: rest.keys := rfl

/-- Entries put together have their keys put together. -/
@[simp] theorem keys_append (first second : Keyed α) :
    keys (first ++ second) = first.keys ++ second.keys := List.map_append

/-- A key is missing exactly if nothing is found under it. -/
theorem get?_eq_none_iff (entries : Keyed α) (key : String) :
    entries.get? key = none ↔ key ∉ entries.keys := by
  induction entries with
  | nil => simp [get?]
  | cons entry rest ih =>
    obtain ⟨k, a⟩ := entry
    by_cases h : k = key
    · subst h
      simp [get?]
    · simp [get?, h, ih, Ne.symm h]

/-- Lists that have the same under a key have both the key or neither. -/
theorem mem_keys_congr {first second : Keyed α} {key : String} (h : first.get? key = second.get? key) :
    key ∈ first.keys ↔ key ∈ second.keys := by
  rw [← not_iff_not, ← get?_eq_none_iff, ← get?_eq_none_iff, h]

/-- `has` is membership among the keys. -/
theorem has_iff (entries : Keyed α) (key : String) : entries.has key = true ↔ key ∈ entries.keys := by
  unfold has
  rw [← not_iff_not, ← get?_eq_none_iff]
  cases entries.get? key <;> simp

/-- The negative form of `has_iff`. -/
theorem has_eq_false_iff (entries : Keyed α) (key : String) :
    entries.has key = false ↔ key ∉ entries.keys := by
  rw [← has_iff, Bool.not_eq_true]

/-- What is found under a key is an entry of the list. -/
theorem mem_of_get? {entries : Keyed α} {key : String} {a : α} (h : entries.get? key = some a) :
    (key, a) ∈ entries := by
  induction entries with
  | nil => simp [get?] at h
  | cons entry rest ih =>
    obtain ⟨k, b⟩ := entry
    by_cases hk : k = key
    · subst hk
      simp only [get?, if_true, Option.some.injEq] at h
      simp [h]
    · simp only [get?, hk, if_false] at h
      exact List.mem_cons_of_mem _ (ih h)

/-- The key of an entry is a key. -/
theorem mem_keys_of_mem {entries : Keyed α} {key : String} {a : α} (h : (key, a) ∈ entries) :
    key ∈ entries.keys := List.mem_map_of_mem (f := Prod.fst) h

/-- With distinct keys, every entry is found under its key. -/
theorem get?_of_mem {entries : Keyed α} (distinct : entries.keys.Nodup) {key : String} {a : α}
    (h : (key, a) ∈ entries) : entries.get? key = some a := by
  induction entries with
  | nil => simp at h
  | cons entry rest ih =>
    obtain ⟨k, b⟩ := entry
    rw [keys_cons, List.nodup_cons] at distinct
    rcases List.mem_cons.mp h with heq | hrest
    · cases heq
      simp [get?]
    · have hne : k ≠ key := fun hk => distinct.1 (hk ▸ mem_keys_of_mem hrest)
      simp [get?, hne, ih distinct.2 hrest]

/-- Looking up does not depend on the order of distinct keys. -/
theorem get?_of_perm {first second : Keyed α} (hp : first.Perm second) (distinct : first.keys.Nodup)
    (key : String) : first.get? key = second.get? key := by
  have distinct' : second.keys.Nodup := (hp.map Prod.fst).nodup_iff.mp distinct
  cases h : first.get? key with
  | some a => exact (get?_of_mem distinct' (hp.mem_iff.mp (mem_of_get? h))).symm
  | none =>
    rw [get?_eq_none_iff] at h
    exact ((get?_eq_none_iff _ _).mpr fun hk => h ((hp.map Prod.fst).mem_iff.mpr hk)).symm

/-! ## Putting -/

/-- Putting changes what is found under its own key only. -/
theorem get?_put (entries : Keyed α) (key other : String) (value : α) :
    (entries.put key value).get? other = if key = other then some value else entries.get? other := by
  induction entries with
  | nil => simp [put, get?]
  | cons entry rest ih =>
    obtain ⟨k, a⟩ := entry
    by_cases hk : k = key
    · subst hk
      by_cases ho : k = other <;> simp [put, get?, ho]
    · by_cases ho : k = other
      · subst ho
        simp [put, get?, hk, Ne.symm hk]
      · simp [put, get?, hk, ho, ih]

/-- What was put under a key is found there. -/
@[simp] theorem get?_put_self (entries : Keyed α) (key : String) (value : α) :
    (entries.put key value).get? key = some value := by simp [get?_put]

/-- Under another key the same is found as before. -/
theorem get?_put_of_ne (entries : Keyed α) {key other : String} (value : α) (h : key ≠ other) :
    (entries.put key value).get? other = entries.get? other := by simp [get?_put, h]

/-- An entry is the one that was put in, or it was there before. -/
theorem mem_of_mem_put {entries : Keyed α} {key : String} {value : α} {entry : String × α}
    (h : entry ∈ entries.put key value) : entry = (key, value) ∨ entry ∈ entries := by
  induction entries with
  | nil => exact Or.inl (by simpa [put] using h)
  | cons first rest ih =>
    rw [put] at h
    split at h
    case isTrue heq =>
      rcases List.mem_cons.mp h with rfl | hrest
      · exact Or.inl (by rw [heq])
      · exact Or.inr (List.mem_cons_of_mem _ hrest)
    case isFalse =>
      rcases List.mem_cons.mp h with rfl | hrest
      · exact Or.inr List.mem_cons_self
      · exact (ih hrest).imp_right (List.mem_cons_of_mem _)

/-- A new key goes to the end. -/
theorem put_of_not_mem {entries : Keyed α} {key : String} (h : key ∉ entries.keys) (value : α) :
    entries.put key value = entries ++ [(key, value)] := by
  induction entries with
  | nil => rfl
  | cons entry rest ih =>
    obtain ⟨k, a⟩ := entry
    simp only [keys_cons, List.mem_cons, not_or] at h
    simp [put, Ne.symm h.1, ih h.2]

/-- Putting under a key that is there leaves the keys as they are. -/
theorem keys_put_of_mem {entries : Keyed α} {key : String} (h : key ∈ entries.keys) (value : α) :
    (entries.put key value).keys = entries.keys := by
  induction entries with
  | nil => simp at h
  | cons entry rest ih =>
    obtain ⟨k, a⟩ := entry
    by_cases hk : k = key
    · simp [put, hk]
    · have hrest : key ∈ keys rest := by
        rcases List.mem_cons.mp h with heq | hrest
        · exact absurd heq.symm hk
        · exact hrest
      simp [put, hk, ih hrest]

/-- A key that is put in anew comes last. -/
theorem keys_put_of_not_mem {entries : Keyed α} {key : String} (h : key ∉ entries.keys) (value : α) :
    (entries.put key value).keys = entries.keys ++ [key] := by
  rw [put_of_not_mem h, keys_append, keys_cons, keys_nil]

/-- The keys after putting are those before and the new one. -/
theorem mem_keys_put (entries : Keyed α) (key other : String) (value : α) :
    other ∈ (entries.put key value).keys ↔ other = key ∨ other ∈ entries.keys := by
  by_cases h : key ∈ entries.keys
  · rw [keys_put_of_mem h]
    constructor
    · exact Or.inr
    · rintro (rfl | h')
      · exact h
      · exact h'
  · rw [keys_put_of_not_mem h, List.mem_append, List.mem_singleton, or_comm]

/-- Putting keeps keys distinct. -/
theorem nodup_keys_put {entries : Keyed α} (distinct : entries.keys.Nodup) (key : String) (value : α) :
    (entries.put key value).keys.Nodup := by
  by_cases h : key ∈ entries.keys
  · rw [keys_put_of_mem h]
    exact distinct
  · rw [keys_put_of_not_mem h]
    exact List.nodup_append.mpr ⟨distinct, by simp, by rintro a ha b hb rfl; simp_all⟩

/-- Putting what is there already changes nothing. -/
theorem put_of_get? {entries : Keyed α} {key : String} {value : α}
    (h : entries.get? key = some value) : entries.put key value = entries := by
  induction entries with
  | nil => simp [get?] at h
  | cons entry rest ih =>
    obtain ⟨k, a⟩ := entry
    by_cases hk : k = key
    · subst hk
      simp only [get?, if_true, Option.some.injEq] at h
      simp [put, h]
    · simp only [get?, hk, if_false] at h
      simp [put, hk, ih h]

/-- Of two puttings under one key the second counts. -/
theorem put_put (entries : Keyed α) (key : String) (first second : α) :
    (entries.put key first).put key second = entries.put key second := by
  induction entries with
  | nil => simp [put]
  | cons entry rest ih =>
    obtain ⟨k, a⟩ := entry
    by_cases hk : k = key
    · simp [put, hk]
    · simp [put, hk, ih]

/-- Two values put under one key are told apart. -/
theorem put_injective {entries : Keyed α} {key : String} {first second : α}
    (h : entries.put key first = entries.put key second) : first = second := by
  have hget : (entries.put key first).get? key = (entries.put key second).get? key := by rw [h]
  simpa using hget

/-! ## Erasing -/

/-- Erasing takes the key out. -/
theorem keys_erase (entries : Keyed α) (key : String) :
    (entries.erase key).keys = entries.keys.erase key := by
  induction entries with
  | nil => rfl
  | cons entry rest ih =>
    obtain ⟨k, a⟩ := entry
    by_cases hk : k = key
    · simp [erase, hk]
    · simp [erase, hk, ih]

/-- Distinct keys stay distinct when one is removed. -/
theorem nodup_keys_erase {entries : Keyed α} (distinct : entries.keys.Nodup) (key : String) :
    (entries.erase key).keys.Nodup := by
  rw [keys_erase]
  exact distinct.erase key

/-- Erasing leaves what is under other keys. -/
theorem get?_erase_of_ne (entries : Keyed α) {key other : String} (h : key ≠ other) :
    (entries.erase key).get? other = entries.get? other := by
  induction entries with
  | nil => rfl
  | cons entry rest ih =>
    obtain ⟨k, a⟩ := entry
    by_cases hk : k = key
    · subst hk
      simp [erase, get?, h]
    · by_cases ho : k = other
      · subst ho
        simp [erase, get?, hk]
      · simp [erase, get?, hk, ho, ih]

/-- The keys that are left were there before. -/
theorem mem_keys_erase {entries : Keyed α} {key other : String}
    (h : other ∈ (entries.erase key).keys) : other ∈ entries.keys := by
  rw [keys_erase] at h
  exact List.mem_of_mem_erase h

/-- Another key than the one that is removed is left. -/
theorem mem_keys_erase_of_ne {entries : Keyed α} {key other : String} (hne : other ≠ key)
    (h : other ∈ entries.keys) : other ∈ (entries.erase key).keys := by
  rw [keys_erase]
  exact (List.mem_erase_of_ne hne).mpr h

/-- With distinct keys, an erased key is gone. -/
theorem not_mem_keys_erase {entries : Keyed α} (distinct : entries.keys.Nodup) (key : String) :
    key ∉ (entries.erase key).keys := by
  rw [keys_erase]
  exact distinct.not_mem_erase

/-- With distinct keys, nothing is left under an erased key. -/
theorem get?_erase_self {entries : Keyed α} (distinct : entries.keys.Nodup) (key : String) :
    (entries.erase key).get? key = none :=
  (get?_eq_none_iff _ _).mpr (not_mem_keys_erase distinct key)

/-- What is left was there before. -/
theorem mem_of_mem_erase {entries : Keyed α} {key : String} {entry : String × α}
    (h : entry ∈ entries.erase key) : entry ∈ entries := by
  induction entries with
  | nil => exact h
  | cons first rest ih =>
    rw [erase] at h
    split at h
    · exact List.mem_cons_of_mem _ h
    · rcases List.mem_cons.mp h with rfl | hrest
      · exact List.mem_cons_self
      · exact List.mem_cons_of_mem _ (ih hrest)

/-- An entry is the one that was inserted, or it was there before. -/
theorem mem_of_mem_insertAt {entries : Keyed α} {position : Nat} {key : String} {value : α}
    {entry : String × α} (h : entry ∈ entries.insertAt position key value) :
    entry = (key, value) ∨ entry ∈ entries := by
  induction entries generalizing position with
  | nil =>
    cases position <;> exact Or.inl (List.mem_singleton.mp h)
  | cons first rest ih =>
    cases position with
    | zero => exact List.mem_cons.mp h
    | succ position =>
      rcases List.mem_cons.mp h with rfl | hrest
      · exact Or.inr List.mem_cons_self
      · exact (ih hrest).imp_right (List.mem_cons_of_mem first)

/-! ## Putting many -/

/-- Entries with distinct keys are put in as they are. -/
theorem foldl_put_of_nodup (entries done : Keyed α) (distinct : (done ++ entries).keys.Nodup) :
    entries.foldl (fun kept entry => kept.put entry.1 entry.2) done = done ++ entries := by
  induction entries generalizing done with
  | nil => simp
  | cons entry rest ih =>
    have hnew : entry.1 ∉ done.keys := by
      rw [keys_append, keys_cons] at distinct
      intro hmem
      exact (List.nodup_append.mp distinct).2.2 _ hmem _ List.mem_cons_self rfl
    rw [List.foldl_cons, put_of_not_mem hnew, ih]
    · simp
    · simpa using distinct

/-- A list with distinct keys is kept as it is. -/
theorem ofList_of_nodup {entries : Keyed α} (distinct : entries.keys.Nodup) :
    ofList entries = entries := by
  unfold ofList
  rw [foldl_put_of_nodup entries [] (by simpa using distinct), List.nil_append]

/-- Keys that are put in one after the other end up distinct. -/
theorem nodup_keys_ofList (entries : List (String × α)) : (ofList entries).keys.Nodup := by
  suffices h : ∀ done : Keyed α, done.keys.Nodup →
      (entries.foldl (fun kept entry => kept.put entry.1 entry.2) done).keys.Nodup from
    h [] List.nodup_nil
  induction entries with
  | nil => exact fun done h => h
  | cons entry rest ih => exact fun done h => ih _ (nodup_keys_put h _ _)

end TableScript.Keyed
