import TableScript.Frame
import TableScript.Proofs.Keyed
import TableScript.Proofs.Binary

/-!
# What counts as the same

Comparing two values is not asking whether they are equal. The order of a dictionary and the sign of zero
do not count, and a NaN is not even the same as itself. `Value.settled` is the value without what does not
count, so that a value is the same as another exactly if there is no NaN in it and both are settled alike
(`Value.same_iff`); frames are compared in the same way, by their headers in any order (`Frame.beq_iff`).

The one condition is that keys are distinct in what is compared. Then keyed lists of one length agree under
the keys of the first only if they have the same keys (`Keyed.agree_iff`), and the second need not be known
to have distinct ones.
-/

namespace TableScript

/-! ## Floating point numbers -/

namespace Decimal

open Float.Model Float.Model.UnpackedFloat

/-- A float is no number exactly if its magnitude is none. -/
theorem isNaN_iff (x : Float) : x.isNaN = true ↔ magnitude x = .nan := by
  have h : x.isNaN = x.toModel.unpack.isNaN := rfl
  rw [h, unpack_eq]
  cases magnitude x with
  | nan => simp [unpackedOf, UnpackedFloat.isNaN]
  | infinite => simp [unpackedOf, UnpackedFloat.isNaN]
  | finite m e => by_cases hm : m = 0 <;> simp [unpackedOf, UnpackedFloat.isNaN, hm]

/-- Two magnitudes with signs compare as equal if they are equal, a NaN excepted. The sign of zero does not
count. -/
theorem compare_unpackedOf (s s' : Sign) {μ μ' : Magnitude} (h : μ.Proper) (h' : μ'.Proper) :
    (unpackedOf s μ).compare (unpackedOf s' μ') = some .eq ↔
      μ ≠ .nan ∧ μ = μ' ∧ (s = s' ∨ μ = .finite 0 (-1074)) := by
  cases h with
  | nan => simp [unpackedOf, UnpackedFloat.compare]
  | infinite =>
    cases h' with
    | nan => cases s <;> simp [unpackedOf, UnpackedFloat.compare]
    | infinite => cases s <;> cases s' <;> simp [unpackedOf, UnpackedFloat.compare] <;> decide
    | zero => cases s <;> simp [unpackedOf, UnpackedFloat.compare]
    | finite h' =>
      rw [unpackedOf_finite s' _ h'.pos]
      cases s <;> simp [unpackedOf, UnpackedFloat.compare]
  | zero =>
    cases h' with
    | nan => simp [unpackedOf, UnpackedFloat.compare]
    | infinite => cases s' <;> simp [unpackedOf, UnpackedFloat.compare]
    | zero => simp [unpackedOf, UnpackedFloat.compare]
    | finite h' =>
      have hne := Nat.ne_of_lt h'.pos
      rw [unpackedOf_finite s' _ h'.pos]
      cases s' <;> simp [unpackedOf, UnpackedFloat.compare, hne]
  | finite h =>
    have hne := Nat.ne_of_gt h.pos
    rw [unpackedOf_finite s _ h.pos]
    cases h' with
    | nan => simp [unpackedOf, UnpackedFloat.compare]
    | infinite => cases s' <;> simp [unpackedOf, UnpackedFloat.compare]
    | zero => cases s <;> simp [unpackedOf, UnpackedFloat.compare, hne]
    | finite h' =>
      rw [unpackedOf_finite s' _ h'.pos]
      cases s <;> cases s' <;> simp [UnpackedFloat.compare, hne, Ordering.then_eq_eq, and_comm]

/-- Two floating point numbers count as equal if they are equal, a NaN excepted, or both zero. -/
theorem beq_iff_parts (x y : Float) : (x == y) = true ↔ magnitude x ≠ .nan ∧ magnitude x = magnitude y ∧
    (signOf x = signOf y ∨ magnitude x = .finite 0 (-1074)) := by
  have hbeq : (x == y) = ((x.toModel.unpack.compare y.toModel.unpack) == some .eq) := rfl
  rw [hbeq, beq_iff_eq, unpack_eq, unpack_eq,
    compare_unpackedOf _ _ (proper_magnitude x) (proper_magnitude y)]

/-- The number, a zero without its sign. -/
def plainZero (x : Float) : Float := if x = -0.0 then 0.0 else x

/-- A float is zero exactly if it is the positive or the negative zero. -/
theorem magnitude_eq_zero_iff (x : Float) : magnitude x = .finite 0 (-1074) ↔ x = 0.0 ∨ x = -0.0 := by
  constructor
  · intro h
    rw [← ofParts_parts x, h]
    cases signOf x with
    | positive => exact Or.inl (by decide +kernel)
    | negative => exact Or.inr (by decide +kernel)
  · rintro (rfl | rfl) <;> decide +kernel

/-- Two floating point numbers count as equal if they are equal apart from the sign of zero, and no NaN. -/
theorem beq_iff (x y : Float) : (x == y) = true ↔ x.isNaN = false ∧ plainZero x = plainZero y := by
  have hplain : ∀ z : Float, z = 0.0 ∨ z = -0.0 → plainZero z = 0.0 := by
    rintro z (rfl | rfl) <;> decide +kernel
  rw [beq_iff_parts, ← Bool.not_eq_true, isNaN_iff]
  constructor
  · rintro ⟨hnan, hmagnitude, hsign | hzero⟩
    · exact ⟨hnan, by rw [← ofParts_parts x, ← ofParts_parts y, hmagnitude, hsign]⟩
    · rw [hplain x ((magnitude_eq_zero_iff x).mp hzero),
        hplain y ((magnitude_eq_zero_iff y).mp (hmagnitude ▸ hzero))]
      exact ⟨hnan, rfl⟩
  · rintro ⟨hnan, hplains⟩
    have hzeros : ∀ z w : Float, z = 0.0 ∨ z = -0.0 → w = 0.0 ∨ w = -0.0 →
        magnitude z = magnitude w ∧ (signOf z = signOf w ∨ magnitude z = .finite 0 (-1074)) :=
      fun z w hz hw => ⟨((magnitude_eq_zero_iff z).mpr hz).trans ((magnitude_eq_zero_iff w).mpr hw).symm,
        Or.inr ((magnitude_eq_zero_iff z).mpr hz)⟩
    refine ⟨hnan, ?_⟩
    unfold plainZero at hplains
    split at hplains <;> split at hplains
    case isTrue.isTrue hx hy => exact hzeros x y (Or.inr hx) (Or.inr hy)
    case isTrue.isFalse hx hy => exact hzeros x y (Or.inr hx) (Or.inl hplains.symm)
    case isFalse.isTrue hx hy => exact hzeros x y (Or.inl hplains) (Or.inr hy)
    case isFalse.isFalse hx hy => exact ⟨by rw [hplains], Or.inl (by rw [hplains])⟩

end Decimal

/-! ## Keyed lists -/

namespace Keyed

variable {α β : Type}

/-- The entries in the order of their keys. -/
def inKeyOrder (entries : Keyed α) : Keyed α := entries.insertionSort fun a b => a.1 ≤ b.1

/-- The entries with something done to what is under the keys. -/
def mapValues (f : α → β) (entries : Keyed α) : Keyed β := entries.map fun entry => (entry.1, f entry.2)

/-- Changing values keeps the keys. -/
@[simp] theorem keys_mapValues (f : α → β) (entries : Keyed α) :
    (entries.mapValues f).keys = entries.keys := by
  rw [mapValues, keys, keys, List.map_map]
  rfl

/-- The changed values are the changes of the values. -/
theorem mem_mapValues {f : α → β} {entries : Keyed α} {key : String} {b : β} :
    (key, b) ∈ entries.mapValues f ↔ ∃ a, (key, a) ∈ entries ∧ f a = b := by
  simp [mapValues]

/-- Keyed lists are the same in the order of their keys exactly if they have the same entries, when the keys
of one of them are distinct. -/
theorem inKeyOrder_eq_iff {first second : Keyed α} (distinct : first.keys.Nodup) :
    first.inKeyOrder = second.inKeyOrder ↔ first.Perm second := by
  have hfirst : first.inKeyOrder.Perm first := List.perm_insertionSort _ first
  have hsecond : second.inKeyOrder.Perm second := List.perm_insertionSort _ second
  constructor
  · intro h
    exact hfirst.symm.trans (h ▸ hsecond)
  · intro h
    have htotal : Std.Total fun a b : String × α => a.1 ≤ b.1 := ⟨fun a b => le_total a.1 b.1⟩
    have htrans : IsTrans (String × α) fun a b => a.1 ≤ b.1 := ⟨fun _ _ _ => le_trans⟩
    refine List.Perm.eq_of_pairwise (fun a b ha hb hab hba => ?_)
      (List.pairwise_insertionSort (fun a b => a.1 ≤ b.1) first)
      (List.pairwise_insertionSort (fun a b => a.1 ≤ b.1) second) ((hfirst.trans h).trans hsecond.symm)
    obtain ⟨key, a⟩ := a
    obtain ⟨other, b⟩ := b
    obtain rfl : key = other := le_antisymm hab hba
    have hget := get?_of_mem distinct (hfirst.mem_iff.mp ha)
    rw [get?_of_mem distinct (h.mem_iff.mpr (hsecond.mem_iff.mp hb)), Option.some.injEq] at hget
    rw [hget]

/-- The keyed lists are of one length, and what is under a key of the first agrees with what is under it in
the second. -/
def agree (agrees : α → α → Bool) (first second : Keyed α) : Bool :=
  first.length == second.length && first.all fun entry => (second.get? entry.1).any (agrees entry.2)

/-- Where agreeing is having the same image, keyed lists agree exactly if they have the same entries up to
their images. -/
theorem agree_iff {agrees : α → α → Bool} {P : α → Prop} {f : α → β} {first second : Keyed α}
    (distinct : first.keys.Nodup)
    (h : ∀ entry ∈ first, ∀ b, agrees entry.2 b = true ↔ P entry.2 ∧ f entry.2 = f b) :
    first.agree agrees second = true ↔
      (∀ entry ∈ first, P entry.2) ∧ (first.mapValues f).Perm (second.mapValues f) := by
  rw [agree, Bool.and_eq_true, beq_iff_eq, List.all_eq_true]
  constructor
  · rintro ⟨hlength, hall⟩
    have hfound : ∀ entry ∈ first, P entry.2 ∧ (entry.1, f entry.2) ∈ second.mapValues f := by
      intro entry hentry
      obtain ⟨b, hb, hagrees⟩ := (Option.any_eq_true _ _).mp (hall entry hentry)
      obtain ⟨hok, himage⟩ := (h entry hentry b).mp hagrees
      exact ⟨hok, mem_mapValues.mpr ⟨b, mem_of_get? hb, himage.symm⟩⟩
    refine ⟨fun entry hentry => (hfound entry hentry).1, ?_⟩
    have hnodup : (first.mapValues f).Nodup :=
      List.Nodup.of_map Prod.fst (show (first.mapValues f).keys.Nodup by rwa [keys_mapValues])
    refine (hnodup.subperm fun entry hentry => ?_).perm_of_length_le (by simp [mapValues, hlength])
    obtain ⟨origin, horigin, rfl⟩ := List.mem_map.mp hentry
    exact (hfound origin horigin).2
  · rintro ⟨hok, hperm⟩
    have hkeys : first.keys.Perm second.keys := by
      have := hperm.map Prod.fst
      change (first.mapValues f).keys.Perm (second.mapValues f).keys at this
      rwa [keys_mapValues, keys_mapValues] at this
    refine ⟨by simpa [mapValues] using hperm.length_eq, fun entry hentry => ?_⟩
    obtain ⟨b, hb, himage⟩ := mem_mapValues.mp
      (hperm.mem_iff.mp (mem_mapValues.mpr ⟨entry.2, hentry, rfl⟩))
    rw [get?_of_mem (hkeys.nodup_iff.mp distinct) hb]
    exact (h entry hentry b).mpr ⟨hok entry hentry, himage.symm⟩

end Keyed

/-! ## Values -/

namespace Value

/-- To prove something of all values, prove it of a list whose items have it, and of a dictionary whose
entries have it. -/
@[elab_as_elim]
theorem inside {motive : Value → Prop} (null : motive .null) (bool : ∀ b, motive (.bool b))
    (int : ∀ n, motive (.int n)) (float : ∀ x, motive (.float x)) (str : ∀ s, motive (.str s))
    (list : ∀ items, (∀ v ∈ items, motive v) → motive (.list items))
    (dict : ∀ entries, (∀ entry ∈ entries, motive entry.2) → motive (.dict entries)) (v : Value) :
    motive v :=
  @Value.rec motive (fun items => ∀ v ∈ items, motive v) (fun entries => ∀ entry ∈ entries, motive entry.2)
    (fun entry => motive entry.2) null bool int float str list dict (List.forall_mem_nil _)
    (fun _ _ hv hrest => List.forall_mem_cons.mpr ⟨hv, hrest⟩) (List.forall_mem_nil _)
    (fun _ _ hentry hrest => List.forall_mem_cons.mpr ⟨hentry, hrest⟩) (fun _ _ hv => hv) v

mutual

/-- The value and all values in it. -/
def parts : Value → List Value
  | list items => list items :: itemParts items
  | dict entries => dict entries :: entryParts entries
  | v => [v]

/-- The items of a list and all values in them. -/
def itemParts : List Value → List Value
  | [] => []
  | v :: rest => parts v ++ itemParts rest

/-- What is in the entries of a dictionary and all values in it. -/
def entryParts : List (String × Value) → List Value
  | [] => []
  | (_, v) :: rest => parts v ++ entryParts rest

end

/-- The parts of items are those of each of them. -/
theorem mem_itemParts {items : List Value} {part : Value} :
    part ∈ itemParts items ↔ ∃ v ∈ items, part ∈ v.parts := by
  induction items with
  | nil => simp [itemParts]
  | cons v rest ih => simp [itemParts, ih]

/-- So are those of entries. -/
theorem mem_entryParts {entries : List (String × Value)} {part : Value} :
    part ∈ entryParts entries ↔ ∃ entry ∈ entries, part ∈ entry.2.parts := by
  induction entries with
  | nil => simp [entryParts]
  | cons entry rest ih => simp [entryParts, ih]

/-- The value is a NaN. -/
def isNaN : Value → Bool
  | float x => x.isNaN
  | _ => false

/-- There is a NaN in the value. -/
def HasNaN (v : Value) : Prop := ∃ part ∈ v.parts, part.isNaN = true

instance (v : Value) : Decidable v.HasNaN := inferInstanceAs (Decidable (∃ part ∈ v.parts, part.isNaN = true))

/-- No dictionary in the value has a key twice. -/
def Distinct (v : Value) : Prop := ∀ part ∈ v.parts, ∀ entries ∈ part.asDict?, (Keyed.keys entries).Nodup

instance (v : Value) : Decidable v.Distinct :=
  inferInstanceAs (Decidable (∀ part ∈ v.parts, ∀ entries ∈ part.asDict?, (Keyed.keys entries).Nodup))

/-- What holds of a list and all values in it. -/
theorem forall_mem_parts_list {P : Value → Prop} (items : List Value) :
    (∀ part ∈ (list items).parts, P part) ↔ P (list items) ∧ ∀ v ∈ items, ∀ part ∈ v.parts, P part := by
  rw [parts, List.forall_mem_cons]
  refine and_congr_right fun _ => ⟨fun h v hv part hpart => h part (mem_itemParts.mpr ⟨v, hv, hpart⟩),
    fun h part hpart => ?_⟩
  obtain ⟨v, hv, hpart⟩ := mem_itemParts.mp hpart
  exact h v hv part hpart

/-- What holds of a dictionary and all values in it. -/
theorem forall_mem_parts_dict {P : Value → Prop} (entries : Keyed Value) :
    (∀ part ∈ (dict entries).parts, P part) ↔
      P (dict entries) ∧ ∀ entry ∈ entries, ∀ part ∈ entry.2.parts, P part := by
  rw [parts, List.forall_mem_cons]
  refine and_congr_right fun _ => ⟨fun h entry hentry part hpart =>
    h part (mem_entryParts.mpr ⟨entry, hentry, hpart⟩), fun h part hpart => ?_⟩
  obtain ⟨entry, hentry, hpart⟩ := mem_entryParts.mp hpart
  exact h entry hentry part hpart

/-- The keys in a list are distinct exactly if they are in each item. -/
theorem distinct_list (items : List Value) : (list items).Distinct ↔ ∀ v ∈ items, v.Distinct :=
  (forall_mem_parts_list items).trans (and_iff_right (by simp [asDict?]))

/-- The keys in a dictionary are distinct exactly if its own are and those in each value. -/
theorem distinct_dict (entries : Keyed Value) :
    (dict entries).Distinct ↔ entries.keys.Nodup ∧ ∀ entry ∈ entries, entry.2.Distinct :=
  (forall_mem_parts_dict entries).trans (and_congr_left' (by simp [asDict?]))

/-- A value is free of floats that are no numbers exactly if none of its parts is one. -/
theorem not_hasNaN_iff (v : Value) : ¬ v.HasNaN ↔ ∀ part ∈ v.parts, part.isNaN = false := by
  simp [HasNaN]

/-- A list is free of them exactly if each item is. -/
theorem not_hasNaN_list (items : List Value) : ¬ (list items).HasNaN ↔ ∀ v ∈ items, ¬ v.HasNaN := by
  simp only [not_hasNaN_iff]
  exact (forall_mem_parts_list items).trans (and_iff_right rfl)

/-- A dictionary is free of them exactly if each value is. -/
theorem not_hasNaN_dict (entries : Keyed Value) :
    ¬ (dict entries).HasNaN ↔ ∀ entry ∈ entries, ¬ entry.2.HasNaN := by
  simp only [not_hasNaN_iff]
  exact (forall_mem_parts_dict entries).trans (and_iff_right rfl)

mutual

/-- The value without what does not count: zeros without their signs, and dictionaries in the order of their
keys. -/
def settled : Value → Value
  | float x => float (Decimal.plainZero x)
  | list items => list (settledItems items)
  | dict entries => dict (settledEntries entries).inKeyOrder
  | v => v

/-- The items of a list without what does not count. -/
def settledItems : List Value → List Value
  | [] => []
  | v :: rest => settled v :: settledItems rest

/-- The entries of a dictionary without what does not count, in their order. -/
def settledEntries : List (String × Value) → Keyed Value
  | [] => []
  | (key, v) :: rest => (key, settled v) :: settledEntries rest

end

/-- The items of a list are settled one by one. -/
theorem settledItems_eq (items : List Value) : settledItems items = items.map settled := by
  induction items with
  | nil => rfl
  | cons v rest ih => rw [settledItems, ih, List.map_cons]

/-- So are the values of a dictionary. -/
theorem settledEntries_eq (entries : Keyed Value) : settledEntries entries = entries.mapValues settled := by
  induction entries with
  | nil => rfl
  | cons entry rest ih =>
    rw [settledEntries, ih]
    rfl

/-! ## Sameness -/

/-- Lists are the same item by item. -/
theorem sameItems_iff {items : List Value}
    (h : ∀ v ∈ items, ∀ other, v.same other = true ↔ ¬ v.HasNaN ∧ v.settled = other.settled)
    (others : List Value) : sameItems items others = true ↔
      (∀ v ∈ items, ¬ v.HasNaN) ∧ items.map settled = others.map settled := by
  induction items generalizing others with
  | nil => cases others <;> simp [sameItems]
  | cons v rest ih =>
    obtain ⟨hv, hrest⟩ := List.forall_mem_cons.mp h
    cases others with
    | nil => simp [sameItems]
    | cons other others =>
      rw [sameItems, Bool.and_eq_true, hv, ih hrest, List.forall_mem_cons, List.map_cons, List.map_cons,
        List.cons_eq_cons]
      exact and_and_and_comm

/-- Entries are the same as others if each of them is found there with the same value. -/
theorem sameEntries_eq (entries : List (String × Value)) (others : Keyed Value) :
    sameEntries entries others = entries.all fun entry => (others.get? entry.1).any (same entry.2) := by
  induction entries with
  | nil => rfl
  | cons entry rest ih =>
    rw [sameEntries, ih, List.all_cons]
    cases others.get? entry.1 <;> rfl

/-- A value is the same as another exactly if there is no NaN in it and they differ in nothing that
counts. -/
theorem same_iff {v : Value} (h : v.Distinct) (other : Value) :
    v.same other = true ↔ ¬ v.HasNaN ∧ v.settled = other.settled := by
  induction v using inside generalizing other with
  | null | bool b | int n | str s => cases other <;> simp [same, settled, HasNaN, parts, isNaN]
  | float x =>
    cases other with
    | float y => simp [same, settled, HasNaN, parts, isNaN, Decimal.beq_iff]
    | _ => simp [same, settled]
  | list items ih =>
    rw [distinct_list] at h
    rw [not_hasNaN_list]
    cases other with
    | list others =>
      rw [same, sameItems_iff fun v hv => ih v hv (h v hv), settled, settled, settledItems_eq,
        settledItems_eq, Value.list.injEq]
    | _ => simp [same, settled]
  | dict entries ih =>
    obtain ⟨hkeys, hentries⟩ := (distinct_dict entries).mp h
    rw [not_hasNaN_dict]
    cases other with
    | dict others =>
      have hagree : same (dict entries) (dict others) = Keyed.agree same entries others := by
        rw [same, sameEntries_eq]
        rfl
      rw [hagree, Keyed.agree_iff (P := fun v => ¬ v.HasNaN) (f := settled) hkeys
          fun entry hentry => ih entry hentry (hentries entry hentry), settled, settled,
        settledEntries_eq, settledEntries_eq, Value.dict.injEq,
        Keyed.inKeyOrder_eq_iff (by rwa [Keyed.keys_mapValues])]
    | _ => simp [same, settled]

end Value

/-! ## Frames -/

namespace Frame

/-- There is a NaN in a cell. -/
def HasNaN (f : Frame) : Prop := ∃ column ∈ f.columns, ∃ v ∈ column.2, v.HasNaN

instance (f : Frame) : Decidable f.HasNaN :=
  inferInstanceAs (Decidable (∃ column ∈ f.columns, ∃ v ∈ column.2, v.HasNaN))

/-- No header comes twice, and no dictionary in a cell has a key twice. -/
structure Distinct (f : Frame) : Prop where
  headers : f.headers.Nodup
  cells : ∀ column ∈ f.columns, ∀ v ∈ column.2, v.Distinct

instance (f : Frame) : Decidable f.Distinct :=
  decidable_of_iff (f.headers.Nodup ∧ ∀ column ∈ f.columns, ∀ v ∈ column.2, v.Distinct)
    ⟨fun h => ⟨h.1, h.2⟩, fun h => ⟨h.headers, h.cells⟩⟩

/-- The frame without what does not count: its columns in the order of their headers, and nothing in the
cells that does not count. -/
def settled (f : Frame) : Frame :=
  ⟨(f.columns.mapValues (·.map Value.settled)).inKeyOrder, f.rows⟩

/-- Frames differ in nothing that counts exactly if they have as many rows and the same columns, in any
order. -/
theorem settled_eq_iff {f g : Frame} (distinct : f.headers.Nodup) : f.settled = g.settled ↔
    (f.columns.mapValues (·.map Value.settled)).Perm (g.columns.mapValues (·.map Value.settled)) ∧
      f.rows = g.rows := by
  rw [settled, settled, Frame.mk.injEq, Keyed.inKeyOrder_eq_iff]
  rwa [Keyed.keys_mapValues]

/-- Cells are compared as the items of a list. -/
theorem beq_cells (cells others : List Value) : (cells == others) = Value.sameItems cells others := by
  induction cells generalizing others with
  | nil => cases others <;> rfl
  | cons v rest ih =>
    cases others with
    | nil => rfl
    | cons other others =>
      rw [List.cons_beq_cons, ih, Value.sameItems]
      rfl

/-- A frame is the same as another exactly if there is no NaN in it and they differ in nothing that
counts. -/
theorem beq_iff {f : Frame} (h : f.Distinct) (g : Frame) :
    (f == g) = true ↔ ¬ f.HasNaN ∧ f.settled = g.settled := by
  have hcells : ∀ column ∈ f.columns, ∀ others, (column.2 == others) = true ↔
      (∀ v ∈ column.2, ¬ v.HasNaN) ∧ column.2.map Value.settled = others.map Value.settled := by
    intro column hcolumn others
    rw [beq_cells]
    exact Value.sameItems_iff (fun v hv => Value.same_iff (h.cells column hcolumn v hv)) others
  have hsame : (f == g) = (Keyed.agree (· == ·) f.columns g.columns && f.rows == g.rows) := rfl
  have hnan : ¬ f.HasNaN ↔ ∀ column ∈ f.columns, ∀ v ∈ column.2, ¬ v.HasNaN := by
    simp only [HasNaN, not_exists, not_and]
  rw [hsame, Bool.and_eq_true, Keyed.agree_iff (P := fun cells => ∀ v ∈ cells, ¬ v.HasNaN)
    (f := (·.map Value.settled)) h.headers hcells, beq_iff_eq, hnan, settled_eq_iff h.headers, and_assoc]

end Frame

end TableScript
