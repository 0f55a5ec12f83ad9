import TableScript.Proofs.Refusals
import Mathlib.Order.Bounds.Basic

/-!
# New headers, all at once

A mapping gives every header a new one, or leaves it as it is. The new headers are put in place together, each
for the column that had the old one. So a swap is a renaming like any other, and the only thing that can go
wrong is that two columns get one header; then the renaming fails with the first new header that an earlier
column has got already (`rename_substitutes`). Entries of the mapping for names that are not headers do
nothing.

Therefore two renamings one after the other are one renaming (`rename_renamed`), by the mapping that gives
each header what the second one makes of what the first one makes of it (`andThen`). It succeeds exactly if
both do.
-/

namespace TableScript.Frame

variable {f g : Frame} {e : FrameError} {name : String} {names : List String}
  {mapping first second : Keyed String}

/-! ## Names that come twice -/

/-- The name at the position stands at an earlier one already. -/
def Repeats (names : List String) (j : Nat) : Prop :=
  ∃ i < j, ∃ name, names[i]? = some name ∧ names[j]? = some name

/-- Names are distinct exactly if none of them repeats one before it. -/
theorem nodup_iff_not_repeats (names : List String) : names.Nodup ↔ ∀ j, ¬ Repeats names j := by
  rw [List.nodup_iff_getElem?_ne_getElem?]
  constructor
  · rintro hdistinct j ⟨i, hij, name, hi, hj⟩
    obtain ⟨hlt, -⟩ := List.getElem?_eq_some_iff.mp hj
    exact hdistinct i j hij hlt (hi.trans hj.symm)
  · intro hnone i j hij hlt heq
    have hj : names[j]? = some names[j] := List.getElem?_eq_getElem hlt
    exact hnone j ⟨i, hij, names[j], heq.trans hj, hj⟩

/-- The first name that comes a second time is the one after distinct names of which it is one. -/
theorem exists_isLeast_repeats_iff :
    (∃ j, IsLeast {j | Repeats names j} j ∧ names[j]? = some name) ↔
      ∃ before after, names = before ++ name :: after ∧ before.Nodup ∧ name ∈ before := by
  constructor
  · rintro ⟨j, ⟨⟨i, hij, name', hi, hj'⟩, hleast⟩, hj⟩
    obtain rfl : name' = name := Option.some.inj (hj'.symm.trans hj)
    obtain ⟨hlt, hget⟩ := List.getElem?_eq_some_iff.mp hj
    refine ⟨names.take j, names.drop (j + 1), ?_, ?_, ?_⟩
    · rw [← hget, ← List.drop_eq_getElem_cons hlt, List.take_append_drop]
    · rw [nodup_iff_not_repeats]
      rintro k ⟨l, hlk, other, hl, hk⟩
      have hkj : k < j := by
        obtain ⟨hlength, -⟩ := List.getElem?_eq_some_iff.mp hk
        rw [List.length_take] at hlength
        omega
      rw [List.getElem?_take_of_lt (by omega)] at hl hk
      exact absurd (hleast ⟨l, hlk, other, hl, hk⟩) (by omega)
    · rw [List.mem_iff_getElem?]
      exact ⟨i, by rw [List.getElem?_take_of_lt hij, hi]⟩
  · rintro ⟨before, after, rfl, hdistinct, hmem⟩
    obtain ⟨i, hi⟩ := List.mem_iff_getElem?.mp hmem
    obtain ⟨hlt, -⟩ := List.getElem?_eq_some_iff.mp hi
    have hname : (before ++ name :: after)[before.length]? = some name := by simp
    refine ⟨before.length, ⟨⟨i, hlt, name, ?_, hname⟩, ?_⟩, hname⟩
    · rw [List.getElem?_append_left hlt, hi]
    · rintro k ⟨l, hlk, other, hl, hk⟩
      by_contra hkj
      rw [List.getElem?_append_left (by omega)] at hl hk
      exact (nodup_iff_not_repeats before).mp hdistinct k ⟨l, hlk, other, hl, hk⟩

/-! ## One renaming -/

/-- The headers that a mapping gives to the columns, in their order. -/
def newHeaders (f : Frame) (mapping : Keyed String) : List String := f.headers.map (renamed mapping)

/-- What an edit has to give that puts the new headers in place all at once. -/
structure Substitutes (f : Frame) (mapping : Keyed String) (edited : Edited Unit) : Prop where
  succeeds_iff : edited.result = .ok () ↔ (f.newHeaders mapping).Nodup
  /-- Every column has its new header, in its place and with its cells. -/
  made : edited.result = .ok () → edited.frame.headers = f.newHeaders mapping ∧
    edited.frame.columns.map (·.2) = f.columns.map (·.2) ∧ edited.frame.rows = f.rows
  /-- The error is about the first new header that an earlier column has got already. -/
  fails_iff (e : FrameError) : edited.result = .error e ↔ ∃ j name,
    IsLeast {j | Repeats (f.newHeaders mapping) j} j ∧ (f.newHeaders mapping)[j]? = some name ∧
      e = .duplicateColumn name

/-- An edit makes a dataframe exactly if it succeeds and leaves that dataframe. -/
theorem Edited.made_eq_ok_iff {edited : Edited Unit} :
    edited.made = .ok g ↔ edited.result = .ok () ∧ edited.frame = g := by
  unfold made
  cases edited.result <;> simp

/-- The error of an edit is the one that it ends with. -/
theorem Edited.error?_eq_some_iff {α : Type} {edited : Edited α} :
    edited.error? = some e ↔ edited.result = .error e := by
  unfold error?
  cases edited.result <;> simp

/-- A renaming succeeds exactly if the new headers are distinct. -/
theorem rename_succeeds_iff : (f.rename mapping).result = .ok () ↔ (f.newHeaders mapping).Nodup := by
  constructor
  · intro hok
    exact ((rename_made_iff f _ mapping).mp (Edited.made_eq_ok_iff.mpr ⟨hok, rfl⟩)).1
  · intro hdistinct
    exact (Edited.made_eq_ok_iff.mp ((rename_made_iff f _ mapping).mpr ⟨hdistinct, rfl⟩)).1

/-- A renaming that succeeds leaves every column at its place, under its new name. -/
theorem frame_rename_of_ok (h : (f.rename mapping).result = .ok ()) :
    (f.rename mapping).frame = ⟨renamedColumns mapping f.columns, f.rows⟩ :=
  ((rename_made_iff f _ mapping).mp (Edited.made_eq_ok_iff.mpr ⟨h, rfl⟩)).2

/-- Where the columns collide, the new headers split. -/
theorem collision_iff : Collision mapping f.headers name ↔ ∃ before after,
    f.newHeaders mapping = before ++ name :: after ∧ before.Nodup ∧ name ∈ before := by
  constructor
  · rintro ⟨before, header, after, hheaders, hdistinct, rfl, hmem⟩
    refine ⟨before.map (renamed mapping), after.map (renamed mapping), ?_, hdistinct, hmem⟩
    rw [newHeaders, hheaders, List.map_append, List.map_cons]
  · rintro ⟨before, after, hnames, hdistinct, hmem⟩
    obtain ⟨first, rest, hheaders, rfl, hrest⟩ := List.map_eq_append_iff.mp hnames
    obtain ⟨header, last, rfl, rfl, -⟩ := List.map_eq_cons_iff.mp hrest
    exact ⟨first, header, last, hheaders, hdistinct, rfl, hmem⟩

/-- Renaming headers substitutes them. -/
theorem substitutes_rename (f : Frame) (mapping : Keyed String) :
    Substitutes f mapping (f.rename mapping) where
  succeeds_iff := rename_succeeds_iff
  made := by
    intro hok
    rw [frame_rename_of_ok hok]
    refine ⟨keys_renamedColumns mapping f.columns, ?_, rfl⟩
    rw [renamedColumns, List.map_map]
    rfl
  fails_iff := by
    intro e
    rw [← Edited.error?_eq_some_iff, rename_error?_eq_some_iff]
    constructor
    · rintro ⟨name, hcollision, rfl⟩
      obtain ⟨j, hleast, hname⟩ := exists_isLeast_repeats_iff.mpr (collision_iff.mp hcollision)
      exact ⟨j, name, hleast, hname, rfl⟩
    · rintro ⟨j, name, hleast, hname, rfl⟩
      exact ⟨name, collision_iff.mpr (exists_isLeast_repeats_iff.mp ⟨j, hleast, hname⟩), rfl⟩

/-! ## One renaming after another -/

/-- The mapping that gives a header what the second mapping makes of what the first one makes of it. -/
def andThen : (first second : Keyed String) → Keyed String
  | [], second => second
  | (old, new) :: rest, second => (old, renamed second new) :: (andThen rest second).erase old

/-- A header has one entry at most in the composed mapping. -/
theorem nodup_keys_andThen (first : Keyed String) (h : second.keys.Nodup) :
    (andThen first second).keys.Nodup := by
  induction first with
  | nil => exact h
  | cons entry rest ih =>
    obtain ⟨old, new⟩ := entry
    rw [andThen, Keyed.keys_cons, List.nodup_cons]
    exact ⟨Keyed.not_mem_keys_erase ih old, Keyed.nodup_keys_erase ih old⟩

/-- The first entry of a header is the one that counts. -/
theorem renamed_cons (old new header : String) (rest : Keyed String) :
    renamed ((old, new) :: rest) header = if old = header then new else renamed rest header := by
  rw [renamed, Keyed.get?]
  split <;> rfl

/-- Two mappings in turn are the mapping made of both. -/
theorem renamed_andThen (first second : Keyed String) (header : String) :
    renamed (andThen first second) header = renamed second (renamed first header) := by
  induction first with
  | nil => rfl
  | cons entry rest ih =>
    obtain ⟨old, new⟩ := entry
    rw [andThen, renamed_cons, renamed_cons]
    split
    case isTrue => rfl
    case isFalse hne => rw [renamed, Keyed.get?_erase_of_ne _ hne, ← renamed, ih]

/-- Renamed columns are renamed as they would be by the composed mapping at once, one after the other. -/
theorem renameAfter_renamedColumns (done columns : Keyed (List Value)) :
    renameAfter second done (renamedColumns first columns) =
      renameAfter (andThen first second) done columns := by
  induction columns generalizing done with
  | nil => rfl
  | cons column rest ih =>
    obtain ⟨header, cells⟩ := column
    have hcons : renamedColumns first ((header, cells) :: rest) =
        (renamed first header, cells) :: renamedColumns first rest := rfl
    rw [hcons, renameAfter, renameAfter, renamed_andThen]
    split
    case isTrue => rfl
    case isFalse => exact ih _

/-- Renaming a renamed frame is one renaming, which may fail or not. -/
theorem rename_renamed (h : (f.rename first).result = .ok ()) (second : Keyed String) :
    (f.rename first).frame.rename second = f.rename (andThen first second) := by
  rw [frame_rename_of_ok h, rename, rename, renameAfter_renamedColumns]

/-- Headers that the first mapping makes the same are the same after the second. -/
theorem rename_andThen_succeeds_iff : (f.rename (andThen first second)).result = .ok () ↔
    (f.rename first).result = .ok () ∧ ((f.rename first).frame.rename second).result = .ok () := by
  have hnames : f.newHeaders (andThen first second) = (f.newHeaders first).map (renamed second) := by
    rw [newHeaders, newHeaders, List.map_map]
    exact List.map_congr_left fun header _ => renamed_andThen first second header
  constructor
  · intro hok
    have hfirst : (f.rename first).result = .ok () := by
      rw [rename_succeeds_iff]
      rw [rename_succeeds_iff, hnames] at hok
      exact hok.of_map _
    exact ⟨hfirst, by rw [rename_renamed hfirst, hok]⟩
  · rintro ⟨hfirst, hsecond⟩
    rwa [rename_renamed hfirst] at hsecond

/-- A renaming puts the new headers in place all at once, or finds the first one that comes twice. One
renaming after another is one renaming by the composed mapping, which succeeds exactly if both do. -/
theorem rename_substitutes (f : Frame) (mapping : Keyed String) :
    Substitutes f mapping (f.rename mapping) ∧ ∀ second : Keyed String,
      (second.keys.Nodup → (andThen mapping second).keys.Nodup) ∧
      (∀ header, renamed (andThen mapping second) header = renamed second (renamed mapping header)) ∧
      ((f.rename (andThen mapping second)).result = .ok () ↔ (f.rename mapping).result = .ok () ∧
        ((f.rename mapping).frame.rename second).result = .ok ()) ∧
      ((f.rename mapping).result = .ok () →
        (f.rename mapping).frame.rename second = f.rename (andThen mapping second)) := by
  refine ⟨substitutes_rename f mapping, fun second => ⟨?_, ?_, ?_, ?_⟩⟩
  · exact nodup_keys_andThen mapping
  · exact renamed_andThen mapping second
  · exact rename_andThen_succeeds_iff
  · intro hok
    exact rename_renamed hok second

/-- Three columns change their headers in a ring and back again. When all three would get one header, the
second column is the first that cannot. -/
theorem rename_substitutes_ring :
    let f : Frame := ⟨[("A", [.int 1]), ("B", [.int 2]), ("C", [.int 3])], 1⟩
    let ring : Keyed String := [("A", "B"), ("B", "C"), ("X", "A"), ("C", "A")]
    let back : Keyed String := [("B", "A"), ("C", "B"), ("A", "C")]
    let clash : Keyed String := [("A", "C"), ("B", "C")]
    (f.rename ring).result = .ok () ∧ (f.rename ring).frame.headers = ["B", "C", "A"] ∧
      back.keys.Nodup ∧ (andThen ring back).keys.Nodup ∧
      (f.rename ring).frame.rename back = f.rename (andThen ring back) ∧
      (f.rename (andThen ring back)).frame = f ∧
      (f.rename clash).result = .error (.duplicateColumn "C") := by
  intro f ring back clash
  obtain ⟨hring, hback⟩ := rename_substitutes f ring
  obtain ⟨hkeys, -, -, hcomposed⟩ := hback back
  have hok : (f.rename ring).result = .ok () := hring.succeeds_iff.mpr (by decide)
  have hnodup : back.keys.Nodup := by decide
  refine ⟨hok, (hring.made hok).1, hnodup, hkeys hnodup, hcomposed hok, rfl, ?_⟩
  refine ((rename_substitutes f clash).1.fails_iff _).mpr ⟨1, "C", ⟨⟨0, by omega, "C", rfl, rfl⟩, ?_⟩, rfl, rfl⟩
  rintro k ⟨i, hik, -⟩
  omega

end TableScript.Frame
