import TableScript.CommandLine.Suggestion
import TableScript.Proofs.EditDistance
import Mathlib.Data.List.Basic

/-!
# What is suggested

Of the types of steps that are known, the message about an unknown one suggests the closest, if that is
close enough, and the first of them if several are equally close. `Closest` says this of any list of names,
and `closest?_eq_some_iff` that the search finds just that. How close a name is is counted in edits
(`Text.isLeast_editDistance`).
-/

namespace TableScript.CommandLine

open Text

/-! ## The search -/

/-- No name is closer to the text, and none that comes before it is as close; and it is within the limit. -/
structure Closest (limit : Nat) (text : String) (names : List String) (name : String) : Prop where
  close : editDistance text name ≤ limit
  least : ∀ other ∈ names, editDistance text name ≤ editDistance text other
  first : ∃ before after, names = before ++ name :: after ∧
    ∀ other ∈ before, editDistance text name < editDistance text other

variable {limit : Nat} {text name : String} {names : List String}

/-- The closest name is one of the names. -/
theorem Closest.mem (h : Closest limit text names name) : name ∈ names := by
  obtain ⟨before, after, rfl, -⟩ := h.first
  exact List.mem_append_right before List.mem_cons_self

/-- There is one closest name at most. -/
theorem Closest.unique {other : String} (h : Closest limit text names name)
    (hother : Closest limit text names other) : name = other := by
  have hsame := Nat.le_antisymm (h.least other hother.mem) (hother.least name h.mem)
  obtain ⟨before, after, hnames, hfirst⟩ := h.first
  obtain ⟨before', after', hnames', hfirst'⟩ := hother.first
  -- neither name comes before the other
  rcases List.append_eq_append_iff.mp (hnames.symm.trans hnames') with
    ⟨between, rfl, hrest⟩ | ⟨between, rfl, hrest⟩
  · cases between with
    | nil => exact (List.cons.inj hrest).1
    | cons x between =>
      obtain rfl : name = x := (List.cons.inj hrest).1
      have hlt := hfirst' name (List.mem_append_right before List.mem_cons_self)
      exact absurd hlt (Nat.not_lt.mpr (Nat.le_of_eq hsame))
  · cases between with
    | nil => exact (List.cons.inj hrest).1.symm
    | cons x between =>
      obtain rfl : other = x := (List.cons.inj hrest).1
      have hlt := hfirst other (List.mem_append_right before' List.mem_cons_self)
      exact absurd hlt (Nat.not_lt.mpr (Nat.le_of_eq hsame.symm))

/-- Going through candidates, the first of the least is left. -/
theorem foldl_closer (first : Nat × String) (rest : List (Nat × String)) :
    (∀ x ∈ first :: rest, (rest.foldl closer first).1 ≤ x.1) ∧
    ∃ before after, first :: rest = before ++ rest.foldl closer first :: after ∧
      ∀ x ∈ before, (rest.foldl closer first).1 < x.1 := by
  induction rest generalizing first with
  | nil => exact ⟨by simp, [], [], rfl, by simp⟩
  | cons next rest ih =>
    obtain ⟨hleast, before, after, hsplit, hbefore⟩ := ih (closer first next)
    rw [List.foldl_cons]
    generalize hbest : rest.foldl closer (closer first next) = best at *
    have hchosen := hleast _ List.mem_cons_self
    unfold closer at hsplit hchosen
    -- the later one is kept only if it is strictly closer, so ties go to the first
    by_cases hlt : next.1 < first.1
    · rw [if_pos hlt] at hsplit hchosen
      have hfirst : best.1 < first.1 := Nat.lt_of_le_of_lt hchosen hlt
      refine ⟨?_, first :: before, after, by rw [hsplit]; rfl, ?_⟩
      · intro x hx
        rcases List.mem_cons.mp hx with rfl | hx
        · exact Nat.le_of_lt hfirst
        · rcases List.mem_cons.mp hx with rfl | hx
          · exact hchosen
          · exact hleast x (List.mem_cons_of_mem _ hx)
      · intro x hx
        rcases List.mem_cons.mp hx with rfl | hx
        · exact hfirst
        · exact hbefore x hx
    · rw [if_neg hlt] at hsplit hchosen
      have hnext : best.1 ≤ next.1 := Nat.le_trans hchosen (Nat.le_of_not_lt hlt)
      constructor
      · intro x hx
        rcases List.mem_cons.mp hx with rfl | hx
        · exact hchosen
        · rcases List.mem_cons.mp hx with rfl | hx
          · exact hnext
          · exact hleast x (List.mem_cons_of_mem _ hx)
      · -- what stood before the best one stood after `first`, which is not closer than `next`
        cases before with
        | nil =>
          obtain ⟨rfl, rfl⟩ := List.cons.inj hsplit
          exact ⟨[], next :: rest, rfl, by simp⟩
        | cons x before =>
          obtain ⟨rfl, rfl⟩ := List.cons.inj hsplit
          refine ⟨first :: next :: before, after, rfl, fun y hy => ?_⟩
          have hfirst := hbefore first List.mem_cons_self
          rcases List.mem_cons.mp hy with rfl | hy
          · exact hfirst
          · rcases List.mem_cons.mp hy with rfl | hy
            · exact Nat.lt_of_lt_of_le hfirst (Nat.le_of_not_lt hlt)
            · exact hbefore y (List.mem_cons_of_mem _ hy)

/-- The names within the limit, with their distances. -/
def near (limit : Nat) (text : String) (names : List String) : List (Nat × String) :=
  (names.filter fun name => editDistance text name ≤ limit).map fun name => (editDistance text name, name)

/-- The search goes through the names within the limit. -/
theorem closest?_eq (limit : Nat) (text : String) (names : List String) :
    closest? limit text names = match near limit text names with
      | [] => none
      | first :: rest => some (rest.foldl closer first).2 := by
  unfold closest? near
  rw [List.filter_map]
  rfl

/-- These are the names within the limit, each with its distance. -/
theorem mem_near {x : Nat × String} : x ∈ near limit text names ↔
    x.2 ∈ names ∧ editDistance text x.2 ≤ limit ∧ x.1 = editDistance text x.2 := by
  obtain ⟨distance, name⟩ := x
  unfold near
  simp only [List.mem_map, List.mem_filter, decide_eq_true_iff, Prod.mk.injEq]
  constructor
  · rintro ⟨other, ⟨hmem, hclose⟩, rfl, rfl⟩
    exact ⟨hmem, hclose, rfl⟩
  · rintro ⟨hmem, hclose, rfl⟩
    exact ⟨name, ⟨hmem, hclose⟩, rfl, rfl⟩

/-- What is found is the closest name. -/
theorem closest_of_closest? (h : closest? limit text names = some name) :
    Closest limit text names name := by
  rw [closest?_eq] at h
  cases hnear : near limit text names with
  | nil =>
    rw [hnear] at h
    cases h
  | cons first rest =>
    rw [hnear] at h
    have hfound : (rest.foldl closer first).2 = name := Option.some.inj h
    obtain ⟨hleast, before, after, hsplit, hbefore⟩ := foldl_closer first rest
    rw [← hnear] at hleast hsplit
    generalize rest.foldl closer first = best at hfound hleast hsplit hbefore
    obtain ⟨distance, found⟩ := best
    obtain rfl : found = name := hfound
    have hmem : (distance, found) ∈ near limit text names := by
      rw [hsplit]
      exact List.mem_append_right before List.mem_cons_self
    obtain ⟨-, hclose, hdistance⟩ := mem_near.mp hmem
    dsimp only at hclose hdistance
    -- where the name stands among those within the limit, it stands among all names
    obtain ⟨low, high, hnames, hlow, hhigh⟩ := List.filter_eq_append_iff.mp
      (show names.filter (fun name => editDistance text name ≤ limit) =
        before.map (·.2) ++ (found :: after.map (·.2)) by
        have hmap := congrArg (List.map (·.2)) hsplit
        simpa [near, Function.comp_def] using hmap)
    obtain ⟨skipped, later, rfl, hskipped, -⟩ := List.filter_eq_cons_iff.mp hhigh
    refine ⟨hclose, fun other hother => ?_, low ++ skipped, later, by rw [hnames, List.append_assoc],
      fun other hother => ?_⟩
    · by_cases hlimit : editDistance text other ≤ limit
      · exact hdistance ▸ hleast (editDistance text other, other) (mem_near.mpr ⟨hother, hlimit, rfl⟩)
      · exact Nat.le_trans hclose (Nat.le_of_not_le hlimit)
    · rcases List.mem_append.mp hother with hother | hother
      · by_cases hlimit : editDistance text other ≤ limit
        · have hfiltered : other ∈ before.map (·.2) := by
            rw [← hlow]
            exact List.mem_filter.mpr ⟨hother, decide_eq_true hlimit⟩
          obtain ⟨x, hx, rfl⟩ := List.mem_map.mp hfiltered
          have hnearx : x ∈ near limit text names := by
            rw [hsplit]
            exact List.mem_append_left _ hx
          have hlt := hbefore x hx
          rwa [(mem_near.mp hnearx).2.2, hdistance] at hlt
        · exact Nat.lt_of_le_of_lt hclose (Nat.lt_of_not_le hlimit)
      · have hfar := hskipped other hother
        rw [decide_eq_true_iff] at hfar
        exact Nat.lt_of_le_of_lt hclose (Nat.lt_of_not_le hfar)

/-- Nothing is found exactly if no name is within the limit. -/
theorem closest?_eq_none_iff : closest? limit text names = none ↔
    ∀ name ∈ names, limit < editDistance text name := by
  have hnear : near limit text names = [] ↔ ∀ name ∈ names, limit < editDistance text name := by
    simp [near]
  rw [closest?_eq, ← hnear]
  cases near limit text names <;> simp

/-- The search finds the closest name. -/
theorem closest?_eq_some_iff :
    closest? limit text names = some name ↔ Closest limit text names name := by
  refine ⟨closest_of_closest?, fun h => ?_⟩
  cases hfound : closest? limit text names with
  | none => exact absurd h.close (Nat.not_le.mpr (closest?_eq_none_iff.mp hfound name h.mem))
  | some found => rw [(closest_of_closest? hfound).unique h]

/-- Of two names that are equally close the first is found. -/
example : closest? 3 "ab" ["abcd", "b", "abc"] = some "b" := by decide +kernel

/-! ## The message -/

section Message

variable {known : List String} {typeName : String}

/-- What the search finds among the known types stands in the message. -/
theorem unknownTypeMessage_of_some {suggestion : String}
    (h : suggestedType? known typeName = some suggestion) : unknownTypeMessage known typeName =
      "Unknown step type '" ++ typeName ++ "'" ++ (". Did you mean '" ++ suggestion ++ "'?") := by
  unfold unknownTypeMessage
  rw [h]

/-- If the search finds none of the known types, the message lists them all. -/
theorem unknownTypeMessage_of_none (h : suggestedType? known typeName = none) :
    unknownTypeMessage known typeName = "Unknown step type '" ++ typeName ++ "'" ++
      (".\n\nAvailable steps: " ++ ", ".intercalate known) := by
  unfold unknownTypeMessage
  rw [h]

end Message

/-- The edit distance is the least number of edits and a metric; a search by it finds the closest of any
names, and something exactly if one is close enough; and the message about an unknown type of step suggests
what the search within three edits finds among the types that are known, whatever these are called, or
lists them all. -/
theorem suggestions_are_closest (a b c : String) (known : List String) (typeName : String) :
    IsLeast {n | Edits n a.toList b.toList} (editDistance a b) ∧
    ((editDistance a b = 0 ↔ a = b) ∧ editDistance a b = editDistance b a ∧
      editDistance a c ≤ editDistance a b + editDistance b c) ∧
    (∀ limit text names name,
      closest? limit text names = some name ↔ Closest limit text names name) ∧
    (∀ limit text names, (closest? limit text names).isSome = true ↔
      ∃ name ∈ names, editDistance text name ≤ limit) ∧
    (∀ suggestion, Closest 3 (toLower typeName) known suggestion →
      unknownTypeMessage known typeName =
        "Unknown step type '" ++ typeName ++ "'" ++ (". Did you mean '" ++ suggestion ++ "'?")) ∧
    ((∀ name ∈ known, 3 < editDistance (toLower typeName) name) →
      unknownTypeMessage known typeName = "Unknown step type '" ++ typeName ++ "'" ++
        (".\n\nAvailable steps: " ++ ", ".intercalate known)) := by
  refine ⟨isLeast_editDistance a b, ⟨editDistance_eq_zero_iff a b, editDistance_comm a b,
    editDistance_triangle a b c⟩, fun _ _ _ _ => closest?_eq_some_iff, fun limit text names => ?_,
    fun suggestion h => unknownTypeMessage_of_some (closest?_eq_some_iff.mpr h),
    fun h => unknownTypeMessage_of_none (closest?_eq_none_iff.mpr h)⟩
  rw [← Option.ne_none_iff_isSome, ne_eq, closest?_eq_none_iff]
  simp

end TableScript.CommandLine
