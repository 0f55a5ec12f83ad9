import TableScript.Text.Distance
import Mathlib.Order.Bounds.Basic
import Mathlib.Order.MinMax

/-!
# The edit distance is the least number of edits

An edit inserts, deletes or replaces one character anywhere in a text. `isLeast_editDistance` says that the
edit distance is the least number of edits that lead from one text to the other, one after the other; that it
is a metric follows from what can be done with edits: leave them out, take them back, and go on with others.

Between the two stands `alignment`, the recurrence on the first characters of both texts. It never needs more
than one edit more for a text that is one edit away (`alignment_le_of_oneEdit`), so no row of edits is
shorter. The table works on the last characters, which makes its cells the values of the recurrence for
beginnings of the texts read backwards. That a row holds them is kept from cell to cell (`cells_fillRow`),
whatever stood in the row before, and from row to row (`holds_next`).
-/

namespace TableScript.Text

/-! ## Edits -/

/-- One character is inserted, deleted or replaced. -/
inductive OneEdit : List Char → List Char → Prop where
  | insert (before : List Char) (c : Char) (after : List Char) :
    OneEdit (before ++ after) (before ++ c :: after)
  | delete (before : List Char) (c : Char) (after : List Char) :
    OneEdit (before ++ c :: after) (before ++ after)
  | replace (before : List Char) (c d : Char) (after : List Char) :
    OneEdit (before ++ c :: after) (before ++ d :: after)

/-- So many edits, one after the other, lead from the first text to the second one. -/
inductive Edits : Nat → List Char → List Char → Prop where
  | none (a : List Char) : Edits 0 a a
  | next {n : Nat} {a b c : List Char} (h : OneEdit a b) (rest : Edits n b c) : Edits (n + 1) a c

variable {m n : Nat} {a b c : List Char}

/-- An edit can be undone by an edit. -/
theorem OneEdit.symm (h : OneEdit a b) : OneEdit b a := by
  cases h with
  | insert before c after => exact .delete before c after
  | delete before c after => exact .insert before c after
  | replace before c d after => exact .replace before d c after

/-- An edit can be made behind a character. -/
theorem OneEdit.cons (h : OneEdit a b) (x : Char) : OneEdit (x :: a) (x :: b) := by
  cases h with
  | insert before c after => exact .insert (x :: before) c after
  | delete before c after => exact .delete (x :: before) c after
  | replace before c d after => exact .replace (x :: before) c d after

/-- An edit can be made on the characters in reverse. -/
theorem OneEdit.reverse (h : OneEdit a b) : OneEdit a.reverse b.reverse := by
  cases h with
  | insert before c after => simpa using OneEdit.insert after.reverse c before.reverse
  | delete before c after => simpa using OneEdit.delete after.reverse c before.reverse
  | replace before c d after => simpa using OneEdit.replace after.reverse c d before.reverse

/-- Edits can be made one after the other. -/
theorem Edits.trans (first : Edits m a b) (second : Edits n b c) : Edits (m + n) a c := by
  induction first with
  | none => rwa [Nat.zero_add]
  | next h _ ih =>
    rw [Nat.succ_add]
    exact .next h (ih second)

/-- Edits can be undone by as many. -/
theorem Edits.symm (h : Edits n a b) : Edits n b a := by
  induction h with
  | none a => exact .none a
  | next h _ ih => exact ih.trans (.next h.symm (.none _))

/-- Edits can be made behind a character. -/
theorem Edits.cons (h : Edits n a b) (x : Char) : Edits n (x :: a) (x :: b) := by
  induction h with
  | none a => exact .none (x :: a)
  | next h _ ih => exact .next (h.cons x) ih

/-- Edits can be made on the characters in reverse. -/
theorem Edits.reverse (h : Edits n a b) : Edits n a.reverse b.reverse := by
  induction h with
  | none a => exact .none a.reverse
  | next h _ ih => exact .next h.reverse ih

/-- Reversing both sides changes nothing about the edits between them. -/
theorem edits_reverse_iff : Edits n a.reverse b.reverse ↔ Edits n a b :=
  ⟨fun h => by simpa using h.reverse, Edits.reverse⟩

/-- Without edits the characters are the same. -/
theorem edits_zero_iff : Edits 0 a b ↔ a = b := by
  constructor
  · intro h
    cases h
    rfl
  · rintro rfl
    exact .none a

/-- A text is made from nothing by putting in its characters. -/
theorem edits_nil (b : List Char) : Edits b.length [] b := by
  induction b with
  | nil => exact .none []
  | cons d rest ih => exact .next (.insert [] d []) (ih.cons d)

/-! ## The recurrence -/

/-- What it costs to turn the first text into the second one, by what is done with the first characters. -/
def alignment : List Char → List Char → Nat
  | [], b => b.length
  | c :: a, [] => (c :: a).length
  | c :: a, d :: b =>
    min (min (alignment a (d :: b) + 1) (alignment (c :: a) b + 1)) (alignment a b + if c = d then 0 else 1)

/-- All of the second characters are put in. -/
@[simp] theorem alignment_nil_left (b : List Char) : alignment [] b = b.length := by rw [alignment]

/-- All of the first characters are taken out. -/
@[simp] theorem alignment_nil_right (a : List Char) : alignment a [] = a.length := by
  cases a <;> rw [alignment]

/-- The first characters are taken out, put in, or put one for the other. -/
theorem alignment_cons_cons (c d : Char) (a b : List Char) : alignment (c :: a) (d :: b) =
    min (min (alignment a (d :: b) + 1) (alignment (c :: a) b + 1))
      (alignment a b + if c = d then 0 else 1) := by
  rw [alignment]

/-- That many edits are enough. -/
theorem edits_alignment (a b : List Char) : Edits (alignment a b) a b := by
  fun_induction alignment a b with
  | case1 b => exact edits_nil b
  | case2 c a => exact (edits_nil (c :: a)).symm
  | case3 c a d b deleted inserted replaced =>
    rcases min_choice (min (alignment a (d :: b) + 1) (alignment (c :: a) b + 1))
      (alignment a b + if c = d then 0 else 1) with hmin | hmin
    · rcases min_choice (alignment a (d :: b) + 1) (alignment (c :: a) b + 1) with hother | hother
      · rw [hmin, hother]
        exact .next (.delete [] c a) deleted
      · rw [hmin, hother]
        exact .next (.insert [] d (c :: a)) (inserted.cons d)
    · rw [hmin]
      split
      case isTrue h =>
        subst h
        exact replaced.cons c
      case isFalse => exact .next (.replace [] c d a) (replaced.cons d)

/-- Another character on the left costs one edit at most. -/
theorem alignment_cons_le (c : Char) (a b : List Char) : alignment (c :: a) b ≤ alignment a b + 1 := by
  cases b with
  | nil => simp
  | cons d b =>
    rw [alignment_cons_cons]
    omega

/-- So does another one on the right. -/
theorem alignment_le_cons_right (d : Char) (a b : List Char) :
    alignment a (d :: b) ≤ alignment a b + 1 := by
  cases a with
  | nil => simp
  | cons c a =>
    rw [alignment_cons_cons]
    omega

/-- And one on both sides. -/
theorem alignment_cons_cons_le (c d : Char) (a b : List Char) :
    alignment (c :: a) (d :: b) ≤ alignment a b + 1 := by
  rw [alignment_cons_cons]
  split <;> omega

/-- A deletion of the first character saves at most one edit. -/
theorem alignment_le_cons (c : Char) (a b : List Char) : alignment a b ≤ alignment (c :: a) b + 1 := by
  induction b with
  | nil =>
    rw [alignment_nil_right, alignment_nil_right, List.length_cons]
    omega
  | cons d b ih =>
    have hinsert := alignment_le_cons_right d a b
    rw [alignment_cons_cons]
    omega

/-- Another character in the place of the first costs one edit at most. -/
theorem alignment_replace_le (c d : Char) (a b : List Char) :
    alignment (c :: a) b ≤ alignment (d :: a) b + 1 := by
  induction b with
  | nil => simp
  | cons e b ih =>
    have hdelete := alignment_cons_le c a (e :: b)
    have hinsert := alignment_le_cons_right e (c :: a) b
    have hreplace := alignment_cons_cons_le c e a b
    rw [alignment_cons_cons d]
    omega

/-- What is one edit away stays so behind one more character. -/
theorem alignment_cons_le_cons {a a' : List Char} (h : ∀ b, alignment a b ≤ alignment a' b + 1) (c : Char)
    (b : List Char) : alignment (c :: a) b ≤ alignment (c :: a') b + 1 := by
  induction b with
  | nil => simpa using h []
  | cons d b ih =>
    have hdelete := h (d :: b)
    have hreplace := h b
    rw [alignment_cons_cons, alignment_cons_cons]
    omega

/-- One edit changes the distance to any text by one at most. -/
theorem alignment_le_of_oneEdit (h : OneEdit a b) (c : List Char) :
    alignment a c ≤ alignment b c + 1 := by
  -- the edit is made behind some characters, which are taken off one by one
  cases h with
  | insert before x after =>
    induction before generalizing c with
    | nil => exact alignment_le_cons x after c
    | cons y before ih => exact alignment_cons_le_cons ih y c
  | delete before x after =>
    induction before generalizing c with
    | nil => exact alignment_cons_le x after c
    | cons y before ih => exact alignment_cons_le_cons ih y c
  | replace before x z after =>
    induction before generalizing c with
    | nil => exact alignment_replace_le x z after c
    | cons y before ih => exact alignment_cons_le_cons ih y c

/-- Characters are at no distance from themselves. -/
theorem alignment_self (a : List Char) : alignment a a = 0 := by
  induction a with
  | nil => simp
  | cons c a ih =>
    rw [alignment_cons_cons, ih]
    simp

/-- Fewer edits are not enough. -/
theorem alignment_le_of_edits (h : Edits n a b) : alignment a b ≤ n := by
  induction h with
  | none a => exact Nat.le_of_eq (alignment_self a)
  | next h _ ih => exact (alignment_le_of_oneEdit h _).trans (Nat.succ_le_succ ih)

/-- The best alignment has as many edits as are needed. -/
theorem isLeast_alignment (a b : List Char) : IsLeast {n | Edits n a b} (alignment a b) :=
  ⟨edits_alignment a b, fun _ h => alignment_le_of_edits h⟩

/-- Alignments can be read in reverse. -/
theorem alignment_reverse (a b : List Char) : alignment a.reverse b.reverse = alignment a b := by
  have hsame : {n | Edits n a.reverse b.reverse} = {n | Edits n a b} :=
    Set.ext fun _ => edits_reverse_iff
  exact (hsame ▸ isLeast_alignment a.reverse b.reverse).unique (isLeast_alignment a b)

/-! ## The table -/

section Table

variable {size : Nat} {b : Vector Char size} {above : Vector Nat (size + 1)} {done : List Char}

/-- The row holds the distances from a text to all beginnings of the second one, up to the given column.
Both are read backwards. -/
def HoldsUpTo (column : Nat) (done : List Char) (b : Vector Char size) (row : Vector Nat (size + 1)) :
    Prop :=
  ∀ (j : Nat) (hj : j < size + 1), j ≤ column → row[j] = alignment done (b.toList.take j).reverse

/-- One more character of a prefix stands first in reverse. -/
theorem take_succ_reverse (b : Vector Char size) {j : Nat} (hj : j < size) :
    (b.toList.take (j + 1)).reverse = b[j] :: (b.toList.take j).reverse := by
  rw [List.take_succ_eq_append_getElem (by simpa using hj), List.reverse_append]
  simp

/-- The next cell is written from cells that are right. -/
theorem holdsUpTo_writeCell {row : Vector Nat (size + 1)} (habove : HoldsUpTo size done b above) {c : Char}
    {j : Nat} (hj : j < size) (hrow : HoldsUpTo j (c :: done) b row) :
    HoldsUpTo (j + 1) (c :: done) b (writeCell c b above j hj row) := by
  intro k hk hle
  unfold writeCell
  rcases Nat.lt_or_eq_of_le hle with hlt | rfl
  · rw [Vector.getElem_set_ne _ _ (Nat.ne_of_gt hlt)]
    exact hrow k hk (Nat.le_of_lt_succ hlt)
  · rw [Vector.getElem_set_self, take_succ_reverse b hj, alignment_cons_cons, ← take_succ_reverse b hj,
      habove j _ (Nat.le_of_lt hj), habove (j + 1) _ hj, hrow j _ (Nat.le_refl j)]

/-- After any number of cells, those that have been written are right. What stood in the row does not
matter. -/
theorem cells_fillRow (habove : HoldsUpTo size done b above) (c : Char) (row : Vector Nat (size + 1))
    (written : Nat) (hwritten : written ≤ size) :
    HoldsUpTo written (c :: done) b (written.fold
      (fun j hj => writeCell c b above j (Nat.lt_of_lt_of_le hj hwritten)) (row.set 0 (done.length + 1))) := by
  induction written with
  | zero =>
    intro j hj hle
    obtain rfl : j = 0 := Nat.le_zero.mp hle
    simp
  | succ j ih =>
    rw [Nat.fold_succ]
    exact holdsUpTo_writeCell habove hwritten (ih (Nat.le_of_succ_le hwritten))

/-- The row that was filled last is right, for the characters that have been gone through. -/
def Rows.Holds (rows : Rows size) (done : List Char) (b : Vector Char size) : Prop :=
  HoldsUpTo size done b rows.filled

/-- The first row has the distances from nothing. -/
theorem holds_first (b : Vector Char size) : (Rows.first size).Holds [] b := by
  intro j hj _
  simp [Rows.first]
  omega

/-- Filling the next row and changing the rows over gives the distances from one more character, whatever
was left in the row. -/
theorem holds_next {rows : Rows size} (h : rows.Holds done b) (c : Char) :
    (rows.next b c done.length).Holds (c :: done) b :=
  cells_fillRow h c rows.spare size (Nat.le_refl size)

/-- Going through all characters of the first text leaves the row for it. -/
theorem holds_foldl (rest : List Char) {rows : Rows size} (h : rows.Holds done b) :
    ((rest.zipIdx done.length).foldl (fun rows (c, i) => rows.next b c i) rows).Holds
      (rest.reverse ++ done) b := by
  induction rest generalizing done rows with
  | nil => exact h
  | cons c rest ih =>
    rw [List.zipIdx_cons, List.foldl_cons, List.reverse_cons, List.append_assoc]
    exact ih (holds_next h c)

end Table

/-- The table ends with the distance of the whole texts, and where one of them is empty, the length of the
other is the distance. -/
theorem editDistance_eq_alignment (a b : String) : editDistance a b = alignment a.toList b.toList := by
  unfold editDistance
  dsimp only
  split
  case isTrue ha => simp [List.isEmpty_iff.mp ha]
  case isFalse =>
    split
    case isTrue hb =>
      have hnil : b.toList = [] := by simpa using hb
      simp [hnil]
    case isFalse =>
      have hlast := holds_foldl a.toList (holds_first b.toList.toArray.toVector) b.toList.toArray.size
        (Nat.lt_succ_self _) (Nat.le_refl _)
      rw [List.append_nil] at hlast
      rw [List.length_nil] at hlast
      rw [hlast, ← alignment_reverse a.toList]
      simp

/-! ## The distance -/

/-- The edit distance is the least number of edits that lead from one text to the other. -/
theorem isLeast_editDistance (a b : String) :
    IsLeast {n | Edits n a.toList b.toList} (editDistance a b) := by
  rw [editDistance_eq_alignment]
  exact isLeast_alignment a.toList b.toList

/-- Two characters are replaced and one is put in. -/
example : editDistance "kitten" "sitting" = 3 := by decide +kernel

/-- Only a text itself is at no distance from it. -/
theorem editDistance_eq_zero_iff (a b : String) : editDistance a b = 0 ↔ a = b := by
  have hleast := isLeast_editDistance a b
  constructor
  · intro h
    have hedits : Edits 0 a.toList b.toList := h ▸ hleast.1
    exact String.toList_inj.mp (edits_zero_iff.mp hedits)
  · rintro rfl
    exact Nat.le_zero.mp (hleast.2 (Edits.none a.toList))

/-- The distance is the same in both directions. -/
theorem editDistance_comm (a b : String) : editDistance a b = editDistance b a :=
  le_antisymm ((isLeast_editDistance a b).2 (isLeast_editDistance b a).1.symm)
    ((isLeast_editDistance b a).2 (isLeast_editDistance a b).1.symm)

/-- A way by a third text is no shorter. -/
theorem editDistance_triangle (a b c : String) :
    editDistance a c ≤ editDistance a b + editDistance b c :=
  (isLeast_editDistance a c).2 ((isLeast_editDistance a b).1.trans (isLeast_editDistance b c).1)

end TableScript.Text
