import TableScript.Proofs.Checked
import Mathlib.Data.List.Forall2
import Mathlib.Data.Rat.Floor

/-!
# Arithmetic on whole numbers

Arithmetic on whole numbers gives the exact number as long as it has 64 bits, and a floating point number
otherwise, so no script takes a number for exact that is not (`Represents`). The remainder is the one that
goes with the quotient rounded down, and always has 64 bits; dividing by zero gives nothing. The machine makes
that remainder of the one that goes with the quotient rounded towards zero, and never needs more than 64 bits
on the way.

Series are gone through cell by cell. `Cellwise` says that of any relation between cells and what they give,
and `whole_arithmetic` is the case of the relations above.
-/

namespace TableScript.Script

/-! ## Whole numbers -/

/-- The value is the exact number if that has 64 bits, and a floating point number if it has more. -/
def Represents (exact : Int) (approximate : Float) (v : Value) : Prop :=
  if -2 ^ 63 ≤ exact ∧ exact < 2 ^ 63 then ∃ n : Int64, n.toInt = exact ∧ v = .int n
  else v = .float approximate

/-- What is left over when a quotient is rounded down. -/
structure Remainder (x y r : Int64) : Prop where
  division : x.toInt = y.toInt * ⌊(x.toInt : ℚ) / y.toInt⌋ + r.toInt
  smaller : |r.toInt| < |y.toInt|
  sign : r.toInt = 0 ∨ r.toInt.sign = y.toInt.sign

/-- What an operator gives for two whole numbers. -/
def ArithmeticOp.Gives (x y : Int64) (v : Value) : ArithmeticOp → Prop
  | add => Represents (x.toInt + y.toInt) (x.toFloat + y.toFloat) v
  | sub => Represents (x.toInt - y.toInt) (x.toFloat - y.toFloat) v
  | mul => Represents (x.toInt * y.toInt) (x.toFloat * y.toFloat) v
  | div => if y = 0 then v = .null else v = .float (x.toFloat / y.toFloat)
  | mod => if y = 0 then v = .null else ∃ r, Remainder x y r ∧ v = .int r

/-- The exact number is taken exactly if it fits. -/
theorem represents_exactOr (exact : Int) (approximate : Float) :
    Represents exact approximate (exactOr exact approximate) := by
  unfold Represents exactOr
  cases hword : Decimal.int64? exact with
  | some n =>
    have hn := Decimal.int64?_eq_some_iff.mp hword
    have hbounds : -2 ^ 63 ≤ exact ∧ exact < 2 ^ 63 := hn ▸ ⟨n.le_toInt, n.toInt_lt⟩
    rw [if_pos hbounds]
    exact ⟨n, hn, rfl⟩
  | none =>
    have hbounds : ¬ (-2 ^ 63 ≤ exact ∧ exact < 2 ^ 63) := by
      rintro ⟨hlow, hhigh⟩
      rw [Decimal.int64?_eq_some_iff.mpr (Int64.toInt_ofInt_of_le hlow hhigh)] at hword
      cases hword
    rw [if_neg hbounds]

/-- The quotient rounded down. -/
theorem floor_div_eq_fdiv (a b : Int) : ⌊(a : ℚ) / b⌋ = a.fdiv b := by
  have hnonneg : ∀ (a : Int) (n : Nat), ⌊(a : ℚ) / n⌋ = a.fdiv n := fun a n => by
    rw [Rat.floor_intCast_div_natCast, Int.fdiv_eq_ediv_of_nonneg a (Int.natCast_nonneg n)]
  obtain ⟨n, rfl | rfl⟩ := b.eq_nat_or_neg
  · exact hnonneg a n
  · rw [← Int.neg_fdiv_neg, Int.neg_neg, ← hnonneg, Int.cast_neg, Int.cast_neg, Int.cast_natCast,
      div_neg, neg_div]

/-- Rounding down leaves the remainder that has the sign of the divisor. -/
theorem remainder_fmod {x y : Int64} (hy : y ≠ 0) :
    Remainder x y (Int64.ofInt (x.toInt.fmod y.toInt)) := by
  have hlow := y.le_toInt
  have hhigh := y.toInt_lt
  have hzero : y.toInt ≠ 0 := fun h => hy (Int64.toInt_inj.mp h)
  -- the remainder lies between zero and the divisor
  have hbetween : 0 < y.toInt ∧ 0 ≤ x.toInt.fmod y.toInt ∧ x.toInt.fmod y.toInt < y.toInt ∨
      y.toInt < 0 ∧ y.toInt < x.toInt.fmod y.toInt ∧ x.toInt.fmod y.toInt ≤ 0 := by
    rcases Int.lt_or_gt_of_ne hzero with hneg | hpos
    · have hnonneg := Int.fmod_nonneg_of_pos (-x.toInt) (Int.neg_pos.mpr hneg)
      have hlt := Int.fmod_lt_of_pos (-x.toInt) (Int.neg_pos.mpr hneg)
      rw [Int.neg_fmod_neg] at hnonneg hlt
      right
      omega
    · exact Or.inl ⟨hpos, Int.fmod_nonneg_of_pos _ hpos, Int.fmod_lt_of_pos _ hpos⟩
  have hword : (Int64.ofInt (x.toInt.fmod y.toInt)).toInt = x.toInt.fmod y.toInt :=
    Int64.toInt_ofInt_of_le (by omega) (by omega)
  refine ⟨?_, ?_, ?_⟩
  · rw [hword, floor_div_eq_fdiv, Int.mul_fdiv_add_fmod]
  · rw [hword, abs_lt]
    rcases hbetween with ⟨hpos, _, _⟩ | ⟨hneg, _, _⟩
    · rw [abs_of_pos hpos]
      omega
    · rw [abs_of_neg hneg]
      omega
  · rw [hword]
    by_cases hleft : x.toInt.fmod y.toInt = 0
    · exact Or.inl hleft
    · right
      rcases hbetween with ⟨hpos, _, _⟩ | ⟨hneg, _, _⟩
      · rw [Int.sign_eq_one_of_pos hpos, Int.sign_eq_one_of_pos (by omega)]
      · rw [Int.sign_eq_neg_one_of_neg hneg, Int.sign_eq_neg_one_of_neg (by omega)]

/-- Arithmetic on whole numbers gives the exact result, or the float that stands for it. -/
theorem gives_onInts (op : ArithmeticOp) (x y : Int64) : op.Gives x y (op.onInts x y) := by
  cases op with
  | add | sub | mul => exact represents_exactOr _ _
  | div =>
    by_cases hy : y = 0
    · simp [ArithmeticOp.Gives, ArithmeticOp.onInts, hy]
    · simp [ArithmeticOp.Gives, ArithmeticOp.onInts, hy]
  | mod =>
    by_cases hy : y = 0
    · simp [ArithmeticOp.Gives, ArithmeticOp.onInts, hy]
    · simp only [ArithmeticOp.Gives, ArithmeticOp.onInts, if_neg hy]
      exact ⟨_, remainder_fmod hy, rfl⟩

/-! ## Cells -/

/-- A whole number, or nothing. -/
def wholeCell : Option Int64 → Value
  | none => .null
  | some n => .int n

/-- What an operator gives for two cells. -/
def ArithmeticOp.GivesCell (op : ArithmeticOp) : Option Int64 → Option Int64 → Value → Prop
  | some x, some y, v => op.Gives x y v
  | _, _, v => v = .null

/-- What comes of a cell, if `exact` is wanted of a whole number and `approximate` stands for it. -/
def BecomesCell (exact : Int → Int) (approximate : Float → Float) : Option Int64 → Value → Prop
  | some n, v => Represents (exact n.toInt) (approximate n.toFloat) v
  | none, v => v = .null

/-- The operator as one between operands. -/
def ArithmeticOp.operator : ArithmeticOp → BinaryOp
  | add => .add
  | sub => .sub
  | mul => .mul
  | div => .div
  | mod => .mod

/-- Nothing comes of two cells exactly if one of them is nothing or a division is by zero. -/
theorem ArithmeticOp.GivesCell.eq_null_iff {op : ArithmeticOp} {a b : Option Int64} {v : Value}
    (h : op.GivesCell a b v) :
    v = .null ↔ a = none ∨ b = none ∨ (op = .div ∨ op = .mod) ∧ b = some 0 := by
  have hrepresents : ∀ {exact approximate}, Represents exact approximate v → v ≠ .null := by
    intro exact approximate h
    unfold Represents at h
    split at h
    · obtain ⟨n, -, rfl⟩ := h
      exact Value.noConfusion
    · rw [h]
      exact Value.noConfusion
  match a, b, h with
  | none, _, h => simp [show v = .null from h]
  | some _, none, h => simp [show v = .null from h]
  | some x, some y, h =>
    replace h : op.Gives x y v := h
    cases op with
    | add | sub | mul => simp [hrepresents h]
    | div =>
      simp only [Gives] at h
      by_cases hy : y = 0
      · simp [(if_pos hy).mp h, hy]
      · simp [(if_neg hy).mp h, hy]
    | mod =>
      simp only [Gives] at h
      by_cases hy : y = 0
      · simp [(if_pos hy).mp h, hy]
      · obtain ⟨r, -, rfl⟩ := (if_neg hy).mp h
        simp [hy]

/-- On cells it gives this, or a missing cell. -/
theorem exists_onValues (op : ArithmeticOp) (a b : Option Int64) :
    ∃ v, op.operator.onValues (wholeCell a) (wholeCell b) = .ok v ∧ op.GivesCell a b v := by
  have happly : op.operator.onValues = op.apply := by cases op <;> rfl
  rw [happly]
  match a, b with
  | none, _ => exact ⟨.null, rfl, rfl⟩
  | some _, none => exact ⟨.null, rfl, rfl⟩
  | some x, some y => exact ⟨op.onInts x y, by cases op <;> rfl, gives_onInts op x y⟩

/-- A function of a whole cell gives the exact result, or a missing cell. -/
theorem exists_applyNumeric {f : Number → Value} {exact : Int → Int} {approximate : Float → Float}
    (hf : ∀ n : Int64, f (.int n) = exactOr (exact n.toInt) (approximate n.toFloat)) (a : Option Int64) :
    ∃ v, applyNumeric f (wholeCell a) = .ok v ∧ BecomesCell exact approximate a v := by
  cases a with
  | none => exact ⟨.null, rfl, rfl⟩
  | some n => exact ⟨f (.int n), rfl, hf n ▸ represents_exactOr _ _⟩

/-! ## Operands -/

/-- A whole number or nothing, or a series of them. -/
inductive Wholes where
  | single (cell : Option Int64)
  | series (cells : List (Option Int64))

namespace Wholes

/-- The cells as a script has them. -/
def operand : Wholes → Operand
  | single cell => .scalar (wholeCell cell)
  | series cells => .series (cells.map wholeCell)

/-- Two series are as long as each other. -/
def Matching : Wholes → Wholes → Prop
  | series as, series bs => as.length = bs.length
  | _, _ => True

end Wholes

/-- A result is made of two operands cell by cell, a single cell going with all cells of a series. -/
inductive Cellwise (R : Option Int64 → Option Int64 → Value → Prop) : Wholes → Wholes → Operand → Prop where
  | single {a b : Option Int64} {v : Value} (h : R a b v) : Cellwise R (.single a) (.single b) (.scalar v)
  | left {as : List (Option Int64)} {b : Option Int64} {vs : List Value}
    (h : List.Forall₂ (fun a v => R a b v) as vs) : Cellwise R (.series as) (.single b) (.series vs)
  | right {a : Option Int64} {bs : List (Option Int64)} {vs : List Value}
    (h : List.Forall₂ (fun b v => R a b v) bs vs) : Cellwise R (.single a) (.series bs) (.series vs)
  | both {as bs : List (Option Int64)} {vs : List Value} (hlength : as.length = bs.length)
    (h : List.Forall₂ (fun pair v => R pair.1 pair.2 v) (as.zip bs) vs) :
    Cellwise R (.series as) (.series bs) (.series vs)

/-- A result is made of one operand cell by cell. -/
inductive Mapped (R : Option Int64 → Value → Prop) : Wholes → Operand → Prop where
  | single {a : Option Int64} {v : Value} (h : R a v) : Mapped R (.single a) (.scalar v)
  | series {as : List (Option Int64)} {vs : List Value} (h : List.Forall₂ R as vs) :
    Mapped R (.series as) (.series vs)

/-- What never fails for a cell does not fail for a series. -/
theorem exists_mapM {α β γ : Type} {f : β → Eval γ} {g : α → β} {R : α → γ → Prop}
    (h : ∀ a, ∃ v, f (g a) = .ok v ∧ R a v) (as : List α) :
    ∃ vs, (as.map g).mapM f = .ok vs ∧ List.Forall₂ R as vs := by
  induction as with
  | nil => exact ⟨[], rfl, .nil⟩
  | cons a rest ih =>
    obtain ⟨v, hv, hR⟩ := h a
    obtain ⟨vs, hvs, hrest⟩ := ih
    refine ⟨v :: vs, ?_, .cons hR hrest⟩
    rw [List.map_cons, List.mapM_cons, hv, hvs]
    rfl

/-- On series and single values an operator works cell by cell, as it does on cells. -/
theorem exists_binary {op : BinaryOp} {R : Option Int64 → Option Int64 → Value → Prop}
    (h : ∀ a b, ∃ v, op.onValues (wholeCell a) (wholeCell b) = .ok v ∧ R a b v) {left right : Wholes}
    (hmatching : left.Matching right) :
    ∃ result, op.apply left.operand right.operand = .ok result ∧ Cellwise R left right result := by
  match left, right, hmatching with
  | .single a, .single b, _ =>
    obtain ⟨v, hv, hR⟩ := h a b
    exact ⟨.scalar v, by simp only [Wholes.operand, BinaryOp.apply, hv, Except.map], .single hR⟩
  | .series as, .single b, _ =>
    obtain ⟨vs, hvs, hR⟩ := exists_mapM (f := fun a => op.onValues a (wholeCell b)) (fun a => h a b) as
    exact ⟨.series vs, by simp only [Wholes.operand, BinaryOp.apply, hvs, Except.map], .left hR⟩
  | .single a, .series bs, _ =>
    obtain ⟨vs, hvs, hR⟩ := exists_mapM (f := op.onValues (wholeCell a)) (fun b => h a b) bs
    exact ⟨.series vs, by simp only [Wholes.operand, BinaryOp.apply, hvs, Except.map], .right hR⟩
  | .series as, .series bs, hlength =>
    obtain ⟨vs, hvs, hR⟩ := exists_mapM (g := Prod.map wholeCell wholeCell)
      (f := fun pair => op.onValues pair.1 pair.2) (fun pair => h pair.1 pair.2) (as.zip bs)
    refine ⟨.series vs, ?_, .both hlength hR⟩
    have hlengths : ¬ (as.map wholeCell).length ≠ (bs.map wholeCell).length := by
      simpa using (show as.length = bs.length from hlength)
    simp only [Wholes.operand, BinaryOp.apply, if_neg hlengths, Checked.zipCells_eq, List.zip_map, hvs,
      Except.map]

/-- So does a function of numbers. -/
theorem exists_mapNumeric {f : Number → Value} {exact : Int → Int} {approximate : Float → Float}
    (hf : ∀ n : Int64, f (.int n) = exactOr (exact n.toInt) (approximate n.toFloat)) (w : Wholes) :
    ∃ result, mapNumeric f w.operand = .ok result ∧ Mapped (BecomesCell exact approximate) w result := by
  cases w with
  | single a =>
    obtain ⟨v, hv, hcell⟩ := exists_applyNumeric hf a
    exact ⟨.scalar v, by simp only [Wholes.operand, mapNumeric, hv, Except.map], .single hcell⟩
  | series as =>
    obtain ⟨vs, hvs, hcells⟩ := exists_mapM (exists_applyNumeric hf) as
    exact ⟨.series vs, by simp only [Wholes.operand, mapNumeric, hvs, Except.map], .series hcells⟩

/-- Series of different lengths do not go together. -/
theorem apply_of_not_matching (op : BinaryOp) {left right : Wholes} (h : ¬ left.Matching right) :
    ∃ m n, m ≠ n ∧ op.apply left.operand right.operand = typeError (.seriesLengths m n) := by
  match left, right, h with
  | .series as, .series bs, h =>
    have hlengths : (as.map wholeCell).length ≠ (bs.map wholeCell).length := by
      simpa using (show as.length ≠ bs.length from h)
    refine ⟨_, _, hlengths, ?_⟩
    simp only [Wholes.operand, BinaryOp.apply, if_pos hlengths]
  | .single _, _, h => exact absurd trivial h
  | .series _, .single _, h => exact absurd trivial h

/-! ## Arithmetic -/

/-- Arithmetic on whole numbers is exact or gives a floating point number, cell by cell, and the machine
carries it out without a fault; so are the change of sign and the number without its sign. -/
theorem whole_arithmetic (op : ArithmeticOp) (left right : Wholes) :
    (left.Matching right ↔ ∃ result, op.operator.apply left.operand right.operand = .ok result) ∧
    (∀ result, op.operator.apply left.operand right.operand = .ok result →
      Checked.binary op.operator left.operand right.operand = pure result ∧
      Cellwise (fun a b v => op.GivesCell a b v ∧
        (v = .null ↔ a = none ∨ b = none ∨ (op = .div ∨ op = .mod) ∧ b = some 0)) left right result) ∧
    (∃ result, UnaryOp.neg.apply left.operand = .ok result ∧
      Mapped (BecomesCell (fun n => -n) (fun x => -x)) left result) ∧
    (∃ result, callFunction "abs" ⟨[left.operand], []⟩ = .ok result ∧
      Mapped (BecomesCell (fun n => |n|) Float.abs) left result) := by
  have hcells : ∀ a b, ∃ v, op.operator.onValues (wholeCell a) (wholeCell b) = .ok v ∧
      (op.GivesCell a b v ∧
        (v = .null ↔ a = none ∨ b = none ∨ (op = .div ∨ op = .mod) ∧ b = some 0)) := fun a b => by
    obtain ⟨v, hv, hgives⟩ := exists_onValues op a b
    exact ⟨v, hv, hgives, hgives.eq_null_iff⟩
  have hmatching : ∀ result, op.operator.apply left.operand right.operand = .ok result →
      left.Matching right := by
    intro result hresult
    by_contra h
    obtain ⟨m, n, -, herror⟩ := apply_of_not_matching op.operator h
    rw [hresult] at herror
    cases herror
  refine ⟨⟨fun h => ?_, fun ⟨result, hresult⟩ => hmatching result hresult⟩, fun result hresult => ?_, ?_, ?_⟩
  · obtain ⟨result, hresult, -⟩ := exists_binary hcells h
    exact ⟨result, hresult⟩
  · obtain ⟨made, hmade, hcellwise⟩ := exists_binary hcells (hmatching result hresult)
    obtain rfl : made = result := Except.ok.inj (hmade.symm.trans hresult)
    refine ⟨?_, hcellwise⟩
    rw [Checked.binary_eq, hmade]
    rfl
  · exact exists_mapNumeric (fun _ => rfl) left
  · refine exists_mapNumeric (f := Number.absolute) (fun n => ?_) left
    rw [Number.absolute, Int.natCast_natAbs]

/-- The remainder has the sign of the divisor, and none is left of the least number by minus one. -/
example : Checked.remainder (-7) 2 = pure (.int 1) ∧ Checked.remainder Int64.minValue (-1) = pure (.int 0) :=
  ⟨rfl, rfl⟩

end TableScript.Script
