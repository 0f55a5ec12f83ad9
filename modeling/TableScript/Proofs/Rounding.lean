import TableScript.Proofs.Binary
import TableScript.Decimal.Reading

/-!
# Rounding to the nearest

Which decimals read as a floating point number? Those in the interval around it that `RoundsTo`
describes, whose ends belong to it when the mantissa is even. The arithmetic of floating point
numbers keeps, with a mantissa, a round bit and a sticky bit; `Represents` says which number of
units of the last place they stand for. From there on rounding is about rational numbers:
`roundWithAccuracy_eq` finds the canonical number in whose interval the exact result lies, and
`ofScientific_eq` follows for both ways on which a decimal is turned into a floating point number.
-/

namespace TableScript.Decimal

open Float.Model Float.Model.UnpackedFloat

/-! ## Nearest natural numbers -/

/-- The natural number is a nearest one to the rational, and the even one of two. -/
structure IsNearest (r : ℚ) (n : ℕ) : Prop where
  low : (n : ℚ) - 1 / 2 ≤ r
  high : r ≤ n + 1 / 2
  even : r = n - 1 / 2 ∨ r = n + 1 / 2 → n % 2 = 0

/-- There is one nearest whole number at most, since ties go to the even one. -/
theorem IsNearest.unique {r : ℚ} {a b : ℕ} (ha : IsNearest r a) (hb : IsNearest r b) : a = b := by
  have hnext : ∀ {a b : ℕ}, IsNearest r a → IsNearest r b → ¬ a < b := by
    intro a b ha hb hlt
    have hle : (a : ℚ) + 1 ≤ b := by exact_mod_cast hlt
    have hlow := hb.low
    have hhigh := ha.high
    -- The two are neighbours and the number lies in the middle, so both would be even.
    have heq : (b : ℚ) = a + 1 := by linarith
    have hab : b = a + 1 := by exact_mod_cast heq
    have hea := ha.even (Or.inr (by linarith))
    have heb := hb.even (Or.inl (by linarith))
    omega
  have := hnext ha hb
  have := hnext hb ha
  omega

/-- The mantissa with its two bits stands for the rational: doubled, the rational has the mantissa
with the round bit as its whole part, and the sticky bit says that it has another part. -/
structure Represents (em : ExtendedMantissa) (r : ℚ) : Prop where
  low : ((2 * em.mantissa + em.roundBit.toNat : ℕ) : ℚ) ≤ 2 * r
  high : 2 * r < (2 * em.mantissa + em.roundBit.toNat : ℕ) + 1
  sticky : em.stickyBit = true ↔ 2 * r ≠ (2 * em.mantissa + em.roundBit.toNat : ℕ)

namespace Represents

variable {em : ExtendedMantissa} {r : ℚ}

/-- A mantissa with nothing behind it represents itself. -/
theorem exact (m : ℕ) : Represents (.ofMantissaAndAccuracy m .exact) m := by
  constructor <;> simp [ExtendedMantissa.ofMantissaAndAccuracy]

/-- A quotient is represented by its whole part and the comparison of twice the rest with the
divisor. -/
theorem quotient (a : ℕ) {b : ℕ} (hb : 0 < b) :
    Represents (.ofMantissaAndAccuracy (a / b) (accuracyOfFraction (a % b) b)) (a / b : ℚ) := by
  have hb' : (0 : ℚ) < b := by exact_mod_cast hb
  have hdiv : (a : ℚ) = b * (a / b : ℕ) + (a % b : ℕ) := by
    exact_mod_cast (Nat.div_add_mod a b).symm
  have hratio : (a : ℚ) / b = (a / b : ℕ) + (a % b : ℕ) / b := by
    rw [hdiv, add_div, mul_div_cancel_left₀ _ hb'.ne']
  have hlt : ((a % b : ℕ) : ℚ) / b < 1 := by
    rw [div_lt_one hb']
    exact_mod_cast Nat.mod_lt a hb
  rw [hratio]
  unfold accuracyOfFraction
  by_cases hzero : a % b = 0
  · rw [if_pos hzero, hzero, Nat.cast_zero, zero_div, add_zero]
    exact .exact _
  · have hpos : (0 : ℚ) < (a % b : ℕ) / b :=
      div_pos (by exact_mod_cast Nat.pos_of_ne_zero hzero) hb'
    rw [if_neg hzero]
    -- The bits are read off the comparison of twice the rest with the divisor.
    rcases lt_trichotomy (2 * (a % b)) b with hless | hequal | hgreater
    · have hhalf : 2 * (((a % b : ℕ) : ℚ) / b) < 1 := by
        rw [← mul_div_assoc, div_lt_one hb']
        exact_mod_cast hless
      rw [Nat.compare_eq_lt.mpr hless]
      refine ⟨?_, ?_, ?_⟩ <;> simp [ExtendedMantissa.ofMantissaAndAccuracy]
      · linarith
      · linarith
      · exact ⟨hzero, hb.ne'⟩
    · have hhalf : 2 * (((a % b : ℕ) : ℚ) / b) = 1 := by
        rw [← mul_div_assoc, div_eq_one_iff_eq hb'.ne']
        exact_mod_cast hequal
      rw [Nat.compare_eq_eq.mpr hequal]
      constructor <;> simp [ExtendedMantissa.ofMantissaAndAccuracy] <;> linarith
    · have hhalf : 1 < 2 * (((a % b : ℕ) : ℚ) / b) := by
        rw [← mul_div_assoc, one_lt_div hb']
        exact_mod_cast hgreater
      rw [Nat.compare_eq_gt.mpr hgreater]
      constructor <;> simp [ExtendedMantissa.ofMantissaAndAccuracy] <;> linarith

/-- Shifting by one place halves the number. -/
theorem shiftRightOne (h : Represents em r) : Represents em.shiftRightOne (r / 2) := by
  obtain ⟨hlow, hhigh, hsticky⟩ := h
  obtain ⟨m, roundBit, stickyBit⟩ := em
  have hm : 2 * (m / 2) + (m % 2 != 0).toNat = m := by
    have := Nat.mod_two_eq_zero_or_one m
    rcases this with h | h <;> rw [h] <;> simp <;> omega
  have hhalf : 2 * (r / 2) = r := by ring
  unfold ExtendedMantissa.shiftRightOne
  constructor <;> dsimp only <;> rw [hm, hhalf]
  · cases roundBit <;> simp at hlow <;> linarith
  · cases roundBit <;> simp at hhigh <;> linarith
  · cases roundBit <;> cases stickyBit <;> simp at hlow hhigh hsticky ⊢
    · exact hsticky
    · exact hsticky
    · intro heq
      linarith
    · intro heq
      linarith

/-- The mantissa is below the number. -/
theorem mantissa_le (h : Represents em r) : (em.mantissa : ℚ) ≤ r := by
  have hlow := h.low
  push_cast at hlow
  have : (0 : ℚ) ≤ em.roundBit.toNat := Nat.cast_nonneg _
  linarith

/-- The number is below the next mantissa. -/
theorem lt_mantissa (h : Represents em r) : r < em.mantissa + 1 := by
  have hhigh := h.high
  have hbit : (em.roundBit.toNat : ℚ) ≤ 1 := by exact_mod_cast Bool.toNat_le em.roundBit
  push_cast at hhigh
  linarith

/-- Shifting by places halves the number as often. -/
theorem shiftRight (h : Represents em r) (n : ℕ) : Represents (em >>> n) (r / 2 ^ n) := by
  change Represents (n.repeat ExtendedMantissa.shiftRightOne em) _
  induction n with
  | zero => simpa [Nat.repeat] using h
  | succ n ih =>
    rw [Nat.repeat, pow_succ, ← div_div]
    exact ih.shiftRightOne

/-- The rounded mantissa is the nearest number of units. -/
theorem isNearest (h : Represents em r) : IsNearest r em.roundedMantissa := by
  obtain ⟨hlow, hhigh, hsticky⟩ := h
  obtain ⟨m, roundBit, stickyBit⟩ := em
  unfold ExtendedMantissa.roundedMantissa ExtendedMantissa.accuracy
  cases roundBit <;> cases stickyBit <;> simp at hlow hhigh hsticky <;>
    simp only [Accuracy.roundToNearestEven]
  · refine ⟨by linarith, by linarith, ?_⟩
    rintro (h | h) <;> linarith
  · have hlt : (m : ℚ) < r := lt_of_le_of_ne hlow (Ne.symm hsticky)
    refine ⟨by linarith, by linarith, ?_⟩
    rintro (h | h) <;> linarith
  · rcases Nat.mod_two_eq_zero_or_one m with hm | hm <;> rw [hm]
    · exact ⟨by push_cast; linarith, by push_cast; linarith, fun _ => by omega⟩
    · exact ⟨by push_cast; linarith, by push_cast; linarith, fun _ => by omega⟩
  · have hlt : 2 * (m : ℚ) + 1 < 2 * r := lt_of_le_of_ne hlow (Ne.symm hsticky)
    refine ⟨by push_cast; linarith, by push_cast; linarith, ?_⟩
    push_cast
    rintro (h | h) <;> linarith

end Represents

/-! ## The interval around a number -/

/-- How far the interval around a number reaches below it, in quarters of the unit of its last
place. Below a power of two the numbers lie closer. -/
def reach (m : ℕ) (e : ℤ) : ℕ := if m = 2 ^ 52 ∧ e ≠ -1074 then 1 else 2

/-- The rational rounds to `m · 2 ^ e`. -/
structure RoundsTo (q : ℚ) (m : ℕ) (e : ℤ) : Prop where
  low : (m : ℚ) - reach m e / 4 ≤ q / 2 ^ e
  high : q / 2 ^ e ≤ m + 1 / 2
  even : q / 2 ^ e = m - reach m e / 4 ∨ q / 2 ^ e = m + 1 / 2 → m % 2 = 0

/-- The interval around a number reaches half a unit of its last place below it, at most. -/
theorem reach_le (m : ℕ) (e : ℤ) : (reach m e : ℚ) ≤ 2 := by
  unfold reach
  split <;> norm_num

/-- Powers of two are positive. -/
theorem two_zpow_pos (e : ℤ) : (0 : ℚ) < 2 ^ e := zpow_pos two_pos e

/-- Powers of two are in the order of their exponents. -/
theorem lt_of_two_zpow_lt {i j : ℤ} (h : (2 : ℚ) ^ i < 2 ^ j) : i < j :=
  (zpow_lt_zpow_iff_right₀ one_lt_two).mp h

/-- A number rounds to itself. -/
theorem RoundsTo.self (m : ℕ) (e : ℤ) : RoundsTo (m * 2 ^ e) m e := by
  have hpos := two_zpow_pos e
  have hdiv : (m : ℚ) * 2 ^ e / 2 ^ e = m := mul_div_cancel_right₀ _ hpos.ne'
  have hreach : (0 : ℚ) < reach m e := by
    unfold reach
    split <;> norm_num
  constructor <;> rw [hdiv]
  · linarith
  · linarith
  · rintro (h | h) <;> linarith

/-- In units of the last place, the number is the nearest one, if not only what lies below a power
of two counts. -/
theorem RoundsTo.isNearest {q : ℚ} {m : ℕ} {e : ℤ} (h : RoundsTo q m e)
    (hlow : reach m e = 2 ∨ (m : ℚ) ≤ q / 2 ^ e) : IsNearest (q / 2 ^ e) m := by
  have hreach := h.low
  have heven := h.even
  rcases hlow with htwo | hle
  · rw [htwo] at hreach heven
    refine ⟨by push_cast at hreach; linarith, h.high, fun heq => heven ?_⟩
    push_cast
    rcases heq with heq | heq
    · exact Or.inl (by linarith)
    · exact Or.inr heq
  · refine ⟨by linarith, h.high, fun heq => heven (Or.inr ?_)⟩
    rcases heq with heq | heq
    · linarith
    · exact heq

/-- From the power of two of its leading bit on, the number is the nearest one. -/
theorem RoundsTo.isNearest_of_le {q : ℚ} {m : ℕ} {e : ℤ} (h : RoundsTo q m e)
    (hle : (2 : ℚ) ^ (52 + e) ≤ q) : IsNearest (q / 2 ^ e) m := by
  refine h.isNearest ?_
  unfold reach
  split
  case isTrue hpower =>
    right
    rw [hpower.1, le_div_iff₀ (two_zpow_pos e)]
    rw [zpow_add₀ two_ne_zero] at hle
    exact_mod_cast hle
  case isFalse => exact Or.inl rfl

/-- What rounds up to a power of two from below is at most a quarter of its unit away. -/
theorem RoundsTo.below_power {q : ℚ} {m : ℕ} {e : ℤ} (h : RoundsTo q m e) (hm : 2 ^ 52 ≤ m)
    (hnormal : e ≠ -1074) (hbelow : q < 2 ^ (52 + e)) :
    m = 2 ^ 52 ∧ (2 : ℚ) ^ 52 - 1 / 4 ≤ q / 2 ^ e ∧ q / 2 ^ e < 2 ^ 52 := by
  have hquotient : q / 2 ^ e < 2 ^ 52 := by
    rw [zpow_add₀ two_ne_zero, ← div_lt_iff₀ (two_zpow_pos e)] at hbelow
    exact_mod_cast hbelow
  have hlow := h.low
  have hpower : m = 2 ^ 52 := by
    by_contra hne
    have hreach : reach m e = 2 := by rw [reach, if_neg (by tauto)]
    have hlarge : (2 : ℚ) ^ 52 + 1 ≤ m := by exact_mod_cast (by omega : 2 ^ 52 + 1 ≤ m)
    rw [hreach] at hlow
    push_cast at hlow
    linarith
  refine ⟨hpower, ?_, hquotient⟩
  rw [reach, if_pos ⟨hpower, hnormal⟩, hpower] at hlow
  exact_mod_cast hlow

/-- What rounds to a number is less than the next power of two but one. -/
theorem RoundsTo.lt {q : ℚ} {m : ℕ} {e : ℤ} (h : RoundsTo q m e) (hc : Canonical m e) :
    q < 2 ^ (53 + e) := by
  have hpos := two_zpow_pos e
  have hm : (m : ℚ) + 1 ≤ 2 ^ 53 := by exact_mod_cast hc.lt
  have hhigh := h.high
  rw [zpow_add₀ two_ne_zero, ← div_lt_iff₀ hpos]
  have : ((2 : ℚ) ^ (53 : ℤ)) = 2 ^ 53 := by norm_cast
  rw [this]
  linarith

/-! ## Rounding -/

/-- The exponent to round to leaves 53 bits, but is not below the least. -/
theorem targetExponent_eq (total : ℤ) :
    Format.binary64.targetExponent total = max (total - 53) (-1074) := by
  unfold Format.targetExponent Format.minExponent Format.mantissaBits
  norm_num

/-- So it is for a mantissa with an exponent, in which the leading bit counts. -/
theorem targetExponent_totalExponent (m : ℕ) (e : ℤ) :
    Format.binary64.targetExponent (totalExponent m e) = max (m.log2 + e - 52) (-1074) := by
  rw [targetExponent_eq, totalExponent]
  congr 1
  omega

section

variable {m : ℕ} {e : ℤ} {q : ℚ} {mantissa : ℕ} {exponent : ℤ} {accuracy : Accuracy}

/-- An extended mantissa has the mantissa it was made of. -/
theorem mantissa_ofMantissaAndAccuracy (mantissa : ℕ) (accuracy : Accuracy) :
    (ExtendedMantissa.ofMantissaAndAccuracy mantissa accuracy).mantissa = mantissa := by
  rcases accuracy with _ | (_ | _ | _) <;> rfl

/-- The exact result is less than the power of two after the leading bit of its mantissa. -/
theorem lt_two_zpow_of_represents
    (hrep : Represents (.ofMantissaAndAccuracy mantissa accuracy) (q / 2 ^ exponent)) :
    q < 2 ^ (mantissa.log2 + 1 + exponent) := by
  have hlt := hrep.lt_mantissa
  rw [mantissa_ofMantissaAndAccuracy, div_lt_iff₀ (two_zpow_pos exponent)] at hlt
  have hlog : (mantissa : ℚ) + 1 ≤ 2 ^ (mantissa.log2 + 1) := by exact_mod_cast Nat.lt_log2_self
  calc q < (mantissa + 1) * 2 ^ exponent := hlt
    _ ≤ 2 ^ (mantissa.log2 + 1) * 2 ^ exponent := by gcongr
    _ = 2 ^ ((mantissa.log2 : ℤ) + 1 + exponent) := by
      rw [zpow_add₀ two_ne_zero]
      norm_cast

/-- Unless its mantissa is zero, the exact result is at least the power of two of the leading bit. -/
theorem two_zpow_le_of_represents
    (hrep : Represents (.ofMantissaAndAccuracy mantissa accuracy) (q / 2 ^ exponent))
    (hne : mantissa ≠ 0) : (2 : ℚ) ^ (mantissa.log2 + exponent) ≤ q := by
  have hle := hrep.mantissa_le
  rw [mantissa_ofMantissaAndAccuracy, le_div_iff₀ (two_zpow_pos exponent)] at hle
  have hlog : (2 : ℚ) ^ mantissa.log2 ≤ mantissa := by exact_mod_cast Nat.log2_self_le hne
  calc (2 : ℚ) ^ (mantissa.log2 + exponent) = 2 ^ mantissa.log2 * 2 ^ exponent := by
        rw [zpow_add₀ two_ne_zero]
        norm_cast
    _ ≤ mantissa * 2 ^ exponent := by gcongr
    _ ≤ q := hle

/-- With enough bits, the first shift brings the exact result to the place at which it is rounded:
that of the number it rounds to, or the next one if it lies just below a power of two. -/
theorem target_of_roundsTo (hc : Canonical m e) (hq : RoundsTo q m e)
    (hrep : Represents (.ofMantissaAndAccuracy mantissa accuracy) (q / 2 ^ exponent))
    (hfull : 2 ^ 52 ≤ mantissa ∨ exponent ≤ -1074) {t : ℤ}
    (ht : t = max (mantissa.log2 + exponent - 52) (-1074)) :
    (t = e ∧ IsNearest (q / 2 ^ t) m) ∨
      (m = 2 ^ 52 ∧ t = e - 1 ∧ IsNearest (q / 2 ^ t) (2 ^ 53)) := by
  have hleast := hc.least
  have hless := lt_two_zpow_of_represents hrep
  have hlead := two_zpow_le_of_represents hrep
  have hzero : mantissa = 0 → (mantissa.log2 : ℤ) + exponent - 52 < -1074 := by
    rintro rfl
    rw [Nat.log2_zero]
    omega
  -- The place is not above the unit of the number that the result rounds to.
  have hle : t ≤ e := by
    by_cases hne : mantissa = 0
    · have := hzero hne
      omega
    · have := lt_of_two_zpow_lt ((hlead hne).trans_lt (hq.lt hc))
      omega
  by_cases hnormal : e = -1074
  · have hte : t = e := by omega
    refine Or.inl ⟨hte, hte ▸ hq.isNearest (Or.inl ?_)⟩
    rw [reach, if_neg (by omega)]
  · have hm : 2 ^ 52 ≤ m := hc.full.resolve_right hnormal
    by_cases hbelow : (2 : ℚ) ^ (52 + e) ≤ q
    · have := lt_of_two_zpow_lt (hbelow.trans_lt hless)
      have hte : t = e := by omega
      exact Or.inl ⟨hte, hte ▸ hq.isNearest_of_le hbelow⟩
    · -- Below the power of two the unit is half as large.
      rw [not_le] at hbelow
      obtain ⟨hpower, hlow, hhigh⟩ := hq.below_power hm hnormal hbelow
      have hlower : (2 : ℚ) ^ (51 + e) ≤ q := by
        rw [zpow_add₀ two_ne_zero, ← le_div_iff₀ (two_zpow_pos e)]
        have : (2 : ℚ) ^ (51 : ℤ) = 2 ^ 51 := by norm_cast
        rw [this]
        linarith
      have hge := lt_of_two_zpow_lt (hlower.trans_lt hless)
      have hne : mantissa ≠ 0 := by
        intro h
        have := hzero h
        omega
      have hlt := lt_of_two_zpow_lt ((hlead hne).trans_lt hbelow)
      have hte : t = e - 1 := by omega
      have hhalf : q / 2 ^ (e - 1) = 2 * (q / 2 ^ e) := by
        rw [zpow_sub_one₀ two_ne_zero, ← div_eq_mul_inv, div_div_eq_mul_div, mul_comm,
          mul_div_assoc]
      refine Or.inr ⟨hpower, hte, ?_⟩
      rw [hte, hhalf]
      exact ⟨by push_cast; linarith, by push_cast; linarith, fun _ => by decide⟩

/-- Shifting to a place above leaves the exact result represented there. -/
theorem shiftToExponent_eq {t : ℤ} (hle : exponent ≤ t)
    (hrep : Represents (.ofMantissaAndAccuracy mantissa accuracy) (q / 2 ^ exponent)) :
    ∃ em, shiftToExponent mantissa exponent accuracy t = (em, t) ∧ Represents em (q / 2 ^ t) := by
  refine ⟨_, Prod.ext rfl ?_, ?_⟩
  · change exponent + ((t - exponent).toNat : ℤ) = t
    omega
  · have hshift := hrep.shiftRight (t - exponent).toNat
    have hpow : (2 : ℚ) ^ t = 2 ^ exponent * 2 ^ (t - exponent).toNat := by
      rw [← zpow_natCast, ← zpow_add₀ two_ne_zero]
      congr 1
      omega
    rw [div_div, ← hpow] at hshift
    exact hshift

/-- A canonical number keeps its place. -/
theorem shift_canonical (hc : Canonical m e) :
    shiftToTargetExponent .binary64 m e .exact = (.ofMantissaAndAccuracy m .exact, e) := by
  have hleast := hc.least
  have htarget : max ((m.log2 : ℤ) + e - 52) (-1074) = e := by
    by_cases hfull : 2 ^ 52 ≤ m
    · rw [hc.log2 hfull]
      omega
    · have hlog : m.log2 < 52 := (Nat.log2_lt (Nat.ne_of_gt hc.pos)).mpr (by omega)
      have := hc.full.resolve_left hfull
      omega
  rw [shiftToTargetExponent, targetExponent_totalExponent, htarget]
  unfold shiftToExponent
  rw [Int.sub_self]
  exact Prod.ext rfl (Int.add_zero e)

/-- A mantissa that rounding has made one bit too long is halved. -/
theorem shift_overflow (he : -1074 ≤ e) :
    shiftToTargetExponent .binary64 (2 ^ 53) (e - 1) .exact =
      (.ofMantissaAndAccuracy (2 ^ 52) .exact, e) := by
  have htarget : max (((2 ^ 53 : ℕ).log2 : ℤ) + (e - 1) - 52) (-1074) = e := by
    rw [Nat.log2_two_pow]
    omega
  have hone : (e - (e - 1)).toNat = 1 := by omega
  rw [shiftToTargetExponent, targetExponent_totalExponent, htarget]
  unfold shiftToExponent
  rw [hone]
  exact Prod.ext rfl (by change e - 1 + 1 = e; omega)

/-- An exact result, given by a mantissa with two more bits, is rounded to the number in whose
interval it lies. -/
theorem roundWithAccuracy_eq (s : Sign) (hc : Canonical m e) (hq : RoundsTo q m e)
    (hrep : Represents (.ofMantissaAndAccuracy mantissa accuracy) (q / 2 ^ exponent))
    (hfull : 2 ^ 52 ≤ mantissa ∨ exponent ≤ -1074) :
    roundWithAccuracy .binary64 s mantissa exponent accuracy = .finite s m e hc.pos := by
  obtain ⟨t, ht⟩ : ∃ t, t = max ((mantissa.log2 : ℤ) + exponent - 52) (-1074) := ⟨_, rfl⟩
  have hle : exponent ≤ t := by
    rcases hfull with h | h
    · have := (Nat.le_log2 (by omega)).mpr h
      omega
    · omega
  obtain ⟨em, hem, hrounded⟩ := shiftToExponent_eq hle hrep
  have hfirst : shiftToTargetExponent .binary64 mantissa exponent accuracy = (em, t) := by
    rw [shiftToTargetExponent, targetExponent_totalExponent, ← ht, hem]
  -- In both cases the second shift ends at the mantissa and the exponent of the number.
  have hsecond : shiftToTargetExponent .binary64 em.roundedMantissa t .exact =
      (.ofMantissaAndAccuracy m .exact, e) := by
    rcases target_of_roundsTo hc hq hrep hfull ht with ⟨hte, hm⟩ | ⟨hpower, hte, hm⟩
    · rw [hrounded.isNearest.unique hm, hte, shift_canonical hc]
    · rw [hrounded.isNearest.unique hm, hte, hpower, shift_overflow hc.least]
  unfold roundWithAccuracy
  rw [hfirst]
  dsimp only
  rw [hsecond]
  exact dif_neg (Nat.ne_of_gt hc.pos)

end

/-! ## Decimals -/

/-- A product rounds to the number in whose interval the exact product lies. -/
theorem mul_eq (s₁ s₂ : Sign) {m₁ m₂ m : ℕ} {e₁ e₂ e : ℤ} (hm₁ : 0 < m₁) (hm₂ : 0 < m₂)
    (hc : Canonical m e) (hq : RoundsTo ((m₁ * 2 ^ e₁) * (m₂ * 2 ^ e₂)) m e)
    (hfull : 2 ^ 52 ≤ m₁ * m₂) :
    UnpackedFloat.mul .binary64 (.finite s₁ m₁ e₁ hm₁) (.finite s₂ m₂ e₂ hm₂) =
      .finite (s₁ * s₂) m e hc.pos := by
  refine roundWithAccuracy_eq _ hc hq ?_ (Or.inl hfull)
  have hquotient : (m₁ * 2 ^ e₁ : ℚ) * (m₂ * 2 ^ e₂) / 2 ^ (e₁ + e₂) = (m₁ * m₂ : ℕ) := by
    rw [zpow_add₀ two_ne_zero, Nat.cast_mul]
    field_simp
  rw [hquotient]
  exact .exact _

/-- A quotient rounds to the number in whose interval the exact quotient lies. -/
theorem div_eq (s₁ s₂ : Sign) {m₁ m₂ m : ℕ} {e₁ e₂ e : ℤ} (hm₁ : 0 < m₁) (hm₂ : 0 < m₂)
    (hc : Canonical m e) (hq : RoundsTo ((m₁ * 2 ^ e₁) / (m₂ * 2 ^ e₂)) m e) :
    UnpackedFloat.div .binary64 (.finite s₁ m₁ e₁ hm₁) (.finite s₂ m₂ e₂ hm₂) =
      .finite (s₁ / s₂) m e hc.pos := by
  obtain ⟨t, ht⟩ : ∃ t, t = min (e₁ - e₂)
      (max (totalExponent m₁ e₁ - totalExponent m₂ e₂ - 53) (-1074)) :=
    ⟨_, rfl⟩
  have hcore : divCore .binary64 m₁ e₁ m₂ e₂ =
      (m₁ * 2 ^ (e₁ - e₂ - t).toNat / m₂, t,
        accuracyOfFraction (m₁ * 2 ^ (e₁ - e₂ - t).toNat % m₂) m₂) := by
    unfold divCore
    simp only [targetExponent_eq, ← ht, Nat.shiftLeft_eq]
  have hquotient : (m₁ * 2 ^ e₁ : ℚ) / (m₂ * 2 ^ e₂) / 2 ^ t =
      (m₁ * 2 ^ (e₁ - e₂ - t).toNat : ℕ) / m₂ := by
    have hpow : (2 : ℚ) ^ e₁ = 2 ^ (e₁ - e₂ - t).toNat * 2 ^ e₂ * 2 ^ t := by
      rw [← zpow_natCast, ← zpow_add₀ two_ne_zero, ← zpow_add₀ two_ne_zero]
      congr 1
      omega
    rw [hpow, Nat.cast_mul, Nat.cast_pow]
    field_simp
    push_cast
    ring
  -- The dividend has been shifted far enough for a full mantissa, or down to the least place.
  have hfull : 2 ^ 52 ≤ m₁ * 2 ^ (e₁ - e₂ - t).toNat / m₂ ∨ t ≤ -1074 := by
    by_cases hlow : t ≤ -1074
    · exact Or.inr hlow
    · left
      have hshift : m₂.log2 + 53 ≤ m₁.log2 + (e₁ - e₂ - t).toNat := by
        unfold totalExponent at ht
        omega
      rw [Nat.le_div_iff_mul_le hm₂]
      calc 2 ^ 52 * m₂ ≤ 2 ^ 52 * 2 ^ (m₂.log2 + 1) := Nat.mul_le_mul_left _ Nat.lt_log2_self.le
        _ = 2 ^ (m₂.log2 + 53) := by rw [← pow_add]; congr 1; omega
        _ ≤ 2 ^ (m₁.log2 + (e₁ - e₂ - t).toNat) := Nat.pow_le_pow_right two_pos hshift
        _ = 2 ^ m₁.log2 * 2 ^ (e₁ - e₂ - t).toNat := pow_add _ _ _
        _ ≤ m₁ * 2 ^ (e₁ - e₂ - t).toNat := Nat.mul_le_mul_right _ (Nat.log2_self_le hm₁.ne')
  unfold UnpackedFloat.div
  simp only [hcore]
  refine roundWithAccuracy_eq _ hc hq ?_ hfull
  rw [hquotient]
  exact .quotient _ hm₂

/-! ### Whole numbers and powers of ten -/

/-- The canonical form of a whole number of at most 53 bits. -/
theorem canonical_nat {n : ℕ} (hpos : 0 < n) (hlt : n < 2 ^ 53) :
    Canonical (n * 2 ^ (52 - n.log2)) (n.log2 - 52) := by
  have hlog : n.log2 ≤ 52 := by
    have := (Nat.log2_lt hpos.ne').mpr hlt
    omega
  have hlow : 2 ^ 52 ≤ n * 2 ^ (52 - n.log2) := by
    calc 2 ^ 52 = 2 ^ n.log2 * 2 ^ (52 - n.log2) := by rw [← pow_add]; congr 1; omega
      _ ≤ n * 2 ^ (52 - n.log2) := Nat.mul_le_mul_right _ (Nat.log2_self_le hpos.ne')
  have hhigh : n * 2 ^ (52 - n.log2) < 2 ^ 53 := by
    calc n * 2 ^ (52 - n.log2) < 2 ^ (n.log2 + 1) * 2 ^ (52 - n.log2) :=
          Nat.mul_lt_mul_of_pos_right Nat.lt_log2_self (by positivity)
      _ = 2 ^ 53 := by rw [← pow_add]; congr 1; omega
  exact ⟨by positivity, hhigh, by omega, by omega, Or.inl hlow⟩

/-- A natural number with its leading bit shifted to the top has the same value. -/
theorem value_nat {n : ℕ} (hpos : 0 < n) (hlt : n < 2 ^ 53) :
    ((n * 2 ^ (52 - n.log2) : ℕ) : ℚ) * 2 ^ ((n.log2 : ℤ) - 52) = n := by
  have hlog : n.log2 ≤ 52 := by
    have := (Nat.log2_lt hpos.ne').mpr hlt
    omega
  have hexp : ((n.log2 : ℤ) - 52) = -((52 - n.log2 : ℕ) : ℤ) := by omega
  rw [hexp, zpow_neg, zpow_natCast, Nat.cast_mul, Nat.cast_pow, Nat.cast_two]
  field_simp

/-- Whole numbers of at most 53 bits are taken over exactly. -/
theorem toFloat_eq {n : ℕ} (hpos : 0 < n) (hlt : n < 2 ^ 53) :
    n.toUInt64.toFloat = ofParts .positive (.finite (n * 2 ^ (52 - n.log2)) (n.log2 - 52)) := by
  have hc := canonical_nat hpos hlt
  have hlog : n.log2 ≤ 52 := by
    have := (Nat.log2_lt hpos.ne').mpr hlt
    omega
  have hword : (n.toUInt64.toNat : ℤ) = n := by
    have : n.toUInt64.toNat = n := by
      change n % 2 ^ 64 = n
      omega
    rw [this]
  have hdecrease : decreaseExponent n 0 ((n.log2 : ℤ) - 52) =
      (n * 2 ^ (52 - n.log2), (n.log2 : ℤ) - 52) := by
    unfold decreaseExponent
    have : (0 - ((n.log2 : ℤ) - 52)).toNat = 52 - n.log2 := by omega
    rw [this]
    exact Prod.ext (Nat.shiftLeft_eq _ _) (by dsimp only; omega)
  have htarget : Format.binary64.targetExponent (totalExponent n 0) = (n.log2 : ℤ) - 52 := by
    rw [targetExponent_totalExponent]
    omega
  have hround : UnpackedFloat.ofUInt64 .binary64 n.toUInt64 =
      .finite .positive (n * 2 ^ (52 - n.log2)) (n.log2 - 52) hc.pos := by
    change UnpackedFloat.normalize .binary64 (n.toUInt64.toNat : ℤ) 0 .positive = _
    have hcompare : compare (n : ℤ) 0 = .gt := by
      rw [Int.compare_eq_gt]
      exact_mod_cast hpos
    rw [hword, UnpackedFloat.normalize, hcompare]
    dsimp only
    rw [Int.toNat_natCast, UnpackedFloat.round, htarget, hdecrease]
    refine roundWithAccuracy_eq _ hc (.self _ _) ?_ (Or.inl (hc.full.resolve_right (by omega)))
    rw [mul_div_cancel_right₀ _ (two_zpow_pos _).ne']
    exact .exact _
  rw [ofParts_finite _ hc.pos, ← hround]
  rfl

/-- The product of two numbers is the rounded product, with the product of their signs. -/
theorem ofParts_mul {s₁ s₂ : Sign} {m₁ m₂ m : ℕ} {e₁ e₂ e : ℤ} (h₁ : Canonical m₁ e₁)
    (h₂ : Canonical m₂ e₂) (hc : Canonical m e) (hq : RoundsTo ((m₁ * 2 ^ e₁) * (m₂ * 2 ^ e₂)) m e)
    (hfull : 2 ^ 52 ≤ m₁) :
    ofParts s₁ (.finite m₁ e₁) * ofParts s₂ (.finite m₂ e₂) = ofParts (s₁ * s₂) (.finite m e) := by
  have hlong : 2 ^ 52 ≤ m₁ * m₂ := hfull.trans (Nat.le_mul_of_pos_right _ h₂.pos)
  change Float.ofModel (Float.Model.pack (UnpackedFloat.mul .binary64
    (ofParts s₁ (.finite m₁ e₁)).toModel.unpack (ofParts s₂ (.finite m₂ e₂)).toModel.unpack)) = _
  rw [unpack_ofParts s₁ h₁, unpack_ofParts s₂ h₂, mul_eq s₁ s₂ h₁.pos h₂.pos hc hq hlong,
    ofParts_finite _ hc.pos]

/-- The quotient of two numbers is the rounded quotient, with the quotient of their signs. -/
theorem ofParts_div {s₁ s₂ : Sign} {m₁ m₂ m : ℕ} {e₁ e₂ e : ℤ} (h₁ : Canonical m₁ e₁)
    (h₂ : Canonical m₂ e₂) (hc : Canonical m e) (hq : RoundsTo ((m₁ * 2 ^ e₁) / (m₂ * 2 ^ e₂)) m e)
    :
    ofParts s₁ (.finite m₁ e₁) / ofParts s₂ (.finite m₂ e₂) = ofParts (s₁ / s₂) (.finite m e) := by
  change Float.ofModel (Float.Model.pack (UnpackedFloat.div .binary64
    (ofParts s₁ (.finite m₁ e₁)).toModel.unpack (ofParts s₂ (.finite m₂ e₂)).toModel.unpack)) = _
  rw [unpack_ofParts s₁ h₁, unpack_ofParts s₂ h₂, div_eq s₁ s₂ h₁.pos h₂.pos hc hq,
    ofParts_finite _ hc.pos]

/-- The number is that power of ten, as its sign, its mantissa and its exponent show. -/
def isPowerOfTen (x : Float) (k : ℕ) : Bool :=
  match magnitude x with
  | .finite m e => !isNegative x && decide (2 ^ 52 ≤ m ∧ m < 2 ^ 53 ∧ -52 ≤ e ∧ e ≤ 971 ∧
      m * 2 ^ (e + 52).toNat = 10 ^ k * 2 ^ 52)
  | _ => false

/-- The table has the powers of ten. -/
theorem isPowerOfTen_table :
    ∀ k : Fin 23, isPowerOfTen Float.exactlyRepresentablePowersOfTen[k] k = true := by
  decide +kernel

/-- An entry of the table is a positive number with that value. -/
theorem parts_of_isPowerOfTen {x : Float} {k : ℕ} (h : isPowerOfTen x k = true) :
    ∃ m e, Canonical m e ∧ x = ofParts .positive (.finite m e) ∧ (m : ℚ) * 2 ^ e = 10 ^ k := by
  unfold isPowerOfTen at h
  split at h
  case h_1 m e hmagnitude =>
    simp only [Bool.and_eq_true, Bool.not_eq_true', decide_eq_true_eq] at h
    obtain ⟨hsign, hfull, hlt, hleast, hgreatest, hvalue⟩ := h
    refine ⟨m, e, ⟨by omega, hlt, by omega, hgreatest, Or.inl hfull⟩, ?_, ?_⟩
    · rw [← ofParts_parts x, hmagnitude, signOf, hsign]
      rfl
    · have hexp : e = ((e + 52).toNat : ℤ) - 52 := by omega
      have hcast : (m : ℚ) * 2 ^ (e + 52).toNat = 10 ^ k * 2 ^ 52 := by exact_mod_cast hvalue
      rw [hexp, zpow_sub₀ two_ne_zero, zpow_natCast, ← mul_div_assoc, hcast]
      norm_num
  case h_2 => cases h

section

variable {d k m : ℕ} {e : ℤ} {negative : Bool}

/-- The decimal `d · 10 ^ k`, or `d / 10 ^ k`. -/
def scaled (d k : ℕ) (negative : Bool) : ℚ := if negative then d / 10 ^ k else d * 10 ^ k

/-- Few digits and a small exponent are read through the arithmetic of floating point numbers, which
is exact on them but for the last operation. -/
theorem ofScientific_of_small (hd : 0 < d) (hlt : d < 2 ^ 53) (hk : k ≤ 22) (hc : Canonical m e)
    (hq : RoundsTo (scaled d k negative) m e) :
    Float.ofScientific d negative k = ofParts .positive (.finite m e) := by
  obtain ⟨p, pe, hp, htable, hpower⟩ := parts_of_isPowerOfTen (isPowerOfTen_table ⟨k, by omega⟩)
  have hdc := canonical_nat hd hlt
  have hdfull : 2 ^ 52 ≤ d * 2 ^ (52 - d.log2) := by
    have := (Nat.log2_lt hd.ne').mpr hlt
    exact hdc.full.resolve_right (by omega)
  unfold scaled at hq
  rw [← value_nat hd hlt, ← hpower] at hq
  have hbound : k < Float.exactlyRepresentablePowersOfTen.size := Nat.lt_of_le_of_lt hk (by decide)
  have htable' : Float.exactlyRepresentablePowersOfTen[k] = ofParts .positive (.finite p pe) :=
    htable
  unfold Float.ofScientific
  rw [dif_pos ⟨hlt, hk⟩]
  dsimp only
  rw [toFloat_eq hd hlt, htable']
  cases negative with
  | true => exact ofParts_div hdc hp hc hq
  | false => exact ofParts_mul hdc hp hc hq hdfull

/-- What rounds to a number lies between the least and the greatest number. -/
theorem RoundsTo.bounds {q : ℚ} (hq : RoundsTo q m e) (hc : Canonical m e) :
    (2 : ℚ) ^ (-1075 : ℤ) ≤ q ∧ q < 2 ^ (1024 : ℤ) := by
  have hleast := hc.least
  have hgreatest := hc.greatest
  constructor
  · have hone : (1 : ℚ) ≤ m := by exact_mod_cast hc.pos
    have hlow := hq.low
    have hreach := reach_le m e
    have hhalf : (1 : ℚ) / 2 * 2 ^ e ≤ q := by
      rw [← le_div_iff₀ (two_zpow_pos e)]
      linarith
    calc (2 : ℚ) ^ (-1075 : ℤ) = 1 / 2 * 2 ^ (-1074 : ℤ) := by
          rw [show (-1075 : ℤ) = -1 + -1074 from rfl, zpow_add₀ two_ne_zero]
          norm_num
      _ ≤ 1 / 2 * 2 ^ e := by gcongr; norm_num
      _ ≤ q := hhalf
  · exact (hq.lt hc).trans_le (zpow_le_zpow_right₀ one_le_two (by omega))

/-- A decimal with a larger exponent is greater than every number. -/
theorem exponent_le_of_lt {k : ℤ} (hd : 0 < d) (h : (d : ℚ) * 10 ^ k < 2 ^ (1024 : ℤ)) : k ≤ 2 ^ 11 := by
  by_contra hk
  have hone : (1 : ℚ) ≤ d := by exact_mod_cast hd
  have hten : (0 : ℚ) < 10 ^ k := zpow_pos (by norm_num) k
  have : (2 : ℚ) ^ (1024 : ℤ) ≤ d * 10 ^ k :=
    calc (2 : ℚ) ^ (1024 : ℤ) ≤ 2 ^ k := zpow_le_zpow_right₀ one_le_two (by omega)
      _ ≤ 10 ^ k := zpow_le_zpow_left₀ (by omega) (by norm_num) (by norm_num)
      _ ≤ d * 10 ^ k := le_mul_of_one_le_left hten.le hone
  linarith

/-- A decimal with a smaller exponent is less than every number. -/
theorem le_exponent_of_le {k : ℤ} (h : (2 : ℚ) ^ (-1075 : ℤ) ≤ d * 10 ^ k) :
    -((2 : ℤ) ^ 11 + d.log2) ≤ k := by
  by_contra hk
  have hlog : (d : ℚ) ≤ 2 ^ ((d.log2 : ℤ) + 1) := by exact_mod_cast Nat.lt_log2_self.le
  have : (d : ℚ) * 10 ^ k < 2 ^ (-1075 : ℤ) :=
    calc (d : ℚ) * 10 ^ k ≤ 2 ^ ((d.log2 : ℤ) + 1) * 2 ^ k := by
          obtain ⟨j, rfl⟩ : ∃ j : ℕ, k = -j := ⟨k.natAbs, by omega⟩
          rw [zpow_neg, zpow_neg, zpow_natCast, zpow_natCast]
          gcongr
          norm_num
      _ = 2 ^ ((d.log2 : ℤ) + 1 + k) := by rw [zpow_add₀ two_ne_zero ((d.log2 : ℤ) + 1)]
      _ < 2 ^ (-1075 : ℤ) := zpow_lt_zpow_right₀ one_lt_two (by omega)
  linarith

/-- Multiplying out a decimal with a large exponent, or dividing by the power of ten. -/
theorem unpacked_ofScientific_eq {k : ℤ} (hd : 0 < d) (hc : Canonical m e)
    (hq : RoundsTo (d * 10 ^ k) m e) :
    UnpackedFloat.ofScientific .binary64 d k = .finite .positive m e hc.pos := by
  obtain ⟨hleast, hgreatest⟩ := hq.bounds hc
  have hhigh : ¬ k > 2 ^ Format.binary64.exponentBits := not_lt.mpr (exponent_le_of_lt hd hgreatest)
  have hlow : ¬ k < -((2 ^ Format.binary64.exponentBits : ℤ) + d.log2) :=
    not_lt.mpr (le_exponent_of_le hleast)
  unfold UnpackedFloat.ofScientific
  rw [dif_neg hd.ne', if_neg hhigh, if_neg hlow]
  split
  case isTrue hk =>
    have hproduct : ((d <<< Format.binary64.mantissaBits : ℕ) *
        2 ^ (-(Format.binary64.mantissaBits : ℤ)) : ℚ) *
        ((10 ^ k.toNat : ℕ) * 2 ^ (0 : ℤ)) = d * 10 ^ k := by
      have hpower : (10 : ℚ) ^ k = 10 ^ k.toNat := by
        rw [← zpow_natCast]
        congr 1
        omega
      rw [Nat.shiftLeft_eq, hpower, zpow_neg, zpow_natCast, zpow_zero, Nat.cast_mul, Nat.cast_pow,
        Nat.cast_pow, Nat.cast_ofNat, Nat.cast_ofNat]
      field_simp
    refine mul_eq _ _ _ _ hc (by rw [hproduct]; exact hq) ?_
    have hshift : 2 ^ 52 ≤ d <<< Format.binary64.mantissaBits := by
      rw [Nat.shiftLeft_eq]
      exact (Nat.pow_le_pow_right two_pos (by decide)).trans (Nat.le_mul_of_pos_left _ hd)
    exact hshift.trans (Nat.le_mul_of_pos_right _ (Nat.pow_pos (by decide)))
  case isFalse hk =>
    have hquotient : ((d : ℕ) * 2 ^ (0 : ℤ) : ℚ) / ((10 ^ (-k).toNat : ℕ) * 2 ^ (0 : ℤ)) =
        d * 10 ^ k := by
      have hpower : (10 : ℚ) ^ k = (10 ^ (-k).toNat)⁻¹ := by
        rw [← zpow_natCast, ← zpow_neg]
        congr 1
        omega
      rw [hpower, zpow_zero, Nat.cast_pow, Nat.cast_ofNat]
      field_simp
    exact div_eq _ _ _ _ hc (by rw [hquotient]; exact hq)

/-- Other decimals are read exactly, and rounded once. -/
theorem ofScientific_of_large (hd : 0 < d) (hlarge : ¬ (d < 2 ^ 53 ∧ k ≤ 22)) (hc : Canonical m e)
    (hq : RoundsTo (scaled d k negative) m e) :
    Float.ofScientific d negative k = ofParts .positive (.finite m e) := by
  unfold Float.ofScientific
  rw [dif_neg hlarge]
  dsimp only
  rw [ofParts_finite _ hc.pos]
  have hexact :
      UnpackedFloat.ofScientific .binary64 d (if negative then .negOfNat k else .ofNat k) =
      .finite .positive m e hc.pos := by
    refine unpacked_ofScientific_eq hd hc ?_
    cases negative with
    | true =>
      have hexp : (Int.negOfNat k : ℤ) = -(k : ℤ) := Int.negOfNat_eq
      rw [if_pos rfl, hexp, zpow_neg, zpow_natCast, ← div_eq_mul_inv]
      exact hq
    | false =>
      rw [if_neg (by simp), Int.ofNat_eq_natCast, zpow_natCast]
      exact hq
  exact congrArg (fun u => Float.ofModel (Float.Model.pack u)) hexact

/-- A decimal is read as the number in whose interval it lies. -/
theorem ofScientific_eq (hd : 0 < d) (hc : Canonical m e)
    (hq : RoundsTo (scaled d k negative) m e) :
    Float.ofScientific d negative k = ofParts .positive (.finite m e) := by
  by_cases hsmall : d < 2 ^ 53 ∧ k ≤ 22
  · exact ofScientific_of_small hd hsmall.1 hsmall.2 hc hq
  · exact ofScientific_of_large hd hsmall hc hq

/-- The number of digits bounds a number from both sides. -/
theorem digits_bounds (hd : 0 < d) :
    (10 : ℚ) ^ (((Nat.toDigits 10 d).length : ℤ) - 1) ≤ d ∧
      (d : ℚ) < 10 ^ ((Nat.toDigits 10 d).length : ℤ) := by
  have hpos : 0 < (Nat.toDigits 10 d).length := Nat.length_toDigits_pos
  have hlt : d < 10 ^ (Nat.toDigits 10 d).length :=
    (Nat.length_toDigits_le_iff (by decide) hpos).mp (Nat.le_refl _)
  have hle : 10 ^ ((Nat.toDigits 10 d).length - 1) ≤ d := by
    by_contra hlow
    by_cases hone : (Nat.toDigits 10 d).length = 1
    · rw [hone] at hlow
      omega
    · have := (Nat.length_toDigits_le_iff (by decide) (by omega)).mpr (not_le.mp hlow)
      omega
  have hexp : ((Nat.toDigits 10 d).length : ℤ) - 1 = ((Nat.toDigits 10 d).length - 1 : ℕ) := by
    omega
  rw [hexp, zpow_natCast, zpow_natCast]
  exact ⟨by exact_mod_cast hle, by exact_mod_cast hlt⟩

/-- Scaling by a power of ten multiplies or divides by it. -/
theorem scaled_natAbs (d : ℕ) (k : ℤ) : scaled d k.natAbs (decide (k < 0)) = d * 10 ^ k := by
  unfold scaled
  by_cases hk : k < 0
  · have hpower : (10 : ℚ) ^ k = (10 ^ k.natAbs)⁻¹ := by
      rw [← zpow_natCast, ← zpow_neg]
      congr 1
      omega
    rw [if_pos (by simpa using hk), hpower, div_eq_mul_inv]
  · have hpower : (10 : ℚ) ^ k = 10 ^ k.natAbs := by
      rw [← zpow_natCast]
      congr 1
      omega
    rw [if_neg (by simpa using hk), hpower]

/-- A number beyond the range in base two is within a larger one in base ten. -/
theorem two_zpow_le_ten_zpow : (2 : ℚ) ^ (1075 : ℤ) ≤ 10 ^ (400 : ℤ) :=
  calc (2 : ℚ) ^ (1075 : ℤ) ≤ 2 ^ (3 * 400 : ℤ) := zpow_le_zpow_right₀ one_le_two (by norm_num)
    _ = (2 ^ (3 : ℤ)) ^ (400 : ℤ) := zpow_mul _ _ _
    _ ≤ 10 ^ (400 : ℤ) := zpow_le_zpow_left₀ (by norm_num) (by norm_num) (by norm_num)

/-- The decimal `d · 10 ^ k` is read as the number in whose interval it lies. -/
theorem nearestFloat_eq {k : ℤ} (hd : 0 < d) (hc : Canonical m e) (hq : RoundsTo (d * 10 ^ k) m e) :
    nearestFloat d k = ofParts .positive (.finite m e) := by
  obtain ⟨hleast, hgreatest⟩ := hq.bounds hc
  obtain ⟨hlow, hhigh⟩ := digits_bounds hd
  have hten : (0 : ℚ) < 10 ^ k := zpow_pos (by norm_num) k
  unfold nearestFloat
  rw [if_neg hd.ne']
  dsimp only
  -- The exponents that are decided without computing the power are out of the range of the numbers.
  rw [if_neg, if_neg]
  · exact ofScientific_eq hd hc (by rw [scaled_natAbs]; exact hq)
  · intro hlead
    have : (d : ℚ) * 10 ^ k < 2 ^ (-1075 : ℤ) :=
      calc (d : ℚ) * 10 ^ k < 10 ^ ((Nat.toDigits 10 d).length : ℤ) * 10 ^ k := by gcongr
        _ = 10 ^ (((Nat.toDigits 10 d).length : ℤ) + k) := by rw [zpow_add₀ (by norm_num)]
        _ ≤ 10 ^ (-400 : ℤ) := zpow_le_zpow_right₀ (by norm_num) (by omega)
        _ ≤ 2 ^ (-1075 : ℤ) := by
          rw [zpow_neg, zpow_neg]
          exact inv_anti₀ (two_zpow_pos _) two_zpow_le_ten_zpow
    linarith
  · intro hlead
    have : (2 : ℚ) ^ (1024 : ℤ) ≤ d * 10 ^ k :=
      calc (2 : ℚ) ^ (1024 : ℤ) ≤ 2 ^ (1075 : ℤ) := zpow_le_zpow_right₀ one_le_two (by norm_num)
        _ ≤ 10 ^ (400 : ℤ) := two_zpow_le_ten_zpow
        _ ≤ 10 ^ (((Nat.toDigits 10 d).length : ℤ) - 1 + k) :=
          zpow_le_zpow_right₀ (by norm_num) (by omega)
        _ = 10 ^ (((Nat.toDigits 10 d).length : ℤ) - 1) * 10 ^ k := by rw [zpow_add₀ (by norm_num)]
        _ ≤ d * 10 ^ k := by gcongr
    linarith

end

end TableScript.Decimal
