import TableScript.Proofs.Rounding

/-!
# The shortest decimal reads back

The search for the shortest decimal of a floating point number tests the two neighbours of the
number on ever finer grids against the interval of what rounds to it. Whatever the search gives lies
in that interval (`RoundsTo`), and it always gives something: on the grid of the seventeenth digit
the points lie closer to each other than the ends of the interval (`ten_zpow_lt_width`).
-/

namespace TableScript.Decimal

/-! ## The interval -/

/-- The neighbourhood is that of `m · 2 ^ e`. -/
structure Neighbourhood.Around (n : Neighbourhood) (m : ℕ) (e : ℤ) : Prop where
  denominator_pos : 0 < n.denominator
  value : (n.value : ℚ) / n.denominator = m * 2 ^ e
  low : (n.low : ℚ) / n.denominator = (m - reach m e / 4) * 2 ^ e
  high : (n.high : ℚ) / n.denominator = (m + 1 / 2) * 2 ^ e
  closed : n.closed = true ↔ m % 2 = 0

/-- A number of quarters of the unit, over the common denominator. -/
theorem quarters_div (e : ℤ) (a : ℕ) :
    ((a * (if 0 ≤ e - 2 then Nat.pow 2 (e - 2).natAbs else 1) : ℕ) : ℚ) /
      (if 0 ≤ e - 2 then 1 else Nat.pow 2 (e - 2).natAbs : ℕ) = a / 4 * 2 ^ e := by
  have hunit : (2 : ℚ) ^ e = 4 * 2 ^ (e - 2) := by
    rw [zpow_sub₀ two_ne_zero]
    norm_num
    ring
  have hpow : ∀ j : ℕ, ((Nat.pow 2 j : ℕ) : ℚ) = 2 ^ j := fun j => Nat.cast_pow 2 j
  rw [hunit]
  split
  case isTrue h =>
    obtain ⟨j, hj⟩ : ∃ j : ℕ, e - 2 = j := ⟨(e - 2).toNat, by omega⟩
    rw [hj, Int.natAbs_natCast, zpow_natCast, Nat.cast_mul, hpow]
    push_cast
    ring
  case isFalse h =>
    obtain ⟨j, hj⟩ : ∃ j : ℕ, e - 2 = -(j : ℤ) := ⟨(2 - e).toNat, by omega⟩
    rw [hj, Int.natAbs_neg, Int.natAbs_natCast, zpow_neg, zpow_natCast, hpow]
    push_cast
    ring

/-- The neighbourhood of a number reaches half the way to its neighbours. -/
theorem around_neighbourhood {m : ℕ} (e : ℤ) (hm : 0 < m) : (neighbourhood m e).Around m e := by
  have hreach : (if (m = Nat.pow 2 52 && e ≠ -1074) = true then 1 else 2) = reach m e := by
    unfold reach
    simp
  have hle : reach m e ≤ 4 * m := by
    unfold reach
    split <;> omega
  have hcast : ((4 * m - reach m e : ℕ) : ℚ) = 4 * m - reach m e := by
    rw [Nat.cast_sub hle]
    push_cast
    ring
  unfold neighbourhood
  rw [hreach]
  refine ⟨?_, ?_, ?_, ?_, by simp⟩
  · dsimp only
    split
    · exact Nat.one_pos
    · exact Nat.pow_pos Nat.two_pos
  · dsimp only
    rw [quarters_div]
    push_cast
    ring
  · dsimp only
    rw [quarters_div, hcast]
    ring
  · dsimp only
    rw [quarters_div]
    push_cast
    ring

/-! ## A point of a grid -/

/-- The multiple of `10 ^ exponent` lies in the interval. -/
def Neighbourhood.Holds (n : Neighbourhood) (digits : ℕ) (exponent : ℤ) : Prop :=
  (n.low : ℚ) / n.denominator ≤ digits * 10 ^ exponent ∧
    (digits * 10 ^ exponent : ℚ) ≤ n.high / n.denominator ∧
    (n.closed = false → (n.low : ℚ) / n.denominator < digits * 10 ^ exponent ∧
      (digits * 10 ^ exponent : ℚ) < n.high / n.denominator)

/-- What is in the neighbourhood of a number rounds to it. -/
theorem Neighbourhood.Around.roundsTo {n : Neighbourhood} {m : ℕ} {e : ℤ} (h : n.Around m e)
    {digits : ℕ} {exponent : ℤ} (hholds : n.Holds digits exponent) :
    RoundsTo (digits * 10 ^ exponent) m e := by
  obtain ⟨hlow, hhigh, hopen⟩ := hholds
  have hpos := two_zpow_pos e
  rw [h.low] at hlow
  rw [h.high] at hhigh
  refine ⟨(le_div_iff₀ hpos).mpr hlow, (div_le_iff₀ hpos).mpr hhigh, fun hends => ?_⟩
  by_contra hodd
  have hclosed : n.closed = false := by
    rw [← Bool.not_eq_true, h.closed]
    exact hodd
  obtain ⟨hlow', hhigh'⟩ := hopen hclosed
  rw [h.low, ← lt_div_iff₀ hpos] at hlow'
  rw [h.high, ← div_lt_iff₀ hpos] at hhigh'
  rcases hends with heq | heq
  · linarith
  · linarith

section

variable {n : Neighbourhood} {m : ℕ} {e : ℤ} (x : ℤ)

/-- By how much the interval is multiplied so that the points of the grid are whole. -/
def gridScale : ℕ := if 0 ≤ x then 1 else 10 ^ x.natAbs

/-- The distance of two points of the grid, after that multiplication. -/
def gridStep (n : Neighbourhood) : ℕ :=
  if 0 ≤ x then n.denominator * 10 ^ x.natAbs else n.denominator

/-- The scale of a grid is positive. -/
theorem gridScale_pos : 0 < gridScale x := by
  unfold gridScale
  split <;> positivity

/-- So is its step. -/
theorem gridStep_pos (hn : 0 < n.denominator) : 0 < gridStep x n := by
  unfold gridStep
  split <;> positivity

/-- The step of a grid is a power of ten in the units of the neighbourhood. -/
theorem gridStep_eq (n : Neighbourhood) :
    (gridStep x n : ℚ) = n.denominator * gridScale x * 10 ^ x := by
  unfold gridStep gridScale
  split
  case isTrue h =>
    obtain ⟨j, rfl⟩ : ∃ j : ℕ, x = j := ⟨x.toNat, by omega⟩
    rw [Int.natAbs_natCast, zpow_natCast]
    push_cast
    ring
  case isFalse h =>
    obtain ⟨j, rfl⟩ : ∃ j : ℕ, x = -(j : ℤ) := ⟨(-x).toNat, by omega⟩
    rw [Int.natAbs_neg, Int.natAbs_natCast, zpow_neg, zpow_natCast]
    push_cast
    field_simp

/-- A point of the grid is compared with a fraction by whole numbers. -/
theorem grid_eq (hn : 0 < n.denominator) (a b : ℕ) :
    (a : ℚ) / n.denominator = (a * gridScale x : ℕ) / (n.denominator * gridScale x) ∧
      (b : ℚ) * 10 ^ x = (b * gridStep x n : ℕ) / (n.denominator * gridScale x) := by
  have hden : (0 : ℚ) < n.denominator := by exact_mod_cast hn
  have hscale : (0 : ℚ) < gridScale x := by exact_mod_cast gridScale_pos x
  constructor
  · push_cast
    field_simp
  · push_cast
    rw [gridStep_eq]
    field_simp

variable {x}

/-- Decimals of the grid are compared with the neighbourhood in whole numbers. -/
theorem le_grid_iff (hn : 0 < n.denominator) (a b : ℕ) :
    ((a : ℚ) / n.denominator ≤ b * 10 ^ x ↔ a * gridScale x ≤ b * gridStep x n) ∧
      ((b : ℚ) * 10 ^ x ≤ a / n.denominator ↔ b * gridStep x n ≤ a * gridScale x) := by
  have hpos : (0 : ℚ) < n.denominator * gridScale x := by
    exact_mod_cast Nat.mul_pos hn (gridScale_pos x)
  obtain ⟨ha, hb⟩ := grid_eq x hn a b
  rw [ha, hb, div_le_div_iff_of_pos_right hpos, div_le_div_iff_of_pos_right hpos]
  exact ⟨Nat.cast_le, Nat.cast_le⟩

/-- Whether a point lies in the interval is decided by whole numbers. -/
theorem holds_iff (hn : 0 < n.denominator) (b : ℕ) :
    n.Holds b x ↔ n.low * gridScale x ≤ b * gridStep x n ∧ b * gridStep x n ≤ n.high * gridScale x ∧
      (n.closed = false →
        n.low * gridScale x < b * gridStep x n ∧ b * gridStep x n < n.high * gridScale x) := by
  unfold Neighbourhood.Holds
  obtain ⟨hlow, hlow'⟩ := le_grid_iff (x := x) hn n.low b
  obtain ⟨hhigh', hhigh⟩ := le_grid_iff (x := x) hn n.high b
  rw [hlow, hhigh, ← not_le, ← not_le, ← not_le, ← not_le, hlow', hhigh']

/-- The greatest point of the grid that is not above the number. -/
def gridBelow (x : ℤ) (n : Neighbourhood) : ℕ := n.value * gridScale x / gridStep x n

/-- The number lies inside of the interval. -/
structure Neighbourhood.Inside (n : Neighbourhood) : Prop where
  denominator_pos : 0 < n.denominator
  low_lt : n.low < n.value
  lt_high : n.value < n.high

/-- The point below the number belongs to the interval if it reaches the lower end. -/
theorem holds_below_iff (hn : n.Inside) : n.Holds (gridBelow x n) x ↔
    (if n.closed then n.low * gridScale x ≤ gridBelow x n * gridStep x n
      else n.low * gridScale x < gridBelow x n * gridStep x n) := by
  have hle : gridBelow x n * gridStep x n ≤ n.value * gridScale x := Nat.div_mul_le_self _ _
  have hlt : n.value * gridScale x < n.high * gridScale x :=
    Nat.mul_lt_mul_of_pos_right hn.lt_high (gridScale_pos x)
  rw [holds_iff hn.denominator_pos]
  cases n.closed <;> simp <;> omega

/-- The point above the number belongs to the interval if it does not exceed the upper end. -/
theorem holds_above_iff (hn : n.Inside) : n.Holds (gridBelow x n + 1) x ↔
    (if n.closed then (gridBelow x n + 1) * gridStep x n ≤ n.high * gridScale x
      else (gridBelow x n + 1) * gridStep x n < n.high * gridScale x) := by
  have hlt : n.value * gridScale x < (gridBelow x n + 1) * gridStep x n := by
    rw [Nat.mul_comm _ (gridStep x n)]
    exact Nat.lt_mul_div_succ _ (gridStep_pos x hn.denominator_pos)
  have hlow : n.low * gridScale x < n.value * gridScale x :=
    Nat.mul_lt_mul_of_pos_right hn.low_lt (gridScale_pos x)
  rw [holds_iff hn.denominator_pos]
  cases n.closed <;> simp <;> omega

/-- One of the two neighbours of a number: that below it, unless it is zero, and that above it, as
far as they belong to the interval, and of both the nearer one. -/
def neighbour? (tie : Tie) (x : ℤ) (below toDown toUp : ℕ) (down up : Prop) [Decidable down]
    [Decidable up] : Option Digits :=
  if down && below ≠ 0 then
    if up then
      if toDown < toUp then some ⟨below, x⟩
      else if toUp < toDown then some ⟨below + 1, x⟩
      else match tie with
        | .up => some ⟨below + 1, x⟩
        | .even => some ⟨if below % 2 = 0 then below else below + 1, x⟩
    else some ⟨below, x⟩
  else if up then some ⟨below + 1, x⟩
  else none

/-- A neighbour on the grid is the decimal below or the one above, if one of them holds and is not zero. -/
theorem neighbour?_spec {tie : Tie} {x : ℤ} {below toDown toUp : ℕ} {down up : Prop}
    [Decidable down] [Decidable up] {found : Option Digits}
    (h : found = neighbour? tie x below toDown toUp down up) :
    (∃ b, found = some ⟨b, x⟩ ∧ b ≠ 0 ∧ (b = below ∧ down ∨ b = below + 1 ∧ up)) ∨
      (found = none ∧ (down → below = 0) ∧ ¬ up) := by
  rw [h]
  unfold neighbour?
  by_cases hdown : down
  · by_cases hzero : below = 0
    · by_cases hup : up <;> simp [hzero, hup]
    · by_cases hup : up
      · simp only [hdown, hup, hzero, decide_true, ne_eq, not_false_eq_true, Bool.and_self, if_true]
        split
        · exact Or.inl ⟨_, rfl, hzero, Or.inl ⟨rfl, trivial⟩⟩
        · split
          · exact Or.inl ⟨_, rfl, Nat.succ_ne_zero _, Or.inr ⟨rfl, trivial⟩⟩
          · cases tie with
            | up => exact Or.inl ⟨_, rfl, Nat.succ_ne_zero _, Or.inr ⟨rfl, trivial⟩⟩
            | even =>
              refine Or.inl ⟨_, rfl, ?_⟩
              split
              · exact ⟨hzero, Or.inl ⟨rfl, trivial⟩⟩
              · exact ⟨Nat.succ_ne_zero _, Or.inr ⟨rfl, trivial⟩⟩
      · simp [hdown, hup, hzero]
  · by_cases hup : up <;> simp [hdown, hup]

/-- The search on one grid gives a neighbour of the number that lies in the interval, or there is
none. -/
theorem onGrid?_spec (hn : n.Inside) (tie : Tie) :
    (∃ b, n.onGrid? tie x = some ⟨b, x⟩ ∧ b ≠ 0 ∧ n.Holds b x) ∨
      (n.onGrid? tie x = none ∧ (n.Holds (gridBelow x n) x → gridBelow x n = 0) ∧
        ¬ n.Holds (gridBelow x n + 1) x) := by
  have hdef : n.onGrid? tie x = neighbour? tie x (gridBelow x n)
      (n.value * gridScale x - gridBelow x n * gridStep x n)
      ((gridBelow x n + 1) * gridStep x n - n.value * gridScale x)
      (if n.closed then n.low * gridScale x ≤ gridBelow x n * gridStep x n
        else n.low * gridScale x < gridBelow x n * gridStep x n)
      (if n.closed then (gridBelow x n + 1) * gridStep x n ≤ n.high * gridScale x
        else (gridBelow x n + 1) * gridStep x n < n.high * gridScale x) := rfl
  rw [holds_below_iff hn, holds_above_iff hn]
  rcases neighbour?_spec hdef with ⟨b, hb, hne, hcases⟩ | hnone
  · refine Or.inl ⟨b, hb, hne, ?_⟩
    rcases hcases with ⟨rfl, hdown⟩ | ⟨rfl, hup⟩
    · exact (holds_below_iff hn).mpr hdown
    · exact (holds_above_iff hn).mpr hup
  · exact Or.inr hnone

/-! ## Seventeen digits -/

/-- Where the points of the grid lie closer to each other than the ends of the interval, and the
number is not below the first of them, a neighbour lies in the interval. -/
theorem onGrid?_isSome (hn : n.Inside) (tie : Tie)
    (hwidth : (10 : ℚ) ^ x < n.high / n.denominator - n.low / n.denominator)
    (hvalue : (10 : ℚ) ^ x ≤ n.value / n.denominator) : (n.onGrid? tie x).isSome := by
  rcases onGrid?_spec (x := x) hn tie with ⟨b, hb, -⟩ | ⟨-, hbelow, habove⟩
  · rw [hb]
    rfl
  · exfalso
    have hone : ((1 : ℕ) : ℚ) * 10 ^ x ≤ n.value / n.denominator := by simpa using hvalue
    rw [(le_grid_iff hn.denominator_pos _ _).2] at hone
    have hne : gridBelow x n ≠ 0 := by
      have := (Nat.le_div_iff_mul_le (gridStep_pos x hn.denominator_pos)).mpr hone
      exact Nat.ne_of_gt this
    -- Neither point belongs to the interval, so the interval lies between them.
    have hlow : (gridBelow x n : ℚ) * 10 ^ x ≤ n.low / n.denominator := by
      rw [(le_grid_iff hn.denominator_pos _ _).2]
      have := mt hbelow hne
      rw [holds_below_iff hn] at this
      split at this <;> omega
    have hhigh : (n.high : ℚ) / n.denominator ≤ (gridBelow x n + 1 : ℕ) * 10 ^ x := by
      rw [(le_grid_iff hn.denominator_pos _ _).1]
      rw [holds_above_iff hn] at habove
      split at habove <;> omega
    push_cast at hhigh
    linarith

end

/-- The leading exponent is not too large, if the number is not too small for the search. -/
theorem ten_zpow_leadingExponent_le {value denominator j : ℕ} (hden : 0 < denominator)
    (hj : j < 400) (hlarge : denominator ≤ value * 10 ^ j) :
    (10 : ℚ) ^ leadingExponent value denominator ≤ value / denominator := by
  have hpos : (0 : ℚ) < denominator := by exact_mod_cast hden
  unfold leadingExponent
  split
  case isTrue hle =>
    exact (digits_bounds (Nat.div_pos hle hden)).1.trans Nat.cast_div_le
  case isFalse =>
    split
    case h_1 i hfind =>
      have hi : denominator ≤ value * 10 ^ i := by simpa using List.find?_some hfind
      rw [zpow_neg, zpow_natCast, le_div_iff₀ hpos, inv_mul_le_iff₀ (by positivity)]
      rw [mul_comm]
      exact_mod_cast hi
    case h_2 hnone =>
      rw [List.find?_eq_none] at hnone
      exact absurd (by simpa using hlarge) (hnone j (by simpa using hj))

/-- Seventeen digits are enough: a step of the grid is shorter than the interval. -/
theorem ten_zpow_lt_width {m : ℕ} {e lead : ℤ} (hc : Canonical m e)
    (hlead : (10 : ℚ) ^ lead ≤ m * 2 ^ e) :
    (10 : ℚ) ^ (lead - 16) < (m + 1 / 2) * 2 ^ e - (m - reach m e / 4) * 2 ^ e := by
  have hpos := two_zpow_pos e
  have hpower : (10 : ℚ) ^ (lead - 16) = 10 ^ lead / 10 ^ 16 := by
    rw [zpow_sub₀ (by norm_num)]
    norm_cast
  have hbound : (m : ℚ) / 10 ^ 16 < 1 / 2 + reach m e / 4 := by
    rw [div_lt_iff₀ (by norm_num)]
    unfold reach
    split
    case isTrue h =>
      rw [h.1]
      norm_num
    case isFalse =>
      have : (m : ℚ) < 2 ^ 53 := by exact_mod_cast hc.lt
      push_cast
      linarith
  calc (10 : ℚ) ^ (lead - 16) = 10 ^ lead / 10 ^ 16 := hpower
    _ ≤ m * 2 ^ e / 10 ^ 16 := by gcongr
    _ = m / 10 ^ 16 * 2 ^ e := by ring
    _ < (1 / 2 + reach m e / 4) * 2 ^ e := by gcongr
    _ = (m + 1 / 2) * 2 ^ e - (m - reach m e / 4) * 2 ^ e := by ring

/-! ## The search -/

/-- Moving zeros into the exponent does not change the decimal. -/
theorem strip_spec (d : Digits) (hd : d.digits ≠ 0) (fuel : ℕ) : (d.strip fuel).digits ≠ 0 ∧
    ((d.strip fuel).digits : ℚ) * 10 ^ (d.strip fuel).exponent = d.digits * 10 ^ d.exponent := by
  induction fuel generalizing d with
  | zero => exact ⟨hd, rfl⟩
  | succ fuel ih =>
    unfold Digits.strip
    split
    case isTrue h =>
      simp only [Bool.and_eq_true, decide_eq_true_eq] at h
      obtain ⟨hne, hvalue⟩ := ih ⟨d.digits / 10, d.exponent + 1⟩ (by dsimp only; omega)
      refine ⟨hne, ?_⟩
      have hdigits : (d.digits : ℚ) = (d.digits / 10 : ℕ) * 10 := by
        exact_mod_cast (by omega : d.digits = d.digits / 10 * 10)
      rw [hvalue, hdigits, zpow_add₀ (by norm_num)]
      ring
    case isFalse => exact ⟨hd, rfl⟩

/-- The least power of two is within a power of ten. -/
theorem two_zpow_le_ten_pow : (2 : ℚ) ^ (1074 : ℤ) ≤ 10 ^ 399 :=
  calc (2 : ℚ) ^ (1074 : ℤ) ≤ 2 ^ (3 * 399 : ℤ) := zpow_le_zpow_right₀ one_le_two (by norm_num)
    _ = (2 ^ (3 : ℤ)) ^ (399 : ℤ) := zpow_mul _ _ _
    _ ≤ 10 ^ (399 : ℤ) := zpow_le_zpow_left₀ (by norm_num) (by norm_num) (by norm_num)
    _ = 10 ^ 399 := zpow_natCast _ 399

/-- A number reaches some way below itself. -/
theorem reach_pos (m : ℕ) (e : ℤ) : (0 : ℚ) < reach m e := by
  unfold reach
  split <;> norm_num

/-- A number is in its own neighbourhood. -/
theorem Neighbourhood.Around.inside {n : Neighbourhood} {m : ℕ} {e : ℤ} (h : n.Around m e) :
    n.Inside := by
  have hdenpos : (0 : ℚ) < n.denominator := by exact_mod_cast h.denominator_pos
  have hpos := two_zpow_pos e
  have hreach := reach_pos m e
  refine ⟨h.denominator_pos, ?_, ?_⟩
  · have hlt : (n.low : ℚ) / n.denominator < n.value / n.denominator := by
      rw [h.low, h.value]
      gcongr
      linarith
    rw [div_lt_div_iff_of_pos_right hdenpos] at hlt
    exact_mod_cast hlt
  · have hlt : (n.value : ℚ) / n.denominator < n.high / n.denominator := by
      rw [h.high, h.value]
      gcongr
      linarith
    rw [div_lt_div_iff_of_pos_right hdenpos] at hlt
    exact_mod_cast hlt

/-- The leading exponent of a floating point number is found. -/
theorem ten_zpow_lead_le {n : Neighbourhood} {m : ℕ} {e : ℤ} (h : n.Around m e)
    (hc : Canonical m e) : (10 : ℚ) ^ leadingExponent n.value n.denominator ≤ m * 2 ^ e := by
  have hdenpos : (0 : ℚ) < n.denominator := by exact_mod_cast h.denominator_pos
  have hm : (1 : ℚ) ≤ m := by exact_mod_cast hc.pos
  have hleast : (1 : ℚ) ≤ n.value / n.denominator * 10 ^ 399 := by
    rw [h.value]
    calc (1 : ℚ) = 2 ^ (-1074 : ℤ) * 2 ^ (1074 : ℤ) := by
          rw [← zpow_add₀ two_ne_zero, neg_add_cancel, zpow_zero]
      _ ≤ (m * 2 ^ e) * 10 ^ 399 := by
        have hexp : (2 : ℚ) ^ (-1074 : ℤ) ≤ 2 ^ e := zpow_le_zpow_right₀ one_le_two hc.least
        have hmul : (2 : ℚ) ^ e ≤ m * 2 ^ e := le_mul_of_one_le_left (two_zpow_pos e).le hm
        have hpos := (two_zpow_pos e).le.trans hmul
        exact mul_le_mul (hexp.trans hmul) two_zpow_le_ten_pow (two_zpow_pos _).le hpos
  rw [div_mul_eq_mul_div, one_le_div hdenpos] at hleast
  rw [← h.value]
  have hlarge : n.denominator ≤ n.value * 10 ^ 399 := by exact_mod_cast hleast
  exact ten_zpow_leadingExponent_le h.denominator_pos (by decide) hlarge

/-- The search ends at the seventeenth digit at the latest. -/
theorem shortest_eq (tie : Tie) {m : ℕ} {e : ℤ} (hc : Canonical m e) :
    ∃ x d, (neighbourhood m e).onGrid? tie x = some d ∧ shortest tie m e = d.strip 20 := by
  have haround := around_neighbourhood e hc.pos
  have hlead := ten_zpow_lead_le haround hc
  have hwidth := ten_zpow_lt_width hc hlead
  have hvalue : (10 : ℚ) ^
      (leadingExponent (neighbourhood m e).value (neighbourhood m e).denominator - 16) ≤
      (neighbourhood m e).value / (neighbourhood m e).denominator := by
    rw [haround.value]
    exact (zpow_le_zpow_right₀ (by norm_num) (by omega)).trans hlead
  rw [← haround.high, ← haround.low] at hwidth
  obtain ⟨lead, hlead'⟩ : ∃ lead, lead =
    leadingExponent (neighbourhood m e).value (neighbourhood m e).denominator := ⟨_, rfl⟩
  rw [← hlead'] at hwidth hvalue
  have hsome : ((List.range 17).findSome? fun k : ℕ =>
      (neighbourhood m e).onGrid? tie (lead - (k : ℤ))).isSome :=
    List.findSome?_isSome_iff.mpr ⟨16, by simp, onGrid?_isSome haround.inside tie hwidth hvalue⟩
  obtain ⟨d, hd⟩ := Option.isSome_iff_exists.mp hsome
  obtain ⟨k, -, hk⟩ := List.exists_of_findSome?_eq_some hd
  refine ⟨_, d, hk, ?_⟩
  unfold shortest
  dsimp only
  rw [← hlead', hd]

/-- The shortest decimal of a number is positive and rounds to it. -/
theorem shortest_spec (tie : Tie) {m : ℕ} {e : ℤ} (hc : Canonical m e) :
    (shortest tie m e).digits ≠ 0 ∧
      RoundsTo ((shortest tie m e).digits * 10 ^ (shortest tie m e).exponent) m e := by
  have haround := around_neighbourhood e hc.pos
  obtain ⟨x, d, hd, hshortest⟩ := shortest_eq tie hc
  rcases onGrid?_spec haround.inside tie with ⟨b, hb, hne, hholds⟩ | ⟨hnone, -⟩
  · rw [hb] at hd
    cases hd
    obtain ⟨hdigits, hvalue⟩ := strip_spec ⟨b, x⟩ hne 20
    rw [hshortest]
    exact ⟨hdigits, hvalue ▸ haround.roundsTo hholds⟩
  · rw [hnone] at hd
    cases hd

end TableScript.Decimal
