import TableScript.Decimal.Shortest
import Mathlib

/-!
# Floating point numbers by sign and magnitude

A floating point number is its sign and its magnitude: `ofParts` puts them together, and
`isNegative` and `magnitude` take the number apart again. Packing and unpacking, through which the
arithmetic of floating point numbers is defined, are said in these words once, so that nothing else
has to look at bits.
-/

namespace TableScript.Decimal

open Float.Model Float.Model.UnpackedFloat

/-! ## Magnitudes -/

/-- A positive number of binary64, in the one form that its bits have: the mantissa is full, unless
the exponent is the least. -/
structure Canonical (m : Nat) (e : Int) : Prop where
  pos : 0 < m
  lt : m < 2 ^ 53
  least : -1074 ≤ e
  greatest : e ≤ 971
  full : 2 ^ 52 ≤ m ∨ e = -1074

/-- A full mantissa has its leading bit in place 52. -/
theorem Canonical.log2 {m : Nat} {e : Int} (h : Canonical m e) (hfull : 2 ^ 52 ≤ m) : m.log2 = 52 :=
  (Nat.log2_eq_iff (Nat.ne_of_gt h.pos)).mpr ⟨hfull, h.lt⟩

/-- The magnitudes that floating point numbers have. -/
inductive Magnitude.Proper : Magnitude → Prop where
  | nan : Proper .nan
  | infinite : Proper .infinite
  | zero : Proper (.finite 0 (-1074))
  | finite {m : Nat} {e : Int} (h : Canonical m e) : Proper (.finite m e)

/-- The sign of a floating point number. -/
def signOf (x : Float) : Sign := if isNegative x then .negative else .positive

/-- A sign and a magnitude, as arithmetic takes them. -/
def unpackedOf (s : Sign) : Magnitude → Float.Model.UnpackedFloat
  | .nan => .notANumber
  | .infinite => .infinity s
  | .finite m e => if h : m = 0 then .zero s else .finite s m e (Nat.pos_of_ne_zero h)

/-- The float with a sign and a finite magnitude above zero, in the form that operations work on. -/
theorem unpackedOf_finite (s : Sign) {m : Nat} (e : Int) (hm : 0 < m) :
    unpackedOf s (.finite m e) = .finite s m e hm := dif_neg (Nat.ne_of_gt hm)

/-- The floating point number with a sign and a magnitude. -/
def ofParts (s : Sign) (magnitude : Magnitude) : Float :=
  .ofModel (Float.Model.pack (unpackedOf s magnitude))

/-! ## Bits -/

/-- The bit of a sign. -/
def signBit : Sign → Nat
  | .positive => 0
  | .negative => 1

/-- The bits of a sign and a magnitude, as a number. -/
def bitsOf (s : Sign) : Magnitude → Nat
  | .nan => 2047 * 2 ^ 52 + 2 ^ 51
  | .infinite => signBit s * 2 ^ 63 + 2047 * 2 ^ 52
  | .finite m e => signBit s * 2 ^ 63 + (e + 1074).toNat * 2 ^ 52 + m

/-- The sign takes one bit. -/
theorem signBit_le (s : Sign) : signBit s ≤ 1 := by cases s <;> decide

/-- Bits put side by side: the ones on the left weigh more. -/
theorem toNat_append {v w : Nat} (a : BitVec v) (b : BitVec w) :
    (a ++ b).toNat = a.toNat * 2 ^ w + b.toNat := by
  rw [BitVec.toNat_append, ← Nat.shiftLeft_add_eq_or_of_lt b.isLt, Nat.shiftLeft_eq]

/-- The bits of a number are its sign, its exponent and its mantissa side by side. -/
theorem toNat_packComponents (s : Sign) (e : BitVec 11) (m : BitVec 52) :
    (packComponents .binary64 s e m).toNat = signBit s * 2 ^ 63 + e.toNat * 2 ^ 52 + m.toNat := by
  have h : packComponents .binary64 s e m = (s.toBitVec ++ e) ++ m := rfl
  rw [h, toNat_append, toNat_append]
  cases s <;> simp [signBit, Sign.toBitVec]
  ring

/-- The mantissa is held by the lowest 52 bits. -/
theorem toNat_unpackMantissa (b : BitVec Format.binary64.numBits) :
    (unpackMantissa b).toNat = b.toNat % 2 ^ 52 := by
  simp [unpackMantissa]

/-- The exponent is held by the eleven bits above them. -/
theorem toNat_unpackExponent (b : BitVec Format.binary64.numBits) :
    (unpackExponent b).toNat = b.toNat / 2 ^ 52 % 2 ^ 11 := by
  simp [unpackExponent, Nat.shiftRight_eq_div_pow]

/-- The sign is held by the highest bit. -/
theorem toNat_unpackSign (b : BitVec Format.binary64.numBits) :
    (unpackSign b).toNat = b.toNat / 2 ^ 63 := by
  have hlt : b.toNat < 2 ^ 64 := b.isLt
  simp [unpackSign, Nat.shiftRight_eq_div_pow]
  omega

/-- A number with a canonical magnitude is packed without loss. -/
theorem toNat_pack_finite (s : Sign) {m : Nat} {e : Int} (h : Canonical m e) :
    (UnpackedFloat.pack .binary64 (.finite s m e h.pos)).toNat = bitsOf s (.finite m e) := by
  have hbiased : (e + (Format.exponentBias .binary64 : Int) +
      (Format.mantissaBitsWithoutImplicit .binary64 : Int)).toNat = (e + 1075).toNat := by
    change (e + (2 ^ (11 - 1) - 1 : Nat) + (52 : Nat)).toNat = (e + 1075).toNat
    omega
  have hleast := h.least
  have hgreatest := h.greatest
  have hlt := h.lt
  have hfits : ¬ 2 ^ 11 ≤ (e + 1075).toNat + 1 := by omega
  unfold UnpackedFloat.pack bitsOf
  simp only [hbiased]
  rw [if_neg hfits]
  by_cases hfull : 2 ^ 52 ≤ m
  · rw [if_pos (by rw [h.log2 hfull]; rfl), toNat_packComponents, BitVec.toNat_ofNat,
      BitVec.toNat_ofNat]
    omega
  · have hexp : e = -1074 := h.full.resolve_left hfull
    have hlog : m.log2 < 52 := (Nat.log2_lt (Nat.ne_of_gt h.pos)).mpr (by omega)
    rw [if_neg (by simp only [Format.mantissaBits]; omega), toNat_packComponents,
      BitVec.toNat_ofNat]
    simp [hexp]
    omega

/-- Packing a sign and a proper magnitude gives the bits computed for them. -/
theorem toNat_pack (s : Sign) {μ : Magnitude} (h : μ.Proper) :
    (UnpackedFloat.pack .binary64 (unpackedOf s μ)).toNat = bitsOf s μ := by
  cases h with
  | nan => rfl
  | infinite =>
    change (packComponents .binary64 s (-1#11) 0#52).toNat = _
    have hexp : (-1#11).toNat = 2047 := rfl
    have hfraction : (0#52).toNat = 0 := rfl
    rw [toNat_packComponents, hexp, hfraction, Nat.add_zero, bitsOf]
  | zero =>
    change (packComponents .binary64 s 0#11 0#52).toNat = _
    rw [toNat_packComponents, BitVec.toNat_ofNat, BitVec.toNat_ofNat, bitsOf]
    rfl
  | finite h =>
    rw [unpackedOf_finite s _ h.pos]
    exact toNat_pack_finite s h

/-- So does making a float of them. -/
theorem toNat_toBits_ofParts (s : Sign) {μ : Magnitude} (h : μ.Proper) :
    (ofParts s μ).toBits.toNat = bitsOf s μ := toNat_pack s h

/-! ## Taking apart what was put together -/

/-- A float is negative exactly if its highest bit is set. -/
theorem isNegative_eq (x : Float) : isNegative x = (x.toBits.toNat / 2 ^ 63 == 1) := rfl

/-- A float made of a sign and a number has that sign. -/
theorem isNegative_ofParts (s : Sign) {μ : Magnitude} (h : μ.Proper) (hμ : μ ≠ .nan) :
    isNegative (ofParts s μ) = (signBit s == 1) := by
  rw [isNegative_eq, toNat_toBits_ofParts s h]
  have hs := signBit_le s
  have hdiv : bitsOf s μ / 2 ^ 63 = signBit s := by
    cases h with
    | nan => exact absurd rfl hμ
    | infinite => simp only [bitsOf]; omega
    | zero => simp only [bitsOf]; omega
    | finite h =>
      have := h.lt
      have := h.least
      have := h.greatest
      simp only [bitsOf]
      omega
  rw [hdiv]

/-- The magnitude of a float, read off its bits: special numbers, small numbers and full ones. -/
theorem magnitude_of_bits {x : Float} {bits : Nat} (h : x.toBits.toNat = bits) : magnitude x =
    if bits / 2 ^ 52 % 2 ^ 11 = 2047 then (if bits % 2 ^ 52 = 0 then .infinite else .nan)
    else if bits / 2 ^ 52 % 2 ^ 11 = 0 then .finite (bits % 2 ^ 52) (-1074)
    else .finite (2 ^ 52 + bits % 2 ^ 52) ((bits / 2 ^ 52 % 2 ^ 11 : Nat) - 1075) := by
  subst h
  rfl

/-- A float made of a sign and a proper magnitude has that magnitude. -/
theorem magnitude_ofParts (s : Sign) {μ : Magnitude} (h : μ.Proper) :
    magnitude (ofParts s μ) = μ := by
  have hbits := toNat_toBits_ofParts s h
  have hs := signBit_le s
  cases h with
  | nan =>
    rw [bitsOf] at hbits
    rw [magnitude_of_bits hbits, if_pos (by omega), if_neg (by omega)]
  | infinite =>
    rw [bitsOf] at hbits
    rw [magnitude_of_bits hbits, if_pos (by omega), if_pos (by omega)]
  | zero =>
    rw [bitsOf] at hbits
    rw [magnitude_of_bits hbits, if_neg (by omega), if_pos (by omega), Magnitude.finite.injEq]
    omega
  | @finite m e h =>
    have hlt := h.lt
    have hleast := h.least
    have hgreatest := h.greatest
    rw [bitsOf] at hbits
    rw [magnitude_of_bits hbits, if_neg (by omega)]
    by_cases hfull : 2 ^ 52 ≤ m
    · rw [if_neg (by omega), Magnitude.finite.injEq]
      omega
    · have hexp : e = -1074 := h.full.resolve_left hfull
      rw [if_pos (by omega), Magnitude.finite.injEq]
      omega

/-- The magnitude of every floating point number is one of those that there are. -/
theorem proper_magnitude (x : Float) : (magnitude x).Proper := by
  rw [magnitude_of_bits rfl]
  split
  · split
    · exact .infinite
    · exact .nan
  · split
    · by_cases hzero : x.toBits.toNat % 2 ^ 52 = 0
      · rw [hzero]
        exact .zero
      · exact .finite ⟨Nat.pos_of_ne_zero hzero, by omega, by omega, by omega, Or.inr rfl⟩
    · exact .finite ⟨by omega, by omega, by omega, by omega, Or.inl (by omega)⟩

/-! ## Unpacking -/

/-- The sign bit stands for the sign. -/
theorem ofBitVec_unpackSign (x : Float) :
    Sign.ofBitVec (@unpackSign .binary64 x.toModel.toBits.toBitVec) = signOf x := by
  have hlt : x.toBits.toNat < 2 ^ 64 := x.toBits.toBitVec.isLt
  have hbit : (@unpackSign .binary64 x.toModel.toBits.toBitVec).toNat =
      x.toBits.toNat / 2 ^ 63 := toNat_unpackSign _
  have hle : x.toBits.toNat / 2 ^ 63 = 0 ∨ x.toBits.toNat / 2 ^ 63 = 1 := by omega
  unfold signOf Sign.ofBitVec
  rw [isNegative_eq]
  rcases hle with h | h
  · rw [if_pos (by rw [← BitVec.toNat_inj, hbit, h]; rfl), h]
    rfl
  · rw [if_neg (by rw [← BitVec.toNat_inj, hbit, h]; decide), h]
    rfl

/-- Finite numbers of equal mantissas and exponents are equal, whatever shows that they are above zero. -/
theorem finite_congr {s : Sign} {m m' : Nat} {e e' : Int} {hm : 0 < m} {hm' : 0 < m'} (h : m = m')
    (he : e = e') : UnpackedFloat.finite s m e hm = .finite s m' e' hm' := by
  subst h
  subst he
  rfl

/-- Arithmetic takes a floating point number by its sign and its magnitude. -/
theorem unpack_eq (x : Float) : x.toModel.unpack = unpackedOf (signOf x) (magnitude x) := by
  have hexp : (@unpackExponent .binary64 x.toModel.toBits.toBitVec).toNat =
      x.toBits.toNat / 2 ^ 52 % 2 ^ 11 := toNat_unpackExponent _
  have hfraction : (@unpackMantissa .binary64 x.toModel.toBits.toBitVec).toNat =
      x.toBits.toNat % 2 ^ 52 := toNat_unpackMantissa _
  have hsign := ofBitVec_unpackSign x
  have hall : @unpackExponent .binary64 x.toModel.toBits.toBitVec = -1#_ ↔
      x.toBits.toNat / 2 ^ 52 % 2 ^ 11 = 2047 := by rw [← BitVec.toNat_inj, hexp]; rfl
  have hnone : @unpackExponent .binary64 x.toModel.toBits.toBitVec = 0#_ ↔
      x.toBits.toNat / 2 ^ 52 % 2 ^ 11 = 0 := by rw [← BitVec.toNat_inj, hexp]; rfl
  have hzero : @unpackMantissa .binary64 x.toModel.toBits.toBitVec = 0#_ ↔
      x.toBits.toNat % 2 ^ 52 = 0 := by rw [← BitVec.toNat_inj, hfraction]; rfl
  unfold Float.Model.unpack UnpackedFloat.unpack
  dsimp only
  rw [magnitude_of_bits rfl, hsign]
  by_cases h1 : x.toBits.toNat / 2 ^ 52 % 2 ^ 11 = 2047
  · rw [if_pos (hall.mpr h1), if_pos h1]
    by_cases h2 : x.toBits.toNat % 2 ^ 52 = 0
    · rw [if_pos (hzero.mpr h2), if_pos h2]
      rfl
    · rw [if_neg (fun h => h2 (hzero.mp h)), if_neg h2]
      rfl
  · rw [if_neg (fun h => h1 (hall.mp h)), if_neg h1]
    by_cases h3 : x.toBits.toNat / 2 ^ 52 % 2 ^ 11 = 0
    · rw [if_pos (hnone.mpr h3), if_pos h3]
      by_cases h2 : x.toBits.toNat % 2 ^ 52 = 0
      · rw [dif_pos (hzero.mpr h2), h2]
        rfl
      · rw [dif_neg (fun h => h2 (hzero.mp h)), unpackedOf_finite _ _ (Nat.pos_of_ne_zero h2)]
        refine finite_congr hfraction ?_
        rw [hexp, h3]
        rfl
    · rw [if_neg (fun h => h3 (hnone.mp h)), if_neg h3, unpackedOf_finite _ _ (by omega)]
      refine finite_congr ?_ ?_
      · rw [toNat_append, hfraction]
        rfl
      · rw [hexp]
        rfl

/-- A floating point number is made of its sign and its magnitude. -/
theorem ofParts_parts (x : Float) : ofParts (signOf x) (magnitude x) = x := by
  have hbits : (ofParts (signOf x) (magnitude x)).toBits.toBitVec = x.toBits.toBitVec := by
    rw [ofParts, ← unpack_eq]
    exact pack_unpack_of_valid x.toModel.valid
  exact Float.toBits_inj.mp (UInt64.toBitVec_inj.mp hbits)

/-- Two floating point numbers with the same sign and the same magnitude are the same. -/
theorem eq_of_parts {x y : Float} (hsign : isNegative x = isNegative y)
    (hmagnitude : magnitude x = magnitude y) : x = y := by
  rw [← ofParts_parts x, ← ofParts_parts y, hmagnitude, signOf, signOf, hsign]

/-- The sign of a float made of a sign and a number is that sign. -/
theorem signOf_ofParts (s : Sign) {μ : Magnitude} (h : μ.Proper) (hμ : μ ≠ .nan) :
    signOf (ofParts s μ) = s := by
  rw [signOf, isNegative_ofParts s h hμ]
  cases s <;> rfl

/-- A finite float above zero is the packed number. -/
theorem ofParts_finite (s : Sign) {m : Nat} {e : Int} (hm : 0 < m) :
    ofParts s (.finite m e) = .ofModel (Float.Model.pack (.finite s m e hm)) := by
  rw [ofParts, unpackedOf_finite s e hm]

/-- A number that has been put together is taken apart again. -/
theorem unpack_ofParts (s : Sign) {m : Nat} {e : Int} (h : Canonical m e) :
    (ofParts s (.finite m e)).toModel.unpack = .finite s m e h.pos := by
  rw [unpack_eq, magnitude_ofParts s (.finite h), signOf_ofParts s (.finite h) (by simp),
    unpackedOf_finite s e h.pos]

/-! ## Negation -/

/-- Negating a number turns its sign over and leaves its magnitude. -/
theorem neg_unpackedOf (s : Sign) (μ : Magnitude) : (unpackedOf s μ).neg = unpackedOf (-s) μ := by
  cases μ with
  | nan => rfl
  | infinite => rfl
  | finite m e =>
    by_cases hm : m = 0
    · subst hm
      rfl
    · rw [unpackedOf_finite _ _ (Nat.pos_of_ne_zero hm),
        unpackedOf_finite _ _ (Nat.pos_of_ne_zero hm)]
      rfl

/-- The negative of a floating point number has the other sign. -/
theorem neg_eq (x : Float) : -x = ofParts (-signOf x) (magnitude x) := by
  have hneg : -x = .ofModel (Float.Model.pack x.toModel.unpack.neg) := rfl
  rw [hneg, unpack_eq, neg_unpackedOf]
  rfl

/-- Negation keeps the magnitude. -/
@[simp] theorem magnitude_neg (x : Float) : magnitude (-x) = magnitude x := by
  rw [neg_eq, magnitude_ofParts _ (proper_magnitude x)]

/-- Negation turns the sign of a number over. -/
theorem isNegative_neg {x : Float} (h : magnitude x ≠ .nan) : isNegative (-x) = !isNegative x := by
  rw [neg_eq, isNegative_ofParts _ (proper_magnitude x) h, signOf]
  cases isNegative x <;> rfl

/-- There is one NaN. -/
theorem eq_of_nan {x y : Float} (hx : magnitude x = .nan) (hy : magnitude y = .nan) : x = y := by
  rw [← ofParts_parts x, ← ofParts_parts y, hx, hy]
  rfl

/-- Negating twice changes nothing, and so for numbers that are none. -/
@[simp] theorem neg_neg_eq (x : Float) : - -x = x := by
  by_cases h : magnitude x = .nan
  · exact eq_of_nan (by simp [h]) h
  · refine eq_of_parts ?_ (by simp)
    rw [isNegative_neg (by simpa using h), isNegative_neg h, Bool.not_not]

end TableScript.Decimal
