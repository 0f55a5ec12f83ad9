/-!
# The shortest decimal of a binary fraction

The decimal that stands for a floating point number is the one with the fewest digits among those that
read back as the same number, and of these the one nearest to it. The search is exact: a finite number
is `mantissa · 2 ^ exponent`, the reals that round to it form an interval around it (its ends belong to
it when the mantissa is even), and for one digit, two digits and so on the two neighbours of the number
on the grid of such decimals are tested against that interval.
-/

namespace TableScript.Decimal

/-! ## Binary fractions -/

/-- What a floating point number is, apart from its sign. -/
inductive Magnitude where
  | nan
  | infinite
  /-- The number `mantissa · 2 ^ exponent`. -/
  | finite (mantissa : Nat) (exponent : Int)
deriving DecidableEq

/-- The number carries a minus sign. -/
def isNegative (x : Float) : Bool := x.toBits.toNat / Nat.pow 2 63 == 1

/-- The magnitude of a floating point number, read off its bits. -/
def magnitude (x : Float) : Magnitude :=
  let bits := x.toBits.toNat
  let biased : Nat := bits / Nat.pow 2 52 % Nat.pow 2 11
  let fraction := bits % Nat.pow 2 52
  if biased = 2047 then (if fraction = 0 then .infinite else .nan)
  else if biased = 0 then .finite fraction (-1074)
  else .finite (Nat.pow 2 52 + fraction) ((biased : Int) - 1075)

/-- The number has no fractional part. -/
def isIntegral (x : Float) : Bool :=
  match magnitude x with
  | .finite mantissa exponent => 0 ≤ exponent || mantissa % Nat.pow 2 exponent.natAbs == 0
  | _ => false

/-- The whole number that an integral magnitude is. -/
def wholePart (mantissa : Nat) (exponent : Int) : Nat :=
  if 0 ≤ exponent then mantissa * Nat.pow 2 exponent.natAbs else mantissa / Nat.pow 2 exponent.natAbs

/-! ## The interval and its grids -/

/-- A number with the interval of reals that round to it, all over one denominator. -/
structure Neighbourhood where
  value : Nat
  low : Nat
  high : Nat
  denominator : Nat
  /-- The ends of the interval round to the number as well. -/
  closed : Bool

/-- The interval around `mantissa · 2 ^ exponent`. Below a power of two the numbers lie closer. -/
def neighbourhood (mantissa : Nat) (exponent : Int) : Neighbourhood :=
  let below := if mantissa = Nat.pow 2 52 && exponent ≠ -1074 then 1 else 2
  let unit := exponent - 2
  let scale := if 0 ≤ unit then Nat.pow 2 unit.natAbs else 1
  { value := 4 * mantissa * scale
    low := (4 * mantissa - below) * scale
    high := (4 * mantissa + 2) * scale
    denominator := if 0 ≤ unit then 1 else Nat.pow 2 unit.natAbs
    closed := mantissa % 2 == 0 }

/-- The exponent of the greatest power of ten that is not above the number. -/
def leadingExponent (value denominator : Nat) : Int :=
  if denominator ≤ value then ((Nat.toDigits 10 (value / denominator)).length : Int) - 1
  else
    match (List.range 400).find? fun j => denominator ≤ value * Nat.pow 10 j with
    | some j => -(j : Int)
    | none => 0

/-- How a number exactly between two neighbours of equal length is settled. -/
inductive Tie where
  /-- The greater neighbour. -/
  | up
  /-- The neighbour whose last digit is even. -/
  | even
deriving DecidableEq

/-- A positive decimal `digits · 10 ^ exponent`. -/
structure Digits where
  digits : Nat
  exponent : Int
deriving DecidableEq

/-- The neighbour of the number on the grid of multiples of `10 ^ exponent` that reads back as it. -/
def Neighbourhood.onGrid? (n : Neighbourhood) (tie : Tie) (exponent : Int) : Option Digits :=
  let power := Nat.pow 10 exponent.natAbs
  let scale := if 0 ≤ exponent then 1 else power
  let step := if 0 ≤ exponent then n.denominator * power else n.denominator
  let value := n.value * scale
  let low := n.low * scale
  let high := n.high * scale
  let down := value / step
  let up := down + 1
  let downFits := if n.closed then low ≤ down * step else low < down * step
  let upFits := if n.closed then up * step ≤ high else up * step < high
  let toDown := value - down * step
  let toUp := up * step - value
  if downFits && down ≠ 0 then
    if upFits then
      if toDown < toUp then some ⟨down, exponent⟩
      else if toUp < toDown then some ⟨up, exponent⟩
      else match tie with
        | .up => some ⟨up, exponent⟩
        | .even => some ⟨if down % 2 = 0 then down else up, exponent⟩
    else some ⟨down, exponent⟩
  else if upFits then some ⟨up, exponent⟩
  else none

/-- Move the zeros at the end of the digits into the exponent. -/
def Digits.strip (d : Digits) : Nat → Digits
  | 0 => d
  | fuel + 1 =>
    if d.digits % 10 = 0 && d.digits ≠ 0 then
      Digits.strip ⟨d.digits / 10, d.exponent + 1⟩ fuel
    else d

/-- The shortest decimal that reads back as the positive number `mantissa · 2 ^ exponent`: seventeen
digits always do. -/
def shortest (tie : Tie) (mantissa : Nat) (exponent : Int) : Digits :=
  let n := neighbourhood mantissa exponent
  let lead := leadingExponent n.value n.denominator
  match (List.range 17).findSome? fun (k : Nat) => n.onGrid? tie (lead - (k : Int)) with
  | some d => d.strip 20
  | none => ⟨0, 0⟩

end TableScript.Decimal
