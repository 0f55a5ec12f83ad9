/-!
# Reading numbers

Whole numbers of 64 bits and floating point numbers from their decimal texts. A whole number is a sign,
if any, and digits whose value fits; a floating point number has digits with a point anywhere among them
and an exponent, if any, or is one of the words for infinity and for what is no number. It is the nearest
floating point number to the decimal, a tie going to the even one.
-/

namespace TableScript.Decimal

/-- The least and the greatest whole number of 64 bits. -/
def leastInt : Int := -(Nat.pow 2 63)

/-- The greatest whole number of 64 bits. -/
def greatestInt : Int := Nat.pow 2 63 - 1

/-- The whole number fits into 64 bits. -/
def fits (n : Int) : Bool := leastInt ≤ n && n ≤ greatestInt

/-- The whole number as one of 64 bits, if it fits. -/
def int64? (n : Int) : Option Int64 := if fits n then some (Int64.ofInt n) else none

/-- A number of 64 bits is found exactly if it is the whole number itself. -/
theorem int64?_eq_some_iff {n : Int} {m : Int64} : int64? n = some m ↔ m.toInt = n := by
  have hfits : fits n = true ↔ -2 ^ 63 ≤ n ∧ n ≤ 2 ^ 63 - 1 := by
    rw [fits, Bool.and_eq_true, decide_eq_true_iff, decide_eq_true_iff]
    exact Iff.rfl
  unfold int64?
  constructor
  · intro h
    split at h
    case isTrue hbounds =>
      obtain ⟨hlow, hhigh⟩ := hfits.mp hbounds
      cases h
      exact Int64.toInt_ofInt_of_le hlow (Int.lt_of_le_sub_one hhigh)
    case isFalse => cases h
  · rintro rfl
    have hbounds := hfits.mpr ⟨Int64.le_toInt m, Int.le_sub_one_of_lt (Int64.toInt_lt m)⟩
    rw [if_pos hbounds, Int64.ofInt_toInt]

/-- The value of a run of decimal digits, after `high` has been read. -/
def digitsValue (high : Nat) : List Char → Nat
  | [] => high
  | c :: rest => digitsValue (high * 10 + (c.toNat - '0'.toNat)) rest

/-- A sign, if any, and what follows it. -/
def splitSign : List Char → Bool × List Char
  | '-' :: rest => (true, rest)
  | '+' :: rest => (false, rest)
  | cs => (false, cs)

/-- A whole number of any size: a sign, if any, and at least one digit. -/
def readInt? (cs : List Char) : Option Int :=
  let (negative, digits) := splitSign cs
  if !digits.isEmpty && digits.all Char.isDigit then
    let n : Int := digitsValue 0 digits
    some (if negative then -n else n)
  else none

/-- A whole number of 64 bits. -/
def readInt64? (cs : List Char) : Option Int64 := (readInt? cs).bind int64?

/-- The nearest floating point number to `mantissa · 10 ^ exponent`. Exponents far outside the range of
floating point numbers are decided without computing the power. -/
def nearestFloat (mantissa : Nat) (exponent : Int) : Float :=
  if mantissa = 0 then 0.0
  else
    let lead : Int := (Nat.toDigits 10 mantissa).length + exponent
    if lead > 400 then Float.ofScientific 1 false 400
    else if lead < -400 then 0.0
    else Float.ofScientific mantissa (exponent < 0) exponent.natAbs

/-- An exponent mark with its exponent, or nothing at all. -/
def readExponent? : List Char → Option Int
  | [] => some 0
  | c :: rest =>
    if c = 'e' || c = 'E' then readInt? rest else none

/-- A floating point number without its sign. -/
def readUnsigned? (cs : List Char) : Option Float :=
  let word := String.ofList (cs.map Char.toLower)
  if word = "inf" || word = "infinity" then some (1.0 / 0.0)
  else if word = "nan" then some (0.0 / 0.0)
  else
    let whole := cs.takeWhile Char.isDigit
    let rest := cs.dropWhile Char.isDigit
    let (fraction, tail) := match rest with
      | '.' :: after => (after.takeWhile Char.isDigit, after.dropWhile Char.isDigit)
      | _ => ([], rest)
    if whole.isEmpty && fraction.isEmpty then none
    else (readExponent? tail).map fun exponent =>
      nearestFloat (digitsValue 0 (whole ++ fraction)) (exponent - fraction.length)

/-- A floating point number. -/
def readFloat? (cs : List Char) : Option Float :=
  let (negative, rest) := splitSign cs
  (readUnsigned? rest).map fun x => if negative then -x else x

end TableScript.Decimal
