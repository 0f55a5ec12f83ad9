import TableScript.Decimal.Shortest

/-!
# Laying out a floating point number

A number is written from the digits of its shortest decimal. The formats differ only in the decisions
that `FloatFormat` lists: where positional notation ends, whether a whole number keeps a fraction of one
zero, how an exponent is signed, which way a tie goes, and the texts of what is no number.
-/

namespace TableScript.Decimal

/-- The decisions of a format of floating point numbers. -/
structure FloatFormat where
  /-- The least and the greatest decimal exponent written positionally; all of them if there is none. -/
  positional : Option (Int × Int)
  /-- A whole number written positionally ends in `.0`. -/
  wholeFraction : Bool
  /-- A positive exponent has a sign. -/
  signedExponent : Bool
  /-- How a number between two decimals of equal length is settled. -/
  tie : Tie
  /-- What is written for a NaN. -/
  nan : String
  /-- What is written for positive infinity. -/
  infinity : String
  /-- What is written for negative infinity. -/
  negativeInfinity : String

/-- A run of zeros. -/
def zeros (n : Nat) : String := String.ofList (List.replicate n '0')

/-- Digits with the decimal point after the first `point` of them. -/
def positionalText (format : FloatFormat) (digits : List Char) (point : Int) : String :=
  let length : Int := digits.length
  if point ≤ 0 then "0." ++ zeros point.natAbs ++ String.ofList digits
  else if point < length then
    String.ofList (digits.take point.toNat) ++ "." ++ String.ofList (digits.drop point.toNat)
  else
    String.ofList digits ++ zeros (point - length).toNat ++ (if format.wholeFraction then ".0" else "")

/-- Digits with the decimal point after the first of them, and an exponent. -/
def scientificText (format : FloatFormat) (digits : List Char) (exponent : Int) : String :=
  let fraction := match digits.drop 1 with
    | [] => ""
    | rest => "." ++ String.ofList rest
  let sign := if exponent < 0 then "-" else if format.signedExponent then "+" else ""
  String.ofList (digits.take 1) ++ fraction ++ "e" ++ sign ++ toString exponent.natAbs

/-- The text of a positive finite number. -/
def FloatFormat.positiveText (format : FloatFormat) (mantissa : Nat) (exponent : Int) : String :=
  let d := shortest format.tie mantissa exponent
  let digits := Nat.toDigits 10 d.digits
  let point : Int := digits.length + d.exponent
  let positional := match format.positional with
    | none => true
    | some (least, greatest) => least ≤ point - 1 && point - 1 ≤ greatest
  if positional then positionalText format digits point else scientificText format digits (point - 1)

/-- The text of a floating point number. -/
def FloatFormat.text (format : FloatFormat) (x : Float) : String :=
  let sign := if isNegative x then "-" else ""
  match magnitude x with
  | .nan => format.nan
  | .infinite => if isNegative x then format.negativeInfinity else format.infinity
  | .finite 0 _ => sign ++ (if format.wholeFraction then "0.0" else "0")
  | .finite mantissa exponent => sign ++ format.positiveText mantissa exponent

/-- The plain format: always positional, and a whole number has no fraction. -/
def plain : FloatFormat := ⟨none, false, false, .up, "NaN", "inf", "-inf"⟩

/-- The format of messages that show a value's kind: exponents outside `1e-4` to `1e16`. -/
def explicit : FloatFormat := ⟨some (-4, 15), true, false, .up, "NaN", "inf", "-inf"⟩

/-- The exact value of an integral number, with a fraction of one zero. -/
def wholeText (x : Float) : String :=
  match magnitude x with
  | .finite mantissa exponent =>
    (if isNegative x then "-" else "") ++ toString (wholePart mantissa exponent) ++ ".0"
  | _ => plain.text x

end TableScript.Decimal
