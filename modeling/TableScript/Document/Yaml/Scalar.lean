import TableScript.Decimal.Reading
import TableScript.Document.Json

/-!
# Scalars of YAML texts

What a scalar without quotes stands for: nothing, a truth value, a number, or else the text itself. A
whole number may be written in the bases 2, 8, 10 and 16. Decimal digits with a needless zero in front are
a text, and so is a decimal that is too great for a floating point number.
-/

namespace TableScript.Document.Yaml

/-- What a scalar without quotes stands for. -/
inductive Meaning where
  | null
  | bool (b : Bool)
  | whole (n : Int)
  | float (x : Float)
  | text

/-- A natural number in the digits of a base; there is at least one. -/
def digitsIn? (base : Nat) (digits : List Char) : Option Nat :=
  if digits.isEmpty then none
  else digits.foldlM (fun n c => (Json.hexDigit? c).bind fun d =>
    if d < base then some (n * base + d) else none) 0

/-- A natural number in the base that its first two characters name, or in base ten. -/
def prefixedNumber? (cs : List Char) : Option Nat :=
  match cs with
  | '0' :: 'x' :: digits => digitsIn? 16 digits
  | '0' :: 'o' :: digits => digitsIn? 8 digits
  | '0' :: 'b' :: digits => digitsIn? 2 digits
  | digits => digitsIn? 10 digits

/-- Decimal digits with a needless zero in front, and a sign, if any. -/
def isPadded (cs : List Char) : Bool :=
  match (Decimal.splitSign cs).2 with
  | '0' :: c :: rest => c.isDigit && rest.all Char.isDigit
  | _ => false

/-- A whole number that is not negative. -/
def natural? (cs : List Char) : Option Nat :=
  if isPadded cs then none
  else match cs with
    | '+' :: rest => prefixedNumber? rest
    | _ => prefixedNumber? cs

/-- A whole number. -/
def whole? (cs : List Char) : Option Int :=
  if isPadded cs then none
  else match cs with
    | '-' :: rest => (prefixedNumber? rest).map fun n => -(n : Int)
    | _ => (natural? cs).map Int.ofNat

/-- The words for infinity, after a point. -/
def isInfinityWord (cs : List Char) : Bool := [".inf", ".Inf", ".INF"].contains (String.ofList cs)

/-- The words for what is no number. -/
def isNaNWord (cs : List Char) : Bool := [".nan", ".NaN", ".NAN"].contains (String.ofList cs)

/-- A floating point number. -/
def float? (cs : List Char) : Option Float :=
  let unsigned := match cs with
    | '+' :: rest => rest
    | _ => cs
  if isNaNWord cs then some (0.0 / 0.0)
  else if isInfinityWord unsigned then some (1.0 / 0.0)
  else if cs.head? = some '-' && isInfinityWord (cs.drop 1) then some (-1.0 / 0.0)
  else if unsigned.length < cs.length && (unsigned.head? = some '+' || unsigned.head? = some '-') then none
  else (Decimal.readFloat? unsigned).filter Float.isFinite

/-- The words for nothing. -/
def isNullWord (s : String) : Bool := ["null", "Null", "NULL", "~"].contains s

/-- The words for truth values. -/
def boolWord? (s : String) : Option Bool :=
  if ["true", "True", "TRUE"].contains s then some true
  else if ["false", "False", "FALSE"].contains s then some false
  else none

/-- The greatest size of a whole number: with more bits it is read as a floating point number. -/
def isWhole (n : Int) : Bool := -(Nat.pow 2 127) ≤ n && n < Nat.pow 2 128

/-- What the scalar stands for. -/
def meaning (s : String) : Meaning :=
  let cs := s.toList
  if s.isEmpty || isNullWord s then .null
  else match boolWord? s with
    | some b => .bool b
    | none =>
      match (whole? cs).filter isWhole with
      | some n => .whole n
      | none =>
        if isPadded cs then .text
        else match float? cs with
          | some x => .float x
          | none => .text

/-- A whole number as a value. It has to fit into 64 bits, and counts as floating point where the sign
would need one more. -/
def wholeValue? (n : Int) : Option Value :=
  match Decimal.int64? n with
  | some n => some (.int n)
  | none => if 0 ≤ n && n < Nat.pow 2 64 then some (.float (Decimal.nearestFloat n.toNat 0)) else none

/-- The value that a scalar without quotes stands for. -/
def plainValue? (s : String) : Option Value :=
  match meaning s with
  | .null => some .null
  | .bool b => some (.bool b)
  | .whole n => wholeValue? n
  | .float x => some (.float x)
  | .text => some (.str s)

/-- Without quotes the text would not be read as a text by everyone. -/
def needsQuotes (s : String) : Bool :=
  match meaning s with
  | .text => isPadded s.toList
  | _ => true

end TableScript.Document.Yaml
