import TableScript.Script.Expr
import TableScript.Script.Error
import TableScript.Decimal.Reading

/-!
# Operands and operators

What an expression can stand for while a script runs, and what the operators make of it. Operators on
single values are applied to a series cell by cell, a single value going with every cell.

Arithmetic on whole numbers is exact as long as the result has 64 bits, and becomes floating point where
it has not. A missing operand makes the result missing, and so does a division by zero.
-/

namespace TableScript.Script

/-- What an expression stands for: a single value, a column of cells, a dataframe, or a library. -/
inductive Operand where
  | scalar (v : Value)
  | series (cells : List Value)
  | frame (f : Frame)
  | module (name : String)
deriving Inhabited

namespace Operand

/-- The name of the operand's kind, as messages give it. -/
def kind : Operand → String
  | scalar v => v.kind
  | series _ => "Series"
  | frame _ => "DataFrame"
  | module _ => "module"

/-- The value, if it is a single one that can be shown by itself. -/
def primitive? : Operand → Option Value
  | scalar v => if v.isPrimitive then some v else none
  | _ => none

end Operand

/-- What a step of a script gives, or why it fails. -/
abbrev Eval := Except StatementError

/-- Fail since values do not fit. -/
def typeError {α : Type} (cause : TypeError) : Eval α := .error (.type cause)

/-! ## Reading operands as what is needed -/

/-- A single value. -/
def Operand.toScalar : Operand → Eval Value
  | .scalar v => .ok v
  | other => typeError (.notScalar other.kind)

/-- The label of a column. -/
def Operand.toLabel : Operand → Eval String
  | .scalar (.str s) => .ok s
  | other => typeError (.labelNotText other.kind)

/-- One label or a list of labels. -/
def Operand.toLabels : Operand → Eval (List String)
  | .scalar (.str s) => .ok [s]
  | .scalar (.list items) =>
    match (Value.list items).asTexts? with
    | some labels => .ok labels
    | none => typeError .labelsNotTexts
  | other => typeError (.notLabels other.kind)

/-- The cells of a column of `rows` rows: a series or a list as it is, any other value in every row. -/
def Operand.toCells (rows : Nat) : Operand → Eval (List Value)
  | .series cells => .ok cells
  | .scalar (.list items) => .ok items
  | .scalar v => .ok (List.replicate rows v)
  | other => typeError (.notCells other.kind)

/-- A cell of a row mask; a missing one is false. -/
def maskBit : Value → Eval Bool
  | .bool b => .ok b
  | .null => .ok false
  | other => typeError (.maskNotBool other.kind)

/-! ## Numbers -/

/-- A number of either kind. -/
inductive Number where
  | int (n : Int64)
  | float (x : Float)

/-- The number as a floating point number. -/
def Number.toFloat : Number → Float
  | int n => n.toFloat
  | float x => x

/-- The number that a value is; truth values are zero and one. -/
def number? : Value → Option Number
  | .bool b => some (.int (if b then 1 else 0))
  | .int n => some (.int n)
  | .float x => some (.float x)
  | _ => none

/-- The exact whole number if it has 64 bits, and else the floating point number. -/
def exactOr (exact : Int) (approximate : Float) : Value :=
  match Decimal.int64? exact with
  | some n => .int n
  | none => .float approximate

/-- The number with the other sign. -/
def Number.negated : Number → Value
  | int n => exactOr (-n.toInt) (-n.toFloat)
  | float x => .float (-x)

/-- The number without its sign. -/
def Number.absolute : Number → Value
  | int n => exactOr n.toInt.natAbs n.toFloat.abs
  | float x => .float x.abs

/-- The nearest whole number, a half going to the even one. Beyond `2 ^ 52` every number is whole. -/
def roundEven (x : Float) : Float :=
  let whole : Float := 4503599627370496.0
  if x.abs < whole then
    let rounded := (x.abs + whole) - whole
    if Decimal.isNegative x then -rounded else rounded
  else x

/-- A power of ten with a natural exponent, by squaring; `base` is the square reached so far. -/
def powerBySquaring (result base : Float) (n : Nat) : (steps : Nat) → Float
  | 0 => result
  | steps + 1 =>
    let result := if n % 2 = 1 then result * base else result
    if n / 2 = 0 then result else powerBySquaring result (base * base) (n / 2) steps

/-- A power of ten. -/
def powerOfTen (n : Int) : Float :=
  let power := powerBySquaring 1.0 10.0 n.natAbs 64
  if n < 0 then 1.0 / power else power

/-- The number of places that rounding goes by: at most three hundred either way. -/
def clampedPlaces (places : Int64) : Int := max (-300) (min 300 places.toInt)

/-- Round to the given places, or to a whole number. Whole numbers stay as they are. -/
def roundValue (places : Option Int64) (v : Value) : Eval Value :=
  match number? v with
  | none => if v.isNull then .ok .null else typeError (.cannotRound v.kind)
  | some (.int n) => .ok (.int n)
  | some (.float x) =>
    match places with
    | none => .ok (.int (roundEven x).toInt64)
    | some places =>
      let scale := powerOfTen (clampedPlaces places)
      .ok (.float (roundEven (x * scale) / scale))

/-! ## Truth -/

/-- The value counts as true. -/
def truthy : Value → Bool
  | .null => false
  | .bool b => b
  | .int n => n != 0
  | .float x => x != 0.0
  | .str s => !s.isEmpty
  | .list items => !items.isEmpty
  | .dict entries => !entries.isEmpty

/-! ## Operators before an operand -/

/-- Apply a function of numbers to a value; a missing one stays missing. -/
def applyNumeric (f : Number → Value) (v : Value) : Eval Value :=
  match number? v with
  | some n => .ok (f n)
  | none => if v.isNull then .ok .null else typeError (.badOperand v.kind)

/-- Apply a function of numbers to a value, or to every cell of a series. -/
def mapNumeric (f : Number → Value) : Operand → Eval Operand
  | .scalar v => (applyNumeric f v).map .scalar
  | .series cells => (cells.mapM (applyNumeric f)).map .series
  | other => typeError (.badOperand other.kind)

/-- The opposite truth value, or the complement of a whole number. -/
def invert : Value → Eval Value
  | .bool b => .ok (.bool !b)
  | .int n => .ok (.int (~~~n))
  | other => typeError (.badInverted other.kind)

/-- Apply an operator before an operand. -/
def UnaryOp.apply : UnaryOp → Operand → Eval Operand
  | neg, operand => mapNumeric Number.negated operand
  | not, .scalar v => .ok (.scalar (.bool !(truthy v)))
  | not, other => typeError (.ambiguousTruth other.kind)
  | invert, .scalar v => (Script.invert v).map .scalar
  | invert, .series cells => (cells.mapM Script.invert).map .series
  | invert, other => typeError (.badInverted other.kind)

/-! ## Arithmetic -/

/-- The five operators of arithmetic. -/
inductive ArithmeticOp where
  | add
  | sub
  | mul
  | div
  | mod
deriving DecidableEq

/-- The operator as it is written. -/
def ArithmeticOp.symbol : ArithmeticOp → String
  | add => "+"
  | sub => "-"
  | mul => "*"
  | div => "/"
  | mod => "%"

/-- Arithmetic on whole numbers. The remainder has the sign of the divisor. -/
def ArithmeticOp.onInts : ArithmeticOp → Int64 → Int64 → Value
  | add, x, y => exactOr (x.toInt + y.toInt) (x.toFloat + y.toFloat)
  | sub, x, y => exactOr (x.toInt - y.toInt) (x.toFloat - y.toFloat)
  | mul, x, y => exactOr (x.toInt * y.toInt) (x.toFloat * y.toFloat)
  | div, x, y => if y = 0 then .null else .float (x.toFloat / y.toFloat)
  | mod, x, y => if y = 0 then .null else .int (Int64.ofInt (x.toInt.fmod y.toInt))

/-- Arithmetic on floating point numbers. -/
def ArithmeticOp.onFloats : ArithmeticOp → Float → Float → Value
  | add, x, y => .float (x + y)
  | sub, x, y => .float (x - y)
  | mul, x, y => .float (x * y)
  | div, x, y => if y == 0.0 then .null else .float (x / y)
  | mod, x, y => if y == 0.0 then .null else .float (x - y * (x / y).floor)

/-- Arithmetic on numbers. -/
def ArithmeticOp.onNumbers (op : ArithmeticOp) : Number → Number → Value
  | .int x, .int y => op.onInts x y
  | x, y => op.onFloats x.toFloat y.toFloat

/-- A text `n` times over, made by doubling. -/
def repeated (s : String) (n : Nat) : (steps : Nat) → String
  | 0 => ""
  | steps + 1 =>
    if n = 0 then ""
    else
      let half := repeated s (n / 2) steps
      if n % 2 = 0 then half ++ half else half ++ half ++ s

/-- A text `n` times over, if that does not get too long. A negative number counts as zero. -/
def repeatText (s : String) (n : Int64) : Eval Value :=
  let count := n.toInt.toNat
  if s.utf8ByteSize * count ≤ longestText then .ok (.str (repeated s count 64))
  else typeError .textTooLong

/-- Arithmetic on values. Texts can be joined, and repeated by a whole number. -/
def ArithmeticOp.apply (op : ArithmeticOp) (a b : Value) : Eval Value :=
  if a.isNull || b.isNull then .ok .null
  else
    match op, a, b with
    | .add, .str x, .str y => .ok (.str (x ++ y))
    | .mul, .str s, .int n => repeatText s n
    | .mul, .int n, .str s => repeatText s n
    | _, _, _ =>
      match number? a, number? b with
      | some x, some y => .ok (op.onNumbers x y)
      | _, _ => typeError (.badOperands op.symbol a.kind b.kind)

/-! ## Comparison -/

/-- How two floating point numbers compare, unless one is no number. -/
def compareFloats? (x y : Float) : Option Ordering :=
  if x < y then some .lt
  else if x == y then some .eq
  else if y < x then some .gt
  else none

/-- How two values compare: whole numbers and texts exactly, other numbers as floating point. -/
def order? : Value → Value → Option Ordering
  | .int x, .int y => some (compare x.toInt y.toInt)
  | .str x, .str y => some (compare x y)
  | a, b =>
    match number? a, number? b with
    | some x, some y => compareFloats? x.toFloat y.toFloat
    | _, _ => none

/-- How two values compare, which has to be settled. -/
def order (a b : Value) : Eval Ordering :=
  match order? a b with
  | some ordering => .ok ordering
  | none => typeError (.cannotOrder a.kind b.kind)

/-- The six comparisons. -/
inductive Comparison where
  | eq
  | ne
  | lt
  | le
  | gt
  | ge
deriving DecidableEq

/-- Compare two values. With a missing operand only `!=` holds; values without an order are equal when
they are the same. -/
def Comparison.apply (op : Comparison) (a b : Value) : Eval Value :=
  if a.isNull || b.isNull then .ok (.bool (op = .ne))
  else
    match op with
    | eq => .ok (.bool (match order? a b with | some o => o.isEq | none => a.same b))
    | ne => .ok (.bool (match order? a b with | some o => o.isNe | none => !a.same b))
    | lt => (order a b).map fun o => .bool o.isLT
    | le => (order a b).map fun o => .bool o.isLE
    | gt => (order a b).map fun o => .bool o.isGT
    | ge => (order a b).map fun o => .bool o.isGE

/-! ## Logic -/

/-- The value is a truth value or missing. -/
def isTruthOrNull : Value → Bool
  | .bool _ | .null => true
  | _ => false

/-- `&` and `|`: bits of whole numbers, or truth values, a missing one being false. -/
def bitwise (symbol : String) (onInts : Int64 → Int64 → Int64) (onBools : Bool → Bool → Bool)
    (a b : Value) : Eval Value :=
  match a, b with
  | .int x, .int y => .ok (.int (onInts x y))
  | _, _ =>
    if isTruthOrNull a && isTruthOrNull b then .ok (.bool (onBools (truthy a) (truthy b)))
    else typeError (.badOperands symbol a.kind b.kind)

/-! ## Operators between operands -/

/-- Apply an operator to two values. -/
def BinaryOp.onValues : BinaryOp → Value → Value → Eval Value
  | add => ArithmeticOp.apply .add
  | sub => ArithmeticOp.apply .sub
  | mul => ArithmeticOp.apply .mul
  | div => ArithmeticOp.apply .div
  | mod => ArithmeticOp.apply .mod
  | eq => Comparison.apply .eq
  | ne => Comparison.apply .ne
  | lt => Comparison.apply .lt
  | le => Comparison.apply .le
  | gt => Comparison.apply .gt
  | ge => Comparison.apply .ge
  | bitAnd => bitwise "&" (· &&& ·) (· && ·)
  | bitOr => bitwise "|" (· ||| ·) (· || ·)
  | and => fun a b => .ok (if truthy a then b else a)
  | or => fun a b => .ok (if truthy a then a else b)

/-- Apply a function to the cells of two series of equal length. -/
def zipCells (f : Value → Value → Eval Value) : List Value → List Value → Eval (List Value)
  | a :: as, b :: bs => do
    let c ← f a b
    let cs ← zipCells f as bs
    return c :: cs
  | _, _ => .ok []

/-- Apply an operator between operands. -/
def BinaryOp.apply (op : BinaryOp) : Operand → Operand → Eval Operand
  | .scalar a, .scalar b => (op.onValues a b).map .scalar
  | .series as, .series bs =>
    if as.length ≠ bs.length then typeError (.seriesLengths as.length bs.length)
    else (zipCells op.onValues as bs).map .series
  | .series as, .scalar b => (as.mapM fun a => op.onValues a b).map .series
  | .scalar a, .series bs => (bs.mapM fun b => op.onValues a b).map .series
  | left, right => typeError (.badOperands op.symbol left.kind right.kind)

/-! ## Indexing -/

/-- The cell of a series at a position. -/
def cellAt (cells : List Value) (i : Int64) : Eval Operand :=
  match (if i.toInt < 0 then none else cells[i.toInt.toNat]?) with
  | some v => .ok (.scalar v)
  | none => .error (.key (decimalText i))

/-- The item of a list at a position; a negative one counts from the end. -/
def itemAt (items : List Value) (i : Int64) : Eval Operand :=
  let position := if i.toInt < 0 then items.length + i.toInt else i.toInt
  match (if position < 0 then none else items[position.toNat]?) with
  | some v => .ok (.scalar v)
  | none => .error (.key (decimalText i))

/-- What stands in brackets after an operand picks a column, columns, rows, cells or an item. -/
def subscript : Operand → Operand → Eval Operand
  | .frame f, .scalar (.str label) =>
    match f.column? label with
    | some cells => .ok (.series cells)
    | none => .error (.key label)
  | .frame f, .scalar (.list items) => do
    let labels ← (Operand.scalar (.list items)).toLabels
    match labels.find? fun label => !f.hasColumn label with
    | some missing => .error (.key missing)
    | none =>
      match f.select labels with
      | .ok selected => return .frame selected
      | .error e => .error (.frame e)
  | .frame f, .series mask => do
    let mask ← mask.mapM maskBit
    match f.filterRows mask with
    | .ok kept => return .frame kept
    | .error e => .error (.frame e)
  | .series cells, .series mask => do
    let mask ← mask.mapM maskBit
    if mask.length ≠ cells.length then typeError (.maskLength mask.length cells.length)
    else return .series (Frame.keepMarked cells mask)
  | .series cells, .scalar (.int i) => cellAt cells i
  | .scalar (.list items), .scalar (.int i) => itemAt items i
  | .scalar (.dict entries), .scalar (.str key) =>
    match Keyed.get? entries key with
    | some v => .ok (.scalar v)
    | none => .error (.key key)
  | target, index => typeError (.cannotIndex target.kind index.kind)

end TableScript.Script
