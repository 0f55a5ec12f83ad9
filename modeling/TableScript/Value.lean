import TableScript.Data.Keyed

/-!
# Values

One type for everything a table is made of and described by: a cell, a parameter of a step, a fact that
a step recorded. Whole numbers have 64 bits, and dictionaries keep the order in which their keys were
put in.

Two values are *the same* when they are of one kind and agree as that kind's values do: a NaN is not the
same as itself, positive and negative zero are the same, and the order of a dictionary does not count.
-/

namespace TableScript

/-- A cell, a parameter, or a recorded fact. -/
inductive Value where
  | null
  | bool (b : Bool)
  | int (n : Int64)
  | float (x : Float)
  | str (s : String)
  | list (items : List Value)
  | dict (entries : List (String × Value))
deriving Inhabited

/-- Parameters of a step, and the facts that carrying it out recorded. -/
abbrev Params := Keyed Value

namespace Value

/-- The name of the value's kind, as messages give it. -/
def kind : Value → String
  | null => "None"
  | bool _ => "bool"
  | int _ => "int"
  | float _ => "float"
  | str _ => "str"
  | list _ => "list"
  | dict _ => "dict"

/-- A missing value. -/
def isNull : Value → Bool
  | null => true
  | _ => false

/-- A value that can be shown by itself: a truth value, a number or a text. -/
def isPrimitive : Value → Bool
  | bool _ | int _ | float _ | str _ => true
  | _ => false

/-! ## Views of a value as one kind -/

/-- The truth value. -/
def asBool? : Value → Option Bool
  | bool b => some b
  | _ => none

/-- The whole number. -/
def asInt? : Value → Option Int64
  | int n => some n
  | _ => none

/-- The number, a whole one rounded to the nearest floating point number. -/
def asFloat? : Value → Option Float
  | float x => some x
  | int n => some n.toFloat
  | _ => none

/-- The text. -/
def asText? : Value → Option String
  | str s => some s
  | _ => none

/-- The items of a list. -/
def asList? : Value → Option (List Value)
  | list items => some items
  | _ => none

/-- The entries of a dictionary. -/
def asDict? : Value → Option (Keyed Value)
  | dict entries => some entries
  | _ => none

/-- The texts of a list that holds nothing else. -/
def asTexts? (v : Value) : Option (List String) := v.asList?.bind (·.mapM asText?)

/-- A list of texts. -/
def ofTexts (texts : List String) : Value := list (texts.map str)

/-- A natural number as a whole number of 64 bits. -/
def ofNat (n : Nat) : Value := int (Int64.ofNat n)

/-- A text or nothing. -/
def ofText? : Option String → Value
  | some s => str s
  | none => null

/-! ## Sameness -/

mutual

/-- The two values are the same. -/
def same : Value → Value → Bool
  | null, null => true
  | bool a, bool b => a == b
  | int a, int b => a == b
  | float a, float b => a == b
  | str a, str b => a == b
  | list a, list b => sameItems a b
  | dict a, dict b => a.length == b.length && sameEntries a b
  | _, _ => false

/-- The two lists hold the same values in the same order. -/
def sameItems : List Value → List Value → Bool
  | [], [] => true
  | a :: as, b :: bs => same a b && sameItems as bs
  | _, _ => false

/-- Every entry has the same value in the other dictionary. -/
def sameEntries : List (String × Value) → Keyed Value → Bool
  | [], _ => true
  | (key, a) :: rest, other =>
    (match other.get? key with
      | some b => same a b
      | none => false) && sameEntries rest other

end

instance : BEq Value := ⟨same⟩

end Value

/-- Keyed lists with the same keys and, under each, entries that agree. Order does not count. -/
def Keyed.same {α : Type} [BEq α] (a b : Keyed α) : Bool :=
  a.length == b.length && a.all fun (key, x) =>
    match b.get? key with
    | some y => x == y
    | none => false

end TableScript
