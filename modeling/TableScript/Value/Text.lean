import TableScript.Value
import TableScript.Text.Quote
import TableScript.Decimal.Layout

/-!
# Values as text

Two ways to write a value: the text that scripts and CSV files show, and the explicit text of messages,
which also names the value's kind.
-/

namespace TableScript

/-- A whole number in decimal digits. -/
def decimalText (n : Int64) : String := toString n.toInt

namespace Value

/-- A floating point number as scripts show it: a whole one exactly, with a fraction of one zero. -/
def floatText (x : Float) : String :=
  if Decimal.isIntegral x then Decimal.wholeText x else Decimal.plain.text x

mutual

/-- The value as scripts show it. -/
def text : Value → String
  | null => "None"
  | bool true => "True"
  | bool false => "False"
  | int n => decimalText n
  | float x => floatText x
  | str s => s
  | list items => "[" ++ ", ".intercalate (itemTexts items) ++ "]"
  | dict entries => "\x7b" ++ ", ".intercalate (entryTexts entries) ++ "\x7d"

/-- The items of a list as scripts show them. -/
def itemTexts : List Value → List String
  | [] => []
  | v :: rest => text v :: itemTexts rest

/-- The entries of a dictionary as scripts show them. -/
def entryTexts : List (String × Value) → List String
  | [] => []
  | (key, v) :: rest => (key ++ ": " ++ text v) :: entryTexts rest

end

mutual

/-- The value with its kind, as messages show it. -/
def explicitText : Value → String
  | null => "Null"
  | bool b => "Bool(" ++ (if b then "true" else "false") ++ ")"
  | int n => "Int(" ++ decimalText n ++ ")"
  | float x => "Float(" ++ Decimal.explicit.text x ++ ")"
  | str s => "String(" ++ Text.quoted s ++ ")"
  | list items => "Array([" ++ ", ".intercalate (explicitItems items) ++ "])"
  | dict entries => "Object(\x7b" ++ ", ".intercalate (explicitEntries entries) ++ "\x7d)"

/-- The items of a list with their kinds. -/
def explicitItems : List Value → List String
  | [] => []
  | v :: rest => explicitText v :: explicitItems rest

/-- The entries of a dictionary with their kinds. -/
def explicitEntries : List (String × Value) → List String
  | [] => []
  | (key, v) :: rest => (Text.quoted key ++ ": " ++ explicitText v) :: explicitEntries rest

end

end Value

end TableScript
