import TableScript.Value.Text

/-!
# Literals

Texts and values as the expressions of the script language that stand for them. None of them has a line
break in it, so a literal stays on the line it is written into.
-/

namespace TableScript.Script

/-- One character of a string in single quotes. -/
def literalChar (c : Char) : List Char :=
  if c = '\\' then ['\\', '\\']
  else if c = '\'' then ['\\', '\'']
  else if c = '\n' then ['\\', 'n']
  else if c = '\t' then ['\\', 't']
  else if c = '\r' then ['\\', 'r']
  else [c]

/-- A string in single quotes. -/
def literalChars (cs : List Char) : List Char := '\'' :: (cs.flatMap literalChar ++ ['\''])

/-- A text as a string. -/
def stringLiteral (s : String) : String := String.ofList (literalChars s.toList)

/-- The characters can stand in a raw string in single quotes: none of them ends the string or the line,
and no backslash at their end protects the closing quote. -/
def fitsRaw (cs : List Char) : Bool :=
  cs.all (fun c => c ≠ '\'' && c ≠ '\n' && c ≠ '\r') && cs.getLast? ≠ some '\\'

/-- A path as a string, a raw one where that is possible. -/
def pathChars (cs : List Char) : List Char :=
  if fitsRaw cs then 'r' :: '\'' :: (cs ++ ['\'']) else literalChars cs

/-- A path as a string. -/
def pathLiteral (path : String) : String := String.ofList (pathChars path.toList)

/-- A floating point number. Those that have no digits are made by a function. -/
def floatLiteral (x : Float) : String :=
  if x.isNaN then "float('nan')"
  else if x.isInf then (if x < 0.0 then "-float('inf')" else "float('inf')")
  else (Value.float x).text

mutual

/-- A value. -/
def literal : Value → String
  | .null => "None"
  | .bool true => "True"
  | .bool false => "False"
  | .int n => decimalText n
  | .float x => floatLiteral x
  | .str s => stringLiteral s
  | .list items => "[" ++ ", ".intercalate (itemLiterals items) ++ "]"
  | .dict entries => "\x7b" ++ ", ".intercalate (entryLiterals entries) ++ "\x7d"

/-- The items of a list. -/
def itemLiterals : List Value → List String
  | [] => []
  | v :: rest => literal v :: itemLiterals rest

/-- The entries of a dictionary. -/
def entryLiterals : List (String × Value) → List String
  | [] => []
  | (key, v) :: rest => (stringLiteral key ++ ": " ++ literal v) :: entryLiterals rest

end

/-- Values with commas between them, without brackets. -/
def listedLiterals (values : List Value) : String := ", ".intercalate (itemLiterals values)

/-- A list of texts. -/
def textListLiteral (texts : List String) : String :=
  "[" ++ ", ".intercalate (texts.map stringLiteral) ++ "]"

end TableScript.Script
