import TableScript.Value.Text

/-!
# Writing TOML

A dictionary as a TOML text. What can be written as a table of its own, or as a list of tables, gets
headers, after the plain entries of the table it is in; everything else is written after its key. A list of
several items has a line for each of them. TOML has no way to say that a value is missing.
-/

namespace TableScript.Document.Toml

/-- Floating point numbers in TOML texts. -/
def floatFormat : Decimal.FloatFormat := ⟨none, true, false, .up, "nan", "inf", "-inf"⟩

/-! ## Texts -/

/-- The longest run of a character. -/
def longestRun (c : Char) : (current : Nat) → List Char → Nat
  | current, [] => current
  | current, d :: rest =>
    if c = d then longestRun c (current + 1) rest else max current (longestRun c 0 rest)

/-- A control character that has to be escaped everywhere. -/
def isControl (c : Char) : Bool := (c < ' ' && c ≠ '\t' && c ≠ '\n') || c = '\x7f'

/-- A number in four hexadecimal digits. -/
def hex4 (n : Nat) : List Char :=
  let digits := (Nat.toDigits 16 n).map Char.toUpper
  List.replicate (4 - digits.length) '0' ++ digits

/-- The characters of a text in double quotes, of which up to `allowed` may follow each other unescaped.
Line breaks stay as they are only in a text of several lines. -/
def escapeAll (long : Bool) (allowed : Nat) : (quotes : Nat) → List Char → List Char
  | _, [] => []
  | quotes, c :: rest =>
    if c = '"' then
      if quotes < allowed then '"' :: escapeAll long allowed (quotes + 1) rest
      else '\\' :: '"' :: escapeAll long allowed 0 rest
    else
      let text :=
        if c = '\x08' then ['\\', 'b']
        else if c = '\t' then ['\\', 't']
        else if c = '\n' then if long then ['\n'] else ['\\', 'n']
        else if c = '\x0c' then ['\\', 'f']
        else if c = '\r' then ['\\', 'r']
        else if c = '\\' then ['\\', '\\']
        else if isControl c then '\\' :: 'u' :: hex4 c.toNat
        else [c]
      text ++ escapeAll long allowed 0 rest

/-- A text in double quotes, on one line. -/
def lineText (cs : List Char) : List Char := '"' :: (escapeAll false 0 0 cs ++ ['"'])

/-- The text in the simplest quotes that need no escapes: double ones, single ones, three double or three
single ones. Where none will do it is escaped. Three quotes are followed by a line break if the text has
one. -/
def quoted (s : String) : String :=
  let cs := s.toList
  let long := cs.contains '\n'
  let control := cs.any isControl
  let backslash := cs.contains '\\'
  let single := longestRun '\'' 0 cs
  let double := longestRun '"' 0 cs
  let lead := if long then ['\n'] else []
  let threeDouble := ['"', '"', '"'] ++ lead ++ escapeAll true 2 0 cs ++ ['"', '"', '"']
  String.ofList <|
    if !control && !backslash && double = 0 && !long then lineText cs
    else if !control && single = 0 && !long then '\'' :: (cs ++ ['\''])
    else if !control && !backslash && double ≤ 2 then threeDouble
    else if !control && single ≤ 2 then ['\'', '\'', '\''] ++ lead ++ cs ++ ['\'', '\'', '\'']
    else if long then threeDouble
    else lineText cs

/-- A key, without quotes where it needs none. -/
def keyText (key : String) : String :=
  let cs := key.toList
  if !cs.isEmpty && cs.all (fun c => c.isAlphanum || c = '_' || c = '-') then key
  else
    let needsEscape := cs.any fun c => isControl c || c = '\n'
    String.ofList <|
      if !needsEscape && !cs.contains '\'' && (cs.contains '"' || cs.contains '\\') then '\'' :: (cs ++ ['\''])
      else lineText cs

/-! ## Values -/

mutual

/-- No value is missing in it. -/
def isComplete : Value → Bool
  | .null => false
  | .list items => allComplete items
  | .dict entries => entriesComplete entries
  | _ => true

/-- No value is missing in any of them. -/
def allComplete : List Value → Bool
  | [] => true
  | v :: rest => isComplete v && allComplete rest

/-- No value is missing under any key. -/
def entriesComplete : List (String × Value) → Bool
  | [] => true
  | (_, v) :: rest => isComplete v && entriesComplete rest

end

/-- Items between brackets: several of them on lines of their own, each with a comma. -/
def bracketed (items : List String) : String :=
  match items with
  | [] => "[]"
  | [item] => "[" ++ item ++ "]"
  | _ => "[" ++ String.join (items.map fun item => "\n    " ++ item ++ ",") ++ "\n]"

/-- Entries between braces, on one line. -/
def braced (entries : List String) : String :=
  if entries.isEmpty then "\x7b\x7d" else "\x7b " ++ ", ".intercalate entries ++ " \x7d"

mutual

/-- A value after its key. -/
def valueText : Value → String
  | .null => ""
  | .bool b => if b then "true" else "false"
  | .int n => decimalText n
  | .float x => floatFormat.text x
  | .str s => quoted s
  | .list items => bracketed (itemTexts items)
  | .dict entries => braced (entryTexts entries)

/-- Items of a list. -/
def itemTexts : List Value → List String
  | [] => []
  | v :: rest => valueText v :: itemTexts rest

/-- Entries with their keys. -/
def entryTexts : List (String × Value) → List String
  | [] => []
  | (key, v) :: rest => (keyText key ++ " = " ++ valueText v) :: entryTexts rest

end

/-! ## Tables -/

/-- The value is a dictionary. -/
def isTable : Value → Bool
  | .dict _ => true
  | _ => false

/-- The value gets headers: it is a dictionary, or a list of nothing but dictionaries. -/
def hasHeader : Value → Bool
  | .dict _ => true
  | .list items => !items.isEmpty && items.all isTable
  | _ => false

/-- The lines of the entries that get no headers. -/
def plainLines (entries : List (String × Value)) : String :=
  String.join ((entryTexts (entries.filter (!hasHeader ·.2))).map (· ++ "\n"))

/-- The key that leads to a table. -/
def pathText (path : List String) : String := ".".intercalate (path.map keyText)

/-- A table with its header. The header may be left out where only tables inside the table are written. -/
def tableBlock (path : List String) (entries : List (String × Value)) : List String :=
  let lines := plainLines entries
  if lines.isEmpty && !entries.isEmpty then [] else ["[" ++ pathText path ++ "]\n" ++ lines]

/-- An element of a list of tables with its header. -/
def elementBlock (path : List String) (entries : List (String × Value)) : String :=
  "[[" ++ pathText path ++ "]]\n" ++ plainLines entries

mutual

/-- The tables in the entries of a table. -/
def tableBlocks (path : List String) : List (String × Value) → List String
  | [] => []
  | (key, v) :: rest => valueBlocks (path ++ [key]) v ++ tableBlocks path rest

/-- The tables that a value is written as. -/
def valueBlocks (path : List String) : Value → List String
  | .dict entries => tableBlock path entries ++ tableBlocks path entries
  | .list items => if items.all isTable then elementBlocks path items else []
  | _ => []

/-- The tables that a list of dictionaries is written as. -/
def elementBlocks (path : List String) : List Value → List String
  | [] => []
  | .dict entries :: rest => elementBlock path entries :: (tableBlocks path entries ++ elementBlocks path rest)
  | _ :: rest => elementBlocks path rest

end

/-- The dictionary as a text, unless a value is missing in it. -/
def documentText? (entries : Keyed Value) : Option String :=
  if entriesComplete entries then
    let lines := plainLines entries
    some ("\n".intercalate ((if lines.isEmpty then [] else [lines]) ++ tableBlocks [] entries))
  else none

end TableScript.Document.Toml
