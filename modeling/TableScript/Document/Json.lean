import TableScript.Workbook
import TableScript.Decimal.Layout
import TableScript.Decimal.Reading
import TableScript.Text.Utf8
import TableScript.Document.Record

/-!
# JSON

JSON texts as trees, and trees as JSON texts. Objects keep their entries in order, and a key that comes
twice is there twice, since what that means is up to who asks for the object.

A whole number is one that is written without fraction and exponent and has 64 bits, with a sign or
without; every other number is floating point. Trees may be 127 levels deep.
-/

namespace TableScript.Document

/-- A JSON text as a tree. -/
inductive Json where
  | null
  | bool (b : Bool)
  | int (n : Int)
  | float (x : Float)
  | str (s : String)
  | list (items : List Json)
  | object (entries : List (String × Json))
deriving Inhabited

namespace Json

/-! ## Reading -/

/-- A blank between the parts of a JSON text. -/
def isSpace (c : Char) : Bool := c = ' ' || c = '\n' || c = '\t' || c = '\r'

/-- What follows the blanks. -/
def skipSpace (cs : List Char) : List Char := cs.dropWhile isSpace

/-- The value of a hexadecimal digit. -/
def hexDigit? (c : Char) : Option Nat :=
  if c.isDigit then some (c.toNat - '0'.toNat)
  else if 'a' ≤ c && c ≤ 'f' then some (c.toNat - 'a'.toNat + 10)
  else if 'A' ≤ c && c ≤ 'F' then some (c.toNat - 'A'.toNat + 10)
  else none

/-- The value of four hexadecimal digits, and what follows them. -/
def readHex4 : List Char → Option (Nat × List Char)
  | a :: b :: c :: d :: rest => do
    let a ← hexDigit? a
    let b ← hexDigit? b
    let c ← hexDigit? c
    let d ← hexDigit? d
    return (((a * 16 + b) * 16 + c) * 16 + d, rest)
  | _ => none

/-- The character of an escape by code units, after `\u`. Two units may make up one character. -/
def readUnicodeEscape (cs : List Char) : Option (Char × List Char) := do
  let (first, rest) ← readHex4 cs
  if 0xD800 ≤ first && first < 0xDC00 then
    match rest with
    | '\\' :: 'u' :: more => do
      let (second, after) ← readHex4 more
      if 0xDC00 ≤ second && second < 0xE000 then
        return (Char.ofNat (0x10000 + (first - 0xD800) * 0x400 + (second - 0xDC00)), after)
      else none
    | _ => none
  else if 0xDC00 ≤ first && first < 0xE000 then none
  else return (Char.ofNat first, rest)

/-- The character of a short escape, after the backslash. -/
def shortEscape? : Char → Option Char
  | '"' => some '"'
  | '\\' => some '\\'
  | '/' => some '/'
  | 'b' => some '\x08'
  | 'f' => some '\x0c'
  | 'n' => some '\n'
  | 'r' => some '\r'
  | 't' => some '\t'
  | _ => none

/-- The content of a string after its opening quote, and what follows the closing one. -/
def readString : (steps : Nat) → List Char → Option (List Char × List Char)
  | 0, _ => none
  | _, [] => none
  | steps + 1, c :: rest =>
    if c = '"' then some ([], rest)
    else if c.toNat < 0x20 then none
    else if c = '\\' then
      match rest with
      | [] => none
      | 'u' :: more => do
        let (c, after) ← readUnicodeEscape more
        let (body, last) ← readString steps after
        return (c :: body, last)
      | e :: after => do
        let c ← shortEscape? e
        let (body, last) ← readString steps after
        return (c :: body, last)
    else do
      let (body, last) ← readString steps rest
      return (c :: body, last)

/-- The digits of a fraction, after the point, and what follows them. -/
def readFraction : List Char → Option (List Char × List Char)
  | '.' :: rest =>
    match rest.takeWhile Char.isDigit with
    | [] => none
    | digits => some ('.' :: digits, rest.dropWhile Char.isDigit)
  | cs => some ([], cs)

/-- An exponent with its mark, and what follows it. -/
def readExponent : List Char → Option (List Char × List Char)
  | [] => some ([], [])
  | c :: rest =>
    if c = 'e' || c = 'E' then
      let (sign, digits) := match rest with
        | '+' :: more => (['+'], more)
        | '-' :: more => (['-'], more)
        | _ => ([], rest)
      match digits.takeWhile Char.isDigit with
      | [] => none
      | exponent => some ('e' :: (sign ++ exponent), digits.dropWhile Char.isDigit)
    else some ([], c :: rest)

/-- A number that is written without fraction and exponent. -/
def wholeNumber (negative : Bool) (n : Nat) : Json :=
  if negative then
    if n ≠ 0 && n ≤ Nat.pow 2 63 then int (-(n : Int)) else float (-(Decimal.nearestFloat n 0))
  else if n < Nat.pow 2 64 then int n
  else float (Decimal.nearestFloat n 0)

/-- A number, and what follows it. -/
def readNumber (cs : List Char) : Option (Json × List Char) := do
  let (negative, unsigned) := match cs with
    | '-' :: rest => (true, rest)
    | _ => (false, cs)
  let whole := unsigned.takeWhile Char.isDigit
  if whole.isEmpty || (whole.length ≠ 1 && whole.head? = some '0') then none
  let (fraction, afterFraction) ← readFraction (unsigned.dropWhile Char.isDigit)
  let (exponent, after) ← readExponent afterFraction
  if fraction.isEmpty && exponent.isEmpty then
    let number := wholeNumber negative (Decimal.digitsValue 0 whole)
    match number with
    | float x => if x.isFinite then return (number, after) else none
    | _ => return (number, after)
  else
    let x ← Decimal.readFloat? (whole ++ fraction ++ exponent)
    if x.isFinite then return (float (if negative then -x else x), after) else none

/-- What follows a word, if the characters begin with it. -/
def afterWord? (word : String) (cs : List Char) : Option (List Char) :=
  if word.toList.isPrefixOf cs then some (cs.drop word.length) else none

mutual

/-- A tree of at most `depth` levels, and what follows it. -/
def readValue : (steps depth : Nat) → List Char → Option (Json × List Char)
  | 0, _, _ => none
  | steps + 1, depth, cs =>
    match skipSpace cs with
    | [] => none
    | '"' :: rest => do
      let (body, after) ← readString (rest.length + 1) rest
      return (str (String.ofList body), after)
    | '[' :: rest =>
      if depth ≤ 1 then none
      else
        match skipSpace rest with
        | ']' :: after => some (list [], after)
        | first => do
          let (items, after) ← readItems steps (depth - 1) first
          return (list items, after)
    | '\x7b' :: rest =>
      if depth ≤ 1 then none
      else
        match skipSpace rest with
        | '\x7d' :: after => some (object [], after)
        | first => do
          let (entries, after) ← readEntries steps (depth - 1) first
          return (object entries, after)
    | c :: rest =>
      if c = 't' then (afterWord? "rue" rest).map fun after => (bool true, after)
      else if c = 'f' then (afterWord? "alse" rest).map fun after => (bool false, after)
      else if c = 'n' then (afterWord? "ull" rest).map fun after => (null, after)
      else readNumber (c :: rest)

/-- Items up to the closing bracket, at least one. -/
def readItems : (steps depth : Nat) → List Char → Option (List Json × List Char)
  | 0, _, _ => none
  | steps + 1, depth, cs => do
    let (item, rest) ← readValue steps depth cs
    match skipSpace rest with
    | ']' :: after => return ([item], after)
    | ',' :: more => do
      let (items, after) ← readItems steps depth more
      return (item :: items, after)
    | _ => none

/-- Entries up to the closing brace, at least one. -/
def readEntries : (steps depth : Nat) → List Char → Option (List (String × Json) × List Char)
  | 0, _, _ => none
  | steps + 1, depth, cs =>
    match skipSpace cs with
    | '"' :: rest => do
      let (key, afterKey) ← readString (rest.length + 1) rest
      match skipSpace afterKey with
      | ':' :: beforeValue => do
        let (value, afterValue) ← readValue steps depth beforeValue
        match skipSpace afterValue with
        | '\x7d' :: after => return ([(String.ofList key, value)], after)
        | ',' :: more => do
          let (entries, after) ← readEntries steps depth more
          return ((String.ofList key, value) :: entries, after)
        | _ => none
      | _ => none
    | _ => none

end

/-- The tree of a JSON text. -/
def ofText? (cs : List Char) : Option Json := do
  let (tree, rest) ← readValue (2 * cs.length + 2) 128 cs
  if (skipSpace rest).isEmpty then return tree else none

/-! ## Writing -/

/-- Floating point numbers in JSON texts: what is no finite number is written as nothing. -/
def floatFormat : Decimal.FloatFormat := ⟨some (-5, 15), true, true, .even, "null", "null", "null"⟩

/-- Two hexadecimal digits. -/
def hex2 (n : Nat) : List Char := [Nat.digitChar (n / 16), Nat.digitChar (n % 16)]

/-- One character inside quotes. -/
def escapeChar (c : Char) : List Char :=
  if c = '"' then ['\\', '"']
  else if c = '\\' then ['\\', '\\']
  else if c = '\n' then ['\\', 'n']
  else if c = '\r' then ['\\', 'r']
  else if c = '\t' then ['\\', 't']
  else if c = '\x08' then ['\\', 'b']
  else if c = '\x0c' then ['\\', 'f']
  else if c.toNat < 0x20 then '\\' :: 'u' :: '0' :: '0' :: hex2 c.toNat
  else [c]

/-- A text in quotes. -/
def quoted (s : String) : String :=
  String.ofList ('"' :: (s.toList.flatMap escapeChar ++ ['"']))

mutual

/-- The tree on one line, without blanks. -/
def compact : Json → String
  | null => "null"
  | bool b => if b then "true" else "false"
  | int n => toString n
  | float x => floatFormat.text x
  | str s => quoted s
  | list items => "[" ++ ",".intercalate (compactItems items) ++ "]"
  | object entries => "\x7b" ++ ",".intercalate (compactEntries entries) ++ "\x7d"

/-- Items, each on one line. -/
def compactItems : List Json → List String
  | [] => []
  | v :: rest => compact v :: compactItems rest

/-- Entries, each on one line. -/
def compactEntries : List (String × Json) → List String
  | [] => []
  | (key, v) :: rest => (quoted key ++ ":" ++ compact v) :: compactEntries rest

end

/-- A line feed and the blanks that a line of the given depth begins with. -/
def newline (depth : Nat) : String := "\n" ++ String.ofList (List.replicate (2 * depth) ' ')

/-- The parts of a list or an object, one a line, between its brackets. -/
def block (depth : Nat) (opening closing : String) (parts : List String) : String :=
  if parts.isEmpty then opening ++ closing
  else
    opening ++ newline (depth + 1) ++ ("," ++ newline (depth + 1)).intercalate parts
      ++ newline depth ++ closing

mutual

/-- The tree with every item and entry on a line of its own, two blanks a level. -/
def prettyAt (depth : Nat) : Json → String
  | null => "null"
  | bool b => if b then "true" else "false"
  | int n => toString n
  | float x => floatFormat.text x
  | str s => quoted s
  | list items => block depth "[" "]" (prettyItems (depth + 1) items)
  | object entries => block depth "\x7b" "\x7d" (prettyEntries (depth + 1) entries)

/-- Items with their own lines. -/
def prettyItems (depth : Nat) : List Json → List String
  | [] => []
  | v :: rest => prettyAt depth v :: prettyItems depth rest

/-- Entries with their own lines. -/
def prettyEntries (depth : Nat) : List (String × Json) → List String
  | [] => []
  | (key, v) :: rest => (quoted key ++ ": " ++ prettyAt depth v) :: prettyEntries depth rest

end

/-- The tree with every item and entry on a line of its own. -/
def pretty (tree : Json) : String := prettyAt 0 tree

/-! ## Order of keys -/

/-- Put an entry in front of the first greater key. -/
def insertSorted (entry : String × Json) : List (String × Json) → List (String × Json)
  | [] => [entry]
  | other :: rest =>
    if entry.1 < other.1 then entry :: other :: rest else other :: insertSorted entry rest

mutual

/-- The tree with the entries of every object in the order of their keys. -/
def sorted : Json → Json
  | list items => list (sortedItems items)
  | object entries => object (sortedEntries entries)
  | other => other

/-- Items with sorted objects in them. -/
def sortedItems : List Json → List Json
  | [] => []
  | v :: rest => sorted v :: sortedItems rest

/-- Entries in order, with sorted objects in them. -/
def sortedEntries : List (String × Json) → List (String × Json)
  | [] => []
  | (key, v) :: rest => insertSorted (key, sorted v) (sortedEntries rest)

end

/-! ## Values -/

mutual

/-- A value as a tree. -/
def ofValue : Value → Json
  | .null => null
  | .bool b => bool b
  | .int n => int n.toInt
  | .float x => float x
  | .str s => str s
  | .list items => list (ofItems items)
  | .dict entries => object (ofEntries entries)

/-- The items of a list as trees. -/
def ofItems : List Value → List Json
  | [] => []
  | v :: rest => ofValue v :: ofItems rest

/-- The entries of a dictionary as trees. -/
def ofEntries : List (String × Value) → List (String × Json)
  | [] => []
  | (key, v) :: rest => (key, ofValue v) :: ofEntries rest

end

mutual

/-- A tree as a value; of a key that comes twice the last value counts. A whole number without a sign
may have too many bits for a value, and is then floating point. -/
def toValue : Json → Value
  | null => .null
  | bool b => .bool b
  | int n =>
    match Decimal.int64? n with
    | some n => .int n
    | none => .float (Decimal.nearestFloat n.toNat 0)
  | float x => .float x
  | str s => .str s
  | list items => .list (toItems items)
  | object entries => .dict (toEntries [] entries)

/-- The items of a list as values. -/
def toItems : List Json → List Value
  | [] => []
  | v :: rest => toValue v :: toItems rest

/-- The entries of an object as values, put to those there are. -/
def toEntries (done : Keyed Value) : List (String × Json) → Keyed Value
  | [] => done
  | (key, v) :: rest => toEntries (done.put key (toValue v)) rest

end

/-- JSON trees as records. -/
def view : View Json where
  parts?
    | object entries => some (.named entries)
    | list items => some (.ordered items)
    | _ => none
  items?
    | list items => some items
    | _ => none
  text?
    | str s => some s
    | _ => none
  count?
    | int n => if 0 ≤ n then some n.toNat else none
    | _ => none
  params?
    | object entries => some (toEntries [] entries)
    | _ => none
  openEnded := false

/-! ## Workbooks -/

/-- A frame as a tree. -/
def ofFrame (f : Frame) : Json :=
  object [("columns", object (f.columns.map fun (name, cells) => (name, list (ofItems cells)))),
    ("num_rows", int f.rows)]

/-- A workbook as a tree. -/
def ofWorkbook (w : Workbook) : Json :=
  object [("dataframes", object (w.frames.map fun (name, f) => (name, ofFrame f)))]

end Json

end TableScript.Document
