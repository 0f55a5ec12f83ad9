import TableScript.Value.Text
import TableScript.Document.Yaml.Token
import TableScript.Document.Yaml.Scalar

/-!
# Writing YAML

A value as a YAML text in block style. Mappings are indented by two blanks, lists in a mapping not at all.
Only empty lists and mappings are written in brackets.

A text is written plainly where it then reads as that text, in single quotes where it does not, as a
literal block where it has several lines, and in double quotes where a character has to be escaped. Lines
are never folded, however long they are.
-/

namespace TableScript.Document.Yaml

/-- Floating point numbers in YAML texts. -/
def floatFormat : Decimal.FloatFormat := ⟨some (-5, 15), true, false, .even, ".nan", ".inf", "-.inf"⟩

/-! ## What a text allows -/

/-- A character that needs no escape. -/
def isPrintable (c : Char) : Bool :=
  c = '\n' || (' ' ≤ c && c ≤ '~') || (0xA0 ≤ c.toNat && c.toNat ≤ 0xFFFD && c.toNat ≠ 0xFEFF)

/-- A character that begins something else than a plain scalar. -/
def isOpeningIndicator (c : Char) : Bool := "#,[]\x7b\x7d&*!|>'\"%@\x60".toList.contains c

/-- Something in the text after its first character ends a plain scalar: a colon before a blank, or a
number sign after one. -/
def hasInnerIndicator : (afterBlank : Bool) → List Char → Bool
  | _, [] => false
  | afterBlank, c :: rest =>
    (c = ':' && atEdge rest) || (c = '#' && afterBlank)
      || hasInnerIndicator (isBlank c || isBreak c) rest

/-- The text begins with, or holds, what has a meaning of its own in block style. -/
def hasIndicator (cs : List Char) : Bool :=
  match cs with
  | [] => false
  | c :: rest =>
    ['-', '-', '-'].isPrefixOf cs || ['.', '.', '.'].isPrefixOf cs || isOpeningIndicator c
      || ((c = '?' || c = ':' || c = '-') && atEdge rest)
      || hasInnerIndicator (isBlank c || isBreak c) rest

/-- A character of the first kind stands before one of the second. -/
def hasPair (first second : Char → Bool) : List Char → Bool
  | a :: b :: rest => (first a && second b) || hasPair first second (b :: rest)
  | _ => false

/-- The styles that a text can be written in: double quotes always, the others if nothing is in the way. -/
def allows (cs : List Char) : Style → Bool
  | .double => true
  | style =>
    let space (c : Char) : Bool := c = ' '
    let outer := cs.head?.any (fun c => space c || isBreak c) || cs.getLast?.any (fun c => space c || isBreak c)
    cs.all isPrintable && !hasPair space isBreak cs && match style with
      | .plain => !outer && !hasIndicator cs && !cs.any isBreak
      | .single => !hasPair isBreak space cs
      | _ => !cs.isEmpty && !cs.getLast?.any space

/-- The style of a text. -/
def styleOf (s : String) : Style :=
  let cs := s.toList
  if cs.any (· = '\n') then if allows cs .literal then .literal else .double
  else if !needsQuotes s && allows cs .plain then .plain
  else if allows cs .single then .single
  else .double

/-! ## Scalars -/

/-- So many blanks. -/
def blanks (n : Nat) : List Char := List.replicate n ' '

/-- The lines of a text, those after a line break indented. -/
def indentLines (indent : Nat) : (fresh : Bool) → List Char → List Char
  | _, [] => []
  | fresh, c :: rest =>
    if isBreak c then c :: indentLines indent true rest
    else (if fresh then blanks indent else []) ++ c :: indentLines indent false rest

/-- Hexadecimal digits, so many of them. -/
def hexDigits (width n : Nat) : List Char :=
  let digits := (Nat.toDigits 16 n).map Char.toUpper
  List.replicate (width - digits.length) '0' ++ digits

/-- A character in double quotes. -/
def escaped (c : Char) : List Char :=
  if isPrintable c && !isBreak c && c ≠ '"' && c ≠ '\\' then [c]
  else '\\' :: match c.toNat with
    | 0x00 => ['0']
    | 0x07 => ['a']
    | 0x08 => ['b']
    | 0x09 => ['t']
    | 0x0A => ['n']
    | 0x0B => ['v']
    | 0x0C => ['f']
    | 0x0D => ['r']
    | 0x1B => ['e']
    | 0x22 => ['"']
    | 0x5C => ['\\']
    | 0x85 => ['N']
    | 0xA0 => ['_']
    | 0x2028 => ['L']
    | 0x2029 => ['P']
    | n =>
      if n ≤ 0xFF then 'x' :: hexDigits 2 n
      else if n ≤ 0xFFFF then 'u' :: hexDigits 4 n
      else 'U' :: hexDigits 8 n

/-- A text in single quotes. -/
def singleQuoted (indent : Nat) (cs : List Char) : List Char :=
  let body := indentLines indent false (cs.flatMap fun c => if c = '\'' then ['\'', '\''] else [c])
  '\'' :: body ++ (if cs.getLast?.any isBreak then blanks indent else []) ++ ['\'']

/-- The hints of a literal block: the indentation where it cannot be seen, and whether the text ends
without a line break or with more than one. -/
def literalHints (cs : List Char) : List Char :=
  let indentation := if cs.head?.any (fun c => c = ' ' || isBreak c) then ['2'] else []
  let chomping := match cs.reverse with
    | [] => ['-']
    | [c] => if isBreak c then ['+'] else ['-']
    | c :: d :: _ => if !isBreak c then ['-'] else if isBreak d then ['+'] else []
  indentation ++ chomping

/-- A text as a literal block. -/
def literalBlock (indent : Nat) (cs : List Char) : List Char :=
  '|' :: literalHints cs ++ '\n' :: indentLines indent true cs

/-- A text whose further lines are indented by so much. -/
def textScalar (indent : Nat) (s : String) : String :=
  let cs := s.toList
  String.ofList <| match styleOf s with
    | .plain => cs
    | .single => singleQuoted indent cs
    | .double => '"' :: (cs.flatMap escaped ++ ['"'])
    | .literal | .folded => literalBlock indent cs

/-- A value that is written in one piece; lists and dictionaries are only where they are empty. -/
def scalarText (indent : Nat) : Value → String
  | .null => "null"
  | .bool b => if b then "true" else "false"
  | .int n => decimalText n
  | .float x => floatFormat.text x
  | .str s => textScalar indent s
  | .list _ => "[]"
  | .dict _ => "\x7b\x7d"

/-! ## Blocks -/

/-- The text with its last line ended. A literal block may have ended it already. -/
def endLine (s : String) : String := if s.toList.getLast?.any isBreak then s else s ++ "\n"

/-- The blanks that a line begins with. -/
def margin (indent : Nat) : String := String.ofList (blanks indent)

/-- The key is written on one line in front of its colon. -/
def isLineKey (key : String) : Bool := key.utf8ByteSize ≤ 128 && !key.toList.any isBreak

/-- A key with its colon, for entries at the given indentation. -/
def keyText (indent : Nat) (key : String) : String :=
  if isLineKey key then textScalar (indent + 2) key ++ ":"
  else endLine ("? " ++ textScalar (indent + 2) key) ++ margin indent ++ ":"

/-- Parts that begin at the given indentation, the first on the line that is there. -/
def joined (indent : Nat) (parts : List String) : String := (margin indent).intercalate parts

mutual

/-- What stands after a key and its colon. A list is not indented, unless it is on the line of a colon of
its own. -/
def entryText (indent : Nat) (ownColon : Bool) : Value → String
  | .list [] => " []\n"
  | .dict [] => " \x7b\x7d\n"
  | .list items =>
    if ownColon then " " ++ joined (indent + 2) (itemTexts (indent + 2) items)
    else "\n" ++ margin indent ++ joined indent (itemTexts indent items)
  | .dict entries =>
    (if ownColon then " " else "\n" ++ margin (indent + 2))
      ++ joined (indent + 2) (entryTexts (indent + 2) entries)
  | v => endLine (" " ++ scalarText (indent + 2) v)

/-- What stands after the dash of an item. -/
def itemText (indent : Nat) : Value → String
  | .list [] => "[]\n"
  | .dict [] => "\x7b\x7d\n"
  | .list items => joined (indent + 2) (itemTexts (indent + 2) items)
  | .dict entries => joined (indent + 2) (entryTexts (indent + 2) entries)
  | v => endLine (scalarText (indent + 2) v)

/-- The items of a list at the given indentation. -/
def itemTexts (indent : Nat) : List Value → List String
  | [] => []
  | v :: rest => ("- " ++ itemText indent v) :: itemTexts indent rest

/-- The entries of a mapping at the given indentation. -/
def entryTexts (indent : Nat) : List (String × Value) → List String
  | [] => []
  | (key, v) :: rest =>
    (keyText indent key ++ entryText indent (!isLineKey key) v) :: entryTexts indent rest

end

/-- The dictionary as a text. -/
def documentText (entries : Keyed Value) : String :=
  if entries.isEmpty then "\x7b\x7d\n" else joined 0 (entryTexts 0 entries)

end TableScript.Document.Yaml
