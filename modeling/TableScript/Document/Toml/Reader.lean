import TableScript.Document.Json
import TableScript.Document.Record
import TableScript.Document.Toml.Moment

/-!
# Reading TOML

TOML texts as trees. A text consists of lines: a key with its value, or the header of a table or of one
element of a list of tables, to which the keys that follow belong. A table may be given in parts. Which
parts may be added to it depends on where it came from: its own header, a longer header, or a dotted key.
Keys keep the order in which they first come, but a table whose header comes after that of a table inside it
goes to the end.
-/

namespace TableScript.Document

/-- A TOML text as a tree. -/
inductive Toml where
  | bool (b : Bool)
  | int (n : Int64)
  | float (x : Float)
  | str (s : String)
  | moment (text : String)
  | list (items : List Toml)
  | table (entries : List (String × Toml))
deriving Inhabited

namespace Toml

/-! ## Characters and blanks -/

/-- A character that comments and texts may hold. -/
def isAllowed (c : Char) : Bool := c = '\t' || (' ' ≤ c && c ≠ '\x7f')

/-- A blank inside a line. -/
def isBlank (c : Char) : Bool := c = ' ' || c = '\t'

/-- What follows the blanks. -/
def skipBlanks (cs : List Char) : List Char := cs.dropWhile isBlank

/-- What follows a line break, if there is one. -/
def afterBreak? : List Char → Option (List Char)
  | '\n' :: rest => some rest
  | '\r' :: '\n' :: rest => some rest
  | _ => none

/-- What follows a comment, if there is one. -/
def skipComment (cs : List Char) : List Char :=
  if cs.head? = some '#' then cs.dropWhile isAllowed else cs

/-- What follows the end of a line, with its comment. -/
def endLine (cs : List Char) : Option (List Char) :=
  match skipComment (skipBlanks cs) with
  | [] => some []
  | rest => afterBreak? rest

/-- What follows blanks, comments and line breaks. -/
def skipLines : (steps : Nat) → List Char → List Char
  | 0, cs => cs
  | steps + 1, cs =>
    let rest := skipComment (skipBlanks cs)
    match afterBreak? rest with
    | some after => skipLines steps after
    | none => rest

/-! ## Texts -/

/-- The character of an escape, after the backslash, and what follows it. -/
def readEscape : List Char → Option (Char × List Char)
  | [] => none
  | c :: rest =>
    let code (width : Nat) : Option (Char × List Char) := do
      let digits := rest.take width
      if digits.length < width then none
      let n ← digits.foldlM (fun n d => (Json.hexDigit? d).map (n * 16 + ·)) 0
      if (0xD800 ≤ n && n < 0xE000) || 0x10FFFF < n then none
      return (Char.ofNat n, rest.drop width)
    match c with
    | 'b' => some ('\x08', rest)
    | 't' => some ('\t', rest)
    | 'n' => some ('\n', rest)
    | 'f' => some ('\x0c', rest)
    | 'r' => some ('\r', rest)
    | '"' => some ('"', rest)
    | '\\' => some ('\\', rest)
    | 'u' => code 4
    | 'U' => code 8
    | _ => none

/-- A text on one line after its opening quote, and what follows the closing one. -/
def readLineText (quote : Char) : (steps : Nat) → List Char → Option (List Char × List Char)
  | 0, _ => none
  | _, [] => none
  | steps + 1, c :: rest =>
    if c = quote then some ([], rest)
    else if c = '\\' && quote = '"' then do
      let (c, after) ← readEscape rest
      let (body, last) ← readLineText quote steps after
      return (c :: body, last)
    else if isAllowed c then do
      let (body, last) ← readLineText quote steps rest
      return (c :: body, last)
    else none

/-- A line break after a backslash, and the blanks and line breaks after it; at least one line ends. -/
def skipEscapedBreak (cs : List Char) : Option (List Char) := do
  let after ← afterBreak? (skipBlanks cs)
  return after.dropWhile fun c => isBlank c || c = '\n' || c = '\r'

/-- A text of several lines after its opening quotes, and what follows the closing ones. Up to two quotes
may stand in it, also at its end. -/
def readLongText (quote : Char) : (steps : Nat) → List Char → Option (List Char × List Char)
  | 0, _ => none
  | _, [] => none
  | steps + 1, c :: rest =>
    if c = quote then
      let quotes := 1 + (rest.takeWhile (· = quote)).length
      if quotes < 3 then do
        let (body, last) ← readLongText quote steps rest
        return (c :: body, last)
      else
        let inside := min (quotes - 3) 2
        some (List.replicate inside quote, rest.drop (inside + 2))
    else if c = '\\' && quote = '"' then
      match skipEscapedBreak rest with
      | some after => readLongText quote steps after
      | none => do
        let (c, after) ← readEscape rest
        let (body, last) ← readLongText quote steps after
        return (c :: body, last)
    else match afterBreak? (c :: rest) with
      | some after => do
        let (body, last) ← readLongText quote steps after
        return ('\n' :: body, last)
      | none =>
        if isAllowed c then do
          let (body, last) ← readLongText quote steps rest
          return (c :: body, last)
        else none

/-- A text after the first of its opening quotes. -/
def readText (quote : Char) (cs : List Char) : Option (String × List Char) := do
  let fuel := cs.length + 1
  let (body, rest) ←
    if [quote, quote].isPrefixOf cs then
      let cs := cs.drop 2
      readLongText quote fuel ((afterBreak? cs).getD cs)
    else readLineText quote fuel cs
  return (String.ofList body, rest)

/-! ## Keys -/

/-- A character of a key without quotes. -/
def isKeyChar (c : Char) : Bool := c.isAlphanum || c = '_' || c = '-'

/-- One part of a key, and what follows it. -/
def readKeyPart (cs : List Char) : Option (String × List Char) :=
  match cs with
  | [] => none
  | c :: rest =>
    if c = '"' || c = '\'' then do
      let (body, after) ← readLineText c (rest.length + 1) rest
      return (String.ofList body, after)
    else
      let key := cs.takeWhile isKeyChar
      if key.isEmpty then none else some (String.ofList key, cs.drop key.length)

/-- A key, whose parts are joined by points, and what follows it and the blanks after it. -/
def readKey : (steps : Nat) → List Char → Option (List String × List Char)
  | 0, _ => none
  | steps + 1, cs => do
    let (part, rest) ← readKeyPart (skipBlanks cs)
    match skipBlanks rest with
    | '.' :: more => do
      let (parts, after) ← readKey steps more
      return (part :: parts, after)
    | after => return ([part], after)

/-- The deepest nesting, and the greatest number of parts of a key. -/
def depthLimit : Nat := 79

/-! ## Numbers -/

/-- Every underscore stands between two digits. -/
def isDivided : (afterDigit : Bool) → List Char → Bool
  | afterDigit, [] => afterDigit
  | afterDigit, c :: rest => if c = '_' then afterDigit && isDivided false rest else isDivided true rest

/-- Digits that single underscores may divide, without the underscores, and what follows them. -/
def readDivided (isDigit : Char → Bool) (cs : List Char) : Option (List Char × List Char) :=
  let run := cs.takeWhile fun c => isDigit c || c = '_'
  if isDivided false run then some (run.filter (· ≠ '_'), cs.drop run.length) else none

/-- A whole number in the base that is given. -/
def readBased (base : Nat) (cs : List Char) : Option (Toml × List Char) := do
  let isDigit (c : Char) : Bool := (Json.hexDigit? c).any (· < base)
  let (digits, rest) ← readDivided isDigit cs
  let n := digits.foldl (fun n c => n * base + (Json.hexDigit? c).getD 0) 0
  return (int (← Decimal.int64? n), rest)

/-- The digits before the point, of which zero is the only one with a zero in front. -/
def readWholeDigits (cs : List Char) : Option (List Char × List Char) :=
  match cs with
  | '0' :: rest => some (['0'], rest)
  | _ => readDivided Char.isDigit cs

/-- A point with its digits, if there is one. -/
def readFraction (cs : List Char) : Option (List Char × List Char) :=
  match cs with
  | '.' :: rest => (readDivided Char.isDigit rest).map fun (digits, after) => ('.' :: digits, after)
  | _ => some ([], cs)

/-- An exponent with its mark, if there is one. -/
def readExponent (cs : List Char) : Option (List Char × List Char) :=
  match cs with
  | [] => some ([], [])
  | c :: rest =>
    if c = 'e' || c = 'E' then
      let (sign, digits) := match rest with
        | '+' :: more => (['+'], more)
        | '-' :: more => (['-'], more)
        | _ => ([], rest)
      (readDivided Char.isDigit digits).map fun (digits, after) => ('e' :: (sign ++ digits), after)
    else some ([], cs)

/-- A number in base ten after its sign. One that is too great for a floating point number is refused
where it is positive. -/
def readDecimal (negative : Bool) (cs : List Char) : Option (Toml × List Char) := do
  let (whole, rest) ← readWholeDigits cs
  let (fraction, rest) ← readFraction rest
  let (exponent, rest) ← readExponent rest
  if fraction.isEmpty && exponent.isEmpty then
    let n : Int := Decimal.digitsValue 0 whole
    return (int (← Decimal.int64? (if negative then -n else n)), rest)
  else
    let x ← Decimal.readFloat? (whole ++ fraction ++ exponent)
    if !negative && !x.isFinite then none
    return (float (if negative then -x else x), rest)

/-- The words for infinity and for what is no number, after a sign, if any. -/
def readSpecial (negative : Bool) (cs : List Char) : Option (Toml × List Char) :=
  match cs with
  | 'i' :: 'n' :: 'f' :: rest => some (float (if negative then -1.0 / 0.0 else 1.0 / 0.0), rest)
  | 'n' :: 'a' :: 'n' :: rest => some (float (0.0 / 0.0), rest)
  | _ => none

/-- A moment or a number, and what follows it. -/
def readNumber (cs : List Char) : Option (Toml × List Char) :=
  match readMoment cs with
  | some (text, rest) => some (moment text, rest)
  | none =>
    match cs with
    | '0' :: 'x' :: rest => readBased 16 rest
    | '0' :: 'o' :: rest => readBased 8 rest
    | '0' :: 'b' :: rest => readBased 2 rest
    | '-' :: rest => (readSpecial true rest).or (readDecimal true rest)
    | '+' :: rest => (readSpecial false rest).or (readDecimal false rest)
    | _ => (readSpecial false cs).or (readDecimal false cs)

/-! ## Tables in parts -/

/-- Where a table came from: its own header, a longer header, or a dotted key. -/
inductive Origin where
  | header
  | implied
  | dotted
deriving DecidableEq

/-- What stands under a key so far. The last table of a list of tables may still get keys. -/
inductive Item where
  | value (v : Toml)
  | table (origin : Origin) (entries : List (String × Item))
  | tables (elements : List (List (String × Item)))

/-- What stands under the keys of a table so far. -/
abbrev Items := Keyed Item

/-- Change the entries of what stands under a key and takes keys. -/
def Item.change (f : Items → Option Items) : Item → Option Item
  | .value _ => none
  | .table origin entries => (f entries).map (.table origin)
  | .tables elements =>
    match elements.getLast? with
    | some last => (f last).map fun changed => .tables (elements.dropLast ++ [changed])
    | none => none

/-- Put a value under a key, into these entries if they take it or into tables inside them. Of those only
the ones that dotted keys have made take values this way. -/
def putKey (v : Toml) : (takes : Bool) → List String → Items → Option Items
  | _, [], _ => none
  | takes, [key], entries =>
    if takes && !entries.has key then some (entries ++ [(key, .value v)]) else none
  | _, key :: more, entries =>
    match entries.get? key with
    | none => (putKey v true more []).map fun inner => entries ++ [(key, .table .dotted inner)]
    | some (.table .header _) => none
    | some (.table origin inner) =>
      (putKey v (origin = .dotted) more inner).map fun inner => entries.put key (.table origin inner)
    | some item => (item.change (putKey v false more)).map fun item => entries.put key item

/-- Change the entries that a header leads to. -/
def atHeader (f : Items → Option Items) : List String → Items → Option Items
  | [], entries => f entries
  | key :: more, entries =>
    match entries.get? key with
    | none => (atHeader f more []).map fun inner => entries ++ [(key, .table .implied inner)]
    | some item => (item.change (atHeader f more)).map fun item => entries.put key item

/-- The header of a table. It may have been implied before, and no more than that. -/
def openTable (key : String) (entries : Items) : Option Items :=
  match entries.get? key with
  | none => some (entries ++ [(key, .table .header [])])
  | some (.table .implied inner) => some (entries.erase key ++ [(key, .table .header inner)])
  | some _ => none

/-- The header of an element of a list of tables. -/
def openElement (key : String) (entries : Items) : Option Items :=
  match entries.get? key with
  | none => some (entries ++ [(key, .tables [[]])])
  | some (.tables elements) => some (entries.put key (.tables (elements ++ [[]])))
  | some _ => none

mutual

/-- What stands under a key in the end. -/
def Item.close : Item → Toml
  | .value v => v
  | .table _ entries => table (closeEntries entries)
  | .tables elements => list (closeElements elements)

/-- The entries of a table in the end. -/
def closeEntries : List (String × Item) → List (String × Toml)
  | [] => []
  | (key, item) :: rest => (key, item.close) :: closeEntries rest

/-- The elements of a list of tables in the end. -/
def closeElements : List (List (String × Item)) → List Toml
  | [] => []
  | entries :: rest => table (closeEntries entries) :: closeElements rest

end

/-! ## Values -/

mutual

/-- A value, which may be nested so deep, and what follows it. -/
def readValue : (steps depth : Nat) → List Char → Option (Toml × List Char)
  | 0, _, _ => none
  | steps + 1, depth, cs =>
    match cs with
    | [] => none
    | c :: rest =>
      if c = '"' || c = '\'' then (readText c rest).map fun (s, after) => (str s, after)
      else if c = '[' then
        if depth = 0 then none
        else (readItems steps (depth - 1) rest).map fun (items, after) => (list items, after)
      else if c = '\x7b' then
        if depth = 0 then none
        else match skipBlanks rest with
          | '\x7d' :: after => some (table [], after)
          | _ => (readPairs steps (depth - 1) [] rest).map fun (items, after) => (table (closeEntries items), after)
      else if c = 't' then (Json.afterWord? "rue" rest).map fun after => (bool true, after)
      else if c = 'f' then (Json.afterWord? "alse" rest).map fun after => (bool false, after)
      else readNumber cs

/-- Items of a list up to the closing bracket. A comma may come after the last of them. -/
def readItems : (steps depth : Nat) → List Char → Option (List Toml × List Char)
  | 0, _, _ => none
  | steps + 1, depth, cs =>
    let cs := skipLines (cs.length + 1) cs
    match cs with
    | ']' :: after => some ([], after)
    | _ => do
      let (item, rest) ← readValue steps depth cs
      match skipLines (rest.length + 1) rest with
      | ']' :: after => return ([item], after)
      | ',' :: more => do
        let (items, after) ← readItems steps depth more
        return (item :: items, after)
      | _ => none

/-- Keys with their values up to the closing brace, at least one, on one line. -/
def readPairs : (steps depth : Nat) → Items → List Char → Option (Items × List Char)
  | 0, _, _, _ => none
  | steps + 1, depth, done, cs => do
    let (key, rest) ← readKey depthLimit cs
    let rest ← expect '=' rest
    let (value, rest) ← readValue steps depth (skipBlanks rest)
    let done ← putKey value true key done
    match skipBlanks rest with
    | '\x7d' :: after => return (done, after)
    | ',' :: more => readPairs steps depth done more
    | _ => none

end

/-! ## Lines -/

/-- A header: its key, whether it is that of an element of a list, and what follows the line. -/
def readHeader (cs : List Char) : Option (List String × Bool × List Char) := do
  match cs with
  | '[' :: '[' :: rest => do
    let (key, rest) ← readKey depthLimit rest
    let rest ← expect ']' (← expect ']' rest)
    return (key, true, ← endLine rest)
  | '[' :: rest => do
    let (key, rest) ← readKey depthLimit rest
    return (key, false, ← endLine (← expect ']' rest))
  | _ => none

/-- A key with its value, and what follows the line. -/
def readPair (cs : List Char) : Option (List String × Toml × List Char) := do
  let (key, rest) ← readKey depthLimit cs
  let rest ← expect '=' rest
  let (value, rest) ← readValue (2 * rest.length + 2) depthLimit (skipBlanks rest)
  return (key, value, ← endLine rest)

/-- The lines of a text, the keys of which belong to the table under `header`. -/
def readLines : (steps : Nat) → (header : List String) → Items → List Char → Option Items
  | 0, _, _, _ => none
  | steps + 1, header, items, cs =>
    match skipBlanks cs with
    | [] => some items
    | c :: rest =>
      match endLine (c :: rest) with
      | some after => readLines steps header items after
      | none =>
        if c = '[' then do
          let (key, isElement, after) ← readHeader (c :: rest)
          let last ← key.getLast?
          let items ← atHeader (if isElement then openElement last else openTable last) key.dropLast items
          readLines steps key items after
        else do
          let (key, value, after) ← readPair (c :: rest)
          let items ← atHeader (putKey value true key) header items
          readLines steps header items after

/-- The root table of a text. -/
def ofText? (cs : List Char) : Option (List (String × Toml)) := do
  let cs := if cs.head?.map Char.toNat = some 0xFEFF then cs.drop 1 else cs
  return closeEntries (← readLines (cs.length + 1) [] [] cs)

/-! ## Values -/

/-- The key under which a moment stands where values are expected. -/
def momentKey : String := "$__toml_private_datetime"

mutual

/-- A tree as a value. A moment is a dictionary with its text. -/
def toValue : Toml → Value
  | bool b => .bool b
  | int n => .int n
  | float x => .float x
  | str s => .str s
  | moment text => .dict [(momentKey, .str text)]
  | list items => .list (toItems items)
  | table entries => .dict (toEntries entries)

/-- The items of a list as values. -/
def toItems : List Toml → List Value
  | [] => []
  | v :: rest => toValue v :: toItems rest

/-- The entries of a table as values. -/
def toEntries : List (String × Toml) → List (String × Value)
  | [] => []
  | (key, v) :: rest => (key, toValue v) :: toEntries rest

end

/-- TOML trees as records. -/
def view : View Toml where
  parts?
    | table entries => some (.named entries)
    | list items => some (.ordered items)
    | _ => none
  items?
    | list items => some items
    | _ => none
  text?
    | str s => some s
    | _ => none
  count?
    | int n => if 0 ≤ n.toInt then some n.toInt.toNat else none
    | _ => none
  params?
    | table entries => some (toEntries entries)
    | moment text => some [(momentKey, .str text)]
    | _ => none
  openEnded := true

end Toml

end TableScript.Document
