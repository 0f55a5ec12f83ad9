import TableScript.Data.Keyed
import TableScript.Document.Json

/-!
# Tokens of YAML texts

`tokens?` cuts a text into marks and scalars. In block style the marks that open and close levels are not
written: a level opens where a line begins further right than the level it is in, and it closes where a
line begins further left.

Whether a scalar is a key is known only when the colon after it is met. Tokens are therefore put in
*places*: what may become a key is given a place of its own in front of it, and the colon fills that place.
Places that stay empty vanish when the places are joined.
-/

namespace TableScript.Document.Yaml

/-- How a scalar is written. -/
inductive Style where
  | plain
  | single
  | double
  | literal
  | folded
deriving DecidableEq

/-- A mark or a scalar. -/
inductive Token where
  | version (major minor : Nat)
  | tagPrefix (handle start : String)
  | documentStart
  | documentEnd
  | openItems
  | openEntries
  | closeBlock
  | openBracket
  | closeBracket
  | openBrace
  | closeBrace
  | dash
  | comma
  | key
  | colon
  | anchor (name : String)
  | reference (name : String)
  | tag (handle suffix : String)
  | scalar (style : Style) (text : String)

/-! ## Characters -/

/-- A character that a text may hold. -/
def isAllowed (c : Char) : Bool :=
  c = '\t' || c = '\n' || c = '\r' || (' ' ≤ c && c ≤ '~') || c.toNat = 0x85
    || (0xA0 ≤ c.toNat && c.toNat ≤ 0xFFFD) || 0x10000 ≤ c.toNat

/-- A character that ends a line. -/
def isBreak (c : Char) : Bool :=
  c = '\n' || c = '\r' || c.toNat = 0x85 || c.toNat = 0x2028 || c.toNat = 0x2029

/-- A blank inside a line. -/
def isBlank (c : Char) : Bool := c = ' ' || c = '\t'

/-- A character of a name. -/
def isWordChar (c : Char) : Bool := c.isAlphanum || c = '_' || c = '-'

/-- The characters end, or go on with a blank or a new line. -/
def atEdge : List Char → Bool
  | [] => true
  | c :: _ => isBlank c || isBreak c

/-- The characters end or go on with a new line. -/
def atLineEnd : List Char → Bool
  | [] => true
  | c :: _ => isBreak c

/-- The line break that the scalar gets. -/
def breakChar (c : Char) : Char :=
  if c.toNat = 0x2028 || c.toNat = 0x2029 then c else '\n'

/-! ## Places in the text -/

/-- What is left of a text, and where in the text it begins. -/
structure Cursor where
  rest : List Char
  index : Nat
  line : Nat
  column : Nat

namespace Cursor

/-- Past one character of the line. -/
def next (c : Cursor) : Cursor := ⟨c.rest.drop 1, c.index + 1, c.line, c.column + 1⟩

/-- Past some characters of the line. -/
def skip (n : Nat) (c : Cursor) : Cursor := ⟨c.rest.drop n, c.index + n, c.line, c.column + n⟩

/-- Past the characters at the beginning that are as wanted. -/
def skipWhile (p : Char → Bool) (c : Cursor) : Cursor := c.skip (c.rest.takeWhile p).length

/-- Past a line break, if there is one. -/
def nextLine (c : Cursor) : Cursor :=
  match c.rest with
  | '\r' :: '\n' :: rest => ⟨rest, c.index + 2, c.line + 1, 0⟩
  | b :: rest => if isBreak b then ⟨rest, c.index + 1, c.line + 1, 0⟩ else c
  | [] => c

/-- Past a comment, if there is one. -/
def skipComment (c : Cursor) : Cursor :=
  if c.rest.head? = some '#' then c.skipWhile (!isBreak ·) else c

/-- Three characters of this kind begin the line and stand alone. -/
def atTriple (mark : Char) (c : Cursor) : Bool :=
  c.column = 0 && [mark, mark, mark].isPrefixOf c.rest && atEdge (c.rest.drop 3)

/-- A line that separates documents begins here. -/
def atDocumentMark (c : Cursor) : Bool := c.atTriple '-' || c.atTriple '.'

end Cursor

/-! ## Gaps in scalars -/

/-- What stands between two words of a scalar: blanks, or line breaks. Blanks beside a line break do not
count. -/
structure Gap where
  blanks : List Char
  broken : Bool
  first : Option Char
  more : List Char

namespace Gap

/-- No gap. -/
def none : Gap := ⟨[], false, Option.none, []⟩

/-- A gap that begins with a line break that does not count. -/
def escaped : Gap := ⟨[], true, Option.none, []⟩

/-- What the gap stands for: a single line break is a space, and of several the first is dropped. -/
def text (g : Gap) : List Char :=
  if !g.broken then g.blanks
  else match g.first with
    | some '\n' => if g.more.isEmpty then [' '] else g.more
    | some c => c :: g.more
    | Option.none => g.more

/-- The gap goes on up to the next word. On a new line, a tab to the left of `floor` is refused. -/
def read (floor : Nat) : (steps : Nat) → Gap → Cursor → Option (Gap × Cursor)
  | 0, g, c => some (g, c)
  | steps + 1, g, c =>
    match c.rest with
    | [] => some (g, c)
    | b :: _ =>
      if isBlank b then
        if !g.broken then read floor steps { g with blanks := g.blanks ++ [b] } c.next
        else if b = '\t' && c.column < floor then Option.none
        else read floor steps g c.next
      else if isBreak b then
        if !g.broken then read floor steps ⟨[], true, some (breakChar b), []⟩ c.nextLine
        else read floor steps { g with more := g.more ++ [breakChar b] } c.nextLine
      else some (g, c)

end Gap

/-! ## Plain scalars -/

/-- A character that has a meaning of its own between brackets. -/
def isFlowMark (c : Char) : Bool := c = ',' || c = '[' || c = ']' || c = '\x7b' || c = '\x7d'

/-- The characters up to the end of a word, and what follows them. -/
def readPlainWord (inFlow : Bool) : List Char → Option (List Char × List Char)
  | [] => some ([], [])
  | c :: rest =>
    if isBlank c || isBreak c then some ([], c :: rest)
    else if inFlow && c = ':' && (rest.head?.any fun d => isFlowMark d || d = '?') then none
    else if (c = ':' && atEdge rest) || (inFlow && isFlowMark c) then some ([], c :: rest)
    else do
      let (word, after) ← readPlainWord inFlow rest
      return (c :: word, after)

/-- A plain scalar: its text, whether a line ended after it, and what follows. -/
def readPlain (inFlow : Bool) (floor : Nat) :
    (steps : Nat) → (done : List Char) → Gap → Cursor → Option (List Char × Bool × Cursor)
  | 0, done, gap, c => some (done, gap.broken, c)
  | steps + 1, done, gap, c => do
    if c.atDocumentMark || c.rest.head? = some '#' then return (done, gap.broken, c)
    let (word, after) ← readPlainWord inFlow c.rest
    if word.isEmpty then return (done, gap.broken, c)
    let done := done ++ gap.text ++ word
    let c := c.skip word.length
    if after.isEmpty || !atEdge after then return (done, false, c)
    let (gap, c) ← Gap.none.read floor (after.length + 1) c
    if !inFlow && c.column < floor then return (done, gap.broken, c)
    readPlain inFlow floor steps done gap c

/-! ## Quoted scalars -/

/-- The value of hexadecimal digits. -/
def hexValue? (digits : List Char) : Option Nat :=
  digits.foldlM (fun n c => (Json.hexDigit? c).map (n * 16 + ·)) 0

/-- The character whose code is written with so many hexadecimal digits. -/
def readCode (width : Nat) (cs : List Char) : Option (Char × Nat) := do
  let digits := cs.take width
  if digits.length < width then none
  let code ← hexValue? digits
  if (0xD800 ≤ code && code < 0xE000) || 0x10FFFF < code then none
  return (Char.ofNat code, width + 1)

/-- The character that an escape stands for, after the backslash, and how many characters that took. -/
def readEscape : List Char → Option (Char × Nat)
  | [] => none
  | c :: rest =>
    match c with
    | '0' => some ('\x00', 1)
    | 'a' => some ('\x07', 1)
    | 'b' => some ('\x08', 1)
    | 't' | '\t' => some ('\t', 1)
    | 'n' => some ('\n', 1)
    | 'v' => some ('\x0b', 1)
    | 'f' => some ('\x0c', 1)
    | 'r' => some ('\r', 1)
    | 'e' => some ('\x1b', 1)
    | ' ' | '"' | '/' | '\'' | '\\' => some (c, 1)
    | 'N' => some (Char.ofNat 0x85, 1)
    | '_' => some (Char.ofNat 0xA0, 1)
    | 'L' => some (Char.ofNat 0x2028, 1)
    | 'P' => some (Char.ofNat 0x2029, 1)
    | 'x' => readCode 2 rest
    | 'u' => readCode 4 rest
    | 'U' => readCode 8 rest
    | _ => none

/-- A word inside quotes: its text, whether it ends with an escaped line break, and what follows. -/
def readQuotedWord (double : Bool) :
    (steps : Nat) → (done : List Char) → Cursor → Option (List Char × Bool × Cursor)
  | 0, done, c => some (done, false, c)
  | steps + 1, done, c =>
    match c.rest with
    | [] => some (done, false, c)
    | d :: rest =>
      if isBlank d || isBreak d then some (done, false, c)
      else if !double && d = '\'' then
        if rest.head? = some '\'' then readQuotedWord double steps (done ++ ['\'']) (c.skip 2)
        else some (done, false, c)
      else if double && d = '"' then some (done, false, c)
      else if double && d = '\\' then
        if !rest.isEmpty && atLineEnd rest then some (done, true, c.next.nextLine)
        else do
          let (e, width) ← readEscape rest
          readQuotedWord double steps (done ++ [e]) (c.skip (width + 1))
      else readQuotedWord double steps (done ++ [d]) c.next

/-- The text of a quoted scalar after its opening quote, and what follows the closing one. -/
def readQuoted (double : Bool) : (steps : Nat) → (done : List Char) → Cursor → Option (List Char × Cursor)
  | 0, _, _ => none
  | steps + 1, done, c => do
    if c.atDocumentMark || c.rest.isEmpty then none
    let (done, escaped, c) ← readQuotedWord double (c.rest.length + 1) done c
    if !escaped && c.rest.head? = some (if double then '"' else '\'') then return (done, c.next)
    let start := if escaped then Gap.escaped else Gap.none
    let (gap, c) ← start.read 0 (c.rest.length + 1) c
    readQuoted double steps (done ++ gap.text) c

/-! ## Block scalars -/

/-- What becomes of the line breaks at the end of a block scalar. -/
inductive Chomping where
  | strip
  | clip
  | keep
deriving DecidableEq

/-- A digit above zero. -/
def indentDigit? (c : Char) : Option Nat := if '1' ≤ c && c ≤ '9' then some (c.toNat - '0'.toNat) else none

/-- How to chomp. -/
def chomping? : Char → Option Chomping
  | '+' => some .keep
  | '-' => some .strip
  | _ => none

/-- The hints after the mark of a block scalar: how to chomp, and how far the text is indented; and how
many characters they take. -/
def readBlockHints (cs : List Char) : Chomping × Option Nat × Nat :=
  match cs with
  | [] => (.clip, none, 0)
  | a :: rest =>
    match chomping? a, indentDigit? a with
    | some chomp, _ =>
      match rest.head?.bind indentDigit? with
      | some n => (chomp, some n, 2)
      | none => (chomp, none, 1)
    | none, some n =>
      match rest.head?.bind chomping? with
      | some chomp => (chomp, some n, 2)
      | none => (.clip, some n, 1)
    | none, none => (.clip, none, 0)

/-- Empty lines in a block scalar. Without an indentation given, the widest of them is kept. -/
def readEmptyLines (indent : Option Nat) :
    (steps : Nat) → (widest : Nat) → (breaks : List Char) → Cursor → Option (Nat × List Char × Cursor)
  | 0, widest, breaks, c => some (widest, breaks, c)
  | steps + 1, widest, breaks, c =>
    let spaces := (c.rest.takeWhile (· = ' ')).length
    let c := c.skip (match indent with
      | some n => min spaces (n - c.column)
      | none => spaces)
    let widest := max widest c.column
    let inside := match indent with
      | some n => c.column < n
      | none => true
    match c.rest with
    | [] => some (widest, breaks, c)
    | d :: _ =>
      if inside && d = '\t' then none
      else if isBreak d then readEmptyLines indent steps widest (breaks ++ [breakChar d]) c.nextLine
      else some (widest, breaks, c)

/-- A block scalar read so far: its text, the line break at the end of its last line, the empty lines
after that, and whether the last line began with a blank. -/
structure BlockText where
  done : List Char
  lineBreak : List Char
  breaks : List Char
  blankLine : Bool

/-- The lines of a block scalar. In a folded one, a line break between two lines that begin with no blank
is a space. -/
def readBlockLines (folded : Bool) (indent : Nat) : (steps : Nat) → BlockText → Cursor → Option (BlockText × Cursor)
  | 0, t, c => some (t, c)
  | steps + 1, t, c =>
    if c.column ≠ indent || c.rest.isEmpty then some (t, c)
    else do
      let blankLine := c.rest.head?.any isBlank
      let joined :=
        if folded && t.lineBreak = ['\n'] && !t.blankLine && !blankLine then
          if t.breaks.isEmpty then [' '] else []
        else t.lineBreak
      let line := c.rest.takeWhile (!isBreak ·)
      let c := c.skip line.length
      let lineBreak := (c.rest.head?.map breakChar).toList
      let done := t.done ++ joined ++ t.breaks ++ line
      let (_, breaks, c) ← readEmptyLines (some indent) (c.rest.length + 1) 0 [] c.nextLine
      readBlockLines folded indent steps ⟨done, lineBreak, breaks, blankLine⟩ c

/-- A block scalar after its mark, in a level whose content begins at `floor`. -/
def readBlock (folded : Bool) (floor : Nat) (c : Cursor) : Option (List Char × Cursor) := do
  let (chomp, hint, width) := readBlockHints c.rest
  let c := ((c.skip width).skipWhile isBlank).skipComment
  if !atLineEnd c.rest then none
  let c := c.nextLine
  let fuel := c.rest.length + 1
  let given := hint.map (· + (floor - 1))
  let (widest, breaks, c) ← readEmptyLines given fuel 0 [] c
  let indent := given.getD (max widest (max floor 1))
  let (t, c) ← readBlockLines folded indent fuel ⟨[], [], breaks, false⟩ c
  return (t.done ++ (if chomp = .strip then [] else t.lineBreak) ++ (if chomp = .keep then t.breaks else []), c)

/-! ## Names and tags -/

/-- The name of an anchor or of a reference to one, after its mark. -/
def readName (c : Cursor) : Option (String × Cursor) :=
  let name := c.rest.takeWhile isWordChar
  let after := c.skip name.length
  if !name.isEmpty && (atEdge after.rest || after.rest.head?.any (['?', ':', ',', ']', '\x7d', '%', '@', '\x60'].contains ·))
  then some (String.ofList name, after)
  else none

/-- The characters of a tag without its handle, and what follows them. -/
def readUri (whole : Bool) : List Char → Option (List Char × List Char)
  | [] => some ([], [])
  | '%' :: a :: b :: rest => do
    let _ ← hexValue? [a, b]
    let (more, after) ← readUri whole rest
    return ('%' :: a :: b :: more, after)
  | c :: rest =>
    if isWordChar c || ";/?:@&=+$.!~*'()".toList.contains c || (whole && ",[]".toList.contains c) then do
      let (more, after) ← readUri whole rest
      return (c :: more, after)
    else if c = '%' then none
    else some ([], c :: rest)

/-- A tag: its handle and what follows the handle. -/
def readTag (c : Cursor) : Option (String × String × Cursor) :=
  match c.rest with
  | '!' :: '<' :: rest => do
    let (uri, after) ← readUri true rest
    if uri.isEmpty || after.head? ≠ some '>' then none
    return ("", String.ofList uri, c.skip (uri.length + 3))
  | _ :: rest => do
    let word := rest.takeWhile isWordChar
    match rest.drop word.length with
    | '!' :: after => do
      let (suffix, _) ← readUri false after
      if suffix.isEmpty then none
      return (String.ofList ('!' :: word ++ ['!']), String.ofList suffix,
        c.skip (word.length + suffix.length + 2))
    | _ => do
      let (suffix, _) ← readUri false rest
      if suffix.isEmpty then return ("", "!", c.next)
      return ("!", String.ofList suffix, c.skip (suffix.length + 1))
  | [] => none

/-- A number in a directive. -/
def readDirectiveNumber (c : Cursor) : Option (Nat × Cursor) :=
  let digits := c.rest.takeWhile Char.isDigit
  if digits.isEmpty || 9 < digits.length then none
  else some (digits.foldl (fun n d => n * 10 + (d.toNat - '0'.toNat)) 0, c.skip digits.length)

/-- A directive, with the line it is on. -/
def readDirective (c : Cursor) : Option (Token × Cursor) := do
  let name := c.next.rest.takeWhile isWordChar
  let after := c.skip (name.length + 1)
  if name.isEmpty || !atEdge after.rest then none
  let after := after.skipWhile isBlank
  let (token, after) ←
    match String.ofList name with
    | "YAML" => do
      let (major, dot) ← readDirectiveNumber after
      if dot.rest.head? ≠ some '.' then none
      let (minor, after) ← readDirectiveNumber dot.next
      some (Token.version major minor, after)
    | "TAG" => do
      let word := after.rest.drop 1 |>.takeWhile isWordChar
      let closing := after.rest.drop (word.length + 1) |>.head?
      let handle := if closing = some '!' then '!' :: word ++ ['!'] else ['!']
      if after.rest.head? ≠ some '!' || (closing ≠ some '!' && !word.isEmpty) then none
      let after := after.skip handle.length
      if !after.rest.head?.any isBlank then none
      let after := after.skipWhile isBlank
      let (uri, rest) ← readUri true after.rest
      if uri.isEmpty || !atEdge rest then none
      some (Token.tagPrefix (String.ofList handle) (String.ofList uri), after.skip uri.length)
    | _ => none
  let after := (after.skipWhile isBlank).skipComment
  if !atLineEnd after.rest then none
  return (token, after.nextLine)

/-! ## The scanner -/

/-- A place in front of a scalar or a bracket, to be filled when a colon makes a key of what follows. A
key is required where a line of a block mapping begins. -/
structure PossibleKey where
  place : Nat
  index : Nat
  line : Nat
  column : Nat
  required : Bool

/-- A text that is read in part: the places filled so far, the columns of the open block levels from the
inside out, and for each open bracket, and for the text as a whole, what may become a key. -/
structure Scanner extends Cursor where
  places : Array (List Token)
  levels : List Nat
  brackets : Nat
  possible : List (Option PossibleKey)
  keyAllowed : Bool

namespace Scanner

/-- The first column that belongs to the innermost open level. -/
def floor (s : Scanner) : Nat :=
  match s.levels with
  | [] => 0
  | n :: _ => n + 1

/-- Put a token at the end. -/
def push (t : Token) (s : Scanner) : Scanner := { s with places := s.places.push [t] }

/-- Go to another place in the text. -/
def moveTo (c : Cursor) (s : Scanner) : Scanner := { s with toCursor := c }

/-- Go past what lies between tokens: blanks, comments and line breaks. A tab does not count as a blank
where a block level might begin. -/
def skipBetween : (steps : Nat) → Scanner → Scanner
  | 0, s => s
  | steps + 1, s =>
    let blank (c : Char) : Bool := c = ' ' || ((s.brackets ≠ 0 || !s.keyAllowed) && c = '\t')
    let c := (s.toCursor.skipWhile blank).skipComment
    if c.rest.head?.any isBreak then
      skipBetween steps { s with toCursor := c.nextLine, keyAllowed := s.keyAllowed || s.brackets = 0 }
    else s.moveTo c

/-- The key can no longer come: it has to be on one line and not too long. -/
def isStale (s : Scanner) (k : PossibleKey) : Bool := k.line < s.line || k.index + 1024 < s.index

/-- Give up the keys that can no longer come; a required one has to come. -/
def dropStale (s : Scanner) : Option Scanner := do
  let possible ← s.possible.mapM fun
    | none => some none
    | some k => if !s.isStale k then some (some k) else if k.required then none else some none
  return { s with possible }

/-- Give up the innermost key. -/
def dropKey (s : Scanner) : Option Scanner :=
  match s.possible with
  | some k :: outer => if k.required then none else some { s with possible := none :: outer }
  | _ => some s

/-- What comes next may be a key. -/
def saveKey (s : Scanner) : Option Scanner := do
  if !s.keyAllowed then return s
  let s ← s.dropKey
  let required := s.brackets = 0 && s.levels.head? = some s.column
  return { s with
    places := s.places.push []
    possible := some ⟨s.places.size, s.index, s.line, s.column, required⟩ :: s.possible.drop 1 }

/-- Open a block level at a column, unless that is where the innermost one is. -/
def openLevel (column : Nat) (t : Token) (s : Scanner) : List Token × Scanner :=
  if s.brackets = 0 && s.floor ≤ column then ([t], { s with levels := column :: s.levels })
  else ([], s)

/-- Close the block levels that are further right. -/
def closeLevels (column : Nat) (s : Scanner) : Scanner :=
  if s.brackets ≠ 0 then s
  else
    let inner := s.levels.takeWhile (column < ·)
    { s with
      levels := s.levels.drop inner.length
      places := s.places.push (inner.map fun _ => Token.closeBlock) }

/-- Close all block levels. -/
def closeAll (s : Scanner) : Scanner :=
  if s.brackets ≠ 0 then s
  else { s with levels := [], places := s.places.push (s.levels.map fun _ => Token.closeBlock) }

/-- A line that stands for itself: a directive or a mark between documents. -/
def ownLine (t : Token) (c : Cursor) (s : Scanner) : Option Scanner := do
  let s ← s.closeAll.dropKey
  return { (s.push t).moveTo c with keyAllowed := false }

/-- A mark after which a key may come if `allowed` says so. -/
def mark (t : Token) (allowed : Bool) (s : Scanner) : Option Scanner := do
  let s ← s.dropKey
  return { (s.push t).moveTo s.toCursor.next with keyAllowed := allowed }

/-- An opening bracket, which may begin a key. -/
def openFlow (t : Token) (s : Scanner) : Option Scanner := do
  let s ← s.saveKey
  return { (s.push t).moveTo s.toCursor.next with
    brackets := s.brackets + 1, possible := none :: s.possible, keyAllowed := true }

/-- A closing bracket. -/
def closeFlow (t : Token) (s : Scanner) : Option Scanner := do
  let s ← s.dropKey
  let s := (s.push t).moveTo s.toCursor.next
  return { s with
    brackets := s.brackets - 1
    possible := if s.brackets = 0 then s.possible else s.possible.drop 1
    keyAllowed := false }

/-- A dash or a question mark. Outside brackets it may open a level, and needs a place where one may. -/
def blockMark (level t : Token) (s : Scanner) : Option Scanner := do
  if s.brackets = 0 && !s.keyAllowed then none
  let (opened, s) := s.openLevel s.column level
  let s := { s with places := s.places.push opened }
  s.mark t (s.brackets = 0)

/-- A colon. The place of the key before it is filled; where there is none, the key is empty. -/
def colonMark (s : Scanner) : Option Scanner :=
  match s.possible with
  | some k :: outer =>
    let (opened, s) := s.openLevel k.column .openEntries
    let s := { s with
      places := s.places.setIfInBounds k.place (opened ++ [Token.key])
      possible := none :: outer }
    some { (s.push .colon).moveTo s.toCursor.next with keyAllowed := false }
  | _ =>
    if s.brackets = 0 && !s.keyAllowed then none
    else
      let (opened, s) := s.openLevel s.column .openEntries
      let s := { s with places := s.places.push opened }
      some { (s.push .colon).moveTo s.toCursor.next with keyAllowed := s.brackets = 0 }

/-- A part that may begin a key and ends at the given place. -/
def part (t : Token) (c : Cursor) (s : Scanner) : Option Scanner := do
  let s ← s.saveKey
  return { (s.push t).moveTo c with keyAllowed := false }

/-- A character that a plain scalar does not begin with. -/
def isIndicator (c : Char) : Bool := "-?:,[]\x7b\x7d#&*!|>'\"%@\x60".toList.contains c

/-- A plain scalar begins here. -/
def atPlain (inFlow : Bool) (c : Char) (rest : List Char) : Bool :=
  !(isBlank c || isBreak c || isIndicator c)
    || (c = '-' && !(rest.head?.any isBlank))
    || (!inFlow && (c = '?' || c = ':') && !atEdge rest)

/-- Read the token that begins here. -/
def step (s : Scanner) (c : Char) (rest : List Char) : Option Scanner :=
  let fuel := rest.length + 2
  let inFlow := s.brackets ≠ 0
  if s.column = 0 && c = '%' then do
    let (t, after) ← readDirective s.toCursor
    s.ownLine t after
  else if s.atTriple '-' then s.ownLine .documentStart (s.toCursor.skip 3)
  else if s.atTriple '.' then s.ownLine .documentEnd (s.toCursor.skip 3)
  else if c = '[' then s.openFlow .openBracket
  else if c = '\x7b' then s.openFlow .openBrace
  else if c = ']' then s.closeFlow .closeBracket
  else if c = '\x7d' then s.closeFlow .closeBrace
  else if c = ',' then s.mark .comma true
  else if c = '-' && atEdge rest then (s.blockMark .openItems .dash).map ({ · with keyAllowed := true })
  else if c = '?' && (inFlow || atEdge rest) then s.blockMark .openEntries .key
  else if c = ':' && (inFlow || atEdge rest) then s.colonMark
  else if c = '*' then do
    let (name, after) ← readName s.toCursor.next
    s.part (.reference name) after
  else if c = '&' then do
    let (name, after) ← readName s.toCursor.next
    s.part (.anchor name) after
  else if c = '!' then do
    let (handle, suffix, after) ← readTag s.toCursor
    if !(atEdge after.rest || (inFlow && after.rest.head? = some ',')) then none
    s.part (.tag handle suffix) after
  else if (c = '|' || c = '>') && !inFlow then do
    let s ← s.dropKey
    let (body, after) ← readBlock (c = '>') s.floor s.toCursor.next
    let style := if c = '>' then Style.folded else Style.literal
    return { (s.push (.scalar style (String.ofList body))).moveTo after with keyAllowed := true }
  else if c = '\'' || c = '"' then do
    let (body, after) ← readQuoted (c = '"') fuel [] s.toCursor.next
    s.part (.scalar (if c = '"' then .double else .single) (String.ofList body)) after
  else if atPlain inFlow c rest then do
    let (body, lineEnded, after) ← readPlain inFlow s.floor fuel [] Gap.none s.toCursor
    let s ← s.part (.scalar .plain (String.ofList body)) after
    return { s with keyAllowed := lineEnded }
  else none

/-- Read all tokens. -/
def run : (steps : Nat) → Scanner → Option Scanner
  | 0, _ => none
  | steps + 1, s => do
    let s ← (s.skipBetween (s.rest.length + 1)).dropStale
    match s.rest with
    | [] => s.closeAll.dropKey
    | c :: rest =>
      let s ← (s.closeLevels s.column).step c rest
      run steps s

end Scanner

/-- The tokens of a text. -/
def tokens? (cs : List Char) : Option (List Token) := do
  if !cs.all isAllowed then none
  let cs := if cs.head?.map Char.toNat = some 0xFEFF then cs.drop 1 else cs
  let s ← Scanner.run (cs.length + 2) ⟨⟨cs, 0, 0, 0⟩, #[], [], 0, [none], true⟩
  return s.places.toList.flatten

end TableScript.Document.Yaml
