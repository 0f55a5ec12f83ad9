import TableScript.Script.Error
import TableScript.Text.Letters
import TableScript.Decimal.Reading

/-!
# Reading tokens

A line is read from left to right, each token taking the longest run of characters that it can. Blanks
separate tokens, and a number sign outside quotes ends the line.

Strings stand in quotes of either kind and escape characters by a backslash. In a raw string, marked by
an `r` before it, the backslash stays in the text but still protects a quote.
-/

namespace TableScript.Script

/-! ## Strings -/

/-- The character that a backslash before `c` stands for. -/
def unescape (c : Char) : Char :=
  if c = 'n' then '\n'
  else if c = 't' then '\t'
  else if c = 'r' then '\r'
  else if c = '0' then '\x00'
  else c

/-- The content of a string after its opening quote, and what follows the closing one. -/
def stringBody (quote : Char) (raw : Bool) : List Char → Option (List Char × List Char)
  | [] => none
  | '\\' :: c :: rest =>
    (stringBody quote raw rest).map fun (body, after) =>
      (if raw then '\\' :: c :: body else unescape c :: body, after)
  | c :: rest =>
    if c = quote then some ([], rest)
    else (stringBody quote raw rest).map fun (body, after) => (c :: body, after)

/-- A string after its opening quote. -/
def readString (quote : Char) (raw : Bool) (cs : List Char) :
    Except SyntaxError (Token × List Char) :=
  match stringBody quote raw cs with
  | some (body, after) => .ok (.str (String.ofList body), after)
  | none => .error .unterminatedString

/-! ## Numbers -/

/-- A digit, or the underscore that may stand between digits. -/
def isDigitOrUnderscore (c : Char) : Bool := c.isDigit || c = '_'

/-- The point and the digits after it, and what follows them. A point with a letter after it is no part
of the number. -/
def splitFraction : List Char → List Char × List Char
  | '.' :: rest =>
    match rest with
    | [] => (['.'], [])
    | c :: _ =>
      if c.isDigit then ('.' :: rest.takeWhile Char.isDigit, rest.dropWhile Char.isDigit)
      else if Text.isAlphabetic c then ([], '.' :: rest)
      else (['.'], rest)
  | cs => ([], cs)

/-- A sign, if any, as characters, and what follows it. -/
def splitSignChars : List Char → List Char × List Char
  | c :: rest => if c = '+' || c = '-' then ([c], rest) else ([], c :: rest)
  | [] => ([], [])

/-- The exponent with its mark, and what follows it. -/
def splitExponent : List Char → List Char × List Char
  | [] => ([], [])
  | c :: rest =>
    if c = 'e' || c = 'E' then
      let (sign, digits) := splitSignChars rest
      match digits.takeWhile Char.isDigit with
      | [] => ([], c :: rest)
      | exponent => (c :: (sign ++ exponent), digits.dropWhile Char.isDigit)
    else ([], c :: rest)

/-- A number, of which the first character is a digit. -/
def readNumber (cs : List Char) : Except SyntaxError (Token × List Char) :=
  let whole := cs.takeWhile isDigitOrUnderscore
  let (fraction, afterFraction) := splitFraction (cs.dropWhile isDigitOrUnderscore)
  let (exponent, after) := splitExponent afterFraction
  let text := (whole ++ fraction ++ exponent).filter (· ≠ '_')
  let token? :=
    if fraction.isEmpty && exponent.isEmpty then (Decimal.readInt64? text).map Token.int
    else (Decimal.readFloat? text).map Token.float
  match token? with
  | some token => .ok (token, after)
  | none => .error (.invalidNumber (String.ofList text))

/-! ## Names and signs -/

/-- A character that a name can go on with. -/
def isNameChar (c : Char) : Bool := Text.isAlphanumeric c || c = '_'

/-- A character that a name can begin with. -/
def isNameStart (c : Char) : Bool := Text.isAlphabetic c || c = '_'

/-- The signs of one character. -/
def sign? : Char → Option Token
  | '=' => some .assign
  | '<' => some .lt
  | '>' => some .gt
  | '(' => some .lParen
  | ')' => some .rParen
  | '[' => some .lBracket
  | ']' => some .rBracket
  | '\x7b' => some .lBrace
  | '\x7d' => some .rBrace
  | ',' => some .comma
  | ':' => some .colon
  | '.' => some .dot
  | '+' => some .plus
  | '-' => some .minus
  | '*' => some .star
  | '/' => some .slash
  | '%' => some .percent
  | '&' => some .amp
  | '|' => some .pipe
  | '~' => some .tilde
  | _ => none

/-- The signs of two characters, of which the second is an equals sign. -/
def signWithEquals? : Char → Option Token
  | '=' => some .eq
  | '!' => some .ne
  | '<' => some .le
  | '>' => some .ge
  | _ => none

/-- A sign of one character, and what follows it. -/
def readShortSign (c : Char) (rest : List Char) : Except SyntaxError (Token × List Char) :=
  match sign? c with
  | some token => .ok (token, rest)
  | none => .error (.unexpectedCharacter c)

/-- A sign, and what follows it. -/
def readSign (c : Char) (rest : List Char) : Except SyntaxError (Token × List Char) :=
  match signWithEquals? c, rest with
  | some token, '=' :: after => .ok (token, after)
  | _, _ => readShortSign c rest

/-- The character opens a string. -/
def isQuote (c : Char) : Bool := c = '\'' || c = '"'

/-- The token that begins with `c`, and what follows it. -/
def readToken (c : Char) (rest : List Char) : Except SyntaxError (Token × List Char) :=
  if isQuote c then readString c false rest
  else if c.isDigit then readNumber (c :: rest)
  else if isNameStart c then
    match rest with
    | quote :: body =>
      if (c = 'r' || c = 'R') && isQuote quote then readString quote true body
      else .ok (.name (String.ofList (c :: rest.takeWhile isNameChar)), rest.dropWhile isNameChar)
    | [] => .ok (.name (String.ofList [c]), [])
  else readSign c rest

/-! ## Lines -/

/-- A character that separates tokens. -/
def isSpace (c : Char) : Bool := c = ' ' || c = '\t' || c = '\r'

/-- The tokens of a line, or that it has not been read to its end within the steps. Each token takes at
least one character, so as many steps as there are characters are enough. -/
def tokensWithin : (steps : Nat) → List Char → Except SyntaxError (List Token)
  | _, [] => .ok []
  | 0, _ => .error .cutOff
  | steps + 1, c :: rest =>
    if isSpace c then tokensWithin steps rest
    else if c = '#' then .ok []
    else
      match readToken c rest with
      | .error e => .error e
      | .ok (token, after) =>
        match tokensWithin steps after with
        | .error e => .error e
        | .ok tokens => .ok (token :: tokens)

/-- The tokens of a line. -/
def tokens (line : List Char) : Except SyntaxError (List Token) := tokensWithin line.length line

end TableScript.Script
