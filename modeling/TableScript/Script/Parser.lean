import TableScript.Script.Expr
import TableScript.Script.Lexer

/-!
# Reading statements

A line holds one statement. Operators bind, from the loosest to the tightest: `or`, `and`, `not`, the
comparisons, `|`, `&`, then `+ -`, then `* / %`, then the signs before an operand, then what follows one
(an index, an attribute, a call). Operators between operands group from the left, except that
comparisons do not chain.

Each reader takes tokens and gives what it read and the tokens after it. The readers call each other, and
count their steps; a reading that has none left is cut off, which is neither an answer nor a fault of the
tokens. On the way from one token to the next there are no more calls than there are levels and loops, so
with a number of steps in proportion to the tokens no reading is cut off, and `expression` asks for it.
-/

namespace TableScript.Script

/-- What a reader gives: an answer, or why the tokens have none, or that it has been cut off. -/
abbrev Reading := Except SyntaxError

/-! ## Levels -/

/-- The levels of binding, from the loosest to the tightest. -/
inductive Level where
  | or
  | and
  | not
  | comparison
  | pipe
  | amp
  | sum
  | product
  | sign
  | suffix
deriving DecidableEq

/-- The next tighter level. -/
def Level.next : Level → Level
  | or => and
  | and => not
  | not => comparison
  | comparison => pipe
  | pipe => amp
  | amp => sum
  | sum => product
  | product => sign
  | sign => suffix
  | suffix => suffix

/-- The operator between operands that a token is on a level. -/
def Level.operator? : Level → Token → Option BinaryOp
  | or, .name "or" => some .or
  | and, .name "and" => some .and
  | comparison, .eq => some .eq
  | comparison, .ne => some .ne
  | comparison, .lt => some .lt
  | comparison, .le => some .le
  | comparison, .gt => some .gt
  | comparison, .ge => some .ge
  | pipe, .pipe => some .bitOr
  | amp, .amp => some .bitAnd
  | sum, .plus => some .add
  | sum, .minus => some .sub
  | product, .star => some .mul
  | product, .slash => some .div
  | product, .percent => some .mod
  | _, _ => none

/-- The operator that the tokens begin with on a level, and the tokens after it. -/
def Level.splitOperator? (level : Level) : List Token → Option (BinaryOp × List Token)
  | token :: rest => (level.operator? token).map fun op => (op, rest)
  | [] => none

/-! ## Small readers -/

/-- The wanted token. -/
def expect (wanted : Token) : List Token → Reading (List Token)
  | token :: rest => if token = wanted then .ok rest else .error (.expected wanted (some token))
  | [] => .error (.expected wanted none)

/-- A name. -/
def expectName : List Token → Reading (String × List Token)
  | .name s :: rest => .ok (s, rest)
  | token :: _ => .error (.expectedName (some token))
  | [] => .error (.expectedName none)

/-- A minus sign before an operand. Before a number it makes the negative number. -/
def negated : Expr → Expr
  | .literal (.int n) => .literal (.int (-n))
  | .literal (.float x) => .literal (.float (-x))
  | operand => .unary .neg operand

/-- What a name stands for: three names are values. -/
def nameExpr (s : String) : Expr :=
  if s = "True" then .literal (.bool true)
  else if s = "False" then .literal (.bool false)
  else if s = "None" then .literal .null
  else .name s

/-- The operand that a token is by itself. -/
def Token.operand? : Token → Option Expr
  | .int n => some (.literal (.int n))
  | .float x => some (.literal (.float x))
  | .str s => some (.literal (.str s))
  | .name s => some (nameExpr s)
  | _ => none

/-- The arguments of a call: those given by position and those given by name. -/
structure Arguments where
  positional : List Expr
  keywords : List (String × Expr)

/-- After an item of a list that ends with `close`: a comma, after which the list goes on unless it ends,
or the end. The flag says that the list has ended. -/
def afterItem (close : Token) : List Token → Reading (Bool × List Token)
  | .comma :: rest =>
    match rest with
    | token :: after => if token = close then .ok (true, after) else .ok (false, rest)
    | [] => .ok (false, [])
  | ts => (expect close ts).map fun rest => (true, rest)

/-! ## Expressions -/

mutual

/-- An expression whose operators outside brackets bind no looser than the level. -/
def readLevel : (steps : Nat) → Level → List Token → Reading (Expr × List Token)
  | 0, _, _ => .error .cutOff
  | steps + 1, .not, ts =>
    match ts with
    | .name "not" :: rest => do
      let (operand, after) ← readLevel steps .not rest
      return (.unary .not operand, after)
    | _ => readLevel steps .comparison ts
  | steps + 1, .comparison, ts => do
    let (left, rest) ← readLevel steps .pipe ts
    match Level.comparison.splitOperator? rest with
    | some (op, afterOp) =>
      let (right, after) ← readLevel steps .pipe afterOp
      return (.binary op left right, after)
    | none => return (left, rest)
  | steps + 1, .sign, ts =>
    match ts with
    | .minus :: rest => do
      let (operand, after) ← readLevel steps .sign rest
      return (negated operand, after)
    | .tilde :: rest => do
      let (operand, after) ← readLevel steps .sign rest
      return (.unary .invert operand, after)
    | .plus :: rest => readLevel steps .sign rest
    | _ => readLevel steps .suffix ts
  | steps + 1, .suffix, ts => do
    let (e, rest) ← readPrimary steps ts
    readSuffixes steps e rest
  | steps + 1, level, ts => do
    let (left, rest) ← readLevel steps level.next ts
    readOperands steps level left rest

/-- The rest of a chain of operands on one level, `left` being what stands before it. -/
def readOperands : (steps : Nat) → Level → Expr → List Token → Reading (Expr × List Token)
  | 0, _, _, _ => .error .cutOff
  | steps + 1, level, left, ts =>
    match level.splitOperator? ts with
    | some (op, rest) => do
      let (right, after) ← readLevel steps level.next rest
      readOperands steps level (.binary op left right) after
    | none => .ok (left, ts)

/-- The indexes, attributes and calls after an operand. -/
def readSuffixes : (steps : Nat) → Expr → List Token → Reading (Expr × List Token)
  | 0, _, _ => .error .cutOff
  | steps + 1, e, ts =>
    match ts with
    | .lBracket :: rest => do
      let (position, afterPosition) ← readLevel steps .or rest
      let after ← expect .rBracket afterPosition
      readSuffixes steps (.index e position) after
    | .dot :: rest => do
      let (name, after) ← expectName rest
      readSuffixes steps (.member e name) after
    | .lParen :: rest => do
      let (arguments, after) ←
        match rest with
        | .rParen :: after => .ok (⟨[], []⟩, after)
        | _ => readArguments steps [] rest
      readSuffixes steps (.call e arguments.positional arguments.keywords) after
    | _ => .ok (e, ts)

/-- Arguments up to the closing parenthesis, at least one; `named` are those given by name so far, last
first. After one of them none is given by position. -/
def readArguments : (steps : Nat) → (named : List (String × Expr)) → List Token → Reading (Arguments × List Token)
  | 0, _, _ => .error .cutOff
  | steps + 1, named, ts =>
    match ts with
    | .name s :: .assign :: rest => do
      let (value, afterValue) ← readLevel steps .or rest
      let (ended, after) ← afterItem .rParen afterValue
      if ended then return (⟨[], (named.reverse ++ [(s, value)])⟩, after)
      else readArguments steps ((s, value) :: named) after
    | _ =>
      if named.isEmpty then do
        let (value, afterValue) ← readLevel steps .or ts
        let (ended, after) ← afterItem .rParen afterValue
        if ended then return (⟨[value], []⟩, after)
        else
          let (others, last) ← readArguments steps [] after
          return (⟨value :: others.positional, others.keywords⟩, last)
      else .error .positionalAfterKeyword

/-- An operand without signs and suffixes. -/
def readPrimary : (steps : Nat) → List Token → Reading (Expr × List Token)
  | 0, _ => .error .cutOff
  | steps + 1, ts =>
    match ts with
    | .lParen :: rest => do
      let (e, afterExpr) ← readLevel steps .or rest
      let after ← expect .rParen afterExpr
      return (e, after)
    | .lBracket :: .rBracket :: rest => .ok (.list [], rest)
    | .lBracket :: rest => do
      let (items, after) ← readItems steps rest
      return (.list items, after)
    | .lBrace :: .rBrace :: rest => .ok (.dict [], rest)
    | .lBrace :: rest => do
      let (entries, after) ← readEntries steps rest
      return (.dict entries, after)
    | token :: rest =>
      match token.operand? with
      | some e => .ok (e, rest)
      | none => .error (.unexpected (some token))
    | [] => .error (.unexpected none)

/-- Items up to the closing bracket, at least one. -/
def readItems : (steps : Nat) → List Token → Reading (List Expr × List Token)
  | 0, _ => .error .cutOff
  | steps + 1, ts => do
    let (item, afterExpr) ← readLevel steps .or ts
    let (ended, after) ← afterItem .rBracket afterExpr
    if ended then return ([item], after)
    else
      let (others, last) ← readItems steps after
      return (item :: others, last)

/-- Entries up to the closing brace, at least one. -/
def readEntries : (steps : Nat) → List Token → Reading (List (Expr × Expr) × List Token)
  | 0, _ => .error .cutOff
  | steps + 1, ts => do
    let (key, afterKey) ← readLevel steps .or ts
    let beforeValue ← expect .colon afterKey
    let (value, afterValue) ← readLevel steps .or beforeValue
    let (ended, after) ← afterItem .rBrace afterValue
    if ended then return ([(key, value)], after)
    else
      let (others, last) ← readEntries steps after
      return ((key, value) :: others, last)

end

/-- An expression. -/
def expression (ts : List Token) : Reading (Expr × List Token) := readLevel (12 * (ts.length + 1)) .or ts

/-! ## Statements -/

/-- What an expression before an assignment sign names. -/
def targetOf : Expr → Reading Target
  | .name s => .ok (.name s)
  | .index (.name frame) label => .ok (.column frame label)
  | .index _ _ => .error .notColumnOfName
  | _ => .error .notAssignable

/-- A statement. -/
def statement : List Token → Reading (Statement × List Token)
  | .name "import" :: rest => do
    let (module, afterModule) ← expectName rest
    match afterModule with
    | .name "as" :: afterAs =>
      let (shortName, after) ← expectName afterAs
      return (.load module shortName, after)
    | _ => return (.load module module, afterModule)
  | .name "del" :: rest => do
    let (e, after) ← expression rest
    let target ← targetOf e
    return (.delete target, after)
  | ts => do
    let (e, rest) ← expression ts
    match rest with
    | .assign :: afterSign =>
      let target ← targetOf e
      let (value, after) ← expression afterSign
      return (.assign target value, after)
    | _ => return (.expr e, rest)

/-- The statement of a line, if the line has any. -/
def lineStatement? (line : List Char) : Reading (Option Statement) := do
  let ts ← tokens line
  if ts.isEmpty then return none
  let (s, rest) ← statement ts
  match rest with
  | [] => return some s
  | token :: _ => .error (.afterStatement token)

end TableScript.Script
