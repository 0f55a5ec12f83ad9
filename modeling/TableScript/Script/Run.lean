import TableScript.Script.Method
import TableScript.Script.Parser
import TableScript.Workbook

/-!
# Running scripts

A script runs line by line. Dataframes bound to names make up the workbook; every other value bound to a
name is local to the run and is forgotten with it. A name means one thing at a time: binding it to a
dataframe removes the local of that name, and the other way round.

The library of dataframes is bound to `pd` before the first line, so that scripts need not load it.
-/

namespace TableScript.Script

/-- The names a script can see: the dataframes of the workbook, and the locals. -/
structure Scope where
  book : Workbook
  locals : Keyed Operand

namespace Scope

/-- The scope before the first line. -/
def initial (book : Workbook) : Scope := ⟨book, [("pd", .module "pandas")]⟩

/-- What a name stands for. -/
def lookup (scope : Scope) (name : String) : Eval Operand :=
  match scope.book.frame? name with
  | some f => .ok (.frame f)
  | none =>
    match scope.locals.get? name with
    | some v => .ok v
    | none => .error (.unknownName name)

/-- Bind a name. -/
def bind (scope : Scope) (name : String) : Operand → Scope
  | .frame f => ⟨scope.book.insert name f, scope.locals.erase name⟩
  | other => ⟨scope.book.remove name, scope.locals.put name other⟩

/-- Remove a name. -/
def unbind (scope : Scope) (name : String) : Eval Scope :=
  if scope.book.has name then .ok { scope with book := scope.book.remove name }
  else if scope.locals.has name then .ok { scope with locals := scope.locals.erase name }
  else .error (.unknownName name)

/-- The dataframe of that name, which has to be there. -/
def frame (scope : Scope) (name : String) : Eval Frame :=
  match scope.book.frame? name with
  | some f => .ok f
  | none => .error (.unknownName name)

/-- Put a changed dataframe in the place of the old one. -/
def setFrame (scope : Scope) (name : String) (f : Frame) : Scope :=
  { scope with book := scope.book.insert name f }

end Scope

/-! ## Expressions -/

/-- A step of a run: it can see and change the scope, and fail. -/
abbrev Run := StateT Scope Eval

/-- The dataframe of the workbook that a call changes, with its name. -/
def changedFrame? (scope : Scope) (target : Expr) (method : String) (args : CallValues) :
    Eval (Option (String × Frame)) :=
  match target with
  | .name s =>
    match scope.book.frame? s with
    | some f => (changesFrame method args).map fun changes => if changes then some (s, f) else none
    | none => .ok none
  | _ => .ok none

/-- A call on an operand that leaves the workbook as it is. A changing method on a dataframe without a
name works, but what it makes is lost. -/
def callOn (files : Files) (method : String) (args : CallValues) : Operand → Eval Operand
  | .frame f => do
    if ← changesFrame method args then
      let _ ← changeFrame f method args
      return .scalar .null
    else frameMethod f method args
  | .series cells => seriesMethod cells method args
  | .module library => moduleFunction files library method args
  | .scalar v => scalarMethod v method args

/-- The value of an entry of a dictionary; a series is kept as a list. -/
def entryValue : Operand → Eval Value
  | .series cells => .ok (.list cells)
  | other => other.toScalar

mutual

/-- Evaluate an expression. -/
def eval (files : Files) : Expr → Run Operand
  | .literal v => pure (.scalar v)
  | .name s => do (← get).lookup s
  | .list items => do
    let values ← evalItems files items
    return .scalar (.list values)
  | .dict entries => do
    let values ← evalEntries files [] entries
    return .scalar (.dict values)
  | .unary op operand => do
    let v ← eval files operand
    op.apply v
  | .binary .and left right => do
    match ← eval files left with
    | .scalar v => if truthy v then eval files right else return .scalar v
    | other => typeError (.ambiguousTruth other.kind)
  | .binary .or left right => do
    match ← eval files left with
    | .scalar v => if truthy v then return .scalar v else eval files right
    | other => typeError (.ambiguousTruth other.kind)
  | .binary op left right => do
    let a ← eval files left
    let b ← eval files right
    op.apply a b
  | .index target position => do
    let a ← eval files target
    let b ← eval files position
    subscript a b
  | .member target name => do
    let v ← eval files target
    attributeOf v name
  | .call (.member target method) arguments keywords => do
    let positional ← evalAll files arguments
    let named ← evalKeywords files [] keywords
    let args : CallValues := ⟨positional, named⟩
    match ← changedFrame? (← get) target method args with
    | some (name, f) =>
      let changed ← changeFrame f method args
      modify (·.setFrame name changed)
      return .scalar .null
    | none =>
      let v ← eval files target
      callOn files method args v
  | .call (.name s) arguments keywords => do
    let positional ← evalAll files arguments
    let named ← evalKeywords files [] keywords
    callFunction s ⟨positional, named⟩
  | .call _ arguments keywords => do
    let _ ← evalAll files arguments
    let _ ← evalKeywords files [] keywords
    typeError .notCallable

/-- Evaluate expressions one after the other. -/
def evalAll (files : Files) : List Expr → Run (List Operand)
  | [] => pure []
  | e :: rest => do
    let v ← eval files e
    let vs ← evalAll files rest
    return v :: vs

/-- Evaluate the items of a list. -/
def evalItems (files : Files) : List Expr → Run (List Value)
  | [] => pure []
  | e :: rest => do
    let v ← (← eval files e).toScalar
    let vs ← evalItems files rest
    return v :: vs

/-- Evaluate the entries of a dictionary and put them into those there are. -/
def evalEntries (files : Files) (done : Keyed Value) : List (Expr × Expr) → Run (Keyed Value)
  | [] => pure done
  | (key, e) :: rest => do
    let label ← (← eval files key).toLabel
    let v ← entryValue (← eval files e)
    evalEntries files (done.put label v) rest

/-- Evaluate the arguments given by name and put them to those there are. -/
def evalKeywords (files : Files) (done : Keyed Operand) :
    List (String × Expr) → Run (Keyed Operand)
  | [] => pure done
  | (name, e) :: rest => do
    let v ← eval files e
    evalKeywords files (done.put name v) rest

end

/-! ## Statements -/

/-- Bind a name or set a column. -/
def assign (files : Files) (v : Operand) : Target → Run Unit
  | .name s => modify (·.bind s v)
  | .column name label => do
    let label ← (← eval files label).toLabel
    let f ← (← get).frame name
    let cells ← v.toCells f.rows
    let changed ← ofFrame (f.set label cells).made
    modify (·.setFrame name changed)

/-- Remove a name or a column. -/
def delete (files : Files) : Target → Run Unit
  | .name s => do
    let scope ← (← get).unbind s
    set scope
  | .column name label => do
    let label ← (← eval files label).toLabel
    let f ← (← get).frame name
    let changed ← ofFrame (f.drop label).made
    modify (·.setFrame name changed)

/-- Carry out a statement. Only an expression has a value. -/
def exec (files : Files) : Statement → Run (Option Operand)
  | .load library shortName => do
    if library ≠ "pandas" then
      throw (.unsupported (.module library))
    modify fun scope => { scope with locals := scope.locals.put shortName (.module library) }
    return none
  | .assign target e => do
    let v ← eval files e
    assign files v target
    return none
  | .delete target => do
    delete files target
    return none
  | .expr e => do
    let v ← eval files e
    return some v

/-! ## Scripts -/

/-- The expression that a script ends with, and its value. -/
structure LastExpression where
  value : Operand
  /-- The number of its line, counted from one. -/
  line : Nat
  /-- The text of its line, without blanks around it. -/
  source : String
  /-- It is just a name. -/
  isName : Bool

/-- Where a run has come to: the scope, and the last statement if it was an expression. -/
structure Progress where
  scope : Scope
  last : Option LastExpression

/-- Carry out one line. A line without a statement changes nothing. -/
def runLine (files : Files) (number : Nat) (progress : Progress) (line : List Char) :
    Except ScriptError Progress :=
  match lineStatement? line with
  | .error e => .error ⟨number, .malformed e⟩
  | .ok none => .ok progress
  | .ok (some s) =>
    match (exec files s).run progress.scope with
    | .error e => .error ⟨number, e⟩
    | .ok (none, scope) => .ok ⟨scope, none⟩
    | .ok (some v, scope) =>
      .ok ⟨scope, some ⟨v, number, String.ofList (Text.trimChars line), s.isName⟩⟩

/-- Carry out lines, the first being number `number`. -/
def runLines (files : Files) (number : Nat) (progress : Progress) :
    List (List Char) → Except ScriptError Progress
  | [] => .ok progress
  | line :: rest =>
    match runLine files number progress line with
    | .error e => .error e
    | .ok next => runLines files (number + 1) next rest

/-- What a script leaves: the workbook, and the expression it ended with, if any. -/
structure Outcome where
  book : Workbook
  last : Option LastExpression

/-- Run a script in a scope. -/
def runFrom (files : Files) (scope : Scope) (source : String) : Except ScriptError Progress :=
  runLines files 1 ⟨scope, none⟩ (Text.linesOf source.toList)

/-- Run a script on a workbook, with the library as the only local. -/
def run (files : Files) (book : Workbook) (source : String) : Except ScriptError Outcome :=
  (runFrom files (.initial book) source).map fun progress => ⟨progress.scope.book, progress.last⟩

end TableScript.Script
