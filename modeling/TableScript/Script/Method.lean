import TableScript.Script.Operand
import TableScript.Frame.Csv
import TableScript.Text.LetterCase

/-!
# Methods, attributes and functions

What can be called in a script, by the kind of what it is called on: dataframes, series, texts, the
library of dataframes, and the functions that need nothing. A few methods of dataframes can also change
the dataframe they are called on.
-/

namespace TableScript.Script

/-! ## Arguments -/

/-- The values of a call's arguments: by position, and by name. -/
structure CallValues where
  positional : List Operand
  keywords : Keyed Operand

namespace CallValues

/-- The argument at a position, or else the one of that name. -/
def get? (args : CallValues) (i : Nat) (name : String) : Option Operand :=
  match args.positional[i]? with
  | some v => some v
  | none => args.keywords.get? name

/-- An argument that has to be there. -/
def required (args : CallValues) (i : Nat) (name : String) : Eval Operand :=
  match args.get? i name with
  | some v => .ok v
  | none => typeError (.missingArgument name)

/-- An argument that has to be a single value if it is there. -/
def scalar? (args : CallValues) (i : Nat) (name : String) : Eval (Option Value) :=
  match args.get? i name with
  | none => .ok none
  | some (.scalar v) => .ok (some v)
  | some other => typeError (.argumentNotScalar name other.kind)

/-- An argument that has to be a whole number if it is there. -/
def int? (args : CallValues) (i : Nat) (name : String) : Eval (Option Int64) := do
  match ← args.scalar? i name with
  | none => return none
  | some (.int n) => return some n
  | some other => typeError (.argumentNotInt name other.kind)

/-- A flag, which is given by name only. -/
def flag (args : CallValues) (name : String) : Eval Bool :=
  match args.keywords.get? name with
  | none => .ok false
  | some (.scalar v) => .ok (truthy v)
  | some other => typeError (.ambiguousTruth other.kind)

end CallValues

/-- Carry the failure of a frame operation into a script. -/
def ofFrame {α : Type} : Except FrameError α → Eval α
  | .ok a => .ok a
  | .error e => .error (.frame e)

/-! ## Dataframes -/

/-- The call changes the dataframe it is made on. -/
def changesFrame (method : String) (args : CallValues) : Eval Bool :=
  if method = "insert" then .ok true
  else if ["rename", "drop", "reset_index", "fillna"].contains method then args.flag "inplace"
  else .ok false

/-- The cells with another value in place of the missing ones. -/
def fillNulls (fill : Value) (cells : List Value) : List Value :=
  cells.map fun v => if v.isNull then fill else v

/-- `insert`: a new column at a position. -/
def insertColumn (f : Frame) (args : CallValues) : Eval Frame := do
  match ← args.int? 0 "loc" with
  | none => typeError (.missingArgument "loc")
  | some position =>
    if position.toInt < 0 || f.columns.length < position.toInt then
      typeError (.insertOutOfBounds position)
    else
      let column ← (← args.required 1 "column").toLabel
      let cells ← (← args.required 2 "value").toCells f.rows
      ofFrame (f.insert position.toInt.toNat column cells).made

/-- The new names of columns. -/
def newNames : List (String × Value) → Eval (Keyed String)
  | [] => .ok []
  | (old, .str new) :: rest => (newNames rest).map ((old, new) :: ·)
  | (_, other) :: _ => typeError (.newNameNotText other.kind)

/-- `rename`: new names for columns, all at once. -/
def renameColumns (f : Frame) (args : CallValues) : Eval Frame :=
  match args.keywords.get? "columns" with
  | some (.scalar (.dict entries)) => do
    let mapping ← newNames entries
    ofFrame (f.rename mapping).made
  | _ => typeError .renameNeedsColumns

/-- The labels of the columns that `drop` removes. -/
def droppedLabels (args : CallValues) : Eval Operand :=
  match args.keywords.get? "columns", args.get? 0 "labels" with
  | some columns, _ => .ok columns
  | none, some labels => do
    match (← args.scalar? 1 "axis").getD (.int 0) with
    | .int n => if n = 1 then return labels else .error (.unsupported .droppingRows)
    | .str s => if s = "columns" then return labels else .error (.unsupported .droppingRows)
    | _ => .error (.unsupported .droppingRows)
  | none, none => typeError .dropNeedsLabels

/-- Remove columns one after the other. -/
def dropAll (f : Frame) : List String → Eval Frame
  | [] => .ok f
  | label :: rest => do
    let f ← ofFrame (f.drop label).made
    dropAll f rest

/-- `drop`: fewer columns. -/
def dropColumns (f : Frame) (args : CallValues) : Eval Frame := do
  let labels ← (← droppedLabels args).toLabels
  dropAll f labels

/-- Put another value in place of the missing cells of columns, one column after the other. -/
def fillAll (fill : Value) (f : Frame) : List String → Eval Frame
  | [] => .ok f
  | header :: rest => do
    let cells := fillNulls fill ((f.column? header).getD [])
    let f ← ofFrame (f.set header cells).made
    fillAll fill f rest

/-- `fillna`: another value in place of the missing cells. -/
def fillFrame (f : Frame) (args : CallValues) : Eval Frame := do
  let fill ← (← args.required 0 "value").toScalar
  fillAll fill f f.headers

/-- The dataframe that a changing method makes. There are no row labels that could be reset. -/
def changeFrame (f : Frame) (method : String) (args : CallValues) : Eval Frame :=
  if method = "insert" then insertColumn f args
  else if method = "rename" then renameColumns f args
  else if method = "drop" then dropColumns f args
  else if method = "reset_index" then .ok f
  else if method = "fillna" then fillFrame f args
  else .error (.unsupported (.inPlace method))

/-- A method of a dataframe that leaves it as it is. -/
def frameMethod (f : Frame) (method : String) (args : CallValues) : Eval Operand :=
  if method = "copy" then .ok (.frame f)
  else if method = "head" then do
    let n := ((← args.int? 0 "n").getD 5).toInt.toNat
    return .frame (f.head n)
  else if ["rename", "drop", "reset_index", "fillna"].contains method then
    (changeFrame f method args).map .frame
  else .error (.unsupported (.frameMethod method))

/-! ## The library of dataframes -/

/-- The columns of a dictionary; a value that is no list is a column of one cell. -/
def columnsOfDict (entries : Keyed Value) : List (String × List Value) :=
  entries.map fun (name, v) =>
    match v with
    | .list items => (name, items)
    | single => (name, [single])

/-- A function of the library of dataframes. -/
def moduleFunction (files : Files) (library function : String) (args : CallValues) : Eval Operand :=
  if function = "read_csv" then do
    match (← args.scalar? 0 "filepath_or_buffer").bind Value.asText? with
    | none => typeError .readNeedsPath
    | some path => (ofFrame (Frame.readCsv files path)).map .frame
  else if function = "DataFrame" then do
    match ← args.scalar? 0 "data" with
    | none => return .frame Frame.empty
    | some (.dict entries) => (ofFrame (Frame.ofColumns (columnsOfDict entries))).map .frame
    | some other => typeError (.columnsNotDict other.kind)
  else .error (.unsupported (.moduleFunction library function))

/-! ## Series -/

/-- The sum of cells, by the addition of scripts. -/
def sumFrom (total : Value) : List Value → Eval Value
  | [] => .ok total
  | v :: rest => do
    let total ← ArithmeticOp.apply .add total v
    sumFrom total rest

/-- A cell as a number to average. -/
def averaged (v : Value) : Eval Float :=
  match number? v with
  | some n => .ok n.toFloat
  | none => typeError (.cannotAverage v.kind)

/-- The mean of numbers. Adding up begins with negative zero, which changes no sum. -/
def mean (xs : List Float) : Value :=
  if xs.isEmpty then .null else .float (xs.foldl (· + ·) (-0.0) / xs.length.toFloat)

/-- The first cell that no other precedes in the wanted order; `best` is the one so far. -/
def extremeFrom (wanted : Ordering) (best : Value) : List Value → Eval Value
  | [] => .ok best
  | v :: rest => do
    let ordering ← order v best
    extremeFrom wanted (if ordering = wanted then v else best) rest

/-- The least or the greatest of the cells, or nothing if there are none. -/
def extreme (wanted : Ordering) : List Value → Eval Value
  | [] => .ok .null
  | v :: rest => extremeFrom wanted v rest

/-- A method of a series. Missing cells do not take part in sums, means, extremes and counts. -/
def seriesMethod (cells : List Value) (method : String) (args : CallValues) : Eval Operand :=
  let present := cells.filter fun v => !v.isNull
  if method = "sum" then (sumFrom (.int 0) present).map .scalar
  else if method = "mean" then do
    let numbers ← present.mapM averaged
    return .scalar (mean numbers)
  else if method = "min" then (extreme .lt present).map .scalar
  else if method = "max" then (extreme .gt present).map .scalar
  else if method = "count" then .ok (.scalar (.ofNat present.length))
  else if method = "fillna" then do
    let fill ← (← args.required 0 "value").toScalar
    return .series (fillNulls fill cells)
  else if method = "abs" then mapNumeric Number.absolute (.series cells)
  else if method = "round" then do
    let places := (← args.int? 0 "decimals").getD 0
    return .series (← cells.mapM (roundValue (some places)))
  else if method = "copy" then .ok (.series cells)
  else if method = "tolist" then .ok (.scalar (.list cells))
  else .error (.unsupported (.seriesMethod method))

/-! ## Texts -/

/-- The characters after `old`, if the characters begin with it. -/
def afterStart? : (old cs : List Char) → Option (List Char)
  | [], cs => some cs
  | _ :: _, [] => none
  | o :: old, c :: cs => if o = c then afterStart? old cs else none

/-- The characters with `new` in place of every `old`, which is not empty, from left to right; the first
`skip` characters belong to one that has been replaced. -/
def replaceFrom (old new : List Char) : (skip : Nat) → List Char → List Char
  | _, [] => []
  | skip + 1, _ :: rest => replaceFrom old new skip rest
  | 0, c :: rest =>
    match afterStart? old (c :: rest) with
    | some _ => new ++ replaceFrom old new (old.length - 1) rest
    | none => c :: replaceFrom old new 0 rest

/-- The text with `new` in place of every `old`. The empty text is found around every character. -/
def replaceText (s old new : String) : String :=
  String.ofList <|
    if old.isEmpty then new.toList ++ s.toList.flatMap fun c => c :: new.toList
    else replaceFrom old.toList new.toList 0 s.toList

/-- A method of a single value; only texts have any. -/
def scalarMethod (v : Value) (method : String) (args : CallValues) : Eval Operand :=
  match v with
  | .str s =>
    if method = "upper" then .ok (.scalar (.str (Text.toUpper s)))
    else if method = "lower" then .ok (.scalar (.str (Text.toLower s)))
    else if method = "strip" then .ok (.scalar (.str (Text.trim s)))
    else if method = "replace" then do
      let old := (← args.scalar? 0 "old").bind Value.asText?
      let new := (← args.scalar? 1 "new").bind Value.asText?
      match old, new with
      | some old, some new => return .scalar (.str (replaceText s old new))
      | _, _ => typeError .replaceNeedsTexts
    else .error (.unsupported (.scalarMethod "str" method))
  | other => .error (.unsupported (.scalarMethod other.kind method))

/-! ## Functions -/

/-- `len`: rows, cells, characters, items or entries. -/
def lengthOf : Operand → Eval Nat
  | .frame f => .ok f.rows
  | .series cells => .ok cells.length
  | .scalar (.str s) => .ok s.length
  | .scalar (.list items) => .ok items.length
  | .scalar (.dict entries) => .ok entries.length
  | other => typeError (.noLength other.kind)

/-- `round`: a value, or every cell of a series. -/
def roundOperand (places : Option Int64) : Operand → Eval Operand
  | .scalar v => (roundValue places v).map .scalar
  | .series cells => (cells.mapM (roundValue (some (places.getD 0)))).map .series
  | other => typeError (.cannotRound other.kind)

/-- `int`: towards zero, and to the nearest end where a number has more than 64 bits. -/
def intOf? : Value → Option Int64
  | .int n => some n
  | .bool b => some (if b then 1 else 0)
  | .float x => if x.isFinite then some x.toInt64 else none
  | .str s => Decimal.readInt64? (Text.trimChars s.toList)
  | _ => none

/-- `float`. -/
def floatOf? : Value → Option Float
  | .str s => Decimal.readFloat? (Text.trimChars s.toList)
  | other => (number? other).map Number.toFloat

/-- A function that is called by its name alone. -/
def callFunction (name : String) (args : CallValues) : Eval Operand :=
  if name = "len" then do
    let n ← lengthOf (← args.required 0 "obj")
    return .scalar (.ofNat n)
  else if name = "abs" then do
    mapNumeric Number.absolute (← args.required 0 "x")
  else if name = "round" then do
    let places ← args.int? 1 "ndigits"
    roundOperand places (← args.required 0 "number")
  else if name = "str" then do
    let v ← (← args.required 0 "object").toScalar
    return .scalar (.str v.text)
  else if name = "int" then do
    let v ← (← args.required 0 "x").toScalar
    match intOf? v with
    | some n => return .scalar (.int n)
    | none => typeError (.notInt v)
  else if name = "float" then do
    let v ← (← args.required 0 "x").toScalar
    match floatOf? v with
    | some x => return .scalar (.float x)
    | none => typeError (.notFloat v)
  else if name = "print" then .ok (.scalar .null)
  else .error (.unknownName name)

/-! ## Attributes -/

/-- An attribute of an operand. -/
def attributeOf (target : Operand) (name : String) : Eval Operand :=
  match target with
  | .frame f =>
    if name = "columns" then .ok (.scalar (.ofTexts f.headers))
    else if name = "shape" then
      .ok (.scalar (.list [.ofNat f.rows, .ofNat f.columns.length]))
    else if name = "empty" then .ok (.scalar (.bool (f.rows == 0)))
    else .error (.unsupported (.lacksAttribute name target.kind))
  | .series cells =>
    if name = "values" then .ok (.scalar (.list cells))
    else .error (.unsupported (.lacksAttribute name target.kind))
  | _ => .error (.unsupported (.lacksAttribute name target.kind))

end TableScript.Script
