import TableScript.Proofs.Rectangles

/-!
# Checked runs

Some operations that a run is made of are not defined everywhere. A machine that carries out a script
adds words of 64 bits, reads slices of columns, and takes for granted that only operators of arithmetic
get to its arithmetic, and only comparisons to its comparison. Where that does not hold it stops.

Here runs are carried out by such a machine. Its operations check what they rely on, and stop with a
*fault* where it fails (`Checked`). A fault is no error: no script can see it, and the run is over.

The remainder and negative indexes are computed the way the machine does it, by the sums that could get
too long. A list of `2 ^ 63` items is longer than any memory, so nothing is checked of its indexes.
-/

namespace TableScript.Script

/-- What a machine gives that can stop: a result or an error, or nothing after a fault. -/
abbrev Checked := ExceptT StatementError Option

namespace Checked

/-- A step of a checked run. -/
abbrev Run := StateT Scope Checked

/-- The machine stops. -/
def fault {α : Type} : Checked α := ExceptT.mk none

/-! ## Whole numbers -/

/-- The sum of two words, if it is a word. -/
def add (x y : Int64) : Checked Int64 :=
  match Decimal.int64? (x.toInt + y.toInt) with
  | some sum => pure sum
  | none => fault

/-- The remainder with the sign of the divisor, made of the one with the sign of the dividend. -/
def remainder (x y : Int64) : Checked Value :=
  if y = 0 then pure .null
  else
    let r := x % y
    if r ≠ 0 ∧ (r < 0) ≠ (y < 0) then do
      let sum ← add r y
      return .int sum
    else pure (.int r)

/-! ## Operators -/

/-- The operator of arithmetic that an operator is. -/
def arithmeticOp? : BinaryOp → Option ArithmeticOp
  | .add => some .add
  | .sub => some .sub
  | .mul => some .mul
  | .div => some .div
  | .mod => some .mod
  | _ => none

/-- The comparison that an operator is. -/
def comparison? : BinaryOp → Option Comparison
  | .eq => some .eq
  | .ne => some .ne
  | .lt => some .lt
  | .le => some .le
  | .gt => some .gt
  | .ge => some .ge
  | _ => none

/-- Arithmetic on values. Any other operator is a fault. -/
def arithmetic (op : BinaryOp) (a b : Value) : Checked Value :=
  match arithmeticOp? op with
  | none => fault
  | some op =>
    match op, number? a, number? b with
    | .mod, some (.int x), some (.int y) => remainder x y
    | op, _, _ => liftM (op.apply a b)

/-- Comparing values. Any other operator is a fault. -/
def compare (op : BinaryOp) (a b : Value) : Checked Value :=
  match comparison? op with
  | none => fault
  | some op => liftM (op.apply a b)

/-- Apply an operator to two values. -/
def onValues (op : BinaryOp) (a b : Value) : Checked Value :=
  match op with
  | .add | .sub | .mul | .div | .mod => arithmetic op a b
  | .eq | .ne | .lt | .le | .gt | .ge => compare op a b
  | .bitAnd | .bitOr | .and | .or => liftM (op.onValues a b)

/-- Apply an operator between operands. -/
def binary (op : BinaryOp) : Operand → Operand → Checked Operand
  | .scalar a, .scalar b => do
    let c ← onValues op a b
    return .scalar c
  | .series as, .series bs => do
    if as.length ≠ bs.length then
      typeError (.seriesLengths as.length bs.length)
    else
      let cells ← (as.zip bs).mapM fun pair => onValues op pair.1 pair.2
      return .series cells
  | .series as, .scalar b => do
    let cells ← as.mapM fun a => onValues op a b
    return .series cells
  | .scalar a, .series bs => do
    let cells ← bs.mapM fun b => onValues op a b
    return .series cells
  | left, right => liftM (op.apply left right)

/-! ## Indexes and methods -/

/-- The item of a list at a position; a negative one is added to the length. -/
def itemAt (items : List Value) (i : Int64) : Checked Operand :=
  if i.toInt < 0 ∧ items.length < Nat.pow 2 63 then do
    let position ← add (Int64.ofNat items.length) i
    match (if position.toInt < 0 then none else items[position.toInt.toNat]?) with
    | some v => return .scalar v
    | none => throw (.key (decimalText i))
  else liftM (Script.itemAt items i)

/-- What stands in brackets after an operand. -/
def subscript : Operand → Operand → Checked Operand
  | .scalar (.list items), .scalar (.int i) => itemAt items i
  | a, b => liftM (Script.subscript a b)

/-- The first rows. Every column has to have as many cells. -/
def head (f : Frame) (n : Nat) : Checked Frame :=
  if f.columns.all fun column => min n f.rows ≤ column.2.length then pure (f.head n) else fault

/-- A method of a dataframe that leaves it as it is. -/
def frameMethod (f : Frame) (method : String) (args : CallValues) : Checked Operand :=
  if method = "head" then do
    let n ← args.int? 0 "n"
    let f ← head f (n.getD 5).toInt.toNat
    return .frame f
  else liftM (Script.frameMethod f method args)

/-- A method of a series. A sum is made by arithmetic. -/
def seriesMethod (cells : List Value) (method : String) (args : CallValues) : Checked Operand :=
  if method = "sum" then do
    let sum ← (cells.filter fun v => !v.isNull).foldlM (arithmetic .add) (.int 0)
    return .scalar sum
  else liftM (Script.seriesMethod cells method args)

/-- A call on an operand that leaves the workbook as it is. -/
def callOn (files : Files) (method : String) (args : CallValues) : Operand → Checked Operand
  | .frame f => do
    if ← changesFrame method args then
      let _ ← changeFrame f method args
      return .scalar .null
    else frameMethod f method args
  | .series cells => seriesMethod cells method args
  | other => liftM (Script.callOn files method args other)

/-! ## Expressions -/

mutual

/-- Evaluate an expression. -/
def eval (files : Files) : Expr → Run Operand
  | .literal v => pure (.scalar v)
  | .name s => do (← get).lookup s
  | .list items => do
    let values ← evalItems files items
    return .scalar (.list values)
  | .dict entries => do
    let values ← evalEntries files [] entries
    return .scalar (.dict values)
  | .unary op operand => do
    let v ← eval files operand
    op.apply v
  | .binary .and left right => do
    match ← eval files left with
    | .scalar v => if truthy v then eval files right else return .scalar v
    | other => typeError (.ambiguousTruth other.kind)
  | .binary .or left right => do
    match ← eval files left with
    | .scalar v => if truthy v then return .scalar v else eval files right
    | other => typeError (.ambiguousTruth other.kind)
  | .binary op left right => do
    let a ← eval files left
    let b ← eval files right
    binary op a b
  | .index target position => do
    let a ← eval files target
    let b ← eval files position
    subscript a b
  | .member target name => do
    let v ← eval files target
    attributeOf v name
  | .call (.member target method) arguments keywords => do
    let positional ← evalAll files arguments
    let named ← evalKeywords files [] keywords
    let args : CallValues := ⟨positional, named⟩
    match ← changedFrame? (← get) target method args with
    | some (name, f) =>
      let changed ← changeFrame f method args
      modify (·.setFrame name changed)
      return .scalar .null
    | none =>
      let v ← eval files target
      callOn files method args v
  | .call (.name s) arguments keywords => do
    let positional ← evalAll files arguments
    let named ← evalKeywords files [] keywords
    callFunction s ⟨positional, named⟩
  | .call _ arguments keywords => do
    let _ ← evalAll files arguments
    let _ ← evalKeywords files [] keywords
    typeError .notCallable

/-- Evaluate expressions one after the other. -/
def evalAll (files : Files) : List Expr → Run (List Operand)
  | [] => pure []
  | e :: rest => do
    let v ← eval files e
    let vs ← evalAll files rest
    return v :: vs

/-- Evaluate the items of a list. -/
def evalItems (files : Files) : List Expr → Run (List Value)
  | [] => pure []
  | e :: rest => do
    let v ← (← eval files e).toScalar
    let vs ← evalItems files rest
    return v :: vs

/-- Evaluate the entries of a dictionary and put them into those there are. -/
def evalEntries (files : Files) (done : Keyed Value) : List (Expr × Expr) → Run (Keyed Value)
  | [] => pure done
  | (key, e) :: rest => do
    let label ← (← eval files key).toLabel
    let v ← entryValue (← eval files e)
    evalEntries files (done.put label v) rest

/-- Evaluate the arguments given by name and put them to those there are. -/
def evalKeywords (files : Files) (done : Keyed Operand) : List (String × Expr) → Run (Keyed Operand)
  | [] => pure done
  | (name, e) :: rest => do
    let v ← eval files e
    evalKeywords files (done.put name v) rest

end

/-! ## Statements -/

/-- Bind a name or set a column. -/
def assign (files : Files) (v : Operand) : Target → Run Unit
  | .name s => modify (·.bind s v)
  | .column name label => do
    let label ← (← eval files label).toLabel
    let f ← (← get).frame name
    let cells ← v.toCells f.rows
    let changed ← ofFrame (f.set label cells).made
    modify (·.setFrame name changed)

/-- Remove a name or a column. -/
def delete (files : Files) : Target → Run Unit
  | .name s => do
    let scope ← (← get).unbind s
    set scope
  | .column name label => do
    let label ← (← eval files label).toLabel
    let f ← (← get).frame name
    let changed ← ofFrame (f.drop label).made
    modify (·.setFrame name changed)

/-- Carry out a statement. Only an expression has a value. -/
def exec (files : Files) : Statement → Run (Option Operand)
  | .load library shortName => do
    if library ≠ "pandas" then
      throw (.unsupported (.module library))
    modify fun scope => { scope with locals := scope.locals.put shortName (.module library) }
    return none
  | .assign target e => do
    let v ← eval files e
    assign files v target
    return none
  | .delete target => do
    delete files target
    return none
  | .expr e => do
    let v ← eval files e
    return some v

/-! ## Scripts -/

/-- Carry out one line; nothing after a fault. -/
def runLine (files : Files) (number : Nat) (progress : Progress) (line : List Char) :
    Option (Except ScriptError Progress) :=
  match lineStatement? line with
  | .error e => some (.error ⟨number, .malformed e⟩)
  | .ok none => some (.ok progress)
  | .ok (some s) =>
    match (exec files s).run progress.scope with
    | none => none
    | some (.error e) => some (.error ⟨number, e⟩)
    | some (.ok (none, scope)) => some (.ok ⟨scope, none⟩)
    | some (.ok (some v, scope)) =>
      some (.ok ⟨scope, some ⟨v, number, String.ofList (Text.trimChars line), s.isName⟩⟩)

/-- Carry out lines, the first being number `number`; nothing after a fault. -/
def runLines (files : Files) (number : Nat) (progress : Progress) :
    List (List Char) → Option (Except ScriptError Progress)
  | [] => some (.ok progress)
  | line :: rest =>
    match runLine files number progress line with
    | none => none
    | some (.error e) => some (.error e)
    | some (.ok next) => runLines files (number + 1) next rest

/-- Run a script on a workbook; nothing after a fault. -/
def run (files : Files) (book : Workbook) (source : String) : Option (Except ScriptError Outcome) :=
  (runLines files 1 ⟨.initial book, none⟩ (Text.linesOf source.toList)).map fun result =>
    result.map fun progress => ⟨progress.scope.book, progress.last⟩

/-! ## Rows -/

/-- The rows of a dataframe as they are written, each cell being looked up in its column; nothing if one
is not there. -/
def rows? (f : Frame) : Option (List (List Value)) :=
  (List.range f.rows).mapM fun row => f.columns.mapM fun column => column.2[row]?

/-- The CSV text of a dataframe, unless a row is not there. -/
def toCsv (f : Frame) : Option String :=
  (rows? f).map fun rows => Csv.textOf (f.headers :: rows.map (·.map Frame.cellText))

/-! ## Operations without faults

What an operation gives is what the one that checks nothing gives: for operators and indexes always, and
for the first rows, the calls and the rows of a dataframe if it is rectangular.
-/

/-- A remainder with the sign of the divisor, made of the one with the sign of the dividend. -/
theorem fmod_eq_of_tmod (a b : Int) : a.fmod b =
    if a.tmod b ≠ 0 ∧ (a.tmod b < 0) ≠ (b < 0) then a.tmod b + b else a.tmod b := by
  have hsign := Int.sign_tmod a b
  rw [Int.fmod_eq_tmod]
  by_cases hdvd : b ∣ a
  · have hzero : a.tmod b = 0 := Int.tmod_eq_zero_of_dvd hdvd
    simp [hdvd, hzero]
  · rw [if_neg hdvd] at hsign
    have hne : a.tmod b ≠ 0 := fun hzero => hdvd (Int.dvd_of_tmod_eq_zero hzero)
    have hneg : a.tmod b < 0 ↔ a < 0 := by
      rw [← Int.sign_eq_neg_one_iff_neg, hsign, Int.sign_eq_neg_one_iff_neg]
    simp only [hdvd, hne, hneg, if_false, ne_eq, not_false_eq_true, true_and, eq_iff_iff]
    split_ifs <;> omega

/-- No sum in a remainder is longer than a word. -/
theorem remainder_eq (x y : Int64) :
    remainder x y = liftM (.ok (ArithmeticOp.mod.onInts x y) : Eval Value) := by
  unfold remainder ArithmeticOp.onInts
  by_cases hzero : y = 0
  · rw [if_pos hzero]
    simp only [if_pos hzero]
    rfl
  · have hmod : (x % y).toInt = x.toInt.tmod y.toInt := Int64.toInt_mod x y
    have hne : x % y ≠ 0 ↔ x.toInt.tmod y.toInt ≠ 0 := by
      rw [← hmod, ne_eq, ne_eq, ← Int64.toInt_inj]
      rfl
    have hneg : ∀ z : Int64, (z < 0) = (z.toInt < 0) := fun z => propext Int64.lt_iff_toInt_lt
    simp only [if_neg hzero, hne, hneg, hmod, fmod_eq_of_tmod]
    split
    case isTrue hsigns =>
      -- the divisor is longer than the remainder, and has the other sign
      have hshort : (x.toInt.tmod y.toInt).natAbs < y.toInt.natAbs := by
        rw [Int.natAbs_tmod]
        refine Nat.mod_lt _ (Int.natAbs_pos.mpr fun h => hzero ?_)
        rwa [← Int64.toInt_inj]
      have hother : x.toInt.tmod y.toInt < 0 ↔ ¬ y.toInt < 0 := by
        have hdiffer := hsigns.2
        rw [ne_eq, eq_iff_iff, not_iff, not_iff_comm] at hdiffer
        exact hdiffer.symm
      have hlow := Int64.le_toInt y
      have hhigh := Int64.toInt_lt y
      rw [add, hmod, Decimal.int64?_eq_some_iff.mpr (Int64.toInt_ofInt_of_le (by omega) (by omega))]
      rfl
    case isFalse =>
      rw [← hmod, Int64.ofInt_toInt]
      rfl

/-- A missing value is no number. -/
theorem isNull_of_number? {v : Value} {n : Number} (h : number? v = some n) : v.isNull = false := by
  cases v with
  | null => cases h
  | _ => rfl

/-- The remainder is the only arithmetic that adds words. -/
theorem arithmetic_eq {op : BinaryOp} (h : (arithmeticOp? op).isSome = true) (a b : Value) :
    arithmetic op a b = liftM (op.onValues a b) := by
  obtain ⟨operation, hoperation⟩ := Option.isSome_iff_exists.mp h
  have hvalues : op.onValues a b = operation.apply a b := by
    cases op <;> cases hoperation <;> rfl
  unfold arithmetic
  rw [hoperation, hvalues]
  dsimp only
  split
  case h_1 x y ha hb =>
    have happly : ArithmeticOp.mod.apply a b = .ok (ArithmeticOp.mod.onInts x y) := by
      unfold ArithmeticOp.apply
      rw [isNull_of_number? ha, isNull_of_number? hb]
      simp only [ha, hb]
      rfl
    rw [remainder_eq, happly]
  case h_2 => rfl

/-- Comparing values meets no fault, and gives what comparing them gives. -/
theorem compare_eq {op : BinaryOp} (h : (comparison? op).isSome = true) (a b : Value) :
    compare op a b = liftM (op.onValues a b) := by
  obtain ⟨comparison, hcomparison⟩ := Option.isSome_iff_exists.mp h
  have hvalues : op.onValues a b = comparison.apply a b := by
    cases op <;> cases hcomparison <;> rfl
  unfold compare
  rw [hcomparison, hvalues]

/-- Only operators of arithmetic get to arithmetic, and only comparisons to comparing. -/
theorem onValues_eq (op : BinaryOp) (a b : Value) : onValues op a b = liftM (op.onValues a b) := by
  unfold onValues
  split
  case h_1 | h_2 | h_3 | h_4 | h_5 => exact arithmetic_eq rfl a b
  case h_6 | h_7 | h_8 | h_9 | h_10 | h_11 => exact compare_eq rfl a b
  all_goals rfl

/-- Steps without faults have no fault together. -/
theorem mapM_lift {α β : Type} (f : α → Eval β) (as : List α) :
    (as.mapM fun a => (liftM (f a) : Checked β)) = liftM (as.mapM f) := by
  induction as with
  | nil => rfl
  | cons a rest ih =>
    rw [List.mapM_cons, List.mapM_cons, ih]
    simp only [liftM_bind, liftM_pure]

/-- A function applied to the result of a computation without faults is applied without a fault. -/
theorem lift_map {α β : Type} (f : α → β) (x : Eval α) :
    (liftM (x.map f) : Checked β) = do
      let a ← (liftM x : Checked α)
      return f a := by
  cases x <;> rfl

/-- Joining cells in pairs goes through the pairs from left to right. -/
theorem zipCells_eq (f : Value → Value → Eval Value) (as bs : List Value) :
    zipCells f as bs = (as.zip bs).mapM fun pair => f pair.1 pair.2 := by
  induction as generalizing bs with
  | nil => rfl
  | cons a rest ih =>
    cases bs with
    | nil => rfl
    | cons b bs =>
      rw [zipCells, List.zip_cons_cons, List.mapM_cons]
      simp only [ih]

/-- No operator between operands has a fault. -/
theorem binary_eq (op : BinaryOp) (left right : Operand) :
    binary op left right = liftM (op.apply left right) := by
  match left, right with
  | .scalar a, .scalar b => simp only [binary, BinaryOp.apply, onValues_eq, lift_map]
  | .series as, .series bs =>
    simp only [binary, BinaryOp.apply, onValues_eq, mapM_lift, zipCells_eq]
    split
    case isTrue => rfl
    case isFalse => rw [lift_map]
  | .series as, .scalar b => simp only [binary, BinaryOp.apply, onValues_eq, mapM_lift, lift_map]
  | .scalar a, .series bs => simp only [binary, BinaryOp.apply, onValues_eq, mapM_lift, lift_map]
  | .frame _, _ => rfl
  | .module _, _ => rfl
  | .scalar _, .frame _ => rfl
  | .scalar _, .module _ => rfl
  | .series _, .frame _ => rfl
  | .series _, .module _ => rfl

/-- A negative index and the length of a list have a sum that is a word. -/
theorem itemAt_eq (items : List Value) (i : Int64) :
    itemAt items i = liftM (Script.itemAt items i) := by
  unfold itemAt
  split
  case isFalse => rfl
  case isTrue h =>
    obtain ⟨hneg, hlength⟩ := h
    have hword : (Int64.ofNat items.length).toInt = items.length := Int64.toInt_ofNat_of_lt hlength
    rw [Nat.pow_eq] at hlength
    have hlow := Int64.le_toInt i
    have hsum : (Int64.ofInt (items.length + i.toInt)).toInt = items.length + i.toInt :=
      Int64.toInt_ofInt_of_le (by omega) (by omega)
    unfold add Script.itemAt
    rw [hword, Decimal.int64?_eq_some_iff.mpr hsum, if_pos hneg]
    simp only [pure_bind, hsum]
    generalize (if (items.length : Int) + i.toInt < 0 then none
      else items[((items.length : Int) + i.toInt).toNat]?) = item
    cases item <;> rfl

/-- Looking up a position or a label meets no fault. -/
theorem subscript_eq (a b : Operand) : subscript a b = liftM (Script.subscript a b) := by
  unfold subscript
  split
  case h_1 items i => exact itemAt_eq items i
  case h_2 => rfl

/-- The first rows of a rectangular dataframe are there. -/
theorem head_eq {f : Frame} (hf : f.Rectangular) (n : Nat) : head f n = pure (f.head n) := by
  have hlong : (f.columns.all fun column => min n f.rows ≤ column.2.length) = true := by
    refine List.all_eq_true.mpr fun column hcolumn => decide_eq_true ?_
    rw [hf column hcolumn]
    exact Nat.min_le_right n f.rows
  rw [head, if_pos hlong]

/-- No method of a dataframe whose columns are of one length meets a fault. -/
theorem frameMethod_eq {f : Frame} (hf : f.Rectangular) (method : String) (args : CallValues) :
    frameMethod f method args = liftM (Script.frameMethod f method args) := by
  unfold frameMethod
  split
  case isFalse => rfl
  case isTrue h =>
    subst h
    have hplain : Script.frameMethod f "head" args =
        (args.int? 0 "n").map fun n => Operand.frame (f.head (n.getD 5).toInt.toNat) := by
      unfold Script.frameMethod
      cases args.int? 0 "n" <;> rfl
    simp only [hplain, lift_map, head_eq hf, pure_bind]

/-- Adding cells up meets no fault. -/
theorem sumFrom_eq (cells : List Value) (total : Value) :
    cells.foldlM (arithmetic .add) total = liftM (sumFrom total cells) := by
  induction cells generalizing total with
  | nil => rfl
  | cons v rest ih =>
    rw [List.foldlM_cons, sumFrom, liftM_bind, arithmetic_eq rfl]
    simp only [ih]
    rfl

/-- No method of a series meets a fault. -/
theorem seriesMethod_eq (cells : List Value) (method : String) (args : CallValues) :
    seriesMethod cells method args = liftM (Script.seriesMethod cells method args) := by
  unfold seriesMethod
  split
  case isFalse => rfl
  case isTrue h =>
    have hplain : Script.seriesMethod cells method args =
        (sumFrom (.int 0) (cells.filter fun v => !v.isNull)).map .scalar := by
      unfold Script.seriesMethod
      rw [if_pos h]
    rw [hplain, lift_map, sumFrom_eq]

/-- A call on a rectangular operand has no fault. -/
theorem callOn_eq (files : Files) (method : String) (args : CallValues) {v : Operand}
    (hv : v.Rectangular) : callOn files method args v = liftM (Script.callOn files method args v) := by
  cases v with
  | series cells => exact seriesMethod_eq cells method args
  | scalar => rfl
  | module => rfl
  | frame f =>
    unfold callOn Script.callOn
    rw [liftM_bind]
    refine bind_congr fun changes => ?_
    split
    case isTrue =>
      rw [liftM_bind]
      rfl
    case isFalse => exact frameMethod_eq hv method args

/-- A function that gives something for every item gives all of it. -/
theorem mapM_eq_some_map {α β : Type} {f : α → Option β} {g : α → β} {as : List α}
    (h : ∀ a ∈ as, f a = some (g a)) : as.mapM f = some (as.map g) := by
  induction as with
  | nil => rfl
  | cons a rest ih =>
    obtain ⟨ha, hrest⟩ := List.forall_mem_cons.mp h
    rw [List.mapM_cons, ha, ih hrest]
    rfl

/-- The rows of columns are made of the cells at their positions. -/
theorem rowsOfColumns_eq (n : Nat) (columns : List (List Value)) :
    Frame.rowsOfColumns n columns =
      (List.range n).map fun row => columns.map fun cells => cells.getD row .null := by
  induction n generalizing columns with
  | zero => rfl
  | succ n ih =>
    rw [Frame.rowsOfColumns, ih, List.range_succ_eq_map, List.map_cons, List.map_map]
    congr 1
    · refine List.map_congr_left fun cells _ => ?_
      cases cells <;> rfl
    · refine List.map_congr_left fun row _ => ?_
      rw [List.map_map]
      refine List.map_congr_left fun cells _ => ?_
      cases cells <;> simp

/-- The rows of a rectangular dataframe are all there. -/
theorem rows?_eq {f : Frame} (hf : f.Rectangular) :
    rows? f = some (Frame.rowsOfColumns f.rows (f.columns.map (·.2))) := by
  rw [rowsOfColumns_eq]
  refine mapM_eq_some_map fun row hrow => ?_
  rw [List.map_map]
  refine mapM_eq_some_map fun column hcolumn => ?_
  have hlt : row < column.2.length := by
    rw [hf column hcolumn]
    exact List.mem_range.mp hrow
  rw [List.getElem?_eq_getElem hlt]
  simp [List.getD_eq_getElem?_getD, List.getElem?_eq_getElem hlt]

/-- Writing a dataframe as CSV stays within each of its columns. -/
theorem toCsv_eq {f : Frame} (hf : f.Rectangular) : toCsv f = some f.toCsv := by
  rw [toCsv, rows?_eq hf]
  rfl

end Checked

end TableScript.Script
