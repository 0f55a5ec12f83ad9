import TableScript.Script.Run

/-!
# Parameters of steps

A step gets everything it needs from its parameters, and asks for each by key and kind. Most steps work
on one dataframe, which they find by its index.
-/

namespace TableScript.Step

/-- Why a step cannot be carried out. -/
inductive StepError where
  | missingParam (key : String)
  | invalidParam (key expected found : String)
  | missingDataframe (index : Int64)
  | missingColumn (name : String)
  | script (cause : Script.ScriptError)
  | frame (cause : FrameError)

/-- The text of the error. -/
def StepError.message : StepError → String
  | missingParam key => "missing param: " ++ key
  | invalidParam key expected found =>
    "invalid param " ++ key ++ ": expected " ++ expected ++ ", found " ++ found
  | missingDataframe index => "no dataframe at index " ++ decimalText index
  | missingColumn name => "column not found: " ++ Text.quoted name
  | script cause => "script failed at " ++ cause.message
  | frame cause => cause.message

/-- A parameter. -/
def requireParam (params : Params) (key : String) : Except StepError Value :=
  match params.get? key with
  | some v => .ok v
  | none => .error (.missingParam key)

/-- A parameter, seen as one kind. -/
def requireAs {α : Type} (view : Value → Option α) (expected : String) (params : Params)
    (key : String) : Except StepError α :=
  match requireParam params key with
  | .error e => .error e
  | .ok v =>
    match view v with
    | some a => .ok a
    | none => .error (.invalidParam key expected v.kind)

/-- A text parameter. -/
def requireText : Params → String → Except StepError String := requireAs Value.asText? "str"

/-- A whole number parameter. -/
def requireInt : Params → String → Except StepError Int64 := requireAs Value.asInt? "int"

/-- A parameter that is a list of texts. -/
def requireTexts : Params → String → Except StepError (List String) :=
  requireAs Value.asTexts? "list of str"

/-- A dataframe with its name and position. -/
structure Sheet where
  position : Nat
  name : String
  frame : Frame

/-- The dataframe at an index, which may be out of range. -/
def sheetAt (book : Workbook) (index : Int64) : Except StepError Sheet :=
  if index.toInt < 0 then .error (.missingDataframe index)
  else
    match book.frameAt? index.toInt.toNat with
    | some (name, frame) => .ok ⟨index.toInt.toNat, name, frame⟩
    | none => .error (.missingDataframe index)

/-- The dataframe that a step works on. -/
def requireSheet (book : Workbook) (params : Params) : Except StepError Sheet :=
  (requireInt params "sheet_index").bind (sheetAt book)

/-- The index of the dataframe that a step works on, if it has one. -/
def sheetIndexes (params : Params) : List Int :=
  match (params.get? "sheet_index").bind Value.asInt? with
  | some index => [index.toInt]
  | none => []

end TableScript.Step
