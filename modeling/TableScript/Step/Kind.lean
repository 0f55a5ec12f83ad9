import TableScript.Step.Param
import TableScript.Step.Recon

/-!
# The kinds of steps

What a user can do to a workbook, one kind of step each: run a script that was agreed on, import CSV
files, add, rename and delete columns, and duplicate a dataframe. A step makes a new workbook from the one
before it and its parameters; it may also record facts that the code made for it needs.
-/

namespace TableScript.Step

/-- A kind of step. -/
inductive StepKind where
  | aiTransformation
  | simpleImport
  | addColumn
  | renameColumn
  | deleteColumn
  | dataframeDuplicate
deriving DecidableEq

/-- The workbook that a step makes, and the facts it records. -/
structure Performed where
  book : Workbook
  data : Option Params

namespace StepKind

/-- The name that the kind is known by in saved analyses. -/
def typeName : StepKind → String
  | aiTransformation => "ai_transformation"
  | simpleImport => "simple_import"
  | addColumn => "add_column"
  | renameColumn => "rename_column"
  | deleteColumn => "delete_column"
  | dataframeDuplicate => "dataframe_duplicate"

/-- The version of the kind's parameters. -/
def version : StepKind → Nat
  | aiTransformation => 1
  | simpleImport => 2
  | addColumn => 2
  | renameColumn => 2
  | deleteColumn => 3
  | dataframeDuplicate => 1

/-- The index that stands for a dataframe whose place is known only after the step. -/
def newIndex : Int := -1

/-- The indexes of the dataframes that the kind declares to change. -/
def declaredModified (kind : StepKind) (params : Params) : List Int :=
  match kind with
  | addColumn | renameColumn | deleteColumn => sheetIndexes params
  | _ => []

/-- The indexes of the dataframes that the kind declares to create. -/
def declaredCreated : StepKind → List Int
  | aiTransformation | simpleImport | dataframeDuplicate => [newIndex]
  | _ => []

end StepKind

/-! ## Scripts -/

/-- The dataframe that a script ends with, if it has no name yet, and the line of the expression. -/
def capturedFrame? (outcome : Script.Outcome) : Option (Frame × Nat) :=
  match outcome.last with
  | some last =>
    match last.value with
    | .frame f => if last.isName then none else some (f, last.line)
    | _ => none
  | none => none

/-- A script ends with a dataframe. -/
def endsWithFrame (outcome : Script.Outcome) : Bool :=
  match outcome.last with
  | some last => match last.value with
    | .frame _ => true
    | _ => false
  | none => false

/-- The value that a script ends with, if it can be shown by itself. -/
def shownValue (outcome : Script.Outcome) : Value :=
  ((outcome.last.bind fun last => last.value.primitive?).getD .null)

/-- The name of a dataframe that has none yet: by the number it will have. -/
def capturedName (book : Workbook) : String := book.freshName ("df" ++ toString (book.size + 1))

/-- The facts that running a script records. What a run does depends on its input alone, so no time is
measured and the time it took is recorded as zero. -/
def scriptFacts (prev post : Workbook) (outcome : Script.Outcome) (created : Option (String × Nat)) :
    Params := [
  ("pandas_processing_time", .float 0.0),
  ("last_line_is_dataframe", .bool (endsWithFrame outcome)),
  ("result", .dict (("last_line_value", shownValue outcome) :: (reconcile prev post).entries)),
  ("created_dataframe_name", .ofText? (created.map (·.1))),
  ("last_expression_line", match created with
    | some (_, line) => .ofNat line
    | none => .null)]

/-- Run a script. A dataframe without a name that it ends with becomes a dataframe of the workbook. -/
def transform (files : Files) (prev : Workbook) (params : Params) : Except StepError Performed := do
  let code ← requireText params "edited_completion"
  match Script.run files prev code with
  | .error e => .error (.script e)
  | .ok outcome =>
    match capturedFrame? outcome with
    | some (f, line) =>
      let name := capturedName outcome.book
      let post := outcome.book.insert name f
      return ⟨post, some (scriptFacts prev post outcome (some (name, line)))⟩
    | none => return ⟨outcome.book, some (scriptFacts prev outcome.book outcome none)⟩

/-! ## Imports -/

/-- The name for the dataframe in a file: the file's name without extension. -/
def importName (path : String) : String := usableName ((Files.stem? path).getD path)

/-- Read files into new dataframes, one after the other. -/
def importAll (files : Files) (book : Workbook) : List String → Except StepError Workbook
  | [] => .ok book
  | path :: rest =>
    match Frame.readCsv files path with
    | .error e => .error (.frame e)
    | .ok f => importAll files (book.insert (book.freshName (importName path)) f) rest

/-- Import CSV files. -/
def importFiles (files : Files) (prev : Workbook) (params : Params) : Except StepError Performed := do
  let paths ← requireTexts params "file_names"
  let post ← importAll files prev paths
  return ⟨post, none⟩

/-! ## Columns -/

/-- Carry the failure of a frame operation into a step. -/
def ofFrame {α : Type} : Except FrameError α → Except StepError α
  | .ok a => .ok a
  | .error e => .error (.frame e)

/-- The workbook with a changed dataframe in the place of the old one. -/
def replaceSheet (book : Workbook) (sheet : Sheet) (f : Frame) : Performed :=
  ⟨book.insert sheet.name f, none⟩

/-- Where a new column goes. Without an index, with a negative one and with one past the end it goes to
the end. -/
def insertPosition (f : Frame) (params : Params) : Nat :=
  match (params.get? "column_header_index").bind Value.asInt? with
  | some index => if index.toInt < 0 then f.columns.length else min index.toInt.toNat f.columns.length
  | none => f.columns.length

/-- Add a column of zeros. -/
def addColumn (prev : Workbook) (params : Params) : Except StepError Performed := do
  let sheet ← requireSheet prev params
  let header ← requireText params "column_header"
  let zeros := List.replicate sheet.frame.rows (Value.int 0)
  let f ← ofFrame (sheet.frame.insert (insertPosition sheet.frame params) header zeros).made
  return replaceSheet prev sheet f

/-- Rename a column. -/
def renameColumn (prev : Workbook) (params : Params) : Except StepError Performed := do
  let sheet ← requireSheet prev params
  let old ← requireText params "old_column_header"
  let new ← requireText params "new_column_header"
  if !sheet.frame.hasColumn old then
    throw (.missingColumn old)
  let f ← ofFrame (sheet.frame.rename [(old, new)]).made
  return replaceSheet prev sheet f

/-- Remove columns one after the other. -/
def dropColumns (f : Frame) : List String → Except StepError Frame
  | [] => .ok f
  | header :: rest =>
    if f.hasColumn header then
      match (f.drop header).made with
      | .ok f => dropColumns f rest
      | .error e => .error (.frame e)
    else .error (.missingColumn header)

/-- Delete columns. -/
def deleteColumns (prev : Workbook) (params : Params) : Except StepError Performed := do
  let sheet ← requireSheet prev params
  let headers ← requireTexts params "column_headers"
  let f ← dropColumns sheet.frame headers
  return replaceSheet prev sheet f

/-! ## Copies -/

/-- Duplicate a dataframe. -/
def duplicate (prev : Workbook) (params : Params) : Except StepError Performed := do
  let sheet ← requireSheet prev params
  return ⟨prev.insert (prev.freshName (sheet.name ++ "_copy")) sheet.frame, none⟩

/-- Carry out a step of the kind. -/
def StepKind.perform (kind : StepKind) (files : Files) (prev : Workbook) (params : Params) :
    Except StepError Performed :=
  match kind with
  | aiTransformation => transform files prev params
  | simpleImport => importFiles files prev params
  | addColumn => Step.addColumn prev params
  | renameColumn => Step.renameColumn prev params
  | deleteColumn => deleteColumns prev params
  | dataframeDuplicate => duplicate prev params

end TableScript.Step
