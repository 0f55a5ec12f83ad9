import TableScript.Value
import TableScript.Files
import TableScript.Csv.Reader
import TableScript.Text.Quote

/-!
# Frames

A frame is a table: named columns in order, each with one cell for every row. The number of rows is kept
beside the columns, since a frame that has lost its last column still has its rows; the next column put
into it decides their number anew.

Edits change a frame in place. Since an edit that fails may leave its mark too, an edit gives both its
result and the frame it leaves behind (`Edited`).
-/

namespace TableScript

/-! ## Errors -/

/-- Why a CSV text gives no records. -/
inductive CsvError where
  /-- The record has another number of fields than the header. -/
  | unequalLengths (place : Csv.Place) (expected found : Nat)
  /-- A field is no text: its number, and the offset of its first stray byte. -/
  | invalidText (place : Csv.Place) (field offset : Nat)
  /-- The file cannot be read. -/
  | unreadable (cause : FileError)
deriving DecidableEq

/-- The text of the error. -/
def CsvError.message : CsvError → String
  | unequalLengths place expected found =>
    "CSV error: record " ++ toString place.record ++ " (line: " ++ toString place.line ++ ", byte: "
      ++ toString place.byte ++ "): found record with " ++ toString found
      ++ " fields, but the previous record has " ++ toString expected ++ " fields"
  | invalidText place field offset =>
    "CSV parse error: record " ++ toString place.record ++ " (line " ++ toString place.line
      ++ ", field: " ++ toString field ++ ", byte: " ++ toString place.byte
      ++ "): invalid utf-8: invalid UTF-8 in field " ++ toString field ++ " near byte index "
      ++ toString offset
  | unreadable cause => cause.message

/-- Why an operation on a frame fails. -/
inductive FrameError where
  | columnNotFound (name : String)
  | duplicateColumn (name : String)
  | lengthMismatch (column : String) (expected found : Nat)
  | maskLength (expected found : Nat)
  | csv (cause : CsvError)
  | file (cause : FileError)
deriving DecidableEq

/-- The text of the error. -/
def FrameError.message : FrameError → String
  | columnNotFound name => "column not found: " ++ Text.quoted name
  | duplicateColumn name => "column already exists: " ++ Text.quoted name
  | lengthMismatch column expected found =>
    "column " ++ Text.quoted column ++ " has " ++ toString found ++ " values, frame has "
      ++ toString expected ++ " rows"
  | maskLength expected found =>
    "row mask has " ++ toString found ++ " entries, frame has " ++ toString expected ++ " rows"
  | csv cause => "CSV error: " ++ cause.message
  | file cause => "I/O error: " ++ cause.message

/-! ## The type -/

/-- Named columns in order, and the number of rows. -/
structure Frame where
  columns : Keyed (List Value)
  rows : Nat
deriving Inhabited

namespace Frame

/-- No columns and no rows. -/
def empty : Frame := ⟨[], 0⟩

/-- The two frames have the same rows and the same cells under the same headers, in any order. -/
def same (a b : Frame) : Bool := Keyed.same a.columns b.columns && a.rows == b.rows

instance : BEq Frame := ⟨same⟩

/-- Every column has one cell for every row. -/
def Rectangular (f : Frame) : Prop := ∀ column ∈ f.columns, column.2.length = f.rows

/-- The headers in order. -/
def headers (f : Frame) : List String := f.columns.keys

/-- The cells of a column. -/
def column? (f : Frame) (name : String) : Option (List Value) := f.columns.get? name

/-- The frame has a column of that name. -/
def hasColumn (f : Frame) (name : String) : Bool := f.columns.has name

/-- The frame has neither columns nor rows. -/
def isEmpty (f : Frame) : Bool := f.columns.isEmpty && f.rows == 0

/-! ## Edits -/

/-- What an edit gives: its result, and the frame it leaves behind even if it fails. -/
structure Edited (α : Type) where
  result : Except FrameError α
  frame : Frame

/-- The frame an edit makes, if it succeeds. -/
def Edited.made {α : Type} (edited : Edited α) : Except FrameError Frame :=
  match edited.result with
  | .ok _ => .ok edited.frame
  | .error e => .error e

/-- A column of `length` cells does not fit. Any length fits a frame that would have no other column. -/
def mismatch? (f : Frame) (name : String) (length : Nat) : Option FrameError :=
  if !f.columns.isEmpty && length ≠ f.rows && !(f.columns.length == 1 && f.hasColumn name) then
    some (.lengthMismatch name f.rows length)
  else none

/-- Put cells under a header: in the column's place if it is there already, at the end otherwise. -/
def set (f : Frame) (name : String) (cells : List Value) : Edited Unit :=
  match f.mismatch? name cells.length with
  | some e => ⟨.error e, f⟩
  | none => ⟨.ok (), ⟨f.columns.put name cells, cells.length⟩⟩

/-- Insert a new column before the one at `position`, or at the end. -/
def insert (f : Frame) (position : Nat) (name : String) (cells : List Value) : Edited Unit :=
  if f.hasColumn name then ⟨.error (.duplicateColumn name), f⟩
  else
    match f.mismatch? name cells.length with
    | some e => ⟨.error e, f⟩
    | none => ⟨.ok (), ⟨f.columns.insertAt position name cells, cells.length⟩⟩

/-- Remove a column; its cells are the result. The rows stay. -/
def drop (f : Frame) (name : String) : Edited (List Value) :=
  match f.column? name with
  | none => ⟨.error (.columnNotFound name), f⟩
  | some cells => ⟨.ok cells, ⟨f.columns.erase name, f.rows⟩⟩

/-- The new name of a header. -/
def renamed (mapping : Keyed String) (header : String) : String :=
  (mapping.get? header).getD header

/-- The columns under their new names, `done` being those already renamed, in order. -/
def renameAfter (mapping : Keyed String) (done : Keyed (List Value)) :
    Keyed (List Value) → Except FrameError (Keyed (List Value))
  | [] => .ok done
  | (header, cells) :: rest =>
    let name := renamed mapping header
    if done.has name then .error (.duplicateColumn name)
    else renameAfter mapping (done ++ [(name, cells)]) rest

/-- Rename all columns at once, so that two columns can change names. When two columns would get one
name, the edit fails and the columns are lost. -/
def rename (f : Frame) (mapping : Keyed String) : Edited Unit :=
  match renameAfter mapping [] f.columns with
  | .ok columns => ⟨.ok (), ⟨columns, f.rows⟩⟩
  | .error e => ⟨.error e, ⟨[], f.rows⟩⟩

/-! ## Frames made from frames -/

/-- Put named columns in one after the other. A name must not come twice. -/
def ofColumns (columns : List (String × List Value)) : Except FrameError Frame :=
  columns.foldlM (fun f (name, cells) =>
    if f.hasColumn name then .error (.duplicateColumn name) else (f.set name cells).made) empty

/-- The named columns of `f`, put after those already selected. -/
def selectAfter (f : Frame) (selected : Keyed (List Value)) :
    List String → Except FrameError (Keyed (List Value))
  | [] => .ok selected
  | name :: rest =>
    match f.column? name with
    | some cells => selectAfter f (selected.put name cells) rest
    | none => .error (.columnNotFound name)

/-- The named columns in the given order. A name that comes twice gives one column. -/
def select (f : Frame) (names : List String) : Except FrameError Frame :=
  (f.selectAfter [] names).map fun columns => ⟨columns, f.rows⟩

/-- The items at whose positions the mask is true. -/
def keepMarked {α : Type} : List α → List Bool → List α
  | a :: as, keep :: mask => if keep then a :: keepMarked as mask else keepMarked as mask
  | _, _ => []

/-- The rows at which the mask is true. -/
def filterRows (f : Frame) (mask : List Bool) : Except FrameError Frame :=
  if mask.length ≠ f.rows then .error (.maskLength f.rows mask.length)
  else .ok ⟨f.columns.map fun (name, cells) => (name, keepMarked cells mask), mask.count true⟩

/-- The first `n` rows. -/
def head (f : Frame) (n : Nat) : Frame :=
  let n := min n f.rows
  ⟨f.columns.map fun (name, cells) => (name, cells.take n), n⟩

end Frame

end TableScript
