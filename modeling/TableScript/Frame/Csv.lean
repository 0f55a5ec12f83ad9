import TableScript.Frame
import TableScript.Value.Text
import TableScript.Csv.Writer
import TableScript.Decimal.Reading
import TableScript.Text.Blank

/-!
# Frames as CSV texts

The first record of a CSV text holds the headers, every other one a row. A cell's kind is read off its
text: blank is missing, then come whole numbers, finite floating point numbers and truth values; all else
is kept as the text it is. Writing goes the other way, a missing cell being an empty field.
-/

namespace TableScript.Frame

/-! ## Reading -/

/-- The value that the text of a cell stands for. -/
def cellOf (raw : String) : Value :=
  let cs := Text.trimChars raw.toList
  if cs.isEmpty then .null
  else
    match Decimal.readInt64? cs with
    | some n => .int n
    | none =>
      match Decimal.readFloat? cs with
      | some x => if x.isFinite then .float x else .str raw
      | none =>
        if cs = "True".toList || cs = "true".toList then .bool true
        else if cs = "False".toList || cs = "false".toList then .bool false
        else .str raw

/-- The texts of the fields of a record, the first being number `i`. A field is read as a whole: bytes
that were stray on both sides of a quote may make a character together. -/
def fieldTexts (place : Csv.Place) (i : Nat) :
    List (List Text.Utf8Unit) → Except CsvError (List String)
  | [] => .ok []
  | field :: rest =>
    match Text.decodeUtf8 (field.flatMap Text.Utf8Unit.bytes) with
    | .error offset => .error (.invalidText place i offset)
    | .ok text => (fieldTexts place (i + 1) rest).map (text :: ·)

/-- The texts of a record's fields. -/
def recordTexts (record : Csv.Record) : Except CsvError (List String) :=
  fieldTexts record.place 0 record.fields

/-- The texts of the records after the header, which has `width` fields. -/
def rowTexts (width : Nat) : List Csv.Record → Except CsvError (List (List String))
  | [] => .ok []
  | record :: rest =>
    if record.fields.length ≠ width then
      .error (.unequalLengths record.place width record.fields.length)
    else
      match recordTexts record with
      | .error e => .error e
      | .ok texts => (rowTexts width rest).map (texts :: ·)

/-- The first cells of the rows, the second cells, and so on, one list for every header. -/
def columnsOfRows : List String → List (List String) → List (String × List Value)
  | [], _ => []
  | header :: rest, rows =>
    (header, rows.map fun row => cellOf (row.headD "")) :: columnsOfRows rest (rows.map List.tail)

/-- The frame that records describe. -/
def ofRecords : List Csv.Record → Except FrameError Frame
  | [] => .ok empty
  | header :: rest =>
    match recordTexts header with
    | .error e => .error (.csv e)
    | .ok headers =>
      match rowTexts headers.length rest with
      | .error e => .error (.csv e)
      | .ok rows => ofColumns (columnsOfRows headers rows)

/-- The frame that a CSV text describes. -/
def ofCsv (bytes : List UInt8) : Except FrameError Frame := ofRecords (Csv.records bytes)

/-- The frame in a CSV file. A directory can be opened but not read, so it is the CSV reader that
fails on it. -/
def readCsv (files : Files) (path : String) : Except FrameError Frame :=
  match files.read path with
  | .ok bytes => ofCsv bytes
  | .error .isDirectory => .error (.csv (.unreadable .isDirectory))
  | .error e => .error (.file e)

/-! ## Writing -/

/-- The text of a cell. -/
def cellText : Value → String
  | .null => ""
  | v => v.text

/-- The first `n` rows of columns of cells. -/
def rowsOfColumns : Nat → List (List Value) → List (List Value)
  | 0, _ => []
  | n + 1, columns => columns.map (·.headD .null) :: rowsOfColumns n (columns.map List.tail)

/-- The CSV text of a frame. -/
def toCsv (f : Frame) : String :=
  Csv.textOf (f.headers :: (rowsOfColumns f.rows (f.columns.map (·.2))).map (·.map cellText))

end TableScript.Frame
