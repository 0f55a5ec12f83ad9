import TableScript.Text.Utf8

/-!
# Records of a CSV text

A CSV text is a sequence of records, one a line, and a record is a sequence of fields with commas
between them. A field that begins with a double quote goes on to the next single one, and inside it a
quote is written twice; whatever follows the closing quote is added as it stands. A record ends with a
line feed or a carriage return outside quotes, and lines without anything are no records.

The scanner goes over the units of the text one by one and is a plain state machine, so what it does with
one text after another is the composition of what it does with each. It also keeps count of bytes and
lines, since messages say where a record began.
-/

namespace TableScript.Csv

open TableScript.Text

/-- Where a record begins: its number, the header's being zero, and the line and byte that come next
after the record before it. -/
structure Place where
  record : Nat
  line : Nat
  byte : Nat
deriving DecidableEq

/-- A record with the place where it begins. -/
structure Record where
  place : Place
  fields : List (List Utf8Unit)

/-- What the scanner is in the middle of. -/
inductive Mode where
  /-- Between records. -/
  | recordStart
  /-- After a comma. -/
  | fieldStart
  /-- Inside a field, outside quotes. -/
  | plain
  /-- Inside quotes. -/
  | quoted
  /-- After a quote inside quotes, which closes them or is half of a doubled one. -/
  | quoteSeen
deriving DecidableEq

/-- The scanner's state; what is begun is kept last first. -/
structure Scanner where
  mode : Mode
  field : List Utf8Unit
  fields : List (List Utf8Unit)
  records : List Record
  place : Place
  line : Nat
  byte : Nat

namespace Scanner

/-- The scanner before a text, of which `skipped` bytes have been passed over. -/
def initial (skipped : Nat) : Scanner := ⟨.recordStart, [], [], [], ⟨0, 1, 0⟩, 1, skipped⟩

/-- Count a unit. -/
def advance (s : Scanner) (u : Utf8Unit) : Scanner :=
  let line := match u with
    | .char '\n' => s.line + 1
    | _ => s.line
  { s with line := line, byte := s.byte + u.width }

/-- Close the field that is begun. -/
def endField (s : Scanner) : Scanner :=
  { s with mode := .fieldStart, field := [], fields := s.field.reverse :: s.fields }

/-- Close the record that is begun, with its last field. -/
def endRecord (s : Scanner) : Scanner :=
  { s with
    mode := .recordStart, field := [], fields := []
    records := ⟨s.place, (s.field.reverse :: s.fields).reverse⟩ :: s.records
    place := ⟨s.place.record + 1, s.line, s.byte⟩ }

/-- Add a unit to the field that is begun. -/
def addUnit (s : Scanner) (mode : Mode) (u : Utf8Unit) : Scanner :=
  { s with mode := mode, field := u :: s.field }

/-- A unit outside quotes, after the beginning of a field. -/
def stepPlain (s : Scanner) (u : Utf8Unit) : Scanner :=
  match u with
  | .char ',' => s.endField
  | .char '\n' => s.endRecord
  | .char '\r' => s.endRecord
  | u => s.addUnit .plain u

/-- A unit at the beginning of a field. -/
def stepFieldStart (s : Scanner) (u : Utf8Unit) : Scanner :=
  match u with
  | .char '"' => { s with mode := .quoted }
  | u => s.stepPlain u

/-- Take in one unit. -/
def step (before : Scanner) (u : Utf8Unit) : Scanner :=
  let s := before.advance u
  match s.mode with
  | .recordStart =>
    match u with
    | .char '\n' => s
    | .char '\r' => s
    | u => s.stepFieldStart u
  | .fieldStart => s.stepFieldStart u
  | .plain => s.stepPlain u
  | .quoted =>
    match u with
    | .char '"' => { s with mode := .quoteSeen }
    | u => s.addUnit .quoted u
  | .quoteSeen =>
    match u with
    | .char '"' => s.addUnit .quoted u
    | u => s.stepPlain u

/-- The records of a text that ends here. -/
def finish (s : Scanner) : List Record :=
  match s.mode with
  | .recordStart => s.records.reverse
  | _ => s.endRecord.records.reverse

end Scanner

/-- The records of a text. A byte order mark in front of it is passed over. -/
def recordsOf : List Utf8Unit → List Record
  | .char '\uFEFF' :: rest => (rest.foldl Scanner.step (.initial 3)).finish
  | units => (units.foldl Scanner.step (.initial 0)).finish

/-- The records of a sequence of bytes. -/
def records (bytes : List UInt8) : List Record := recordsOf (utf8Units bytes)

end TableScript.Csv
