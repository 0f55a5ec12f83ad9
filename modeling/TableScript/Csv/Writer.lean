/-!
# Writing records

Each record is a line that ends with a line feed. A field is put in quotes only where it has to be: when
it holds a comma, a quote or a line break, or when it is the only field and empty, since the line would
then be blank.
-/

namespace TableScript.Csv

/-- The character cannot stand outside quotes. -/
def needsQuotes (c : Char) : Bool := c = ',' || c = '"' || c = '\n' || c = '\r'

/-- The inside of a quoted field: a quote is written twice. -/
def doubleQuotes : List Char → List Char
  | [] => []
  | c :: rest => if c = '"' then '"' :: '"' :: doubleQuotes rest else c :: doubleQuotes rest

/-- A field as it is written. -/
def fieldText (field : List Char) : List Char :=
  if field.any needsQuotes then '"' :: (doubleQuotes field ++ ['"']) else field

/-- Fields with commas between them. -/
def joinFields : List (List Char) → List Char
  | [] => []
  | [field] => fieldText field
  | field :: rest => fieldText field ++ ',' :: joinFields rest

/-- A record with its line feed. -/
def recordText (fields : List (List Char)) : List Char :=
  match joinFields fields with
  | [] => ['"', '"', '\n']
  | line => line ++ ['\n']

/-- Records one after the other. -/
def textOf (records : List (List String)) : String :=
  String.ofList (records.flatMap fun record => recordText (record.map String.toList))

end TableScript.Csv
