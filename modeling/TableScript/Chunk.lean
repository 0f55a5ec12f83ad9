import TableScript.Step.Kind
import TableScript.Script.Literal

/-!
# Code chunks

A chunk is the code for one or more steps that follow each other: script lines that lead from the
workbook before them to the one after, and a comment that says what they do. Chunks of one kind that are
neighbours can often be combined into one, so that a script stays short: renamings are composed, deleted
columns and imported files are put in one list.
-/

namespace TableScript

open Step

/-- What a chunk holds besides what every chunk holds. -/
inductive ChunkContent where
  | transformation
  | fileImport
  | newColumn
  /-- The headers before the chunk, each with its header after it. -/
  | renaming (mapping : Keyed String)
  | deletion (headers : List String)
  | copy

/-- The code for steps between two workbooks. -/
structure Chunk where
  prev : Workbook
  post : Workbook
  params : Params
  data : Option Params
  content : ChunkContent

namespace Chunk

/-! ## Making chunks -/

/-- A renaming by parameters. A column that keeps its header is not renamed. -/
def renamingOf (params : Params) : Keyed String :=
  match (params.get? "old_column_header").bind Value.asText?,
    (params.get? "new_column_header").bind Value.asText? with
  | some old, some new => if old = new then [] else [(old, new)]
  | _, _ => []

/-- A parameter that is a list of texts; any other is an empty list. -/
def textsParam (params : Params) (key : String) : List String :=
  ((params.get? key).bind Value.asTexts?).getD []

/-- The content of the chunk for one step. -/
def contentOf (kind : StepKind) (params : Params) : ChunkContent :=
  match kind with
  | .aiTransformation => .transformation
  | .simpleImport => .fileImport
  | .addColumn => .newColumn
  | .renameColumn => .renaming (renamingOf params)
  | .deleteColumn => .deletion (textsParam params "column_headers")
  | .dataframeDuplicate => .copy

/-- The chunk for one step. -/
def ofStep (kind : StepKind) (prev post : Workbook) (params : Params) (data : Option Params) : Chunk :=
  ⟨prev, post, params, data, contentOf kind params⟩

/-- The kind of the steps that the chunk is for. -/
def kind (c : Chunk) : StepKind :=
  match c.content with
  | .transformation => .aiTransformation
  | .fileImport => .simpleImport
  | .newColumn => .addColumn
  | .renaming _ => .renameColumn
  | .deletion _ => .deleteColumn
  | .copy => .dataframeDuplicate

/-! ## Parameters and facts -/

/-- A recorded fact. -/
def fact? (c : Chunk) (key : String) : Option Value := c.data.bind (·.get? key)

/-- A parameter that is a text. -/
def textParam? (c : Chunk) (key : String) : Option String := (c.params.get? key).bind Value.asText?

/-- A parameter that is a whole number. -/
def intParam? (c : Chunk) (key : String) : Option Int64 := (c.params.get? key).bind Value.asInt?

/-- The two chunks agree on the parameters under the keys; one that neither has counts as equal. -/
def paramsMatch (c d : Chunk) (keys : List String) : Bool :=
  keys.all fun key => c.params.get? key == d.params.get? key

/-- The dataframe that the chunk works on, with its name before it. -/
def sheet? (c : Chunk) : Option (String × Frame) :=
  match c.intParam? "sheet_index" with
  | some index => if index.toInt < 0 then none else c.prev.frameAt? index.toInt.toNat
  | none => none

/-- The name of the dataframe that the chunk works on, before it. -/
def sheetName? (c : Chunk) : Option String := c.sheet?.map (·.1)

/-- The names of the dataframes that are there after the chunk only. -/
def newNames (c : Chunk) : List String := namesOnlyIn c.post c.prev

/-! ## Comments -/

/-- The chunk's name. -/
def displayName (c : Chunk) : String :=
  match c.content with
  | .transformation => "AI Transformation"
  | .fileImport => "Imported files"
  | .newColumn => "Added column"
  | .renaming _ => "Renamed columns"
  | .deletion _ => "Deleted columns"
  | .copy => "Duplicated dataframe"

/-- What the chunk does, on one line unless a header or a path has line breaks in it. -/
def comment (c : Chunk) : String :=
  let sheet := c.sheetName?.getD ""
  match c.content with
  | .transformation => " ".intercalate (Text.words ((c.textParam? "user_input").getD ""))
  | .fileImport => "Imported " ++ ", ".intercalate (textsParam c.params "file_names")
  | .newColumn => "Added column " ++ (c.textParam? "column_header").getD "" ++ " to " ++ sheet
  | .renaming mapping =>
    "Renamed " ++ ", ".intercalate (mapping.map fun (old, new) => old ++ " to " ++ new) ++ " in " ++ sheet
  | .deletion headers => "Deleted columns " ++ ", ".intercalate headers
  | .copy => "Duplicated " ++ sheet

/-! ## Lines -/

/-- Change the line of that number, counted from one, if there is one. -/
def changeLine (number : Nat) (change : List Char → List Char) (lines : List (List Char)) :
    List (List Char) :=
  if number = 0 then lines else lines.modify (number - 1) change

/-- A line that gives a name to the expression on it. -/
def assignLine (name : String) (line : List Char) : List Char :=
  name.toList ++ (" = ".toList ++ Text.trimChars line)

/-- The lines of a script that was run. A dataframe that got its name afterwards gets it in its line. -/
def transformationLines (c : Chunk) : List String :=
  let lines := Text.linesOf (Text.trimEnd ((c.textParam? "edited_completion").getD "").toList)
  let named := match (c.fact? "created_dataframe_name").bind Value.asText?,
      (c.fact? "last_expression_line").bind Value.asInt? with
    | some name, some line => changeLine line.toInt.toNat (assignLine name) lines
    | _, _ => lines
  named.map String.ofList

/-- The line that reads a file into a dataframe. -/
def readLine (name path : String) : String :=
  name ++ " = pd.read_csv(" ++ Script.pathLiteral path ++ ")"

/-- The lines that read files into new dataframes, which come in the order of the files. -/
def importLines (c : Chunk) : List String :=
  (textsParam c.params "file_names").zipWith (fun path name => readLine name path) c.newNames

/-- The line that adds a column. -/
def newColumnLines (c : Chunk) : List String :=
  match c.sheet?, c.textParam? "column_header" with
  | some (name, f), some header =>
    [name ++ ".insert(" ++ toString (insertPosition f c.params) ++ ", "
      ++ Script.stringLiteral header ++ ", 0)"]
  | _, _ => []

/-- The line that renames columns. -/
def renamingLines (c : Chunk) (mapping : Keyed String) : List String :=
  match c.sheetName? with
  | some name =>
    if mapping.isEmpty then []
    else
      let columns := Value.dict (mapping.map fun (old, new) => (old, .str new))
      [name ++ ".rename(columns=" ++ Script.literal columns ++ ", inplace=True)"]
  | none => []

/-- The line that deletes columns. -/
def deletionLines (c : Chunk) (headers : List String) : List String :=
  match c.sheetName? with
  | some name =>
    if headers.isEmpty then []
    else [name ++ ".drop(" ++ Script.textListLiteral headers ++ ", axis=1, inplace=True)"]
  | none => []

/-- The line that copies a dataframe. -/
def copyLines (c : Chunk) : List String :=
  match c.sheetName?, c.newNames.head? with
  | some name, some copy => [copy ++ " = " ++ name ++ ".copy(deep=True)"]
  | _, _ => []

/-- The script lines of the chunk. -/
def lines (c : Chunk) : List String :=
  match c.content with
  | .transformation => c.transformationLines
  | .fileImport => c.importLines
  | .newColumn => c.newColumnLines
  | .renaming mapping => c.renamingLines mapping
  | .deletion headers => c.deletionLines headers
  | .copy => c.copyLines

/-! ## Combining -/

/-- The chunk from the beginning of one to the end of another. Facts of single steps are dropped. -/
def spanning (c d : Chunk) (params : Params) (content : ChunkContent) : Chunk :=
  ⟨c.prev, d.post, params, none, content⟩

/-- Change the first entry that leads to a header, or put a new one in if none does. -/
def redirect (mapping : Keyed String) (old new : String) : Keyed String :=
  if mapping.any fun entry => entry.2 = old then redirectFirst mapping
  else mapping.put old new
where
  /-- Change the first entry that leads to the header. -/
  redirectFirst : Keyed String → Keyed String
    | [] => []
    | (source, target) :: rest =>
      if target = old then (source, new) :: rest else (source, target) :: redirectFirst rest

/-- The position of a header, or one past the last. -/
def headerRank (headers : List String) (header : String) : Nat := headers.idxOf header

/-- Entries in the order of the headers they lead from; those of equal rank keep their order. -/
def inHeaderOrder (headers : List String) (mapping : Keyed String) : Keyed String :=
  mapping.mergeSort fun a b => headerRank headers a.1 ≤ headerRank headers b.1

/-- One renaming after another as one: the second is taken in entry by entry, headers that end up as
they were are dropped, and the entries follow the order of the headers as they were before. -/
def composeRenamings (headers : List String) (first second : Keyed String) : Keyed String :=
  let composed := second.foldl (fun mapping entry => redirect mapping entry.1 entry.2) first
  inHeaderOrder headers (composed.filter fun entry => entry.1 ≠ entry.2)

/-- The chunk as one with the chunk that follows it, if there is such a chunk. -/
def combine? (c d : Chunk) : Option Chunk :=
  match c.content, d.content with
  | .fileImport, .fileImport =>
    let paths := textsParam c.params "file_names" ++ textsParam d.params "file_names"
    some (c.spanning d (c.params.put "file_names" (.ofTexts paths)) .fileImport)
  | .renaming first, .renaming second =>
    if c.paramsMatch d ["sheet_index"] then
      let headers := match c.sheet? with
        | some (_, f) => f.headers
        | none => []
      some (c.spanning d c.params (.renaming (composeRenamings headers first second)))
    else none
  | .deletion first, .deletion second =>
    if c.paramsMatch d ["sheet_index"] then
      let headers := first ++ second
      some (c.spanning d (c.params.put "column_headers" (.ofTexts headers)) (.deletion headers))
    else none
  | _, _ => none

end Chunk

end TableScript
