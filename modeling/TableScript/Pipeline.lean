import TableScript.Chunk
import TableScript.Registry

/-!
# Pipelines

A pipeline is the log of the steps that were applied to a workbook, with the code for them. Every record
keeps the workbook before and after its step, so a step can be undone, and the whole log can be carried
out again, on other input if need be. An operation that fails leaves the pipeline as it was.

The code is kept as chunks. When the merge policy is eager, a new chunk is combined with the one before it
for as long as that is possible.
-/

namespace TableScript

open Step

/-! ## Merge policies -/

/-- Whether neighbouring chunks are combined. -/
inductive MergePolicy where
  | eager
  | disabled
deriving DecidableEq

/-- The text names no policy. -/
structure UnknownPolicy where
  text : String

/-- The text of the error. -/
def UnknownPolicy.message (e : UnknownPolicy) : String := "unknown merge policy: " ++ e.text

/-- A text with its ASCII letters in lower case. -/
def asciiLower (s : String) : String := String.ofList (s.toList.map Char.toLower)

/-- The policy that a text names. -/
def MergePolicy.ofText (text : String) : Except UnknownPolicy MergePolicy :=
  let name := asciiLower text
  if name = "eager" then .ok .eager
  else if ["disabled", "off", "none"].contains name then .ok .disabled
  else .error ⟨name⟩

/-! ## Records and errors -/

/-- A step that was applied. -/
structure StepRecord where
  id : String
  kind : StepKind
  params : Params
  prev : Workbook
  post : Workbook
  data : Option Params
  /-- The indexes of the dataframes the step changed, in ascending order. -/
  modified : List Nat
  /-- The indexes of the dataframes the step created, in ascending order. -/
  created : List Nat

/-- Why steps cannot be applied. -/
inductive PipelineError where
  | unknownStepType (name : String)
  | execution (kind : StepKind) (params : Params) (cause : StepError)
  | replay (index : Nat) (cause : PipelineError)
  | versionMismatch (kind : StepKind) (saved : Nat)

/-- The text of the error. -/
def PipelineError.message : PipelineError → String
  | unknownStepType name => "unknown step type: " ++ name
  | execution kind _ cause => "step " ++ kind.typeName ++ " failed: " ++ cause.message
  | replay index cause => "replay failed at step " ++ toString index ++ ": " ++ cause.message
  | versionMismatch kind saved =>
    "step " ++ kind.typeName ++ " was saved at version " ++ toString saved ++ ", current version is "
      ++ toString kind.version

/-! ## Carrying out one step -/

/-- The dataframe at an index afterwards was there before, with other content. -/
def isChanged (prev post : Workbook) (index : Nat) : Bool :=
  match post.frameAt? index with
  | some (name, f) =>
    match prev.frame? name with
    | some before => !(before == f)
    | none => false
  | none => false

/-- The dataframe at an index afterwards was not there before. -/
def isNew (prev post : Workbook) (index : Nat) : Bool :=
  match post.frameAt? index with
  | some (name, _) => !prev.has name
  | none => false

/-- The indexes of the created dataframes: those that are new, and those that the step declares. -/
def createdIndexes (prev post : Workbook) (declared : List Int) : List Nat :=
  (List.range post.size).filter fun index => isNew prev post index || declared.contains (index : Int)

/-- The indexes of the modified dataframes: those whose content differs, and those that the step
declares, without those it created. -/
def modifiedIndexes (prev post : Workbook) (declaredModified declaredCreated : List Int) : List Nat :=
  let created := createdIndexes prev post declaredCreated
  (List.range post.size).filter fun index =>
    (isChanged prev post index || declaredModified.contains (index : Int)) && !created.contains index

/-- The record of a step that was carried out. -/
def StepRecord.ofPerformed (kind : StepKind) (id : String) (prev : Workbook) (params : Params)
    (performed : Performed) : StepRecord :=
  let post := performed.book
  { id, kind, params, prev, post
    data := performed.data
    modified := modifiedIndexes prev post (kind.declaredModified params) kind.declaredCreated
    created := createdIndexes prev post kind.declaredCreated }

/-- Carry out a step. -/
def runStep (files : Files) (kind : StepKind) (id : String) (prev : Workbook) (params : Params) :
    Except PipelineError StepRecord :=
  match kind.perform files prev params with
  | .ok performed => .ok (.ofPerformed kind id prev params performed)
  | .error e => .error (.execution kind params e)

/-- The code for a step. -/
def StepRecord.chunk (record : StepRecord) : Chunk :=
  .ofStep record.kind record.prev record.post record.params record.data

/-! ## Lists of chunks -/

/-- Combine a chunk with those before it, the nearest first, for as long as that is possible. -/
def absorb : (nearestFirst : List Chunk) → Chunk → List Chunk
  | [], chunk => [chunk]
  | last :: before, chunk =>
    match last.combine? chunk with
    | some combined => absorb before combined
    | none => chunk :: last :: before

/-- Put a chunk at the end. -/
def pushChunk (policy : MergePolicy) (chunks : List Chunk) (chunk : Chunk) : List Chunk :=
  match policy with
  | .eager => (absorb chunks.reverse chunk).reverse
  | .disabled => chunks ++ [chunk]

/-- The chunks of a log. -/
def chunksOf (policy : MergePolicy) (records : List StepRecord) : List Chunk :=
  records.foldl (fun chunks record => pushChunk policy chunks record.chunk) []

/-! ## The type -/

/-- The log of the steps applied to a workbook. -/
structure Pipeline where
  registry : Registry
  initial : Workbook
  records : List StepRecord
  chunks : List Chunk
  policy : MergePolicy
  nextId : Nat
  /-- The names of dataframes of the initial workbook, each with the CSV file it was read from. -/
  sources : Keyed String

namespace Pipeline

/-- An empty log. -/
def new (registry : Registry) (initial : Workbook) : Pipeline :=
  ⟨registry, initial, [], [], .eager, 0, []⟩

/-- The workbook after the last step. -/
def book (p : Pipeline) : Workbook :=
  match p.records.getLast? with
  | some record => record.post
  | none => p.initial

/-- The number of steps. -/
def size (p : Pipeline) : Nat := p.records.length

/-- The pipeline with another log; the code follows it. -/
def withRecords (p : Pipeline) (records : List StepRecord) : Pipeline :=
  { p with records, chunks := chunksOf p.policy records }

/-- The pipeline under another merge policy. -/
def withPolicy (p : Pipeline) (policy : MergePolicy) : Pipeline :=
  { p with policy, chunks := chunksOf policy p.records }

/-- The pipeline with the files that the initial dataframes come from. -/
def withSources (p : Pipeline) (sources : List (String × String)) : Pipeline :=
  { p with sources := Keyed.ofList sources }

/-! ## Operations -/

/-- The name of a step. -/
def stepId (n : Nat) : String := "step-" ++ toString n

/-- The pipeline with one more record. -/
def append (p : Pipeline) (record : StepRecord) : Pipeline :=
  { p with
    records := p.records ++ [record]
    chunks := pushChunk p.policy p.chunks record.chunk
    nextId := p.nextId + 1 }

/-- Carry out a step on the current workbook and put it into the log. -/
def apply (files : Files) (p : Pipeline) (typeName : String) (params : Params) :
    Except PipelineError StepRecord × Pipeline :=
  match p.registry.find? typeName with
  | none => (.error (.unknownStepType typeName), p)
  | some kind =>
    match runStep files kind (stepId p.nextId) p.book params with
    | .error e => (.error e, p)
    | .ok record => (.ok record, p.append record)

/-- Remove the last step. -/
def undo (p : Pipeline) : Option StepRecord × Pipeline :=
  match p.records.getLast? with
  | none => (none, p)
  | some record => (some record, p.withRecords p.records.dropLast)

/-- Remove all steps. -/
def clear (p : Pipeline) : Pipeline := { p with records := [], chunks := [] }

/-- Carry out records again one after the other, the first, which is number `index`, on `book`. -/
def replayFrom (files : Files) (registry : Registry) (index : Nat) (book : Workbook) :
    List StepRecord → Except PipelineError (List StepRecord)
  | [] => .ok []
  | record :: rest =>
    match registry.find? record.kind.typeName with
    | none => .error (.replay index (.unknownStepType record.kind.typeName))
    | some kind =>
      match runStep files kind record.id book record.params with
      | .error e => .error (.replay index e)
      | .ok fresh =>
        match replayFrom files registry (index + 1) fresh.post rest with
        | .error e => .error e
        | .ok others => .ok (fresh :: others)

/-- Carry out all steps again, from the initial workbook. -/
def replay (files : Files) (p : Pipeline) : Except PipelineError Unit × Pipeline :=
  match replayFrom files p.registry 0 p.initial p.records with
  | .error e => (.error e, p)
  | .ok records => (.ok (), p.withRecords records)

/-- Carry out all steps again, from another initial workbook. Where the old one came from is forgotten. If
that fails, the old one is put back. -/
def setInitial (files : Files) (p : Pipeline) (initial : Workbook) :
    Except PipelineError Unit × Pipeline :=
  match replay files { p with initial } with
  | (.error e, replayed) => (.error e, { replayed with initial := p.initial })
  | (.ok _, replayed) => (.ok (), { replayed with sources := [] })

/-! ## Code -/

/-- The first line of every script. -/
def header : String := "import pandas as pd"

/-- The lines that read the initial dataframes. -/
def sourceLines (p : Pipeline) : List String :=
  if p.sources.isEmpty then []
  else
    header :: "" :: "# Read input data" :: p.sources.map fun (name, path) => Chunk.readLine name path

/-- The lines before a chunk, followed by those of the chunk under its comment. A chunk without lines
leaves no trace, and the first one with lines brings the first line of the script if it is missing. -/
def addChunkLines (before : List String) (chunk : Chunk) : List String :=
  let lines := chunk.lines
  if lines.isEmpty then before
  else
    (if before.isEmpty then [header] else before) ++ "" :: ("# " ++ chunk.comment) :: lines

/-- The lines of the script that does what the steps did. -/
def code (p : Pipeline) : List String := p.chunks.foldl addChunkLines p.sourceLines

/-- The script that does what the steps did. -/
def script (p : Pipeline) : String :=
  let text := "\n".intercalate p.code
  if text.isEmpty then text else text ++ "\n"

/-- The positions of the steps that changed or created the dataframe at an index. -/
def stepsTouching (p : Pipeline) (index : Nat) : List Nat :=
  (List.range p.size).filter fun position =>
    match p.records[position]? with
    | some record => record.modified.contains index || record.created.contains index
    | none => false

/-- The pipeline as messages show it. -/
def explicitText (p : Pipeline) : String :=
  "Pipeline \x7b steps: " ++ toString p.size ++ ", chunks: " ++ toString p.chunks.length
    ++ ", merge_policy: " ++ (match p.policy with | .eager => "Eager" | .disabled => "Disabled")
    ++ " \x7d"

end Pipeline

end TableScript
