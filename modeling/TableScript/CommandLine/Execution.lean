import TableScript.CommandLine.Arguments
import TableScript.CommandLine.Config
import TableScript.CommandLine.Listing
import TableScript.CommandLine.Report
import TableScript.CommandLine.Suggestion
import TableScript.Frame.Csv
import TableScript.Pipeline.Saved

/-!
# Carrying out commands

What a command does to the files it can see and what it prints, up to the failure that ends it, if one
does. What was printed and written before a failure stays. Everything a run depends on is in its
`Surroundings`, so that a run is a function of its arguments and these.
-/

namespace TableScript.CommandLine

/-- What a run depends on besides its arguments: the files, when they last changed, the path of the
directory that paths begin at, and the configuration that is used if none is given. -/
structure Surroundings where
  files : Files
  lastModified : String → Option Float
  directory : String
  defaultConfig : Except FileError (List UInt8)

/-- The files and the text printed so far. -/
structure Console where
  files : Files
  printed : String

/-- Carrying out a command changes files and prints, and may fail. -/
abbrev Running := ExceptT Report (StateM Console)

/-- How much is printed. -/
structure Verbosity where
  quiet : Bool

/-! ## Effects -/

/-- Print a text. -/
def printText (text : String) : Running Unit :=
  modify fun console => { console with printed := console.printed ++ text }

/-- Print a line. -/
def printLine (line : String) : Running Unit := printText (line ++ "\n")

/-- Print a line, unless little is to be printed. -/
def inform (v : Verbosity) (line : String) : Running Unit := if v.quiet then pure () else printLine line

/-- Fail with a message that has no cause. -/
def fail {α : Type} (message : String) : Running α := throw ⟨message, []⟩

/-- What comes of a reading or writing, or the failure it causes. -/
def expecting {ε α : Type} (report : ε → Report) : Except ε α → Running α
  | .ok a => pure a
  | .error e => throw (report e)

/-- A failure that a file causes. -/
def fileReport (context : String) (e : FileError) : Report := .within context e.message []

/-- Save a file. -/
def saveFile (context path : String) (bytes : List UInt8) : Running Unit := do
  let files ← expecting (fileReport context) ((← get).files.save path bytes)
  modify fun console => { console with files }

/-! ## Input -/

/-- The name for a dataframe and the path of the file that an argument means. -/
def nameAndPath (argument : String) : String × String :=
  let cs := argument.toList
  match cs.dropWhile (· ≠ '=') with
  | _ :: path => (usableName (String.ofList (cs.takeWhile (· ≠ '='))), String.ofList path)
  | [] => (usableName ((Files.stem? argument).getD argument), argument)

/-- The workbook of the files that arguments mean, and which file each dataframe comes from, after what
there is already. -/
def loadInputs (book : Workbook) (sources : List (String × String)) :
    List String → Running (Workbook × List (String × String))
  | [] => return (book, sources)
  | argument :: rest => do
    let (name, path) := nameAndPath argument
    let files := (← get).files
    if !files.isThere path then fail (missingFileMessage files path)
    let frame ← expecting (fun (e : FrameError) => .within ("Failed to read CSV '" ++ path ++ "'") e.message e.causes)
      (Frame.readCsv files path)
    let name := book.freshName name
    loadInputs (book.insert name frame) (sources ++ [(name, path)]) rest

/-- The analysis in a file. -/
def loadAnalysis (path : String) : Running Analysis := do
  let bytes ← expecting (fileReport ("Failed to read analysis file '" ++ path ++ "'")) ((← get).files.read path)
  expecting (fun (e : AnalysisError) => .within ("Failed to parse analysis '" ++ path ++ "'") e.message [])
    (Analysis.read (Analysis.readingFormat (some path)) bytes)

/-- The report of a step that cannot be applied. -/
def pipelineReport (registry : Registry) : PipelineError → Report
  | .unknownStepType name => ⟨unknownTypeMessage registry.typeNames name, []⟩
  | e => ⟨e.message, e.causes⟩

/-- The analysis in a file, carried out on the data that arguments mean. -/
def loadPipeline (registry : Registry) (policy : MergePolicy) (path : String) (data : List String) :
    Running (Analysis × Pipeline) := do
  let analysis ← loadAnalysis path
  let (book, sources) ← loadInputs Workbook.empty [] data
  let p ← expecting (pipelineReport registry)
    (Pipeline.ofAnalysis (← get).files registry analysis book policy)
  return (analysis, p.withSources sources)

/-! ## Output -/

/-- Save every dataframe as a CSV file in a directory. -/
def saveFrames (directory : String) : List (String × Frame) → Running Unit
  | [] => pure ()
  | (name, frame) :: rest => do
    let path := Files.join directory (name ++ ".csv")
    saveFile ("Failed to create '" ++ path ++ "'") path (Text.encodeUtf8 frame.toCsv)
    saveFrames directory rest

/-- Save the dataframes of a workbook in a directory, which is made if need be. -/
def saveBook (directory : String) (book : Workbook) : Running Unit := do
  let files ← expecting (fileReport ("Failed to create '" ++ directory ++ "'"))
    ((← get).files.makePath directory)
  modify fun console => { console with files }
  saveFrames directory book.frames

/-- The name that a path gives to what is saved there. -/
def savedName (path : String) : String := (Files.stem? path).getD "analysis"

/-- The name of the format for an analysis that is saved under a path: the one that the extension names,
else the configured one, else YAML. -/
def savingFormat (config : Config) (path : String) : String :=
  match AnalysisFormat.ofPath? path with
  | some format => format.name
  | none => config.analysisFormat.getD AnalysisFormat.yaml.name

/-! ## Commands -/

/-- Say which steps there are. -/
def runList (registry : Registry) (v : Verbosity) : Running Unit := do
  inform v "Available steps:\n"
  registry.kinds.forM fun kind => inform v ("  " ++ kind.typeName ++ " (v" ++ toString kind.version ++ ")")
  inform v ("\nTotal: " ++ toString registry.kinds.length ++ " steps")

/-- Carry out an analysis and save what comes of it. -/
def runAnalysis (registry : Registry) (policy : MergePolicy) (v : Verbosity) (path : String)
    (data : List String) (outDir : Option String) : Running Unit := do
  let (analysis, p) ← loadPipeline registry policy path data
  inform v ("Applied " ++ toString p.size ++ " steps from '" ++ analysis.name ++ "' ("
    ++ toString p.chunks.length ++ " code chunks)")
  p.book.frames.forM fun (name, frame) => inform v ("  " ++ name ++ ": " ++ toString frame.rows
    ++ " rows x " ++ toString frame.columns.length ++ " columns")
  match outDir with
  | none => pure ()
  | some directory =>
    saveBook directory p.book
    let script := Files.join directory (savedName path ++ ".py")
    saveFile ("Failed to write '" ++ script ++ "'") script (Text.encodeUtf8 p.script)
    inform v ("Wrote results to " ++ directory)

/-- Print the script for an analysis. -/
def runCode (registry : Registry) (policy : MergePolicy) (path : String) (data : List String) : Running Unit := do
  let (_, p) ← loadPipeline registry policy path data
  printText p.script

/-- The code that an argument means: the text of a file after an at sign, or the argument itself. -/
def codeOf (argument : String) : Running String := do
  match argument.toList with
  | '@' :: cs =>
    let path := String.ofList cs
    let context := "Failed to read code file '" ++ path ++ "'"
    let bytes ← expecting (fileReport context) ((← get).files.read path)
    match Text.decodeUtf8 bytes with
    | .ok text => return text
    | .error _ => throw (.within context "stream did not contain valid UTF-8" [])
  | _ => return argument

/-- Save the log of a pipeline as an analysis. -/
def saveAnalysis (config : Config) (p : Pipeline) (path : String) : Running Unit := do
  let text ← expecting (fun (e : AnalysisError) => ⟨e.message, []⟩)
    ((p.toAnalysis (savedName path)).writeAs (savingFormat config path))
  saveFile ("Failed to write '" ++ path ++ "'") path (Text.encodeUtf8 text)

/-- What is said of a step that was carried out: what it recorded, and the script that does the same. -/
def stepReport (record : StepRecord) (p : Pipeline) : Document.Json :=
  let facts := match record.data with
    | some facts => Document.Json.ofValue (.dict facts)
    | none => .null
  .object [("execution_data", facts), ("code", .str p.script)]

/-- Save the dataframes of a workbook in a directory, if one is given. -/
def saveOutputs (v : Verbosity) (outDir : Option String) (book : Workbook) : Running Unit := do
  match outDir with
  | none => pure ()
  | some directory =>
    saveBook directory book
    inform v ("Wrote dataframes to " ++ directory)

/-- Carry out code as one step, print what it did, and save the step and the dataframes. -/
def runExec (registry : Registry) (config : Config) (v : Verbosity) (code : String) (data : List String)
    (prompt : String) (save outDir : Option String) : Running Unit := do
  let code ← codeOf code
  let (book, sources) ← loadInputs Workbook.empty [] data
  let p := (Pipeline.new registry book).withSources sources
  let params : Params := [("user_input", .str prompt), ("edited_completion", .str code)]
  let (applied, p) := Pipeline.apply (← get).files p Step.StepKind.aiTransformation.typeName params
  let record ← expecting (pipelineReport registry) applied
  printLine (stepReport record p).sorted.pretty
  match save with
  | none => pure ()
  | some path => saveAnalysis config p path
  saveOutputs v outDir p.book

/-- List a directory. -/
def runFiles (surroundings : Surroundings) (path : String) : Running Unit := do
  let listing := Listing.ofPath (← get).files surroundings.lastModified surroundings.directory path
  printLine listing.toJson.pretty

/-- Carry out a command. -/
def Command.perform (surroundings : Surroundings) (config : Config) (v : Verbosity) : Command → Running Unit
  | .list => runList .standard v
  | .run analysis data outDir noMerge =>
    runAnalysis .standard (config.mergePolicy noMerge) v analysis data outDir
  | .code analysis data noMerge => runCode .standard (config.mergePolicy noMerge) analysis data
  | .exec source data prompt save outDir => runExec .standard config v source data prompt save outDir
  | .files path => runFiles surroundings path

/-! ## Runs -/

/-- The configuration in a file, and a warning if it cannot be used. Where there is no file, all defaults
are off. -/
def loadConfig : Except FileError (List UInt8) → Config × String
  | .error .isDirectory =>
    (.empty, "Warning: Failed to read config file: " ++ FileError.isDirectory.message ++ "\n")
  | .error _ => (.empty, "")
  | .ok bytes =>
    match Text.decodeUtf8 bytes with
    | .error _ => (.empty, "Warning: Failed to read config file: stream did not contain valid UTF-8\n")
    | .ok text =>
      match Config.ofText? text with
      | some config => (config, "")
      | none => (.empty, "Warning: Failed to parse config file\n")

/-- How a run ends: the exit code, the texts on both outputs, and the files. -/
structure Outcome where
  code : UInt8
  printed : String
  errors : String
  files : Files

/-- How arguments are written. -/
def usage : String :=
  "usage: [-v] [-q] [--config PATH] (list | run | code | exec | files) [ARGUMENTS]\n"

/-- Carry out what arguments ask for. The exit code is two if they do not follow the grammar, and one if
the command fails. -/
def execute (surroundings : Surroundings) (arguments : List String) : Outcome :=
  match Invocation.ofArguments? arguments with
  | none => ⟨2, "", usage, surroundings.files⟩
  | some invocation =>
    let (config, warning) := loadConfig (match invocation.config with
      | some path => surroundings.files.read path
      | none => surroundings.defaultConfig)
    let v : Verbosity := ⟨invocation.quiet || config.quiet⟩
    let (result, console) := (invocation.command.perform surroundings config v).run.run ⟨surroundings.files, ""⟩
    match result with
    | .ok () => ⟨0, console.printed, warning, console.files⟩
    | .error report => ⟨1, console.printed, warning ++ report.text, console.files⟩

end TableScript.CommandLine
