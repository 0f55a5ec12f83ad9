import TableScript.Files
import TableScript.Document.Yaml.View
import TableScript.Document.Yaml.Writer
import TableScript.Document.Toml.Reader
import TableScript.Document.Toml.Writer

/-!
# Saved analyses

An analysis is the part of a log of steps that can be carried out again on other data: the types of the
steps, the versions they were saved at, and their parameters. It is saved as JSON, YAML or TOML. What is
missing in a saved analysis is empty, except that every step has a type and a version; what is there
besides does not count.
-/

namespace TableScript

/-- A step as it is saved. -/
structure SavedStep where
  stepType : String
  version : Nat
  params : Params

/-- Steps to be carried out one after the other. -/
structure Analysis where
  name : String
  steps : List SavedStep

/-! ## Formats -/

/-- The formats of saved analyses. -/
inductive AnalysisFormat where
  | json
  | yaml
  | toml
deriving DecidableEq

namespace AnalysisFormat

/-- The name of the format. -/
def name : AnalysisFormat → String
  | json => "json"
  | yaml => "yaml"
  | toml => "toml"

/-- The format of this name. -/
def ofName? (name : String) : Option AnalysisFormat :=
  if name = "json" then some json
  else if name = "yaml" || name = "yml" then some yaml
  else if name = "toml" then some toml
  else none

/-- The format that the extension of a path names, in upper or lower case. -/
def ofPath? (path : String) : Option AnalysisFormat :=
  (Files.extension? path).bind fun extension => ofName? (String.ofList (extension.toList.map Char.toLower))

end AnalysisFormat

/-- Why an analysis cannot be read or written. -/
inductive AnalysisError where
  | unreadable
  | unwritable
  | unsupportedFormat (name : String)

/-- The text of the error, which for texts that are not well formed does not say what is wrong. -/
def AnalysisError.message : AnalysisError → String
  | unreadable => "failed to parse analysis: "
  | unwritable => "failed to serialize analysis: "
  | unsupportedFormat name => "unsupported analysis format: " ++ name

namespace Analysis

open Document

/-! ## Sameness -/

/-- The steps are of one type and version and have the same parameters. -/
def sameStep (a b : SavedStep) : Bool :=
  a.stepType == b.stepType && a.version == b.version && a.params.same b.params

/-- The steps are the same, in the same order. -/
def sameSteps : List SavedStep → List SavedStep → Bool
  | [], [] => true
  | a :: as, b :: bs => sameStep a b && sameSteps as bs
  | _, _ => false

/-- The analyses have the same name and the same steps. -/
def same (a b : Analysis) : Bool := a.name == b.name && sameSteps a.steps b.steps

/-! ## Reading -/

/-- A version is a natural number of 32 bits. -/
def versionLimit : Nat := Nat.pow 2 32

/-- A step of a saved analysis. -/
def readStep? {α : Type} (view : View α) (record : α) : Option SavedStep := do
  match ← view.fields? ["step_type", "step_version", "params"] record with
  | [some stepType, some version, params] =>
    let stepType ← view.text? stepType
    let version ← (view.count? version).filter (· < versionLimit)
    let params ← View.optional view.params? [] params
    return ⟨stepType, version, params⟩
  | _ => none

/-- A saved analysis. -/
def ofDocument? {α : Type} (view : View α) (record : α) : Option Analysis := do
  match ← view.fields? ["name", "steps"] record with
  | [name, steps] =>
    let name ← View.optional view.text? "" name
    let steps ← View.optional (fun steps => (view.items? steps).bind (·.mapM (readStep? view))) [] steps
    return ⟨name, steps⟩
  | _ => none

/-- The analysis that a text of the format says. -/
def ofText? (text : String) : AnalysisFormat → Option Analysis
  | .json => (Json.ofText? text.toList).bind (ofDocument? Json.view)
  | .yaml => (Yaml.Tree.ofText? text.toList).bind fun d =>
    ofDocument? (d.view (Yaml.referenceLimit text.length)) d.start
  | .toml => (Toml.ofText? text.toList).bind fun entries => ofDocument? Toml.view (.table entries)

/-- Read an analysis in the format. -/
def read (format : AnalysisFormat) (bytes : List UInt8) : Except AnalysisError Analysis :=
  match Text.decodeUtf8 bytes with
  | .error _ => .error .unreadable
  | .ok text =>
    match ofText? text format with
    | some analysis => .ok analysis
    | none => .error .unreadable

/-- The format in which a file is read: the one that its extension names, and YAML if it names none. -/
def readingFormat (path : Option String) : AnalysisFormat := (path.bind AnalysisFormat.ofPath?).getD .yaml

/-! ## Writing -/

/-- A step as a dictionary. -/
def stepValue (step : SavedStep) : Value :=
  .dict [("step_type", .str step.stepType), ("step_version", .ofNat step.version), ("params", .dict step.params)]

/-- The analysis as a dictionary. -/
def entries (analysis : Analysis) : Keyed Value :=
  [("name", .str analysis.name), ("steps", .list (analysis.steps.map stepValue))]

/-- The analysis as a text of the format. -/
def text? (analysis : Analysis) : AnalysisFormat → Option String
  | .json => some (Json.ofValue (.dict analysis.entries)).pretty
  | .yaml => some (Yaml.documentText analysis.entries)
  | .toml => Toml.documentText? analysis.entries

/-- Write an analysis in the format. -/
def write (format : AnalysisFormat) (analysis : Analysis) : Except AnalysisError String :=
  match analysis.text? format with
  | some text => .ok text
  | none => .error .unwritable

/-! ## Formats by name -/

/-- The format of this name, or an error. -/
def formatOf (name : String) : Except AnalysisError AnalysisFormat :=
  match AnalysisFormat.ofName? name with
  | some format => .ok format
  | none => .error (.unsupportedFormat name)

/-- Read an analysis in the format of this name. -/
def readAs (name : String) (bytes : List UInt8) : Except AnalysisError Analysis :=
  (formatOf name).bind (read · bytes)

/-- Write an analysis in the format of this name. -/
def writeAs (name : String) (analysis : Analysis) : Except AnalysisError String :=
  (formatOf name).bind (write · analysis)

end Analysis

end TableScript
