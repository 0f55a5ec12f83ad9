import TableScript.Analysis
import TableScript.Pipeline

/-!
# Configuration

Defaults for the options of the command line, from the table `defaults` of a TOML text. What is missing is
off, and what else the text says does not count.
-/

namespace TableScript.CommandLine

open Document

/-- Defaults for the options of the command line. -/
structure Config where
  verbose : Bool
  quiet : Bool
  merge : Option MergePolicy
  /-- The name of the format for analyses that are saved under a path that names none. -/
  analysisFormat : Option String

namespace Config

/-- All defaults are off. -/
def empty : Config := ⟨false, false, none, none⟩

/-- The merge policy of this name. -/
def policyOfName? (name : String) : Option MergePolicy :=
  if name = "eager" then some .eager else if name = "disabled" then some .disabled else none

/-- A merge policy: its name, or a table with nothing under its name. -/
def policy? : Toml → Option MergePolicy
  | .str name => policyOfName? name
  | .table [(name, .table [])] => policyOfName? name
  | .table [(name, .list [])] => policyOfName? name
  | _ => none

/-- A truth value. -/
def truth? : Toml → Option Bool
  | .bool b => some b
  | _ => none

/-- The defaults. -/
def ofDefaults? (record : Toml) : Option Config := do
  match ← Toml.view.fields? ["verbose", "quiet", "merge", "analysis_format"] record with
  | [verbose, quiet, merge, analysisFormat] =>
    let verbose ← View.optional truth? false verbose
    let quiet ← View.optional truth? false quiet
    let merge ← View.optional (fun policy => (policy? policy).map some) none merge
    let analysisFormat ← View.optional (fun name => (Toml.view.text? name).map some) none analysisFormat
    return ⟨verbose, quiet, merge, analysisFormat⟩
  | _ => none

/-- The configuration that a text says. -/
def ofText? (text : String) : Option Config := do
  let entries ← Toml.ofText? text.toList
  match ← Toml.view.fields? ["defaults"] (.table entries) with
  | [defaults] => View.optional ofDefaults? empty defaults
  | _ => none

/-- The merge policy, unless merging is turned off. -/
def mergePolicy (config : Config) (noMerge : Bool) : MergePolicy :=
  if noMerge then .disabled else config.merge.getD .eager

end Config

end TableScript.CommandLine
