import TableScript.Analysis
import TableScript.Pipeline

/-!
# Pipelines from and to analyses

The log of a pipeline can be saved as an analysis, and an analysis makes a new pipeline over a workbook.
All its steps have to be known, at the versions they were saved at, before the first of them is carried
out.
-/

namespace TableScript.Pipeline

/-- A step of the log as it is saved. -/
def savedStep (record : StepRecord) : SavedStep :=
  ⟨record.kind.typeName, record.kind.version, record.params⟩

/-- The log as an analysis. -/
def toAnalysis (p : Pipeline) (name : String) : Analysis := ⟨name, p.records.map savedStep⟩

/-- The step is known, at the version it was saved at. -/
def checkSaved (registry : Registry) (saved : SavedStep) : Except PipelineError Unit :=
  match registry.find? saved.stepType with
  | none => .error (.unknownStepType saved.stepType)
  | some kind => if kind.version = saved.version then .ok () else .error (.versionMismatch kind saved.version)

/-- All steps are known, at the versions they were saved at. -/
def checkAll (registry : Registry) : List SavedStep → Except PipelineError Unit
  | [] => .ok ()
  | saved :: rest =>
    match checkSaved registry saved with
    | .error e => .error e
    | .ok () => checkAll registry rest

/-- Apply saved steps, the first of which is number `index`. -/
def applyAll (files : Files) (index : Nat) (p : Pipeline) : List SavedStep → Except PipelineError Pipeline
  | [] => .ok p
  | saved :: rest =>
    match p.apply files saved.stepType saved.params with
    | (.error e, _) => .error (.replay index e)
    | (.ok _, p) => applyAll files (index + 1) p rest

/-- The pipeline of an analysis over a workbook. -/
def ofAnalysis (files : Files) (registry : Registry) (analysis : Analysis) (initial : Workbook)
    (policy : MergePolicy) : Except PipelineError Pipeline :=
  match checkAll registry analysis.steps with
  | .error e => .error e
  | .ok () => applyAll files 0 ((new registry initial).withPolicy policy) analysis.steps

end TableScript.Pipeline
