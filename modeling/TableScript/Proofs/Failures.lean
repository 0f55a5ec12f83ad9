import TableScript.Proofs.Saving

/-!
# Failing operations

An operation that fails leaves a pipeline as it was, and a replay that fails names the step that failed
and tells its error (`Pipeline.replayFrom_eq_error_iff_failsAt`). This is said of every pipeline that
operations have made, also when files came and went between them: as long as files stay as they are, no
replay fails.

A saved log with a step that is unknown, or of another version, is refused for the first such step,
whatever its steps would do (`ofAnalysis_eq_error_iff`).
-/

namespace TableScript

open Step

/-! ## Pipelines that were made -/

/-- The pipeline comes from an empty log by operations, each on the files that there were then. -/
inductive Pipeline.Made : Pipeline → Prop
  | new (registry : Registry) (initial : Workbook) : Made (new registry initial)
  | perform {p : Pipeline} (before : Made p) (files : Files) (operation : Operation) :
      Made (operation.perform files p)

/-- The registry has the kinds of all records. -/
theorem Pipeline.Made.known {p : Pipeline} (h : p.Made) : ∀ record ∈ p.records, record.Known p.registry := by
  induction h with
  | new => exact List.forall_mem_nil _
  | @perform p _ files operation ih =>
    have hmove := moves_perform files p operation
    rw [hmove.registry_eq]
    exact hmove.forall_records (fun _ hgenuine => hgenuine.known) ih

/-! ## Failing replays -/

/-- The steps before number `index` can be carried out again one after the other, from the workbook on,
and that one, of this kind and with these parameters, cannot. -/
def FailsAt (files : Files) (registry : Registry) (start : Workbook) (records : List StepRecord)
    (index : Nat) (kind : StepKind) (params : Params) (cause : StepError) : Prop :=
  ∃ record fresh stop, records[index]? = some record ∧
    Redone files registry start (records.take index) fresh stop ∧
    record.kind = kind ∧ record.params = params ∧ kind.perform files stop params = .error cause

/-- A replay of steps of known kinds fails exactly if one of them fails, and it tells which and why: the
number, the kind and the parameters of the step, and its own error. -/
theorem Pipeline.replayFrom_eq_error_iff_failsAt {files : Files} {registry : Registry} {start : Workbook}
    {records : List StepRecord} {e : PipelineError} (hknown : ∀ record ∈ records, record.Known registry) :
    replayFrom files registry 0 start records = .error e ↔
      ∃ index kind params cause, FailsAt files registry start records index kind params cause ∧
        e = .replay index (.execution kind params cause) := by
  rw [replayFrom_eq_error_iff]
  constructor
  · rintro ⟨before, record, after, fresh, stop, cause, rfl, hbefore, hcause, rfl⟩
    have hrecord := hknown record (by simp)
    rw [hrecord.redo_eq] at hcause
    obtain ⟨error, herror, rfl⟩ := runStep_eq_error_iff.mp hcause
    refine ⟨before.length, record.kind, record.params, error,
      ⟨record, fresh, stop, ?_, ?_, rfl, rfl, herror⟩, ?_⟩
    · rw [List.getElem?_append_right (Nat.le_refl _), Nat.sub_self]
      rfl
    · rwa [List.take_left]
    · rw [Nat.zero_add]
  · rintro ⟨index, kind, params, error, ⟨record, fresh, stop, hrecord, hbefore, rfl, rfl, herror⟩, rfl⟩
    obtain ⟨hlt, hget⟩ := List.getElem?_eq_some_iff.mp hrecord
    refine ⟨records.take index, record, records.drop (index + 1), fresh, stop,
      .execution record.kind record.params error, ?_, hbefore, ?_, ?_⟩
    · rw [← hget, List.getElem_cons_drop, List.take_append_drop]
    · rw [(hknown record (List.mem_of_getElem? hrecord)).redo_eq]
      exact runStep_eq_error_iff.mpr ⟨error, herror, rfl⟩
    · rw [List.length_take, Nat.min_eq_left (Nat.le_of_lt hlt), Nat.zero_add]

namespace Pipeline

variable {files : Files} {p q : Pipeline} {e : PipelineError}

/-! ## Saved steps that do not fit -/

/-- The registry has the step, at the version it was saved at. -/
def Fits (registry : Registry) (saved : SavedStep) : Prop :=
  ∃ kind, registry.find? saved.stepType = some kind ∧ kind.version = saved.version

/-- What is wrong with a saved step that does not fit. -/
inductive Misfit (registry : Registry) (saved : SavedStep) : PipelineError → Prop
  | unknown (missing : registry.find? saved.stepType = none) :
      Misfit registry saved (.unknownStepType saved.stepType)
  | version {kind : StepKind} (found : registry.find? saved.stepType = some kind)
      (differs : kind.version ≠ saved.version) :
      Misfit registry saved (.versionMismatch kind saved.version)

/-- What is wrong with the first of some saved steps that does not fit. -/
def FirstMisfit (registry : Registry) (steps : List SavedStep) (e : PipelineError) : Prop :=
  ∃ before saved after, steps = before ++ saved :: after ∧ (∀ step ∈ before, Fits registry step) ∧
    Misfit registry saved e

section Saved

variable {registry : Registry} {saved : SavedStep} {steps : List SavedStep}

/-- A saved step passes the check exactly if it fits. -/
theorem checkSaved_eq_ok_iff : checkSaved registry saved = .ok () ↔ Fits registry saved := by
  unfold checkSaved Fits
  cases registry.find? saved.stepType with
  | none => simp
  | some kind =>
    by_cases h : kind.version = saved.version
    · simp [h]
    · simp [h]

/-- A saved step that does not fit is refused for what is wrong with it. -/
theorem checkSaved_eq_error_iff : checkSaved registry saved = .error e ↔ Misfit registry saved e := by
  unfold checkSaved
  constructor
  · intro h
    split at h
    case h_1 hmissing =>
      cases h
      exact .unknown hmissing
    case h_2 kind hfound =>
      split at h
      case isTrue => cases h
      case isFalse hdiffers =>
        cases h
        exact .version hfound hdiffers
  · intro h
    cases h with
    | unknown hmissing => rw [hmissing]
    | version hfound hdiffers => simp only [hfound, if_neg hdiffers]

/-- Steps are refused exactly for the first that does not fit. -/
theorem checkAll_eq_error_iff : checkAll registry steps = .error e ↔ FirstMisfit registry steps e := by
  induction steps with
  | nil => simp [checkAll, FirstMisfit]
  | cons saved rest ih =>
    rw [checkAll]
    constructor
    · intro h
      split at h
      case h_1 cause hcause =>
        cases h
        exact ⟨[], saved, rest, rfl, List.forall_mem_nil _, checkSaved_eq_error_iff.mp hcause⟩
      case h_2 hok =>
        obtain ⟨before, failing, after, rfl, hbefore, hmisfit⟩ := ih.mp h
        exact ⟨saved :: before, failing, after, rfl,
          List.forall_mem_cons.mpr ⟨checkSaved_eq_ok_iff.mp hok, hbefore⟩, hmisfit⟩
    · rintro ⟨before, failing, after, hsteps, hbefore, hmisfit⟩
      cases before with
      | nil =>
        cases hsteps
        rw [checkSaved_eq_error_iff.mpr hmisfit]
      | cons first before =>
        cases hsteps
        obtain ⟨hfirst, hbefore⟩ := List.forall_mem_cons.mp hbefore
        rw [checkSaved_eq_ok_iff.mpr hfirst]
        exact ih.mpr ⟨before, failing, after, rfl, hbefore, hmisfit⟩

/-- What is wrong with a saved step is never that a replay failed. -/
theorem Misfit.ne_replay (h : Misfit registry saved e) (index : Nat) (cause : PipelineError) :
    e ≠ .replay index cause := by
  rintro rfl
  cases h

/-- Once steps are carried out, an error tells which of them failed. -/
theorem applyAll_eq_error {index : Nat} (h : applyAll files index p steps = .error e) :
    ∃ number cause, e = .replay number cause := by
  induction steps generalizing p index with
  | nil => cases h
  | cons saved rest ih =>
    rw [applyAll] at h
    split at h
    case h_1 cause _ _ =>
      cases h
      exact ⟨index, cause, rfl⟩
    case h_2 => exact ih h

/-- A saved log is refused before any of its steps is carried out exactly if one does not fit: whatever
the files, the workbook and the policy are, the error tells what is wrong with the first such step. -/
theorem ofAnalysis_eq_error_iff (files : Files) (registry : Registry) (analysis : Analysis)
    (initial : Workbook) (policy : MergePolicy) (e : PipelineError) :
    (ofAnalysis files registry analysis initial policy = .error e ∧ ∀ index cause, e ≠ .replay index cause) ↔
      FirstMisfit registry analysis.steps e := by
  rw [← checkAll_eq_error_iff]
  unfold ofAnalysis
  constructor
  · rintro ⟨h, hne⟩
    split at h
    case h_1 cause hcause =>
      cases h
      exact hcause
    case h_2 =>
      obtain ⟨index, cause, rfl⟩ := applyAll_eq_error h
      exact absurd rfl (hne index cause)
  · intro h
    obtain ⟨_, _, _, -, -, hmisfit⟩ := checkAll_eq_error_iff.mp h
    rw [h]
    exact ⟨rfl, hmisfit.ne_replay⟩

end Saved

/-! ## What a failure leaves and tells -/

/-- A failing operation changes nothing, and tells the step that failed, with its parameters, and why. -/
structure FailsCleanly (p : Pipeline) : Prop where
  apply : ∀ files typeName params e q, p.apply files typeName params = (.error e, q) → q = p
  replay : ∀ files e q, p.replay files = (.error e, q) ↔ q = p ∧
    ∃ index kind params cause, FailsAt files p.registry p.initial p.records index kind params cause ∧
      e = .replay index (.execution kind params cause)
  setInitial : ∀ files initial e q, p.setInitial files initial = (.error e, q) ↔ q = p ∧
    ∃ index kind params cause, FailsAt files p.registry initial p.records index kind params cause ∧
      e = .replay index (.execution kind params cause)
  /-- Another initial workbook is taken exactly if all steps can be carried out again from it, and then
  the log is that of the same steps, under their names. -/
  replaced : ∀ files initial q, p.setInitial files initial = (.ok (), q) ↔
    ∃ fresh stop, Redone files p.registry initial p.records fresh stop ∧
      q = { p with initial, records := fresh, chunks := chunksOf p.policy fresh, sources := [] }
  /-- It is the log that applying the steps one after the other gives, but for their numbers. -/
  reapplied : ∀ files initial q, p.setInitial files initial = (.ok (), q) →
    q.records.map (·.id) = p.records.map (·.id) ∧
      applyAll files 0 ((new p.registry initial).withPolicy p.policy) (p.records.map savedStep) =
        .ok { q with records := renumbered 0 q.records, nextId := p.size }

/-- Another initial workbook is taken exactly if all steps can be carried out again from it. -/
theorem setInitial_eq_ok_iff_redone {files : Files} {initial : Workbook} {q : Pipeline} :
    p.setInitial files initial = (.ok (), q) ↔
      ∃ fresh stop, Redone files p.registry initial p.records fresh stop ∧
        q = { p with initial, records := fresh, chunks := chunksOf p.policy fresh, sources := [] } := by
  rw [setInitial_eq_ok_iff]
  constructor
  · rintro ⟨fresh, hfresh, hq⟩
    obtain ⟨stop, hstop⟩ := replayFrom_eq_ok_iff.mp hfresh
    exact ⟨fresh, stop, hstop, hq⟩
  · rintro ⟨fresh, stop, hstop, hq⟩
    exact ⟨fresh, replayFrom_eq_ok_iff.mpr ⟨stop, hstop⟩, hq⟩

/-- The failures of a pipeline whose registry has all kinds of its records are clean. -/
theorem failsCleanly_of_known (h : ∀ record ∈ p.records, record.Known p.registry) : p.FailsCleanly := by
  refine ⟨fun _ _ _ _ _ => eq_of_apply_error, ?_, ?_, fun _ _ _ => setInitial_eq_ok_iff_redone, ?_⟩
  · intro files e q
    rw [replay_eq_error_iff, replayFrom_eq_error_iff_failsAt h, and_comm]
  · intro files initial e q
    rw [setInitial_eq_error_iff, replayFrom_eq_error_iff_failsAt h, and_comm]
  · intro files initial q hq
    obtain ⟨fresh, stop, hstop, rfl⟩ := setInitial_eq_ok_iff_redone.mp hq
    refine ⟨hstop.ids_eq, ?_⟩
    have happlied := applyAll_redone (p := (new p.registry initial).withPolicy p.policy) 0 hstop
    have hlength : fresh.length = p.size := by
      simpa [size] using congrArg List.length hstop.ids_eq
    rw [happlied, extend_new, hlength]

/-- Failures of a pipeline that operations have made are clean: what fails changes nothing, a replay and
another initial workbook name the step that failed, and a saved log is refused for the first of its steps
that does not fit, before any is carried out. -/
theorem Made.fails_cleanly (h : p.Made) : p.FailsCleanly ∧
    ∀ files analysis initial policy e,
      (ofAnalysis files p.registry analysis initial policy = .error e ∧
        ∀ index cause, e ≠ .replay index cause) ↔ FirstMisfit p.registry analysis.steps e :=
  ⟨failsCleanly_of_known h.known, fun files analysis initial policy e =>
    ofAnalysis_eq_error_iff files p.registry analysis initial policy e⟩

/-- A column that the second step deletes is missing from another initial workbook. -/
theorem fails_cleanly_without_column :
    let p := Operation.perform default (Operation.perform default
      (new .standard ⟨[("df", ⟨[("A", [.int 1])], 1⟩)]⟩)
      (.apply "add_column" [("sheet_index", .int 0), ("column_header", .str "B")]))
      (.apply "delete_column" [("sheet_index", .int 0), ("column_headers", .list [.str "A"])])
    let other : Workbook := ⟨[("df", ⟨[("C", [.int 2])], 1⟩)]⟩
    p.Made ∧ p.size = 2 ∧ ∃ e, p.setInitial default other = (.error e, p) ∧
      (∃ index kind params cause, FailsAt default p.registry other p.records index kind params cause ∧
        e = .replay index (.execution kind params cause)) ∧
      e.message = "replay failed at step 1: step delete_column failed: column not found: \"A\"" := by
  intro p other
  have hmade : p.Made := .perform (.perform (.new _ _) _ _) _ _
  have hsize : p.size = 2 := by decide +kernel
  have hmessage : (match (p.setInitial default other).1 with
      | .error e => e.message
      | .ok _ => "") = "replay failed at step 1: step delete_column failed: column not found: \"A\"" := by
    decide +kernel
  refine ⟨hmade, hsize, ?_⟩
  cases hresult : p.setInitial default other with
  | mk result q =>
    cases result with
    | ok =>
      rw [hresult] at hmessage
      simp at hmessage
    | error e =>
      obtain ⟨rfl, hstep⟩ := ((Made.fails_cleanly hmade).1.setInitial default other e q).mp hresult
      rw [hresult] at hmessage
      exact ⟨e, rfl, hstep, hmessage⟩

end Pipeline

end TableScript
