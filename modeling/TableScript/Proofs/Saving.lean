import TableScript.Pipeline.Saved
import TableScript.Proofs.Replaying

/-!
# Saved logs

A log that is saved and applied again gives itself, except that its steps are numbered from zero
(`Pipeline.Reachable.restores`). Whatever the log went through, its steps can be applied one after the
other from its initial workbook (`applyAll_redone`), and it is never told that one of them is unknown or
of another version (`checkAll_savedSteps`). Replaying it changes nothing at all.
-/

namespace TableScript

open Step

/-! ## Numbering -/

/-- The records, with the names of steps that were applied one after the other, the first of which was
number `n`. -/
def renumbered (n : Nat) : List StepRecord → List StepRecord
  | [] => []
  | record :: rest => { record with id := Pipeline.stepId n } :: renumbered (n + 1) rest

/-- What does not depend on the names of steps is the same after numbering them. -/
theorem map_renumbered {α : Type} (f : StepRecord → α) (hf : ∀ record id, f { record with id } = f record)
    (n : Nat) (records : List StepRecord) : (renumbered n records).map f = records.map f := by
  induction records generalizing n with
  | nil => rfl
  | cons record rest ih => rw [renumbered, List.map_cons, List.map_cons, hf, ih]

namespace Pipeline

variable {files : Files} {registry : Registry} {p q : Pipeline} {start stop : Workbook}
  {record : StepRecord} {records fresh : List StepRecord}

/-! ## Checking steps -/

/-- No step that was saved is told to be unknown or of another version. -/
theorem checkAll_savedSteps (h : ∀ record ∈ records, record.Known registry) :
    checkAll registry (records.map savedStep) = .ok () := by
  induction records with
  | nil => rfl
  | cons record rest ih =>
    obtain ⟨hrecord, hrest⟩ := List.forall_mem_cons.mp h
    have hchecked : checkSaved registry (savedStep record) = .ok () := by
      have hfound : registry.find? (savedStep record).stepType = some record.kind := hrecord
      unfold checkSaved
      rw [hfound]
      exact if_pos rfl
    rw [List.map_cons, checkAll, hchecked]
    exact ih hrest

/-! ## Applying steps -/

/-- A step of a known kind that can be carried out on the workbook of a pipeline can be applied to it. -/
theorem apply_of_performed {performed : Performed} (hknown : record.Known p.registry)
    (hperformed : record.kind.perform files p.book record.params = .ok performed) (first : StepRecord)
    (hfirst : first = .ofPerformed record.kind (stepId p.nextId) p.book record.params performed) :
    p.apply files record.kind.typeName record.params = (.ok first, p.append first) := by
  have hrun : runStep files record.kind (stepId p.nextId) p.book record.params = .ok first :=
    runStep_eq_ok_iff.mpr ⟨performed, hperformed, hfirst⟩
  exact apply_eq_ok_iff.mpr ⟨record.kind, hknown, hrun, rfl⟩

/-- The pipeline with the records of steps that are applied to it. -/
def extend (p : Pipeline) (fresh : List StepRecord) : Pipeline :=
  { p with
    records := p.records ++ renumbered p.nextId fresh
    chunks := fresh.foldl (fun chunks record => pushChunk p.policy chunks record.chunk) p.chunks
    nextId := p.nextId + fresh.length }

/-- A pipeline is extended by one record after the other, each under its new name. -/
theorem extend_cons (p : Pipeline) (first : StepRecord) (rest : List StepRecord) :
    (p.append { first with id := stepId p.nextId }).extend rest = p.extend (first :: rest) := by
  have hlength : p.nextId + 1 + rest.length = p.nextId + (first :: rest).length := by
    rw [List.length_cons, Nat.add_right_comm, Nat.add_assoc]
  unfold extend append
  simp only [hlength, renumbered, List.append_assoc, List.singleton_append, List.foldl_cons]
  rfl

/-- The workbook of a longer log is that after its last record. -/
theorem book_append (p : Pipeline) (record : StepRecord) : (p.append record).book = record.post := by
  rw [book, append, List.getLast?_concat]

/-- Steps that can be carried out again from the workbook of a pipeline can be applied to it. -/
theorem applyAll_redone (index : Nat) (h : Redone files p.registry p.book records fresh stop) :
    applyAll files index p (records.map savedStep) = .ok (p.extend fresh) := by
  generalize hstart : p.book = start at h
  generalize hregistry : p.registry = registry at h
  induction h generalizing p index with
  | nil => simp [applyAll, extend, renumbered]
  | @cons start stop record performed rest fresh hknown hhead _ ih =>
    subst hstart hregistry
    have happly := apply_of_performed hknown hhead _ rfl
    rw [List.map_cons, applyAll]
    simp only [savedStep] at happly ⊢
    rw [happly, ← extend_cons]
    exact ih (index + 1) (book_append _ _) rfl

/-- The pipeline that steps make of an empty one. -/
theorem extend_new (registry : Registry) (initial : Workbook) (policy : MergePolicy)
    (fresh : List StepRecord) : ((new registry initial).withPolicy policy).extend fresh =
      ⟨registry, initial, renumbered 0 fresh, chunksOf policy fresh, policy, fresh.length, []⟩ := by
  unfold extend withPolicy new
  simp only [List.nil_append, Nat.zero_add]
  rfl

/-! ## Sources -/

/-- No dataframe has two sources. -/
theorem Reachable.nodup_sources (h : p.Reachable files) : p.sources.keys.Nodup := by
  refine h.induction (P := fun p => p.sources.keys.Nodup) (fun _ _ => List.nodup_nil) fun p q hp hmove => ?_
  cases hmove with
  | setInitial => exact List.nodup_nil
  | withSources sources => exact Keyed.nodup_keys_ofList sources
  | _ => exact hp

/-! ## Replays and saved logs -/

/-- Replaying a pipeline leaves it as it is, whatever it went through. -/
theorem Reachable.replay_eq (h : p.Reachable files) : p.replay files = (.ok (), p) := by
  unfold replay
  rw [replayFrom_eq_ok_iff.mpr ⟨p.book, h.redone⟩]
  simp only [withRecords, ← h.kept.chunks]

/-- The pipeline that a saved log makes, over the workbook it began with. -/
theorem Reachable.ofAnalysis_eq (h : p.Reachable files) (name : String) :
    ofAnalysis files p.registry (p.toAnalysis name) p.initial p.policy =
      .ok { p with records := renumbered 0 p.records, nextId := p.size, sources := [] } := by
  have hsteps := checkAll_savedSteps fun record hrecord => (h.genuine record hrecord).known
  have happlied := applyAll_redone (p := (new p.registry p.initial).withPolicy p.policy) 0 h.redone
  unfold ofAnalysis toAnalysis
  simp only [hsteps]
  rw [happlied, extend_new, ← h.kept.chunks]
  rfl

/-- Saving and replaying give the log again. The pipeline that is made of the saved log has the same
records but for their names, the same chunks, workbook and analysis, and with the same sources the same
code. -/
theorem Reachable.restores (h : p.Reachable files) (name : String) : p.replay files = (.ok (), p) ∧
    ∃ restored, ofAnalysis files p.registry (p.toAnalysis name) p.initial p.policy = .ok restored ∧
      restored = { p with records := renumbered 0 p.records, nextId := p.size, sources := [] } ∧
      restored.toAnalysis name = p.toAnalysis name ∧ restored.book = p.book ∧
      (restored.withSources p.sources).code = p.code := by
  refine ⟨h.replay_eq, _, h.ofAnalysis_eq name, rfl, ?_, ?_, ?_⟩
  · unfold toAnalysis
    rw [map_renumbered savedStep fun _ _ => rfl]
  · rw [book_eq, book_eq, map_renumbered _ fun _ _ => rfl]
  · unfold code sourceLines withSources
    simp only [Keyed.ofList_of_nodup h.nodup_sources]

/-- After a step that was undone, the steps of the log are not numbered in one go; in the log that is made
of the saved one they are. -/
theorem restores_after_undo :
    let added (header : String) := Operation.apply "add_column"
      [("sheet_index", .int 0), ("column_header", .str header)]
    let p := (new .standard ⟨[("df", ⟨[("A", [.int 1])], 1⟩)]⟩).after default
      [added "B", added "C", .undo, added "D"]
    p.Reachable default ∧ p.records.map (·.id) = ["step-0", "step-2"] ∧ p.replay default = (.ok (), p) ∧
      ∃ restored, ofAnalysis default p.registry (p.toAnalysis "log") p.initial p.policy = .ok restored ∧
        restored.records.map (·.id) = ["step-0", "step-1"] ∧ restored.book = p.book := by
  intro added p
  have hreachable : p.Reachable default := ⟨_, _, _, rfl⟩
  have hids : p.records.map (·.id) = ["step-0", "step-2"] := by decide +kernel
  have hnumbered : (renumbered 0 p.records).map (·.id) = ["step-0", "step-1"] := by decide +kernel
  obtain ⟨hreplay, restored, hrestored, heq, -, hbook, -⟩ := Reachable.restores hreachable "log"
  refine ⟨hreachable, hids, hreplay, restored, hrestored, ?_, hbook⟩
  rw [heq]
  exact hnumbered

end Pipeline

end TableScript
