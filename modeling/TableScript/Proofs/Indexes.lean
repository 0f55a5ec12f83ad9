import TableScript.Proofs.Replaying
import TableScript.Proofs.Transitions

/-!
# The dataframes that a step created and changed

A record tells which dataframes its step created and which it changed by their indexes in the
workbook afterwards. A script's record tells it a second time, in the facts about the run, there by
name and with the names of the deleted dataframes. `Pipeline.indexed_of_apply` says what the indexes
are, and that both tell the same.

Both are read off the workbook afterwards: the indexes are those at which a test of the entry
succeeds, and the names are those of the entries that pass it (`Workbook.namesAt_indexesOf`).
-/

namespace TableScript

open Script Step

/-! ## Indexes and names -/

namespace Workbook

variable {w : Workbook}

/-- The names of the dataframes at indexes. -/
def namesAt (w : Workbook) (indexes : List Nat) : List String := indexes.filterMap (w.names[·]?)

/-- The indexes, in ascending order, of the dataframes that pass a test. -/
def indexesOf (w : Workbook) (test : String × Frame → Bool) : List Nat :=
  (List.range w.size).filter fun index => (w.frameAt? index).any test

/-- The indexes found by a test are those of the dataframes that pass it. -/
theorem mem_indexesOf {test : String × Frame → Bool} {index : Nat} :
    index ∈ w.indexesOf test ↔ ∃ entry, w.frameAt? index = some entry ∧ test entry = true := by
  rw [indexesOf, List.mem_filter, List.mem_range, Option.any_eq_true]
  constructor
  · rintro ⟨-, hentry⟩
    exact hentry
  · rintro ⟨entry, hentry, htest⟩
    exact ⟨(List.getElem?_eq_some_iff.mp hentry).1, entry, hentry, htest⟩

/-- The name at an index is the name of the dataframe there. -/
theorem getElem?_names_of_frameAt? {index : Nat} {name : String} {f : Frame}
    (h : w.frameAt? index = some (name, f)) : w.names[index]? = some name := by
  rw [names, Keyed.keys, List.getElem?_map, show w.frames[index]? = some (name, f) from h]
  rfl

/-- Indexes that are filtered are ascending. -/
theorem pairwise_filter_range (size : Nat) (test : Nat → Bool) :
    ((List.range size).filter test).Pairwise (· < ·) := List.pairwise_lt_range.filter test

/-- The dataframes at the indexes at which a test succeeds are those that pass it. -/
theorem namesAt_indexesOf (w : Workbook) (test : String × Frame → Bool) :
    w.namesAt (w.indexesOf test) = Keyed.keys (w.frames.filter test) := by
  obtain ⟨frames⟩ := w
  change ((List.range frames.length).filter fun index => frames[index]?.any test).filterMap
    (frames.keys[·]?) = Keyed.keys (frames.filter test)
  induction frames using List.reverseRecOn with
  | nil => rfl
  | append_singleton before entry ih =>
    -- without the last entry the others are at the same indexes
    have hentries : ∀ index ∈ List.range before.length,
        (before ++ [entry])[index]? = before[index]? := fun index hindex =>
      List.getElem?_append_left (List.mem_range.mp hindex)
    have hnames : ∀ index ∈ List.range before.length,
        (Keyed.keys (before ++ [entry]))[index]? = (Keyed.keys before)[index]? := by
      intro index hindex
      rw [Keyed.keys, Keyed.keys, List.getElem?_map, List.getElem?_map, hentries index hindex]
    rw [List.length_append, List.length_singleton, List.range_succ, List.filter_append,
      List.filterMap_append, List.filter_append, Keyed.keys_append (before.filter test), ← ih]
    congr 1
    · rw [List.filter_congr fun index hindex => by rw [hentries index hindex]]
      exact List.filterMap_congr fun index hindex => hnames index (List.mem_of_mem_filter hindex)
    · cases htest : test entry <;> simp [htest, Keyed.keys]

end Workbook

/-! ## The indexes of a record -/

section Indexes

variable {prev post : Workbook}

/-- No step declares the index of a dataframe that it creates. -/
theorem Step.StepKind.index_not_mem_declaredCreated (kind : StepKind) (index : Nat) :
    (index : Int) ∉ kind.declaredCreated := by
  cases kind <;> simp [declaredCreated, newIndex]

/-- A dataframe is new exactly if its name was not there before. -/
theorem isNew_eq (prev post : Workbook) (index : Nat) :
    isNew prev post index = (post.frameAt? index).any fun entry => !prev.has entry.1 := by
  unfold isNew
  cases post.frameAt? index <;> rfl

/-- A dataframe is changed exactly if reconciling finds it modified. -/
theorem isChanged_eq (prev post : Workbook) (index : Nat) :
    isChanged prev post index =
      (post.frameAt? index).any fun entry => (modification? prev entry).isSome := by
  unfold isChanged modification?
  cases post.frameAt? index with
  | none => rfl
  | some entry =>
    cases hbefore : prev.frame? entry.1 with
    | none => simp [hbefore]
    | some before => cases hsame : before == entry.2 <;> simp [hbefore, hsame]

/-- The created dataframes are those whose names are new. -/
theorem createdIndexes_eq (kind : StepKind) (prev post : Workbook) :
    createdIndexes prev post kind.declaredCreated =
      post.indexesOf fun entry => !prev.has entry.1 := by
  refine List.filter_congr fun index _ => ?_
  have hdeclared : kind.declaredCreated.contains (index : Int) = false := by
    simpa using kind.index_not_mem_declaredCreated index
  rw [hdeclared, Bool.or_false, isNew_eq]

/-- A dataframe that has changed was there before. -/
theorem has_of_modification? {entry : String × Frame}
    (h : (modification? prev entry).isSome = true) : prev.has entry.1 = true := by
  unfold modification? at h
  cases hbefore : prev.frame? entry.1 with
  | none => simp [hbefore] at h
  | some before =>
    rw [Workbook.has, Keyed.has, show prev.frames.get? entry.1 = some before from hbefore]
    rfl

/-- Where a step declares no changes, the modified dataframes are those whose content differs. -/
theorem modifiedIndexes_eq (kind : StepKind) (prev post : Workbook) :
    modifiedIndexes prev post [] kind.declaredCreated =
      post.indexesOf fun entry => (modification? prev entry).isSome := by
  refine List.filter_congr fun index _ => ?_
  rw [createdIndexes_eq, isChanged_eq, List.contains_nil, Bool.or_false, Bool.eq_iff_iff,
    Bool.and_eq_true, Bool.not_eq_true', List.contains_eq_mem, decide_eq_false_iff_not,
    and_iff_left_iff_imp, Option.any_eq_true, Workbook.mem_indexesOf]
  rintro ⟨entry, hentry, hchanged⟩ ⟨other, hother, hnew⟩
  obtain rfl : entry = other := Option.some.inj (hentry.symm.trans hother)
  rw [has_of_modification? hchanged] at hnew
  cases hnew

/-- The created names are those of the created dataframes. -/
theorem namesAt_created (prev post : Workbook) :
    post.namesAt (post.indexesOf fun entry => !prev.has entry.1) = namesOnlyIn post prev := by
  rw [Workbook.namesAt_indexesOf, namesOnlyIn, Workbook.names, Keyed.keys, Keyed.keys,
    List.filter_map]
  rfl

/-- The names of the changes are those of the changed dataframes. -/
theorem namesAt_modified (prev post : Workbook) :
    post.namesAt (post.indexesOf fun entry => (modification? prev entry).isSome) =
      Keyed.keys (post.frames.filterMap (modification? prev)) := by
  rw [Workbook.namesAt_indexesOf, Keyed.keys, Keyed.keys, List.map_filterMap]
  generalize post.frames = frames
  induction frames with
  | nil => rfl
  | cons entry rest ih =>
    cases hchange : modification? prev entry with
    | none => simp [hchange, ih]
    | some change =>
      have hname : change.1 = entry.1 := by
        unfold modification? at hchange
        split at hchange
        · split at hchange
          · cases hchange
          · cases hchange
            rfl
        · cases hchange
      simp [hchange, ih, hname]

end Indexes

/-! ## What a record tells -/

/-- What the indexes of a record are. -/
structure StepRecord.Indexed (record : StepRecord) : Prop where
  /-- The created dataframes are those whose names are new. -/
  mem_created_iff : ∀ index, index ∈ record.created ↔
    ∃ name, record.post.names[index]? = some name ∧ name ∉ record.prev.names
  disjoint : record.created.Disjoint record.modified
  lt_size : ∀ index, index ∈ record.created ∨ index ∈ record.modified → index < record.post.size
  ascending : record.created.Pairwise (· < ·) ∧ record.modified.Pairwise (· < ·)
  /-- A step on the columns of a dataframe has that dataframe among the modified ones. -/
  sheet : record.kind ∈ [StepKind.addColumn, .renameColumn, .deleteColumn] →
    ∃ index, record.params.get? "sheet_index" = some (.int index) ∧ 0 ≤ index.toInt ∧
      index.toInt.toNat ∈ record.modified

/-- A dataframe is among the created ones exactly if its name is new. -/
theorem StepRecord.Indexed.mem_created_iff_of_name {record : StepRecord} (h : record.Indexed)
    {index : Nat} {name : String} (hname : record.post.names[index]? = some name) :
    index ∈ record.created ↔ name ∉ record.prev.names := by
  rw [h.mem_created_iff, hname]
  simp

/-- The facts that a script's record holds tell the same as its indexes. -/
def StepRecord.Reconciled (record : StepRecord) : Prop :=
  ∃ data result changes, record.data = some data ∧ data.get? "result" = some (.dict result) ∧
    Keyed.get? result "created_dataframe_names" =
      some (.ofTexts (record.post.namesAt record.created)) ∧
    Keyed.get? result "modified_dataframes_recons" = some (.dict changes) ∧
    Keyed.keys changes = record.post.namesAt record.modified ∧
    Keyed.get? result "deleted_dataframe_names" =
      some (.ofTexts (record.prev.names.filter fun name => name ∉ record.post.names))

namespace StepRecord

variable {files : Files} {kind : StepKind} {id : String} {prev : Workbook} {params : Params}
  {performed : Performed}

/-- A step on the columns of a dataframe has the dataframe that its chunk works on, and leaves the
names of the dataframes as they were. -/
theorem sheet_of_perform (h : kind.perform files prev params = .ok performed)
    (hkind : kind ∈ [StepKind.addColumn, .renameColumn, .deleteColumn]) :
    ∃ name f, (Chunk.ofStep kind prev performed.book params performed.data).sheet? =
      some (name, f) ∧ performed.book.names = prev.names := by
  have hsound := Chunk.sound_ofStep h
  have hnames : ∀ name f g,
      (Chunk.ofStep kind prev performed.book params performed.data).sheet? = some (name, f) →
      performed.book = prev.insert name g → performed.book.names = prev.names := by
    intro name f g hsheet hpost
    rw [hpost]
    exact Keyed.keys_put_of_mem
      (Chunk.mem_names_of_sheetName? (Chunk.sheetName?_of_sheet? hsheet)) g
  simp only [List.mem_cons, List.not_mem_nil, or_false] at hkind
  rcases hkind with rfl | rfl | rfl
  · obtain ⟨name, f, -, g, hsheet, -, -, hpost⟩ := hsound
    exact ⟨name, f, hsheet, hnames name f g hsheet hpost⟩
  · obtain ⟨name, f, g, hsheet, -, -, -, hpost⟩ := hsound
    exact ⟨name, f, hsheet, hnames name f g hsheet hpost⟩
  · obtain ⟨name, f, g, hsheet, -, hpost⟩ := hsound
    exact ⟨name, f, hsheet, hnames name f g hsheet hpost⟩

/-- The index that a step on the columns of a dataframe is given is that of a dataframe which is
there before and afterwards. -/
theorem sheetIndex_of_perform (h : kind.perform files prev params = .ok performed)
    (hkind : kind ∈ [StepKind.addColumn, .renameColumn, .deleteColumn]) :
    ∃ index name, params.get? "sheet_index" = some (.int index) ∧ 0 ≤ index.toInt ∧
      performed.book.names[index.toInt.toNat]? = some name ∧ name ∈ prev.names := by
  obtain ⟨name, f, hsheet, hnames⟩ := sheet_of_perform h hkind
  have hname := Chunk.mem_names_of_sheetName? (Chunk.sheetName?_of_sheet? hsheet)
  obtain ⟨index, hparam, hnonneg, hframe⟩ := Chunk.sheet?_eq_some_iff.mp hsheet
  refine ⟨index, name, hparam, hnonneg, ?_, hname⟩
  rw [hnames]
  exact Workbook.getElem?_names_of_frameAt? hframe

/-- The record of a step that was carried out has the indexes of its workbook. -/
theorem indexed_ofPerformed (h : kind.perform files prev params = .ok performed) :
    (ofPerformed kind id prev params performed).Indexed := by
  have hcreated : (ofPerformed kind id prev params performed).created =
      performed.book.indexesOf fun entry => !prev.has entry.1 :=
    createdIndexes_eq kind prev performed.book
  have hmem : ∀ index, index ∈ (ofPerformed kind id prev params performed).created ↔
      ∃ name, performed.book.names[index]? = some name ∧ name ∉ prev.names := by
    intro index
    rw [hcreated, Workbook.mem_indexesOf, Workbook.names, Keyed.keys, List.getElem?_map]
    simp [Workbook.frameAt?, Workbook.has, Keyed.has_eq_false_iff, Workbook.names]
  refine ⟨hmem, fun index hcreated hmodified => ?_, fun index hindex => ?_,
    ⟨Workbook.pairwise_filter_range _ _, Workbook.pairwise_filter_range _ _⟩, fun hkind => ?_⟩
  · have hfresh := (Bool.and_eq_true_iff.mp (List.mem_filter.mp hmodified).2).2
    rw [Bool.not_eq_true', List.contains_eq_mem, decide_eq_false_iff_not] at hfresh
    exact hfresh hcreated
  · rcases hindex with hindex | hindex <;> exact List.mem_range.mp (List.mem_of_mem_filter hindex)
  · obtain ⟨index, name, hparam, hnonneg, hname, hold⟩ := sheetIndex_of_perform h hkind
    refine ⟨index, hparam, hnonneg, List.mem_filter.mpr ⟨?_, ?_⟩⟩
    · have hlt := (List.getElem?_eq_some_iff.mp hname).1
      simpa [Workbook.names, Keyed.keys, Workbook.size] using hlt
    · have hdeclared :
          (kind.declaredModified params).contains (index.toInt.toNat : Int) = true := by
        have hindexes : kind.declaredModified params = [index.toInt] := by
          simp only [List.mem_cons, List.not_mem_nil, or_false] at hkind
          rcases hkind with rfl | rfl | rfl <;>
            simp [StepKind.declaredModified, sheetIndexes, hparam, Value.asInt?]
        rw [hindexes, Int.toNat_of_nonneg hnonneg]
        simp
      have hfresh : index.toInt.toNat ∉ (ofPerformed kind id prev params performed).created := by
        rw [hmem]
        rintro ⟨other, hother, hnew⟩
        obtain rfl : name = other := Option.some.inj (hname.symm.trans hother)
        exact hnew hold
      rw [hdeclared, Bool.or_true, Bool.true_and, Bool.not_eq_true', List.contains_eq_mem,
        decide_eq_false_iff_not]
      exact hfresh

/-- The facts about a run hold the reconciliation of the workbooks before and after it. -/
theorem data_of_transform (h : transform files prev params = .ok performed) :
    ∃ outcome created, performed.data = some (scriptFacts prev performed.book outcome created) := by
  obtain ⟨-, outcome, -, -, ⟨f, line, -, -, hdata⟩ | ⟨-, hbook, hdata⟩⟩ := Chunk.transform_cases h
  · exact ⟨outcome, _, hdata⟩
  · exact ⟨outcome, none, by rw [hdata, hbook]⟩

/-- The record of a script tells the same as the facts that it holds. -/
theorem reconciled_ofPerformed (h : transform files prev params = .ok performed) :
    (ofPerformed .aiTransformation id prev params performed).Reconciled := by
  obtain ⟨outcome, created, hdata⟩ := data_of_transform h
  have hcreated :
      createdIndexes prev performed.book StepKind.aiTransformation.declaredCreated = _ :=
    createdIndexes_eq .aiTransformation prev performed.book
  have hmodified : modifiedIndexes prev performed.book
      (StepKind.aiTransformation.declaredModified params)
      StepKind.aiTransformation.declaredCreated = _ :=
    modifiedIndexes_eq .aiTransformation prev performed.book
  refine ⟨_, _, (performed.book.frames.filterMap (modification? prev)).map fun change =>
    (change.1, BookRecon.frameValue change.2), hdata, rfl, ?_, rfl, ?_, ?_⟩
  · rw [ofPerformed, hcreated, namesAt_created]
    rfl
  · rw [ofPerformed, hmodified, namesAt_modified, Keyed.keys, Keyed.keys, List.map_map]
    rfl
  · have hdeleted : namesOnlyIn prev performed.book =
        prev.names.filter fun name => name ∉ performed.book.names := by
      refine List.filter_congr fun name _ => ?_
      rw [Bool.eq_iff_iff, Bool.not_eq_true', Workbook.has, Keyed.has_eq_false_iff,
        decide_eq_true_iff]
      rfl
    rw [ofPerformed, ← hdeleted]
    rfl

end StepRecord

namespace Pipeline

variable {files : Files} {p q : Pipeline} {typeName : String} {params : Params}
  {record : StepRecord}

/-- The record of a step holds what carrying it out made, and it is put into the log. -/
theorem recorded_of_apply (h : p.apply files typeName params = (.ok record, q)) :
    ∃ performed, record.kind.perform files p.book params = .ok performed ∧
      record = .ofPerformed record.kind (stepId p.nextId) p.book params performed ∧
      q = p.append record := by
  obtain ⟨kind, -, hrecord, hq⟩ := apply_eq_ok_iff.mp h
  obtain ⟨performed, hperformed, rfl⟩ := runStep_eq_ok_iff.mp hrecord
  exact ⟨performed, hperformed, rfl, hq⟩

/-- A record's workbooks are those that the pipeline had before its step and has after it. -/
theorem workbooks_of_apply (h : p.apply files typeName params = (.ok record, q)) :
    record.prev = p.book ∧ record.post = q.book := by
  obtain ⟨performed, -, hrecord, rfl⟩ := recorded_of_apply h
  refine ⟨?_, ?_⟩
  · rw [hrecord]
    rfl
  · simp [book, append]

/-- The record that applying a step gives has the indexes of its workbook. -/
theorem recordIndexed_of_apply (h : p.apply files typeName params = (.ok record, q)) : record.Indexed := by
  obtain ⟨performed, hperformed, hrecord, -⟩ := recorded_of_apply h
  rw [hrecord]
  exact StepRecord.indexed_ofPerformed hperformed

/-- The record that applying a script gives tells the same as the facts that it holds. -/
theorem recordReconciled_of_apply (h : p.apply files typeName params = (.ok record, q))
    (hkind : record.kind = .aiTransformation) : record.Reconciled := by
  obtain ⟨performed, hperformed, hrecord, -⟩ := recorded_of_apply h
  rw [hkind] at hperformed hrecord
  rw [hrecord]
  exact StepRecord.reconciled_ofPerformed hperformed

/-- The record of a step that was applied has the indexes of what the step created and changed, and
a script's record tells the same by name. -/
theorem indexed_of_apply (h : p.apply files typeName params = (.ok record, q)) :
    record.prev = p.book ∧ record.post = q.book ∧ record.Indexed ∧
      (record.kind = .aiTransformation → record.Reconciled) := by
  obtain ⟨hprev, hpost⟩ := workbooks_of_apply h
  exact ⟨hprev, hpost, recordIndexed_of_apply h, recordReconciled_of_apply h⟩

/-- A script deletes the first dataframe, so that the others move up, changes one and ends with a
new one. -/
theorem indexed_after_deletion :
    let p := new .standard ⟨[("gone", ⟨[("B", [.int 2])], 1⟩), ("df", ⟨[("A", [.int 1])], 1⟩),
      ("kept", ⟨[("C", [.int 3])], 1⟩)]⟩
    ∃ record q, p.apply default "ai_transformation"
        [("edited_completion", .str "del gone\ndf['A'] = 5\nkept.head(0)")] = (.ok record, q) ∧
      record.post.names = ["df", "kept", "df3"] ∧ record.created = [2] ∧ record.modified = [0] ∧
      record.Indexed ∧ record.Reconciled := by
  intro p
  obtain ⟨record, hrecord, hnames, hcreated, hmodified, hkind⟩ : ∃ record ∈ (p.apply default
        "ai_transformation" [("edited_completion", .str "del gone\ndf['A'] = 5\nkept.head(0)")]).1.toOption,
      record.post.names = ["df", "kept", "df3"] ∧ record.created = [2] ∧ record.modified = [0] ∧
        record.kind = .aiTransformation := by
    decide +kernel
  have happly := apply_eq_of_mem hrecord
  obtain ⟨-, -, hindexed, hreconciled⟩ := indexed_of_apply happly
  exact ⟨record, _, happly, hnames, hcreated, hmodified, hindexed, hreconciled hkind⟩

end Pipeline

end TableScript
