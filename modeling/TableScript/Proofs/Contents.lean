import TableScript.Proofs.Sameness
import TableScript.Proofs.Indexes

/-!
# Changes that a record reports

A record lists the dataframes that its step modified by their indexes, and the reconciliation of two
workbooks lists them by name. Both go by the comparison of the dataframe before and afterwards, so they
report what it tells apart (`Frame.Differs`): a difference of row counts, headers or cells, but neither the
order of the columns nor the sign of a zero, and every dataframe that has a NaN in it, changed or not.
`Pipeline.modified_of_apply` says so for every step, together with the indexes that steps on the columns of
a dataframe declare, and what follows for the steps that are said to touch a dataframe.
-/

namespace TableScript

open Step

namespace Workbook

/-- No two dataframes have one name, no header comes twice in a dataframe, and no dictionary in a cell has a
key twice. -/
structure Distinct (book : Workbook) : Prop where
  names : book.names.Nodup
  frames : ∀ entry ∈ book.frames, entry.2.Distinct

instance (book : Workbook) : Decidable book.Distinct :=
  decidable_of_iff (book.names.Nodup ∧ ∀ entry ∈ book.frames, entry.2.Distinct)
    ⟨fun h => ⟨h.1, h.2⟩, fun h => ⟨h.names, h.frames⟩⟩

end Workbook

/-! ## Differences that count -/

/-- The comparison of dataframes before and afterwards tells them apart: there is a NaN in the one before,
or they differ in something that counts. -/
def Frame.Differs (before after : Frame) : Prop := before.HasNaN ∨ before.settled ≠ after.settled

section Differences

variable {prev post : Workbook} {name : String} {before after : Frame} {index : Nat}

/-- Two dataframes with distinct headers differ exactly if comparing them says so. -/
theorem Frame.differs_iff (h : before.Distinct) : before.Differs after ↔ (before == after) = false := by
  rw [← Bool.not_eq_true, Frame.beq_iff h, not_and_or, not_not, Frame.Differs]

/-- A change is reported for a dataframe that was there before exactly if the two differ. -/
theorem isSome_modification?_iff (hbefore : prev.frame? name = some before) (h : before.Distinct) :
    (modification? prev (name, after)).isSome = true ↔ before.Differs after := by
  have hsome : (modification? prev (name, after)).isSome = !(before == after) := by
    simp only [modification?, hbefore]
    cases before == after <;> rfl
  rw [hsome, Bool.not_eq_true', Frame.differs_iff h]

/-- The reconciliation of two workbooks lists a dataframe as modified exactly if it differs. -/
theorem mem_keys_modified_iff (hpost : post.names.Nodup) (hbefore : prev.frame? name = some before)
    (hafter : post.frameAt? index = some (name, after)) (h : before.Distinct) :
    name ∈ Keyed.keys (reconcile prev post).modified ↔ before.Differs after := by
  have hnames : Keyed.keys (reconcile prev post).modified =
      Keyed.keys (post.frames.filter fun entry => (modification? prev entry).isSome) :=
    (namesAt_modified prev post).symm.trans (Workbook.namesAt_indexesOf post _)
  rw [hnames, ← isSome_modification?_iff hbefore h]
  constructor
  · intro hmem
    obtain ⟨⟨other, f⟩, hentry, rfl⟩ := List.mem_map.mp hmem
    obtain ⟨hframes, hchange⟩ := List.mem_filter.mp hentry
    have hfound := Keyed.get?_of_mem hpost hframes
    rw [Keyed.get?_of_mem hpost (List.mem_of_getElem? hafter), Option.some.injEq] at hfound
    rwa [hfound]
  · intro hchange
    exact Keyed.mem_keys_of_mem (List.mem_filter.mpr ⟨List.mem_of_getElem? hafter, hchange⟩)

/-- A dataframe that was there before is among the modified ones exactly if the step declares its index or
it differs. -/
theorem mem_modifiedIndexes_iff (kind : StepKind) (params : Params)
    (hbefore : prev.frame? name = some before) (hafter : post.frameAt? index = some (name, after))
    (h : before.Distinct) :
    index ∈ modifiedIndexes prev post (kind.declaredModified params) kind.declaredCreated ↔
      (index : Int) ∈ kind.declaredModified params ∨ before.Differs after := by
  have hsize : index < post.size := (List.getElem?_eq_some_iff.mp hafter).1
  have hold : prev.has name = true := by
    rw [Workbook.has, Keyed.has, show prev.frames.get? name = some before from hbefore]
    rfl
  have hcreated : index ∉ createdIndexes prev post kind.declaredCreated := by
    rw [createdIndexes_eq, Workbook.mem_indexesOf]
    rintro ⟨entry, hentry, hnew⟩
    obtain rfl := Option.some.inj (hafter.symm.trans hentry)
    rw [hold] at hnew
    cases hnew
  rw [modifiedIndexes, List.mem_filter, List.mem_range, and_iff_right hsize, Bool.and_eq_true,
    Bool.or_eq_true, isChanged_eq, hafter, Option.any_some, isSome_modification?_iff hbefore h,
    List.contains_iff_mem]
  simp [hcreated, or_comm]

end Differences

namespace Pipeline

variable {files : Files} {p q : Pipeline} {typeName : String} {params : Params} {record : StepRecord}

/-- A step is among those that touch a dataframe exactly if its record has the index of it. -/
theorem mem_stepsTouching_iff {position index : Nat} : position ∈ p.stepsTouching index ↔
    ∃ record, p.records[position]? = some record ∧
      (index ∈ record.modified ∨ index ∈ record.created) := by
  rw [stepsTouching, List.mem_filter, List.mem_range]
  cases hrecord : p.records[position]? with
  | none => simp
  | some record =>
    have hlt : position < p.size := (List.getElem?_eq_some_iff.mp hrecord).1
    simp [hlt]

/-- A new step touches what it modified and created; what the others touch stays. -/
theorem mem_stepsTouching_append {position index : Nat} :
    position ∈ (p.append record).stepsTouching index ↔ position ∈ p.stepsTouching index ∨
      position = p.size ∧ (index ∈ record.modified ∨ index ∈ record.created) := by
  have hrecords : (p.append record).records = p.records ++ [record] := rfl
  rw [mem_stepsTouching_iff, mem_stepsTouching_iff, hrecords, size]
  rcases Nat.lt_trichotomy position p.records.length with hlt | rfl | hgt
  · rw [List.getElem?_append_left hlt]
    simp [Nat.ne_of_lt hlt]
  · simp
  · rw [List.getElem?_eq_none (by simp; omega), List.getElem?_eq_none (Nat.le_of_lt hgt)]
    simp [Nat.ne_of_gt hgt]

/-- For a dataframe that is there before and after a step, its index is among the modified ones exactly if
the step declares it or the two dataframes differ, the reconciliation lists its name exactly if they differ,
and the step is one of those that touch it exactly if its index is among the modified ones. -/
theorem modified_of_apply (h : p.apply files typeName params = (.ok record, q)) (hbook : p.book.Distinct)
    {index : Nat} {name : String} {before after : Frame} (hbefore : p.book.frame? name = some before)
    (hafter : q.book.frameAt? index = some (name, after)) :
    (index ∈ record.modified ↔
      (index : Int) ∈ record.kind.declaredModified params ∨ before.Differs after) ∧
    (name ∈ Keyed.keys (reconcile p.book q.book).modified ↔ before.Differs after) ∧
    ∀ position, position ∈ q.stepsTouching index ↔ position ∈ p.stepsTouching index ∨
      position = p.size ∧ ((index : Int) ∈ record.kind.declaredModified params ∨ before.Differs after) := by
  obtain ⟨performed, hperform, hrecord, rfl⟩ := recorded_of_apply h
  obtain ⟨hprev, hpost⟩ := workbooks_of_apply h
  have hdistinct := hbook.frames _ (Keyed.mem_of_get? hbefore)
  have hperformed : (p.append record).book = performed.book := by rw [← hpost, hrecord]; rfl
  have hmodified : index ∈ record.modified ↔
      (index : Int) ∈ record.kind.declaredModified params ∨ before.Differs after := by
    rw [show record.modified = modifiedIndexes p.book performed.book
      (record.kind.declaredModified params) record.kind.declaredCreated by rw [hrecord]; rfl]
    exact mem_modifiedIndexes_iff record.kind params hbefore (hperformed ▸ hafter) hdistinct
  have hcreated : index ∉ record.created := by
    rw [(recordIndexed_of_apply h).mem_created_iff_of_name
      (hpost ▸ Workbook.getElem?_names_of_frameAt? hafter), not_not, hprev]
    exact Keyed.mem_keys_of_mem (Keyed.mem_of_get? hbefore)
  have hnames : (p.append record).book.names.Nodup := by
    rw [hperformed]
    exact (Chunk.sound_ofStep hperform).nodup_post hbook.names
  refine ⟨hmodified, mem_keys_modified_iff hnames hbefore hafter hdistinct, fun position => ?_⟩
  rw [mem_stepsTouching_append, or_iff_left hcreated, hmodified]

/-- A script puts the columns of a dataframe in another order: the dataframe is another one, and nothing
reports it. -/
theorem unreported_reordering :
    let before : Frame := ⟨[("A", [.int 1]), ("B", [.int 2])], 1⟩
    let p := new .standard ⟨[("df", before)]⟩
    ∃ record q after, p.apply default "ai_transformation"
        [("edited_completion", .str "df = df[['B', 'A']]")] = (.ok record, q) ∧
      p.book.Distinct ∧ q.book.frameAt? 0 = some ("df", after) ∧
      before.headers = ["A", "B"] ∧ after.headers = ["B", "A"] ∧ ¬ before.Differs after ∧
      0 ∉ record.modified ∧ "df" ∉ Keyed.keys (reconcile p.book q.book).modified ∧
      0 ∉ q.stepsTouching 0 := by
  intro before p
  obtain ⟨record, hrecord, hmodified, hframe⟩ : ∃ record ∈ (p.apply default "ai_transformation"
        [("edited_completion", .str "df = df[['B', 'A']]")]).1.toOption,
      record.modified = [] ∧ (((p.append record).book.frameAt? 0).map fun entry =>
        (entry.1, entry.2.headers)) = some ("df", ["B", "A"]) := by
    decide +kernel
  have happly := apply_eq_of_mem hrecord
  have hbook : p.book.Distinct := by decide +kernel
  obtain ⟨⟨name, after⟩, hafter, hentry⟩ := Option.map_eq_some_iff.mp hframe
  obtain ⟨rfl, hheaders⟩ : name = "df" ∧ after.headers = ["B", "A"] := by simpa using hentry
  obtain ⟨hindex, hname, htouching⟩ :=
    modified_of_apply happly hbook (show p.book.frame? "df" = some before from rfl) hafter
  have hunlisted : 0 ∉ record.modified := by simp [hmodified]
  have hsame : ¬ before.Differs after := fun hdiffers => hunlisted (hindex.mpr (Or.inr hdiffers))
  refine ⟨record, _, after, happly, hbook, hafter, rfl, hheaders, hsame, hunlisted,
    fun hmem => hsame (hname.mp hmem), fun hmem => ?_⟩
  rcases (htouching 0).mp hmem with hbefore | ⟨-, hnew⟩
  · cases hbefore
  · exact hunlisted (hindex.mpr hnew)

end Pipeline

end TableScript
