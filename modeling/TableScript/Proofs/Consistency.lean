import TableScript.Proofs.Naming
import TableScript.Proofs.Replaying

/-!
# Consistent pipelines

Whatever is done to a pipeline, it is consistent afterwards (`Pipeline.Consistent`): the records lead from
workbook to workbook, each of them being what its performer makes of its parameters; the chunks are what
pushing those of the records one by one gives, each of them covers a stretch of the log, and these
stretches are the log; the names of the steps go up.

Chunks that were kept up step by step are those that are built from scratch. So undoing a step brings back
the chunks as they were before it, also when its chunk was combined with another.
-/

namespace TableScript

open Step

/-! ## Stretches of the log -/

/-- The chunk leads from the beginning of the first of some steps to the end of the last. -/
structure Chunk.Covers (c : Chunk) (stretch : List StepRecord) : Prop where
  first : stretch.head?.map (·.prev) = some c.prev
  last : stretch.getLast?.map (·.post) = some c.post

namespace Chunk

variable {c d e : Chunk} {first second : List StepRecord}

/-- The chunk of a step covers that step. -/
theorem covers_record (record : StepRecord) : record.chunk.Covers [record] := ⟨rfl, rfl⟩

/-- A chunk covers one step at least. -/
theorem Covers.ne_nil (h : c.Covers first) : first ≠ [] := by
  rintro rfl
  cases h.first

/-- A combined chunk covers what its parts cover. -/
theorem Covers.combine (hc : c.Covers first) (hd : d.Covers second) (h : c.combine? d = some e) :
    e.Covers (first ++ second) := by
  obtain ⟨hprev, hpost⟩ := spans_of_combine? h
  constructor
  · rw [List.head?_append_of_ne_nil _ hc.ne_nil, hc.first, hprev]
  · rw [List.getLast?_append_of_ne_nil _ hd.ne_nil, hd.last, hpost]

/-- Chunks that absorb another cover one stretch more; both lists have the nearest first. -/
theorem covers_absorb {chunks : List Chunk} {stretches : List (List StepRecord)}
    (h : List.Forall₂ Covers chunks stretches) (hc : c.Covers first) :
    ∃ after, List.Forall₂ Covers (absorb chunks c) after ∧
      after.reverse.flatten = stretches.reverse.flatten ++ first := by
  induction h generalizing c first with
  | nil => exact ⟨[first], .cons hc .nil, by simp⟩
  | @cons last stretch before rest hlast hbefore ih =>
    unfold absorb
    cases hcombined : last.combine? c with
    | none => exact ⟨first :: stretch :: rest, .cons hc (.cons hlast hbefore), by simp⟩
    | some combined =>
      obtain ⟨after, hafter, hflatten⟩ := ih (hlast.combine hc hcombined)
      exact ⟨after, hafter, by simpa using hflatten⟩

/-- A chunk that is pushed covers the last step, by itself or combined with those before it. -/
theorem covers_pushChunk {chunks : List Chunk} {stretches : List (List StepRecord)}
    (h : List.Forall₂ Covers chunks stretches) (policy : MergePolicy) (record : StepRecord) :
    ∃ after, List.Forall₂ Covers (pushChunk policy chunks record.chunk) after ∧
      after.flatten = stretches.flatten ++ [record] := by
  cases policy with
  | eager =>
    have hnearest := List.rel_reverse h
    obtain ⟨after, hafter, hflatten⟩ := covers_absorb hnearest (covers_record record)
    exact ⟨after.reverse, List.rel_reverse hafter, by simpa using hflatten⟩
  | disabled =>
    refine ⟨stretches ++ [[record]], ?_, by simp⟩
    exact List.rel_append h (.cons (covers_record record) .nil)

/-- The chunks of a log cover stretches of it that are the whole log. -/
theorem covers_chunksOf (policy : MergePolicy) (records : List StepRecord) :
    ∃ stretches, List.Forall₂ Covers (chunksOf policy records) stretches ∧
      stretches.flatten = records := by
  induction records using List.reverseRecOn with
  | nil => exact ⟨[], .nil, rfl⟩
  | append_singleton records record ih =>
    obtain ⟨stretches, hstretches, rfl⟩ := ih
    rw [Pipeline.chunksOf_concat]
    exact covers_pushChunk hstretches policy record

end Chunk

/-! ## Names of steps -/

/-- Different numbers give different names of steps. -/
theorem Pipeline.stepId_injective : Function.Injective stepId := fun _ _ h => append_toString_injective _ h

/-- The names are those of steps whose numbers go up and stay below a number. -/
def Ascending (ids : List String) (bound : Nat) : Prop :=
  ∃ numbers : List Nat, ids = numbers.map Pipeline.stepId ∧ numbers.Pairwise (· < ·) ∧
    ∀ n ∈ numbers, n < bound

section Ascending

variable {ids others : List String} {bound : Nat}

/-- No names of steps are ascending below any bound. -/
theorem ascending_nil (bound : Nat) : Ascending [] bound := ⟨[], rfl, .nil, List.forall_mem_nil _⟩

/-- The next name of a step goes on with an ascending list. -/
theorem Ascending.concat (h : Ascending ids bound) :
    Ascending (ids ++ [Pipeline.stepId bound]) (bound + 1) := by
  obtain ⟨numbers, rfl, hpairwise, hbound⟩ := h
  refine ⟨numbers ++ [bound], by simp, ?_, ?_⟩
  · refine List.pairwise_append.mpr ⟨hpairwise, List.pairwise_singleton _ _, fun n hn m hm => ?_⟩
    rw [List.mem_singleton.mp hm]
    exact hbound n hn
  · refine List.forall_mem_append.mpr ⟨fun n hn => Nat.lt_succ_of_lt (hbound n hn), ?_⟩
    exact List.forall_mem_singleton.mpr (Nat.lt_succ_self bound)

/-- Ascending names of steps stay ascending without the last one. -/
theorem Ascending.dropLast (h : Ascending ids bound) : Ascending ids.dropLast bound := by
  obtain ⟨numbers, rfl, hpairwise, hbound⟩ := h
  refine ⟨numbers.dropLast, List.map_dropLast.symm, hpairwise.sublist (List.dropLast_sublist _), ?_⟩
  exact fun n hn => hbound n (List.mem_of_mem_dropLast hn)

/-- Ascending names of steps are distinct. -/
theorem Ascending.nodup (h : Ascending ids bound) : ids.Nodup := by
  obtain ⟨numbers, rfl, hpairwise, -⟩ := h
  exact (hpairwise.imp Nat.ne_of_lt).map _ fun _ _ hne => Pipeline.stepId_injective.ne hne

end Ascending

namespace Pipeline

variable {files : Files} {p q : Pipeline}

/-- No operation puts the names of the steps out of order, or repeats one. -/
theorem Moves.ascending (h : p.Moves files q) (hp : Ascending (p.records.map (·.id)) p.nextId) :
    Ascending (q.records.map (·.id)) q.nextId := by
  cases h with
  | stay => exact hp
  | append hkind hrecord =>
    obtain ⟨performed, -, rfl⟩ := runStep_eq_ok_iff.mp hrecord
    change Ascending (List.map _ (p.records ++ [_])) (p.nextId + 1)
    rw [List.map_append]
    exact hp.concat
  | dropLast =>
    change Ascending (p.records.dropLast.map _) p.nextId
    rw [List.map_dropLast]
    exact hp.dropLast
  | clear => exact ascending_nil _
  | @replay fresh stop hfresh =>
    change Ascending (fresh.map (·.id)) p.nextId
    rwa [hfresh.ids_eq]
  | @setInitial initial fresh stop hfresh =>
    change Ascending (fresh.map (·.id)) p.nextId
    rwa [hfresh.ids_eq]
  | withPolicy => exact hp
  | withSources => exact hp

/-- The steps of a pipeline that was reached have names that go up. -/
theorem Reachable.ascending (h : p.Reachable files) : Ascending (p.records.map (·.id)) p.nextId :=
  h.induction (fun _ _ => ascending_nil 0) fun _ _ hp hmove => hmove.ascending hp

/-! ## Consistency -/

/-- What holds of a pipeline between two operations. -/
structure Consistent (files : Files) (p : Pipeline) : Prop where
  /-- The first step was carried out on the initial workbook. -/
  first : ∀ record ∈ p.records.head?, record.prev = p.initial
  /-- Each step was carried out where the one before it has led. -/
  chain : p.records.IsChain fun before after => before.post = after.prev
  /-- Each record is what its performer, which the registry has, makes of its parameters. -/
  performed : ∀ record ∈ p.records, p.registry.find? record.kind.typeName = some record.kind ∧
    record.kind.perform files record.prev record.params = .ok ⟨record.post, record.data⟩
  book : p.book = (p.records.map (·.post)).getLast?.getD p.initial
  /-- The chunks are what pushing those of the records one by one gives. -/
  chunks : p.chunks = p.records.foldl (fun chunks record => pushChunk p.policy chunks record.chunk) []
  tiles : Tiles p.initial p.chunks p.book
  /-- Each chunk covers a stretch of the log, and these are the whole log. -/
  stretches : ∃ stretches, List.Forall₂ Chunk.Covers p.chunks stretches ∧ stretches.flatten = p.records
  /-- No neighbours are left that could be combined. -/
  separate : p.policy = .eager → p.chunks.IsChain fun c d => c.combine? d = none
  ascending : Ascending (p.records.map (·.id)) p.nextId
  distinct : (p.records.map (·.id)).Nodup

/-- Undoing a step that was just applied leaves the pipeline as it was, except that the name of the step
is not given again. -/
theorem undo_append (h : p.chunks = chunksOf p.policy p.records) (record : StepRecord) :
    (p.append record).undo = (some record, { p with nextId := p.nextId + 1 }) := by
  have hlast : (p.append record).records.getLast? = some record := List.getLast?_concat
  have hbefore : (p.append record).records.dropLast = p.records := List.dropLast_concat
  unfold undo
  rw [hlast]
  simp only [hbefore]
  rw [withRecords, append, ← h]

end Pipeline

/-- Each step of a log was carried out where the one before it has led. -/
theorem Logged.isChain {files : Files} {start stop : Workbook} {records : List StepRecord}
    (h : Logged files start records stop) :
    (∀ record ∈ records.head?, record.prev = start) ∧
      records.IsChain fun before after => before.post = after.prev := by
  induction h with
  | nil => exact ⟨by simp, List.isChain_nil⟩
  | @snoc records book record hbefore hlast ih =>
    obtain ⟨hfirst, hchain⟩ := ih
    have hlink : ∀ before ∈ records.getLast?, before.post = record.prev := by
      intro before hmem
      rw [hlast.prev, hbefore.stop_eq, Option.mem_def.mp hmem]
      rfl
    constructor
    · intro other hother
      cases records with
      | nil =>
        obtain rfl : record = other := by simpa using hother
        exact hlast.prev.trans hbefore.stop_eq
      | cons head rest => exact hfirst other hother
    · refine List.isChain_append.mpr ⟨hchain, List.isChain_singleton _, fun before hmem other hother => ?_⟩
      obtain rfl : record = other := by simpa using hother
      exact hlink before hmem

namespace Pipeline

variable {files : Files} {p : Pipeline}

/-- Whatever was done to a pipeline, it is consistent, and undoing a step that can be applied to it brings
it back. -/
theorem Reachable.consistent (h : p.Reachable files) : p.Consistent files ∧
    ∀ typeName params record q, p.apply files typeName params = (.ok record, q) →
      q.undo = (some record, { p with nextId := p.nextId + 1 }) := by
  have hkept := h.kept
  obtain ⟨hfirst, hchain⟩ := hkept.logged.isChain
  constructor
  · refine ⟨hfirst, hchain, fun record hrecord => ?_, p.book_eq, hkept.chunks, hkept.chunked.tiles, ?_, ?_,
      h.ascending, h.ascending.nodup⟩
    · have hgenuine := h.genuine record hrecord
      exact ⟨hgenuine.known, hgenuine.performed⟩
    · rw [hkept.chunks]
      exact Chunk.covers_chunksOf p.policy p.records
    · rw [hkept.chunks]
      exact (chunked_chunksOf p.policy hkept.logged).2
  · intro typeName params record q happly
    obtain ⟨-, -, -, rfl⟩ := apply_eq_ok_iff.mp happly
    exact undo_append hkept.chunks record

/-- Two renamings of a column are one chunk, and undoing the second leaves that of the first. -/
theorem consistent_two_renamings :
    let p := (new .standard ⟨[("df", ⟨[("A", [.int 1])], 1⟩)]⟩).after default [.apply "rename_column"
      [("sheet_index", .int 0), ("old_column_header", .str "A"), ("new_column_header", .str "B")]]
    let again := p.apply default "rename_column"
      [("sheet_index", .int 0), ("old_column_header", .str "B"), ("new_column_header", .str "C")]
    p.Reachable default ∧ again.2.size = 2 ∧ again.2.chunks.length = 1 ∧ p.Consistent default ∧
      ∃ record, again.1 = .ok record ∧ again.2.undo = (some record, { p with nextId := 2 }) := by
  intro p again
  have hreachable : p.Reachable default := ⟨_, _, _, rfl⟩
  have hsize : again.2.size = 2 := by decide +kernel
  have hlength : again.2.chunks.length = 1 := by decide +kernel
  have hok : again.1.isOk = true := by decide +kernel
  obtain ⟨hconsistent, hundo⟩ := Reachable.consistent hreachable
  refine ⟨hreachable, hsize, hlength, hconsistent, ?_⟩
  cases hagain : again.1 with
  | error e => rw [hagain] at hok; cases hok
  | ok record => exact ⟨record, rfl, hundo _ _ record again.2 (Prod.ext hagain rfl)⟩

end Pipeline

end TableScript
