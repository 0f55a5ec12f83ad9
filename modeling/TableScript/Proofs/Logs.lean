import TableScript.Proofs.Combining
import TableScript.Pipeline
import Mathlib.Data.List.Chain

/-!
# Logs and their chunks

The records of a pipeline are those of steps carried out one after the other from the initial workbook,
and its chunks are those that the merge policy makes of them (`Pipeline.Kept`).

When chunks are merged, no neighbours are left that could be combined. So a new chunk is combined once at
most, with the last one, and it is that of a single step, which fits. All chunks of a log are built
therefore, and they lead from workbook to workbook without a gap (`chunked_chunksOf`).
-/

namespace TableScript

open Script Step

/-! ## Operations -/

/-- What can be done to a pipeline. -/
inductive Operation where
  | apply (typeName : String) (params : Params)
  | undo
  | clear
  | replay
  | setInitial (initial : Workbook)
  | withPolicy (policy : MergePolicy)
  | withSources (sources : List (String × String))

/-- The pipeline that an operation leaves, if it succeeds and if it fails. -/
def Operation.perform (files : Files) (p : Pipeline) : Operation → Pipeline
  | apply typeName params => (p.apply files typeName params).2
  | undo => p.undo.2
  | clear => p.clear
  | replay => (p.replay files).2
  | setInitial initial => (p.setInitial files initial).2
  | withPolicy policy => p.withPolicy policy
  | withSources sources => p.withSources sources

/-- The pipeline that operations leave, one after the other. -/
def Pipeline.after (files : Files) (p : Pipeline) (operations : List Operation) : Pipeline :=
  operations.foldl (fun p operation => operation.perform files p) p

/-! ## Records -/

/-- The record is that of a step carried out on the workbook. -/
structure StepRecord.Performs (files : Files) (record : StepRecord) (book : Workbook) : Prop where
  prev : record.prev = book
  performed : record.kind.perform files book record.params = .ok ⟨record.post, record.data⟩

/-- Records of steps that were carried out one after the other, from one workbook to another. -/
inductive Logged (files : Files) (start : Workbook) : List StepRecord → Workbook → Prop
  | nil : Logged files start [] start
  | snoc {records : List StepRecord} {book : Workbook} {record : StepRecord}
      (before : Logged files start records book) (last : record.Performs files book) :
      Logged files start (records ++ [record]) record.post

section Records

variable {files : Files} {start stop : Workbook} {records : List StepRecord}

/-- A step in front of a log makes a longer one. -/
theorem Logged.cons {record : StepRecord} (hfirst : record.Performs files start)
    (h : Logged files record.post records stop) : Logged files start (record :: records) stop := by
  induction h with
  | nil => exact .snoc .nil hfirst
  | snoc _ hlast ih => exact .snoc ih hlast

/-- A log without its last step is one. -/
theorem Logged.dropLast (h : Logged files start records stop) :
    ∃ book, Logged files start records.dropLast book := by
  cases h with
  | nil => exact ⟨start, .nil⟩
  | @snoc records book record hbefore _ =>
    rw [List.dropLast_concat]
    exact ⟨book, hbefore⟩

/-- The last workbook is the one after the last record. -/
theorem Logged.stop_eq (h : Logged files start records stop) :
    stop = records.getLast?.elim start (·.post) := by
  cases h with
  | nil => rfl
  | snoc => simp

/-- The workbooks of a log. -/
def statesOf (start : Workbook) (records : List StepRecord) : List Workbook :=
  start :: records.map (·.post)

/-- The last workbook of a log is one of its states. -/
theorem Logged.stop_mem (h : Logged files start records stop) : stop ∈ statesOf start records := by
  cases h with
  | nil => exact List.mem_cons_self
  | snoc => simp [statesOf]

/-- What each step keeps holds of all workbooks of a log. -/
theorem Logged.forall_states {P : Workbook → Prop} (h : Logged files start records stop) (hstart : P start)
    (hstep : ∀ (record : StepRecord) (book : Workbook), record.Performs files book → P book →
      P record.post) : ∀ book ∈ statesOf start records, P book := by
  induction h with
  | nil => simpa [statesOf] using hstart
  | @snoc records book record hbefore hlast ih =>
    intro other hother
    rw [statesOf, List.map_append, ← List.cons_append] at hother
    rcases List.mem_append.mp hother with hold | hnew
    · exact ih other hold
    · rw [List.mem_singleton.mp hnew]
      exact hstep record book hlast (ih book hbefore.stop_mem)

/-- The chunk of a step begins where the step was carried out. -/
theorem StepRecord.Performs.chunk_prev {record : StepRecord} {book : Workbook}
    (h : record.Performs files book) : record.chunk.prev = book := h.prev

/-- The chunk of a step that was carried out is sound. -/
theorem StepRecord.Performs.sound {record : StepRecord} {book : Workbook} (h : record.Performs files book) :
    record.chunk.Sound files := by
  have hperformed := h.performed
  rw [← h.prev] at hperformed
  exact Chunk.sound_ofStep hperformed

/-- Names of dataframes stay distinct along a log. -/
theorem Logged.nodup (h : Logged files start records stop) (hdistinct : start.names.Nodup) :
    ∀ book ∈ statesOf start records, book.names.Nodup :=
  h.forall_states hdistinct fun _ _ hrecord hbook =>
    hrecord.sound.nodup_post (by rwa [hrecord.chunk_prev])

end Records

/-! ## Pipelines -/

/-- What holds of a pipeline whatever is done to it. -/
structure Pipeline.Kept (files : Files) (p : Pipeline) : Prop where
  logged : Logged files p.initial p.records p.book
  chunks : p.chunks = chunksOf p.policy p.records

namespace Pipeline

variable {files : Files} {p : Pipeline}

/-- A pipeline whose records are a log and whose chunks are those of it is kept. -/
theorem kept_of_logged {p : Pipeline} {stop : Workbook} (h : Logged files p.initial p.records stop)
    (hchunks : p.chunks = chunksOf p.policy p.records) : p.Kept files := by
  have hbook : p.book = stop := by
    rw [book, h.stop_eq]
    cases p.records.getLast? <;> rfl
  exact ⟨hbook ▸ h, hchunks⟩

/-- A new pipeline is kept. -/
theorem kept_new (files : Files) (registry : Registry) (initial : Workbook) :
    (new registry initial).Kept files := ⟨.nil, rfl⟩

/-- Chunks of one record more. -/
theorem chunksOf_concat (policy : MergePolicy) (records : List StepRecord) (record : StepRecord) :
    chunksOf policy (records ++ [record]) = pushChunk policy (chunksOf policy records) record.chunk := by
  rw [chunksOf, List.foldl_append]
  rfl

/-- The pipeline comes from an empty log by operations, whether they succeeded or not. -/
def Reachable (files : Files) (p : Pipeline) : Prop :=
  ∃ registry initial operations, p = (new registry initial).after files operations

end Pipeline

/-! ## Merging -/

namespace Chunk

/-- Neighbours none of which can be combined with the next. -/
def Separate (chunks : List Chunk) : Prop := chunks.IsChain fun c d => c.combine? d = none

/-- A chunk that could not be combined with another cannot be combined with what becomes of it. -/
theorem combine?_combined {b c d e : Chunk} (h : c.combine? d = some e) (hnone : b.combine? c = none) :
    b.combine? e = none := by
  cases hcombined : b.combine? e with
  | none => rfl
  | some other =>
    exfalso
    rcases combine?_cases h with ⟨hc, -, rfl⟩ | ⟨first, second, hc, -, -, rfl⟩ |
      ⟨first, second, hc, -, -, rfl⟩
    · rcases combine?_cases hcombined with ⟨hb, -, -⟩ | ⟨_, _, -, he, -, -⟩ | ⟨_, _, -, he, -, -⟩
      · simp [combine?, hb, hc] at hnone
      · cases he
      · cases he
    · rcases combine?_cases hcombined with ⟨-, he, -⟩ | ⟨_, _, hb, -, hmatch, -⟩ | ⟨_, _, -, he, -, -⟩
      · cases he
      · simp only [combine?, hb, hc] at hnone
        have hmatch' : b.paramsMatch c ["sheet_index"] = true := hmatch
        rw [if_pos hmatch'] at hnone
        cases hnone
      · cases he
    · rcases combine?_cases hcombined with ⟨-, he, -⟩ | ⟨_, _, -, he, -, -⟩ | ⟨_, _, hb, -, hmatch, -⟩
      · cases he
      · cases he
      · simp only [combine?, hb, hc] at hnone
        have hindex : (c.params.put "column_headers" (.ofTexts (first ++ second))).get? "sheet_index" =
            c.params.get? "sheet_index" := Keyed.get?_put_of_ne _ _ (by decide)
        have hmatch' : b.paramsMatch c ["sheet_index"] = true := by
          simp only [paramsMatch, spanning, List.all_cons, List.all_nil, Bool.and_true, hindex] at hmatch ⊢
          exact hmatch
        rw [if_pos hmatch'] at hnone
        cases hnone

/-- A chunk that cannot be combined with the nearest is put to the others. -/
theorem absorb_of_none {nearestFirst : List Chunk} {chunk : Chunk}
    (h : ∀ c ∈ nearestFirst.head?, c.combine? chunk = none) :
    absorb nearestFirst chunk = chunk :: nearestFirst := by
  cases nearestFirst with
  | nil => rfl
  | cons last before =>
    rw [absorb, h last rfl]

/-- A new chunk is combined with the last one, or put to the others. -/
theorem pushChunk_eager {front : List Chunk} {last : Chunk} (h : Separate (front ++ [last]))
    (chunk : Chunk) : pushChunk .eager (front ++ [last]) chunk =
      front ++ match last.combine? chunk with
        | some combined => [combined]
        | none => [last, chunk] := by
  have hlast : ∀ c ∈ front.reverse.head?, c.combine? last = none := by
    intro c hc
    rw [List.head?_reverse] at hc
    exact (List.isChain_append.mp h).2.2 c hc last rfl
  rw [pushChunk, List.reverse_append, List.reverse_singleton, List.singleton_append, absorb]
  cases hcombined : last.combine? chunk with
  | none => simp
  | some combined =>
    simp only
    rw [absorb_of_none fun c hc => combine?_combined hcombined (hlast c hc), List.reverse_cons,
      List.reverse_reverse]

/-- Chunks stay apart when one is put to them. -/
theorem separate_pushChunk {chunks : List Chunk} (h : Separate chunks) (chunk : Chunk) :
    Separate (pushChunk .eager chunks chunk) := by
  rcases List.eq_nil_or_concat chunks with rfl | ⟨front, last, rfl⟩
  · exact List.isChain_singleton _
  · rw [List.concat_eq_append] at h ⊢
    rw [pushChunk_eager h]
    obtain ⟨hfront, -, hlast⟩ := List.isChain_append.mp h
    cases hcombined : last.combine? chunk with
    | none =>
      refine List.isChain_append.mpr ⟨hfront, ?_, fun c hc d hd => ?_⟩
      · exact List.isChain_cons_cons.mpr ⟨hcombined, List.isChain_singleton _⟩
      · exact hlast c hc d (by simpa using hd)
    | some combined =>
      refine List.isChain_append.mpr ⟨hfront, List.isChain_singleton _, fun c hc d hd => ?_⟩
      obtain rfl : combined = d := by simpa using hd
      exact combine?_combined hcombined (hlast c hc last rfl)

end Chunk

/-! ## The chunks of a log -/

/-- Chunks that lead from one workbook to another, each beginning where the one before it ends. -/
def Tiles (start : Workbook) : List Chunk → Workbook → Prop
  | [], stop => start = stop
  | c :: rest, stop => c.prev = start ∧ Tiles c.post rest stop

/-- Chunks put together tile the way by a workbook in between. -/
theorem tiles_append {start stop : Workbook} {first second : List Chunk} :
    Tiles start (first ++ second) stop ↔ ∃ mid, Tiles start first mid ∧ Tiles mid second stop := by
  induction first generalizing start with
  | nil => simp [Tiles]
  | cons c rest ih =>
    rw [List.cons_append, Tiles, ih]
    constructor
    · rintro ⟨hprev, mid, hrest, hsecond⟩
      exact ⟨mid, ⟨hprev, hrest⟩, hsecond⟩
    · rintro ⟨mid, ⟨hprev, hrest⟩, hsecond⟩
      exact ⟨hprev, mid, hrest, hsecond⟩

/-- The chunk is for steps of the log: it is built, it goes from one of the workbooks to another, and what
it shows and what it runs comes from records. -/
structure Chunk.Of (files : Files) (start : Workbook) (records : List StepRecord) (c : Chunk) : Prop where
  built : c.Built files
  prev : c.prev ∈ statesOf start records
  post : c.post ∈ statesOf start records
  script : c.content = .transformation → ∃ record ∈ records, record.chunk = c
  shown : ∀ text ∈ c.shownTexts, ∃ record ∈ records, text ∈ record.chunk.shownTexts

/-- The chunks are for the steps of the log, from its start to its stop. -/
structure Chunked (files : Files) (start : Workbook) (records : List StepRecord) (chunks : List Chunk)
    (stop : Workbook) : Prop where
  each : ∀ c ∈ chunks, c.Of files start records
  tiles : Tiles start chunks stop

/-- The texts of a mapping are those that it mentions. -/
theorem Chunk.mem_flatMap_iff_mentions (mapping : Keyed String) (text : String) :
    text ∈ mapping.flatMap (fun entry => [entry.1, entry.2]) ↔ Mentions mapping text := by
  simp [Mentions, List.mem_flatMap]

/-- What a combined chunk shows is shown by its parts. -/
theorem Chunk.mem_shownTexts_of_combine? {c d e : Chunk} (h : c.combine? d = some e) {text : String}
    (htext : text ∈ e.shownTexts) : text ∈ c.shownTexts ∨ text ∈ d.shownTexts := by
  rcases combine?_cases h with ⟨hc, hd, rfl⟩ | ⟨first, second, hc, hd, -, rfl⟩ |
    ⟨first, second, hc, hd, -, rfl⟩
  · simp only [shownTexts, hc, hd, spanning] at htext ⊢
    rw [textsParam, Keyed.get?_put, if_pos rfl, Option.bind_some, asTexts?_ofTexts,
      Option.getD_some] at htext
    exact List.mem_append.mp htext
  · simp only [shownTexts, hc, hd, spanning, mem_flatMap_iff_mentions] at htext ⊢
    exact mentions_composeRenamings htext
  · simp only [shownTexts, hc, hd, spanning] at htext ⊢
    exact List.mem_append.mp htext

section Chunks

variable {files : Files} {start stop : Workbook} {records : List StepRecord} {chunks : List Chunk}

/-- A longer log has the same workbooks and more. -/
theorem Chunk.Of.snoc {c : Chunk} (h : c.Of files start records) (record : StepRecord) :
    c.Of files start (records ++ [record]) := by
  have hstates : ∀ book ∈ statesOf start records, book ∈ statesOf start (records ++ [record]) := by
    intro book hbook
    rw [statesOf, List.map_append, ← List.cons_append]
    exact List.mem_append_left _ hbook
  have hrecords : ∀ {P : StepRecord → Prop}, (∃ r ∈ records, P r) → ∃ r ∈ records ++ [record], P r :=
    fun ⟨r, hr, hP⟩ => ⟨r, List.mem_append_left _ hr, hP⟩
  exact ⟨h.built, hstates _ h.prev, hstates _ h.post, fun hc => hrecords (h.script hc),
    fun text htext => hrecords (h.shown text htext)⟩

/-- The chunk of a new record. -/
theorem Chunk.of_record {record : StepRecord} (hlog : Logged files start records stop)
    (hrecord : record.Performs files stop) : record.chunk.Of files start (records ++ [record]) := by
  have hmem : record ∈ records ++ [record] := by simp
  have hbuilt : record.chunk.Built files := by
    have hperformed := hrecord.performed
    rw [← hrecord.prev] at hperformed
    exact .step hperformed
  refine ⟨hbuilt, ?_, ?_, fun _ => ⟨record, hmem, rfl⟩, fun text htext => ⟨record, hmem, htext⟩⟩
  · change record.prev ∈ _
    rw [hrecord.prev, statesOf, List.map_append, ← List.cons_append]
    exact List.mem_append_left _ hlog.stop_mem
  · change record.post ∈ _
    simp [statesOf]

/-- A new record's chunk, put to the others or combined with the last one. -/
theorem Chunked.pushChunk {policy : MergePolicy} {record : StepRecord}
    (h : Chunked files start records chunks stop) (hseparate : policy = .eager → Chunk.Separate chunks)
    (hlog : Logged files start records stop) (hrecord : record.Performs files stop) :
    Chunked files start (records ++ [record]) (pushChunk policy chunks record.chunk) record.post := by
  have heach : ∀ c ∈ chunks, c.Of files start (records ++ [record]) := fun c hc => (h.each c hc).snoc record
  have hnew := Chunk.of_record hlog hrecord
  have happend : Chunked files start (records ++ [record]) (chunks ++ [record.chunk]) record.post := by
    refine ⟨fun c hc => ?_, tiles_append.mpr ⟨stop, h.tiles, hrecord.prev, rfl⟩⟩
    rcases List.mem_append.mp hc with hold | hlast
    · exact heach c hold
    · rw [List.mem_singleton.mp hlast]
      exact hnew
  cases policy with
  | disabled => exact happend
  | eager =>
    rcases List.eq_nil_or_concat chunks with rfl | ⟨front, last, rfl⟩
    · exact happend
    rw [List.concat_eq_append] at *
    rw [Chunk.pushChunk_eager (hseparate rfl)]
    cases hcombined : last.combine? record.chunk with
    | none =>
      rw [List.append_assoc] at happend
      exact happend
    | some combined =>
      -- the combined chunk spans what both did, so the tiles stay without gaps
      obtain ⟨hprev, hpost⟩ := Chunk.spans_of_combine? hcombined
      obtain ⟨mid, hfront, hlast, rfl⟩ := tiles_append.mp h.tiles
      have hold := heach last (by simp)
      have hbuilt : combined.Built files := hold.built.combine hnew.built hrecord.prev.symm
        (Chunk.fits_ofStep _ _ _ _ _ _) hcombined
      refine ⟨fun c hc => ?_, tiles_append.mpr ⟨mid, hfront, hprev.trans hlast, hpost⟩⟩
      rcases List.mem_append.mp hc with hmem | hmem
      · exact heach c (List.mem_append_left _ hmem)
      · rw [List.mem_singleton.mp hmem]
        refine ⟨hbuilt, hprev ▸ hold.prev, hpost ▸ hnew.post, fun hcontent => ?_, fun text htext => ?_⟩
        · rcases Chunk.combine?_cases hcombined with ⟨-, -, rfl⟩ | ⟨_, _, -, -, -, rfl⟩ |
            ⟨_, _, -, -, -, rfl⟩ <;> cases hcontent
        · rcases Chunk.mem_shownTexts_of_combine? hcombined htext with htext | htext
          · exact hold.shown text htext
          · exact hnew.shown text htext

/-- The chunks of a log are for its steps, and merged ones are apart. -/
theorem chunked_chunksOf (policy : MergePolicy) (h : Logged files start records stop) :
    Chunked files start records (chunksOf policy records) stop ∧
      (policy = .eager → Chunk.Separate (chunksOf policy records)) := by
  induction h with
  | nil => exact ⟨⟨by simp [chunksOf], rfl⟩, fun _ => List.isChain_nil⟩
  | snoc hbefore hlast ih =>
    rw [Pipeline.chunksOf_concat]
    refine ⟨ih.1.pushChunk ih.2 hbefore hlast, ?_⟩
    rintro rfl
    exact Chunk.separate_pushChunk (ih.2 rfl) _

end Chunks

/-- The chunks of a pipeline are for the steps of its log. -/
theorem Pipeline.Kept.chunked {files : Files} {p : Pipeline} (h : p.Kept files) :
    Chunked files p.initial p.records p.chunks p.book := by
  rw [h.chunks]
  exact (chunked_chunksOf p.policy h.logged).1

end TableScript
