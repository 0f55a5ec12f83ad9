import TableScript.Proofs.Scripts

/-!
# The script reproduces the pipeline

Run on the initial workbook, the script of a usable pipeline leaves the workbook that the pipeline has come
to (`script_reproduces`). If the sources are the files that the initial dataframes were read from, it does
so from nothing as well.

The argument goes chunk by chunk. Each chunk is that of sound steps, so its lines are faithful, whatever
locals the lines before them have left; the workbook after it is the one before the next. Comments and
empty lines do nothing, and neither does the header, since the library is there anyway.
-/

namespace TableScript

open Script Step Text

namespace Pipeline

/-! ## What a script needs -/

/-- What a script needs to do what the steps did.

Names of dataframes are distinct in a workbook, and each is one that a line of a script can begin with and
that does not hide the library. No script of a step binds the name of the library or removes it. No text
that a comment shows has a line feed in it, so no header and no path that is a parameter of a step has one.
Columns of a dataframe and lines of a script are as many as a 64-bit machine can count. -/
structure Usable (p : Pipeline) : Prop where
  distinct : p.initial.names.Nodup
  plain : ∀ book ∈ statesOf p.initial p.records, ∀ name ∈ book.names, Plain name
  library : ∀ record ∈ p.records, record.kind = .aiTransformation → Keeps "pd" record.chunk.code
  comments : ∀ record ∈ p.records, ∀ text ∈ record.chunk.shownTexts, OneLine text
  columns : ∀ book ∈ statesOf p.initial p.records, book.Countable
  lines : ∀ record ∈ p.records, (linesOf record.chunk.code).length < 2 ^ 63

/-- The dataframes are those in the files of the sources, in the same order and under the same names. -/
def ReadFrom (files : Files) : Keyed String → Keyed Frame → Prop :=
  List.Forall₂ fun source entry => source.1 = entry.1 ∧ Frame.readCsv files source.2 = .ok entry.2

variable {files : Files} {p : Pipeline}

/-! ## Chunks -/

/-- The lines of each chunk lead from the workbook before it to the one after it. -/
theorem Usable.faithful (husable : p.Usable) (h : p.Kept files) : ∀ c ∈ p.chunks, c.Faithful files := by
  intro c hc
  have hof := h.chunked.each c hc
  have htame : c.prev.Tame :=
    ⟨h.logged.nodup husable.distinct c.prev hof.prev, husable.plain c.prev hof.prev⟩
  have hsound := hof.built.sound htame.distinct
  by_cases hcontent : c.content = .transformation
  · obtain ⟨record, hrecord, rfl⟩ := hof.script hcontent
    have hkind : record.kind = .aiTransformation := by
      cases hkind : record.kind <;>
        simp [StepRecord.chunk, Chunk.ofStep, Chunk.contentOf, hkind] at hcontent ⊢
    exact hsound.faithful_transformation hcontent (husable.lines record hrecord)
      (husable.library record hrecord hkind)
  · exact hsound.faithful hcontent htame (husable.columns c.prev hof.prev)

/-- Nothing that the code of a usable pipeline shows is broken, if its sources are on one line. -/
theorem Usable.unbroken (husable : p.Usable) (h : p.Kept files)
    (hsources : ∀ source ∈ p.sources, OneLine source.1) : p.Unbroken := by
  refine ⟨hsources, fun c hc _ text htext => ?_⟩
  obtain ⟨record, hrecord, hshown⟩ := (h.chunked.each c hc).shown text htext
  exact husable.comments record hrecord text hshown

/-! ## Lines between the chunks -/

/-- Lines without statements do nothing. -/
theorem reproduces_of_none {lines : List (List Char)} (book : Workbook)
    (h : ∀ line ∈ lines, lineStatement? line = .ok none) : Reproduces files lines book book :=
  fun scope hscope => ⟨scope, Scope.afterLines_of_none h, hscope⟩

/-- The header does nothing: the library has its name before it. -/
theorem reproduces_header (book : Workbook) : Reproduces files [scriptLine header] book book := by
  intro scope hscope
  have hstatement : lineStatement? (scriptLine header) = .ok (some (.load "pandas" "pd")) := rfl
  have hafter : scope.afterLine files (scriptLine header) =
      some ⟨scope.book, scope.locals.put "pd" (.module "pandas")⟩ :=
    Scope.afterLine_of_some hstatement rfl
  exact ⟨_, Scope.afterLines_singleton.trans hafter, hscope.book,
    Keyed.nodup_keys_put hscope.tidy _ _, Keyed.get?_put_self _ _ _⟩

/-- The lines for a chunk do what its own lines do. -/
theorem reproduces_block {c : Chunk} (h : c.Faithful files) :
    Reproduces files (c.block.map scriptLine) c.prev c.post := by
  unfold Chunk.block
  split
  case isTrue hempty =>
    have hnil : c.scriptLines = [] := by
      rw [Chunk.scriptLines, List.isEmpty_iff.mp hempty, List.map_nil]
    rw [Chunk.Faithful, hnil] at h
    exact h
  case isFalse =>
    have hnone : ∀ line ∈ ["", "# " ++ c.comment].map scriptLine, lineStatement? line = .ok none := by
      simp only [List.map_cons, List.map_nil, List.forall_mem_cons, List.not_mem_nil, false_imp_iff,
        implies_true, and_true]
      exact ⟨lineStatement?_empty, lineStatement?_comment c.comment⟩
    exact (reproduces_of_none c.prev hnone).append h

/-- The lines for chunks lead from the workbook before the first to the one after the last. -/
theorem reproduces_blocks {chunks : List Chunk} {start stop : Workbook} (htiles : Tiles start chunks stop)
    (h : ∀ c ∈ chunks, c.Faithful files) :
    Reproduces files ((chunks.flatMap Chunk.block).map scriptLine) start stop := by
  induction chunks generalizing start with
  | nil =>
    obtain rfl : start = stop := htiles
    exact reproduces_nil files start
  | cons c rest ih =>
    obtain ⟨rfl, hrest⟩ := htiles
    rw [List.flatMap_cons, List.map_append]
    exact (reproduces_block (h c (by simp))).append (ih hrest fun d hd => h d (by simp [hd]))

/-! ## Sources -/

/-- The dataframes that were read are under the names of their sources. -/
theorem ReadFrom.keys_eq {sources : Keyed String} {entries : Keyed Frame}
    (h : ReadFrom files sources entries) : entries.keys = sources.keys := by
  induction h with
  | nil => rfl
  | cons hfirst _ ih => rw [Keyed.keys_cons, Keyed.keys_cons, hfirst.1, ih]

/-- Lines that read sources put their dataframes in, one after the other. -/
theorem reproduces_reads {sources : Keyed String} {entries : Keyed Frame} {before : Workbook}
    (h : ReadFrom files sources entries)
    (hplain : ∀ name ∈ entries.keys, Plain name) (hbefore : "pd" ∉ before.names) :
    Reproduces files ((sources.map fun (name, path) => Chunk.readLine name path).map scriptLine) before
      (before.insertAll entries) := by
  intro scope hscope
  have hlookup : scope.lookup "pd" = .ok (.module "pandas") :=
    Chunk.lookup_eq_module_iff.mpr ⟨hscope.book ▸ hbefore, hscope.library⟩
  have hread : List.Forall₂ (fun path entry => Frame.readCsv files path = .ok entry.2)
      (sources.map (·.2)) entries := List.forall₂_map_left_iff.mpr (List.Forall₂.imp (fun _ _ hentry => hentry.2) h)
  obtain ⟨after, hafter, hbook, hlookup', htidy⟩ := Chunk.afterLines_reads hread hplain hlookup
  refine ⟨after, ?_, hscope.book ▸ hbook, htidy hscope.tidy,
    (Chunk.lookup_eq_module_iff.mp hlookup').2⟩
  rw [h.keys_eq, Keyed.keys, List.zipWith_map, List.zipWith_self] at hafter
  rw [List.map_map, ← hafter]
  refine congrArg _ (List.map_congr_left fun source _ => ?_)
  exact Chunk.scriptLine_readLine source.1 source.2

/-- The lines that read the sources put the initial dataframes in. -/
theorem reproduces_opening {before : Workbook} (hsources : ReadFrom files p.sources p.initial.frames)
    (hplain : ∀ name ∈ p.initial.names, Plain name) (hbefore : "pd" ∉ before.names) :
    Reproduces files (p.opening.map scriptLine) before (before.insertAll p.initial.frames) := by
  have hreads := reproduces_reads hsources hplain hbefore
  unfold opening
  split
  case isTrue hempty =>
    rwa [List.isEmpty_iff.mp hempty] at hreads
  case isFalse =>
    have hnone : ∀ line ∈ ["", "# Read input data"].map scriptLine, lineStatement? line = .ok none := by
      simp only [List.map_cons, List.map_nil, List.forall_mem_cons, List.not_mem_nil, false_imp_iff,
        implies_true, and_true]
      exact ⟨lineStatement?_empty, lineStatement?_comment "Read input data"⟩
    exact (reproduces_of_none before hnone).append hreads

/-! ## The whole script -/

/-- The script leads to the current workbook from wherever its opening leads to the initial one. -/
theorem Usable.run_script (husable : p.Usable) (h : p.Kept files) {before : Workbook}
    (hsources : ∀ source ∈ p.sources, OneLine source.1)
    (hopening : Reproduces files (p.opening.map scriptLine) before p.initial) :
    ∃ outcome, Script.run files before p.script = .ok outcome ∧ outcome.book = p.book := by
  have hnames : ∀ name ∈ p.initial.names, Bindable name := fun name hname =>
    (husable.plain p.initial List.mem_cons_self name hname).bindable
  have hlines := (h.oneLine_code_iff husable.distinct hnames).mpr (husable.unbroken h hsources)
  have hbody : Reproduces files (p.body.map scriptLine) before p.book := by
    rw [body, List.map_append]
    exact hopening.append (reproduces_blocks h.chunked.tiles (husable.faithful h))
  have hcode : Reproduces files (p.code.map scriptLine) before p.book := by
    rw [code_eq]
    split
    case isTrue hempty => rwa [hempty] at hbody
    case isFalse => exact (reproduces_header before).append hbody
  rw [script_eq]
  exact hcode.replays hlines

/-- Run on the initial workbook, the script of a pipeline leaves its current workbook. If it reads the
sources of the initial dataframes, it does so from that workbook and from an empty one. -/
theorem script_reproduces (h : p.Reachable files) (husable : p.Usable) :
    (p.sources = [] →
      ∃ outcome, Script.run files p.initial p.script = .ok outcome ∧ outcome.book = p.book) ∧
    (ReadFrom files p.sources p.initial.frames → ∀ before ∈ [p.initial, Workbook.empty],
      ∃ outcome, Script.run files before p.script = .ok outcome ∧ outcome.book = p.book) := by
  have hplain : ∀ name ∈ p.initial.names, Plain name := husable.plain p.initial List.mem_cons_self
  constructor
  · intro hnone
    refine husable.run_script h.kept (by simp [hnone]) ?_
    rw [opening, hnone]
    exact reproduces_nil files p.initial
  · intro hsources before hbefore
    have honeLine : ∀ source ∈ p.sources, OneLine source.1 := by
      intro source hsource
      refine (hplain source.1 ?_).isWord.oneLine
      rw [Workbook.names, hsources.keys_eq]
      exact Keyed.mem_keys_of_mem hsource
    have hpd : "pd" ∉ p.initial.names := fun hmem => (hplain _ hmem).ne_library rfl
    refine husable.run_script h.kept honeLine ?_
    rcases List.mem_cons.mp hbefore with rfl | hbefore
    · have hsame : p.initial.insertAll p.initial.frames = p.initial :=
        Workbook.insertAll_of_frame? fun entry hentry => Keyed.get?_of_mem husable.distinct hentry
      have hopening := reproduces_opening hsources hplain hpd
      rwa [hsame] at hopening
    · obtain rfl := List.mem_singleton.mp hbefore
      have hsame : Workbook.empty.insertAll p.initial.frames = p.initial :=
        Workbook.insertAll_of_nodup (by simpa [Workbook.empty, Workbook.names] using husable.distinct)
      exact hsame ▸ reproduces_opening hsources hplain (by simp [Workbook.empty, Workbook.names])

/-- A script and a renaming of a column. -/
theorem script_reproduces_two_steps :
    let p := (new .standard ⟨[("df", ⟨[("A", [.int 1])], 1⟩)]⟩).after default [
      .apply "ai_transformation" [("edited_completion", .str "n = df")],
      .apply "rename_column" [("sheet_index", .int 0), ("old_column_header", .str "A"),
        ("new_column_header", .str "B")]]
    p.Reachable default ∧ p.Usable ∧ p.sources = [] ∧
      ∃ outcome, Script.run default p.initial p.script = .ok outcome ∧ outcome.book = p.book := by
  intro p
  have hreachable : p.Reachable default := ⟨_, _, _, rfl⟩
  have hsources : p.sources = [] := rfl
  have husable : p.Usable := by
    refine ⟨?_, ?_, ?_, ?_, ?_, ?_⟩ <;> decide +kernel
  exact ⟨hreachable, husable, hsources, (script_reproduces hreachable husable).1 hsources⟩

end Pipeline

end TableScript
