import TableScript.Proofs.Replaying
import TableScript.Proofs.Transformations

/-!
# The script of a pipeline

The lines of the code of a pipeline are the header, the lines that read its sources, and for each chunk
with lines an empty line, its comment and its lines (`code_eq`). The script is those lines, each ended by
a line feed (`script_eq`).

A run takes the script apart into these lines again exactly if none of them has a line feed in it. Whatever
the parameters of the steps are, that depends on the names of the sources and on the texts that comments
show; and then all that a run carries out is the header, the lines that read the sources and the lines of
the chunks (`singleLines_iff`).
-/

namespace TableScript

open Script Step Text

/-! ## Names along a log -/

/-- The name can be bound by a line of a script. -/
def Bindable (name : String) : Prop := IsWord name.toList ∧ name ∉ ["True", "False", "None"]

/-- A plain name can be bound. -/
theorem Plain.bindable {name : String} (h : Plain name) : Bindable name :=
  ⟨h.isWord, fun hmem => h.not_mem_values (List.mem_cons_of_mem _ hmem)⟩

/-- A name that is made of itself is plain. -/
theorem plain_of_usableName {name : String} (h : usableName name = name) : Plain name :=
  h ▸ plain_usableName name

/-- Names that a statement binds are bindable. -/
theorem Script.bindable_of_boundName? {line : List Char} {s : Statement} {name : String}
    (hline : lineStatement? line = .ok (some s)) (hname : s.boundName? = some name) : Bindable name := by
  obtain ⟨ts, hts, ⟨-, hnone⟩ | ⟨-, s', hs', hsome⟩⟩ := lineStatement?_ok_iff.mp hline
  · cases hnone
  · cases hsome
    obtain ⟨hmem, hfree⟩ := mem_of_boundName? hs' hname
    exact ⟨isWord_of_mem_tokens hts hmem, hfree⟩

namespace Chunk

variable {files : Files} {c : Chunk}

/-- Steps leave names that can be bound. -/
theorem Sound.bindable_post (h : c.Sound files) (hprev : ∀ name ∈ c.prev.names, Bindable name) :
    ∀ name ∈ c.post.names, Bindable name := by
  by_cases hcontent : c.content = .transformation
  · simp only [Sound, hcontent] at h
    obtain ⟨code, outcome, -, hrun, hcases⟩ := transform_cases h
    have houtcome : ∀ name ∈ outcome.book.names, Bindable name := by
      obtain ⟨after, hafter, hbook⟩ := run_ok_iff.mp ⟨outcome, hrun, rfl⟩
      rw [← hbook]
      intro name hname
      rcases (Scope.afterLines_names hafter).1 name hname with hold | ⟨line, -, s, hline, hbound⟩
      · exact hprev name hold
      · exact bindable_of_boundName? hline hbound
    rcases hcases with ⟨f, line, -, hpost, -⟩ | ⟨-, hpost, -⟩
    · rw [show c.post = _ from hpost]
      intro name hname
      rcases (Keyed.mem_keys_put _ _ _ _).mp hname with rfl | hmem
      · exact (plain_capturedName _).bindable
      · exact houtcome name hmem
    · rw [show c.post = _ from hpost]
      exact houtcome
  · intro name hname
    exact (h.names_post hcontent (fun other hother => (hprev other hother).1) name hname).elim
      (hprev name) Plain.bindable

/-- The name that a script's last dataframe got is a plain one. -/
theorem Sound.plain_created (h : c.Sound files) (hcontent : c.content = .transformation) {name : String}
    (hname : (c.fact? "created_dataframe_name").bind Value.asText? = some name) : Plain name := by
  simp only [Sound, hcontent] at h
  obtain ⟨code, outcome, -, -, ⟨f, line, -, -, hdata⟩ | ⟨-, -, hdata⟩⟩ := transform_cases h
  · rw [fact?, show c.data = _ from hdata] at hname
    obtain rfl : capturedName outcome.book = name := Option.some.inj hname
    exact plain_capturedName _
  · rw [fact?, show c.data = _ from hdata] at hname
    cases hname

/-- The lines of a chunk are single lines. -/
theorem Sound.oneLine_of_mem (h : c.Sound files) (hprev : ∀ name ∈ c.prev.names, Bindable name) :
    ∀ line ∈ c.lines, OneLine line :=
  oneLine_of_mem_lines (fun name hname => (hprev name (mem_names_of_sheetName? hname)).1.oneLine)
    (fun name hname => (h.bindable_post hprev name hname).1.oneLine)
    fun hcontent _ hname => (h.plain_created hcontent hname).isWord.oneLine

end Chunk

/-- Names that can be bound are all there is along a log. -/
theorem Logged.bindable {files : Files} {start stop : Workbook} {records : List StepRecord}
    (h : Logged files start records stop) (hstart : ∀ name ∈ start.names, Bindable name) :
    ∀ book ∈ statesOf start records, ∀ name ∈ book.names, Bindable name :=
  h.forall_states hstart fun _ _ hrecord hbook =>
    hrecord.sound.bindable_post (by rwa [hrecord.chunk_prev])

/-! ## The lines of the code -/

/-- The lines for a chunk: an empty line, its comment and its lines, or none if it has none. -/
def Chunk.block (c : Chunk) : List String :=
  if c.lines.isEmpty then [] else "" :: ("# " ++ c.comment) :: c.lines

namespace Pipeline

variable (p : Pipeline)

/-- The lines under the header that read the sources. -/
def opening : List String :=
  if p.sources.isEmpty then []
  else "" :: "# Read input data" :: p.sources.map fun (name, path) => Chunk.readLine name path

/-- The lines under the header. -/
def body : List String := p.opening ++ p.chunks.flatMap Chunk.block

/-- The lines of the code that do something. -/
def actingLines : List String :=
  header :: (p.sources.map (fun (name, path) => Chunk.readLine name path) ++ p.chunks.flatMap Chunk.lines)

/-- A chunk adds its block to the script, after the first line if that is missing. -/
theorem addChunkLines_eq (before : List String) (c : Chunk) : addChunkLines before c =
    if c.block = [] then before else (if before.isEmpty then [header] else before) ++ c.block := by
  unfold addChunkLines Chunk.block
  cases hlines : c.lines with
  | nil => rfl
  | cons line rest => rfl

/-- The lines for chunks are put to those before them, under the header. -/
theorem foldl_addChunkLines (before : List String) (chunks : List Chunk) :
    chunks.foldl addChunkLines before = if chunks.flatMap Chunk.block = [] then before
      else (if before.isEmpty then [header] else before) ++ chunks.flatMap Chunk.block := by
  induction chunks generalizing before with
  | nil => simp
  | cons c rest ih =>
    rw [List.foldl_cons, ih, addChunkLines_eq, List.flatMap_cons]
    by_cases hblock : c.block = []
    · simp [hblock]
    · have hne : (if before.isEmpty then [header] else before) ++ c.block ≠ [] :=
        List.append_ne_nil_of_right_ne_nil _ hblock
      rw [if_neg hblock, if_neg (List.append_ne_nil_of_left_ne_nil hblock _),
        List.isEmpty_eq_false_iff.mpr hne, if_neg Bool.false_ne_true, ← List.append_assoc]
      split
      case isTrue hrest => rw [hrest, List.append_nil]
      case isFalse => rfl

/-- The code is the header and the lines under it, if there are any. -/
theorem code_eq : p.code = if p.body = [] then [] else header :: p.body := by
  have hsources : p.sourceLines = if p.opening = [] then [] else header :: p.opening := by
    unfold sourceLines opening
    split <;> simp
  rw [code, foldl_addChunkLines, hsources, body]
  by_cases hopening : p.opening = []
  · rw [hopening, if_pos rfl, List.nil_append]
    rfl
  · rw [if_neg hopening, if_neg (List.append_ne_nil_of_left_ne_nil hopening _)]
    split
    case isTrue hchunks => rw [hchunks, List.append_nil]
    case isFalse => rfl

/-- The script is the lines of the code, each ended by a line feed. -/
theorem script_eq : p.script = scriptOf p.code := by
  have hjoined : ∀ (line : String) (rest : List String),
      "\n".intercalate (line :: rest) ++ "\n" = scriptOf (line :: rest) := by
    intro line rest
    induction rest generalizing line with
    | nil => simp [scriptOf]
    | cons next rest ih =>
      rw [String.intercalate_cons_cons, String.append_assoc, ih]
      simp only [scriptOf, List.map_cons, String.join_cons, String.append_assoc]
  rw [script, code_eq]
  split
  case isTrue => rfl
  case isFalse =>
    have hne : ("\n".intercalate (header :: p.body)).isEmpty = false := by
      cases hbody : p.body with
      | nil => rfl
      | cons line rest =>
        rw [String.intercalate_cons_cons, String.append_assoc]
        simp [String.isEmpty, header]
    simp only [hne, Bool.false_eq_true, if_false]
    exact hjoined header p.body

/-! ## Single lines -/

/-- The code is made of single lines, and its comments stay comments: a run takes the script apart into
the lines of the code, up to a carriage return at the end of each, and it carries out none but those that
are meant to do something. -/
structure SingleLines : Prop where
  code : ∀ line ∈ p.code, OneLine line
  split : linesOf p.script.toList = p.code.map scriptLine
  acting : ∀ line ∈ linesOf p.script.toList, lineStatement? line ≠ .ok none →
    line ∈ p.actingLines.map scriptLine

/-- No source has a line feed in its name, and no text that a comment of the code shows has one. -/
structure Unbroken : Prop where
  sources : ∀ source ∈ p.sources, OneLine source.1
  texts : ∀ c ∈ p.chunks, c.lines ≠ [] → ∀ text ∈ c.shownTexts, OneLine text

variable {p}

/-- A line of the opening is empty, the comment, or reads a source. -/
theorem mem_opening {line : String} (h : line ∈ p.opening) : line = "" ∨ line = "# Read input data" ∨
    ∃ source ∈ p.sources, line = Chunk.readLine source.1 source.2 := by
  unfold opening at h
  split at h
  · cases h
  · rcases List.mem_cons.mp h with h | h
    · exact Or.inl h
    · rcases List.mem_cons.mp h with h | h
      · exact Or.inr (Or.inl h)
      · obtain ⟨source, hsource, rfl⟩ := List.mem_map.mp h
        exact Or.inr (Or.inr ⟨source, hsource, rfl⟩)

/-- The opening has one line for each of its lines exactly if the names of the sources do. -/
theorem oneLine_opening_iff :
    (∀ line ∈ p.opening, OneLine line) ↔ ∀ source ∈ p.sources, OneLine source.1 := by
  constructor
  · intro h source hsource
    refine (Chunk.oneLine_readLine_iff source.1 source.2).mp (h _ ?_)
    have hne : p.sources.isEmpty = false := List.isEmpty_eq_false_iff.mpr (List.ne_nil_of_mem hsource)
    rw [opening, hne, if_neg Bool.false_ne_true]
    exact List.mem_cons_of_mem _ (List.mem_cons_of_mem _ (List.mem_map.mpr ⟨source, hsource, rfl⟩))
  · intro h line hline
    rcases mem_opening hline with rfl | rfl | ⟨source, hsource, rfl⟩
    · decide
    · decide
    · exact (Chunk.oneLine_readLine_iff _ _).mpr (h source hsource)

end Pipeline

namespace Chunk

variable {c : Chunk}

/-- A line of a block is empty, the comment, or one of the chunk. -/
theorem mem_block {line : String} (h : line ∈ c.block) :
    line = "" ∨ line = "# " ++ c.comment ∨ line ∈ c.lines := by
  unfold block at h
  split at h
  · cases h
  · simpa using h

/-- The lines for a chunk are single lines if its comment is one, or left out. -/
theorem oneLine_block_iff (h : ∀ line ∈ c.lines, OneLine line) :
    (∀ line ∈ c.block, OneLine line) ↔ (c.lines ≠ [] → OneLine c.comment) := by
  constructor
  · intro hblock hne
    have hcomment : OneLine ("# " ++ c.comment) := by
      refine hblock _ ?_
      rw [block, List.isEmpty_eq_false_iff.mpr hne, if_neg Bool.false_ne_true]
      exact List.mem_cons_of_mem _ List.mem_cons_self
    exact ((oneLine_append _ _).mp hcomment).2
  · intro hcomment line hline
    have hne : c.lines ≠ [] := by
      intro hnil
      rw [block, hnil] at hline
      cases hline
    rcases mem_block hline with rfl | rfl | hmem
    · decide
    · exact (oneLine_append _ _).mpr ⟨by decide, hcomment hne⟩
    · exact h line hmem

end Chunk

namespace Pipeline

variable {files : Files} {p : Pipeline}

/-- The code is made of single lines exactly if nothing that it shows is broken. -/
theorem Kept.oneLine_code_iff (h : p.Kept files) (hdistinct : p.initial.names.Nodup)
    (hnames : ∀ name ∈ p.initial.names, Bindable name) :
    (∀ line ∈ p.code, OneLine line) ↔ p.Unbroken := by
  have hblock : ∀ c ∈ p.chunks, (∀ line ∈ c.block, OneLine line) ↔
      (c.lines ≠ [] → ∀ text ∈ c.shownTexts, OneLine text) := by
    intro c hc
    have hof := h.chunked.each c hc
    have hprev := h.logged.bindable hnames c.prev hof.prev
    have hsound := hof.built.sound (h.logged.nodup hdistinct c.prev hof.prev)
    have hsheet : ∀ name, c.sheetName? = some name → OneLine name := fun name hname =>
      (hprev name (Chunk.mem_names_of_sheetName? hname)).1.oneLine
    rw [Chunk.oneLine_block_iff (hsound.oneLine_of_mem hprev), Chunk.oneLine_comment_iff hsheet]
  have hbody : (∀ line ∈ p.body, OneLine line) ↔ p.Unbroken := by
    rw [body, List.forall_mem_append, oneLine_opening_iff, List.forall_mem_flatMap]
    constructor
    · rintro ⟨hsources, hchunks⟩
      exact ⟨hsources, fun c hc => (hblock c hc).mp (hchunks c hc)⟩
    · rintro ⟨hsources, hchunks⟩
      exact ⟨hsources, fun c hc => (hblock c hc).mpr (hchunks c hc)⟩
  rw [← hbody, code_eq]
  split
  case isTrue hnil => simp [hnil]
  case isFalse =>
    rw [List.forall_mem_cons]
    exact and_iff_right (by decide)

/-- An empty line has no statement. -/
theorem lineStatement?_empty : lineStatement? (scriptLine "") = .ok none := rfl

/-- A line that begins as a comment is one. -/
theorem lineStatement?_comment (text : String) : lineStatement? (scriptLine ("# " ++ text)) = .ok none := by
  refine lineStatement?_dropReturn (lineStatement?_ok_iff.mpr ⟨[], ?_, Or.inl ⟨rfl, rfl⟩⟩)
  rw [String.toList_append]
  exact tokens_comment _

/-- The lines of the code that have a statement are those that are meant to do something. -/
theorem mem_actingLines {line : String} (h : line ∈ p.code)
    (hstatement : lineStatement? (scriptLine line) ≠ .ok none) : line ∈ p.actingLines := by
  rw [code_eq] at h
  split at h
  case isTrue => cases h
  case isFalse =>
    rcases List.mem_cons.mp h with rfl | h
    · exact List.mem_cons_self
    · refine List.mem_cons_of_mem _ (List.mem_append.mpr ?_)
      rcases List.mem_append.mp h with h | h
      · rcases mem_opening h with rfl | rfl | ⟨source, hsource, rfl⟩
        · exact absurd lineStatement?_empty hstatement
        · exact absurd (lineStatement?_comment "Read input data") hstatement
        · exact Or.inl (List.mem_map.mpr ⟨source, hsource, rfl⟩)
      · obtain ⟨c, hc, hline⟩ := List.mem_flatMap.mp h
        rcases Chunk.mem_block hline with rfl | rfl | hmem
        · exact absurd lineStatement?_empty hstatement
        · exact absurd (lineStatement?_comment c.comment) hstatement
        · exact Or.inr (List.mem_flatMap.mpr ⟨c, hc, hmem⟩)

/-- Whatever the parameters of its steps are, a pipeline has code of single lines exactly if no source has
a line feed in its name and no text that its comments show has one. -/
theorem singleLines_iff (h : p.Reachable files) (hdistinct : p.initial.names.Nodup)
    (hnames : ∀ name ∈ p.initial.names, usableName name = name) : p.SingleLines ↔ p.Unbroken := by
  rw [← h.kept.oneLine_code_iff hdistinct fun name hname =>
    (plain_of_usableName (hnames name hname)).bindable]
  refine ⟨SingleLines.code, fun hcode => ?_⟩
  have hsplit : linesOf p.script.toList = p.code.map scriptLine := by
    rw [script_eq]
    exact linesOf_scriptOf_iff.mpr hcode
  refine ⟨hcode, hsplit, fun line hline hstatement => ?_⟩
  rw [hsplit] at hline
  obtain ⟨text, htext, rfl⟩ := List.mem_map.mp hline
  exact List.mem_map_of_mem (mem_actingLines htext hstatement)

/-- A header with a line feed in it breaks the comment on its column, and what stands after the line feed
is not part of the comment any more. -/
theorem not_singleLines_of_broken_header :
    let p := (new .standard ⟨[("df", ⟨[("A", [.int 1])], 1⟩)]⟩).after default [.apply "add_column"
      [("sheet_index", .int 0), ("column_header", .str "x\ndel df #")]]
    p.Reachable default ∧ p.initial.names.Nodup ∧ (∀ name ∈ p.initial.names, usableName name = name) ∧
      ¬ p.SingleLines := by
  intro p
  have hreachable : p.Reachable default := ⟨_, _, _, rfl⟩
  have hdistinct : p.initial.names.Nodup := by decide +kernel
  have hnames : ∀ name ∈ p.initial.names, usableName name = name := by decide +kernel
  refine ⟨hreachable, hdistinct, hnames, fun hsingle => ?_⟩
  have hunbroken := (singleLines_iff hreachable hdistinct hnames).mp hsingle
  have hbroken : ∃ c ∈ p.chunks, c.lines ≠ [] ∧ ∃ text ∈ c.shownTexts, ¬ OneLine text := by
    decide +kernel
  obtain ⟨c, hc, hlines, text, htext, hnot⟩ := hbroken
  exact hnot (hunbroken.texts c hc hlines text htext)

end Pipeline

end TableScript
