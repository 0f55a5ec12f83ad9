import TableScript.Proofs.Transitions

/-!
# Combined chunks

A chunk combined of two goes from the workbook before the first to the one after the second. Imports and
deletions are joined end to end, and the combined chunk is always right. Renamings are composed, and the
combined chunk is right exactly if the second renaming is untangled (`Chunk.Fits`).

`Chunk.Built` are the chunks that steps leave, and those made of neighbours by combinations that fit, in
any order and to any depth. They are sound, so what their lines do is known (`combined_iff`).
-/

namespace TableScript

open Script Step

namespace Chunk

/-! ## What is combined -/

/-- The second chunk can be put to the first: if both rename columns, nothing is tangled. -/
def Fits (c d : Chunk) : Prop :=
  match c.content, d.content with
  | .renaming first, .renaming second => Untangled first second
  | _, _ => True

/-- The chunk of a single step fits to every chunk. -/
theorem fits_ofStep (c : Chunk) (kind : StepKind) (prev post : Workbook) (params : Params)
    (data : Option Params) : c.Fits (ofStep kind prev post params data) := by
  unfold Fits
  split
  case h_1 first second hfirst hsecond =>
    refine untangled_of_length_le_one first ?_
    cases kind with
    | renameColumn =>
      obtain rfl : renamingOf params = second := ChunkContent.renaming.inj hsecond
      unfold renamingOf
      split
      · split <;> simp
      · simp
    | _ => cases hsecond
  case h_2 => trivial

/-- Chunks that can be combined are two imports, two renamings or two deletions. -/
theorem combine?_cases {c d e : Chunk} (h : c.combine? d = some e) :
    (c.content = .fileImport ∧ d.content = .fileImport ∧
      e = c.spanning d (c.params.put "file_names" (.ofTexts
        (textsParam c.params "file_names" ++ textsParam d.params "file_names"))) .fileImport) ∨
    (∃ first second, c.content = .renaming first ∧ d.content = .renaming second ∧
      c.paramsMatch d ["sheet_index"] = true ∧
      e = c.spanning d c.params (.renaming (composeRenamings
        (match c.sheet? with
          | some (_, f) => f.headers
          | none => []) first second))) ∨
    (∃ first second, c.content = .deletion first ∧ d.content = .deletion second ∧
      c.paramsMatch d ["sheet_index"] = true ∧
      e = c.spanning d (c.params.put "column_headers" (.ofTexts (first ++ second)))
        (.deletion (first ++ second))) := by
  unfold combine? at h
  split at h
  case h_1 hc hd =>
    cases h
    exact Or.inl ⟨hc, hd, rfl⟩
  case h_2 first second hc hd =>
    split at h
    case isTrue hmatch =>
      cases h
      exact Or.inr (Or.inl ⟨first, second, hc, hd, hmatch, rfl⟩)
    case isFalse => cases h
  case h_3 first second hc hd =>
    split at h
    case isTrue hmatch =>
      cases h
      exact Or.inr (Or.inr ⟨first, second, hc, hd, hmatch, rfl⟩)
    case isFalse => cases h
  case h_4 => cases h

/-- A combined chunk goes from the beginning of the first to the end of the second. -/
theorem spans_of_combine? {c d e : Chunk} (h : c.combine? d = some e) :
    e.prev = c.prev ∧ e.post = d.post := by
  rcases combine?_cases h with ⟨-, -, rfl⟩ | ⟨_, _, -, -, -, rfl⟩ | ⟨_, _, -, -, -, rfl⟩ <;>
    exact ⟨rfl, rfl⟩

/-! ## The dataframe that combined chunks work on -/

/-- A whole number is the same as itself only. -/
theorem eq_int_of_same {a : Int64} {v : Value} (h : (Value.int a == v) = true) : v = .int a := by
  change Value.same (.int a) v = true at h
  cases v with
  | int b => rw [eq_of_beq (show (a == b) = true by simpa [Value.same] using h)]
  | _ => simp [Value.same] at h

/-- Chunks that agree on the index work on one dataframe. -/
theorem sheet?_next {c d : Chunk} (hdistinct : c.prev.names.Nodup)
    (hmatch : c.paramsMatch d ["sheet_index"] = true) {name : String} {f g : Frame}
    (hsheet : c.sheet? = some (name, f)) (hnext : d.prev = c.prev.insert name g) :
    d.sheet? = some (name, g) := by
  have hequal : (c.params.get? "sheet_index" == d.params.get? "sheet_index") = true := by
    simpa [paramsMatch] using hmatch
  obtain ⟨index, hparam, hnonneg, hframe⟩ := sheet?_eq_some_iff.mp hsheet
  have hparam' : d.params.get? "sheet_index" = some (.int index) := by
    rw [hparam] at hequal
    cases hget : d.params.get? "sheet_index" with
    | none => rw [hget] at hequal; cases hequal
    | some w =>
      rw [hget] at hequal
      rw [eq_int_of_same hequal]
  refine sheet?_eq_some_iff.mpr ⟨index, hparam', hnonneg, ?_⟩
  rw [hnext]
  exact Workbook.frameAt?_insert hdistinct hframe g

/-- Where a combined chunk changes a parameter other than the index, it works on the same dataframe. -/
theorem sheet?_spanning_put (c d : Chunk) {key : String} (hkey : key ≠ "sheet_index") (v : Value)
    (content : ChunkContent) : (c.spanning d (c.params.put key v) content).sheet? = c.sheet? := by
  unfold sheet? intParam?
  rw [show (c.spanning d (c.params.put key v) content).params = c.params.put key v from rfl,
    Keyed.get?_put_of_ne _ _ hkey]
  rfl

/-! ## Combined chunks are sound -/

/-- Importing two lists of files one after the other is importing them as one list. -/
theorem importAll_append {files : Files} {prev between : Workbook} {first : List String}
    (h : importAll files prev first = .ok between) (second : List String) :
    importAll files prev (first ++ second) = importAll files between second := by
  induction first generalizing prev with
  | nil =>
    cases h
    rfl
  | cons path rest ih =>
    unfold importAll at h
    rw [List.cons_append, importAll]
    split at h
    case h_1 => cases h
    case h_2 f _ => exact ih h

/-- So is dropping two lists of columns. -/
theorem dropAll_append {f g : Frame} {first : List String} (h : dropAll f first = .ok g)
    (second : List String) : dropAll f (first ++ second) = dropAll g second := by
  induction first generalizing f with
  | nil =>
    cases h
    rfl
  | cons header rest ih =>
    obtain ⟨next, hnext, hrest⟩ := except_bind_eq_ok.mp h
    rw [List.cons_append, dropAll, hnext]
    exact ih hrest

/-- What two renamings one after the other do to the dataframe they work on. -/
theorem renamings_in_turn {files : Files} {c d : Chunk} (hc : c.Sound files) (hd : d.Sound files)
    (hnext : c.post = d.prev) (hdistinct : c.prev.names.Nodup) {first second : Keyed String}
    (hfirst : c.content = .renaming first) (hsecond : d.content = .renaming second)
    (hmatch : c.paramsMatch d ["sheet_index"] = true) :
    ∃ name f g k, c.sheet? = some (name, f) ∧ Renames f.headers first ∧
      (f.rename first).made = .ok g ∧ Renames (f.headers.map (Frame.renamed first)) second ∧
      (∀ entry ∈ second, entry.1 ≠ entry.2) ∧ (g.rename second).made = .ok k ∧
      d.post = c.prev.insert name k := by
  simp only [Sound, hfirst] at hc
  simp only [Sound, hsecond] at hd
  obtain ⟨name, f, g, hsheet, hrenames, -, hmade, hpost⟩ := hc
  obtain ⟨name', f', k, hsheet', hrenames', hproper, hmade', hpost'⟩ := hd
  obtain ⟨rfl, rfl⟩ : name' = name ∧ f' = g := by
    have hsame := hsheet'.symm.trans (sheet?_next hdistinct hmatch hsheet (hnext.symm.trans hpost))
    simpa using hsame
  refine ⟨name', f, f', k, hsheet, hrenames, hmade, ?_, hproper, hmade', ?_⟩
  · rwa [← Frame.headers_of_rename hmade]
  · rw [hpost', ← hnext, hpost, Workbook.insert_insert]

/-- Chunks that fit are combined into a sound chunk. -/
theorem Sound.combine {files : Files} {c d e : Chunk} (hc : c.Sound files) (hd : d.Sound files)
    (hnext : c.post = d.prev) (hdistinct : c.prev.names.Nodup) (hfits : c.Fits d)
    (h : c.combine? d = some e) : e.Sound files := by
  rcases combine?_cases h with ⟨hfirst, hsecond, rfl⟩ | ⟨first, second, hfirst, hsecond, hmatch, rfl⟩ |
    ⟨first, second, hfirst, hsecond, hmatch, rfl⟩
  · -- imports: the paths of both, read one after the other
    simp only [Sound, hfirst] at hc
    simp only [Sound, hsecond] at hd
    obtain ⟨paths, hpaths, himport⟩ := hc
    obtain ⟨paths', hpaths', himport'⟩ := hd
    refine ⟨paths ++ paths', ?_, ?_⟩
    · have hget : (c.params.put "file_names" (Value.ofTexts (textsParam c.params "file_names" ++
          textsParam d.params "file_names"))).get? "file_names" =
          some (Value.ofTexts (paths ++ paths')) := by
        rw [Keyed.get?_put, if_pos rfl, textsParam, textsParam, hpaths, hpaths', Option.getD_some,
          Option.getD_some]
      exact (congrArg (Option.bind · Value.asTexts?) hget).trans (asTexts?_ofTexts _)
    · exact (importAll_append himport paths').trans (hnext ▸ himport')
  · -- renamings: composing them is right for those that fit
    obtain ⟨name, f, g, k, hsheet, hrenames, hmade, hrenames', hproper, hmade', hpost⟩ :=
      renamings_in_turn hc hd hnext hdistinct hfirst hsecond hmatch
    have huntangled : Untangled first second := by simpa only [Fits, hfirst, hsecond] using hfits
    refine ⟨name, f, k, hsheet, ?_, ?_, ?_, hpost⟩
    · rw [hsheet]
      exact renames_composeRenamings hrenames hrenames' hproper huntangled f.headers
    · rw [hsheet]
      exact fun entry hentry => ((composeRenamings_keys hrenames hrenames' f.headers).2 entry hentry).2
    · rw [hsheet]
      exact (Frame.rename_composed_iff hmade hmade').mpr
        ((composeRenamings_iff hrenames hrenames' hproper f.headers).mpr huntangled)
  · simp only [Sound, hfirst] at hc
    simp only [Sound, hsecond] at hd
    obtain ⟨name, f, g, hsheet, hdrop, hpost⟩ := hc
    obtain ⟨name', f', k, hsheet', hdrop', hpost'⟩ := hd
    obtain ⟨rfl, rfl⟩ : name' = name ∧ f' = g := by
      have hsame := hsheet'.symm.trans (sheet?_next hdistinct hmatch hsheet (hnext.symm.trans hpost))
      simpa using hsame
    refine ⟨name', f, k, ?_, (dropAll_append hdrop second).trans hdrop', ?_⟩
    · rw [sheet?_spanning_put c d (by decide)]
      exact hsheet
    · change d.post = c.prev.insert name' k
      rw [hpost', ← hnext, hpost, Workbook.insert_insert]

/-- The chunks that steps leave, and those made of neighbours by combinations that fit. -/
inductive Built (files : Files) : Chunk → Prop
  | step {kind : StepKind} {prev : Workbook} {params : Params} {performed : Performed}
      (h : kind.perform files prev params = .ok performed) :
      Built files (ofStep kind prev performed.book params performed.data)
  | combine {c d e : Chunk} (hc : Built files c) (hd : Built files d) (hnext : c.post = d.prev)
      (hfits : c.Fits d) (h : c.combine? d = some e) : Built files e

/-- Built chunks are sound. -/
theorem Built.sound {files : Files} {c : Chunk} (h : Built files c) (hdistinct : c.prev.names.Nodup) :
    c.Sound files := by
  induction h with
  | step h => exact sound_ofStep h
  | @combine c d e _ _ hnext hfits h ihc ihd =>
    rw [(spans_of_combine? h).1] at hdistinct
    have hc := ihc hdistinct
    exact hc.combine (ihd (hnext ▸ hc.nodup_post hdistinct)) hnext hdistinct hfits h

/-! ## When the lines of a chunk are right -/

/-- The chunk reads no file, or no dataframe hides the library from it. -/
def Unhidden (c : Chunk) : Prop := c.content = .fileImport → c.lines = [] ∨ "pd" ∉ c.prev.names

/-- Native steps leave names that can begin a line. -/
theorem Sound.leads_post {files : Files} {c : Chunk} (h : c.Sound files)
    (hnative : c.content ≠ .transformation) (hlead : ∀ name ∈ c.prev.names, Leads name) :
    ∀ name ∈ c.post.names, Leads name := fun name hname =>
  (h.names_post hnative (fun other hother => (hlead other hother).1) name hname).elim (hlead name)
    Plain.leads

/-- The lines of native steps are lines. -/
theorem Sound.oneLine_lines {files : Files} {c : Chunk} (h : c.Sound files)
    (hnative : c.content ≠ .transformation) (hlead : ∀ name ∈ c.prev.names, Leads name) :
    ∀ line ∈ c.lines, Text.OneLine line :=
  oneLine_of_mem_lines (fun name hname => (hlead name (mem_names_of_sheetName? hname)).1.oneLine)
    (fun name hname => (h.leads_post hnative hlead name hname).1.oneLine)
    fun hcontent => absurd hcontent hnative

/-- The lines of an import are right where the library is not hidden from them. -/
theorem faithful_of_unhidden {files : Files} {c : Chunk} (hcontent : c.content = .fileImport)
    (h : c.Sound files) (hdistinct : c.prev.names.Nodup) (hunhidden : c.Unhidden) :
    c.Faithful files := by
  intro scope hscope
  rcases hunhidden hcontent with hlines | hpd
  · rw [scriptLines, hlines, post_eq_of_import_nil hcontent h hlines]
    exact ⟨scope, rfl, hscope⟩
  · have hlookup : scope.lookup "pd" = .ok (.module "pandas") :=
      lookup_eq_module_iff.mpr ⟨hscope.book ▸ hpd, hscope.library⟩
    obtain ⟨after, hafter, hbook, hlookup', htidy⟩ :=
      afterLines_import hcontent h hdistinct hscope.book hlookup
    exact ⟨after, hafter, hbook, htidy hscope.tidy, (lookup_eq_module_iff.mp hlookup').2⟩

/-- Where the library is hidden from an import, its first line fails. -/
theorem unhidden_of_afterLines {files : Files} {c : Chunk} (hcontent : c.content = .fileImport)
    (h : c.Sound files) {scope after : Scope} (hbook : scope.book = c.prev)
    (hafter : scope.afterLines files c.scriptLines = some after) : c.Unhidden := by
  intro _
  by_cases hlines : c.lines = []
  · exact Or.inl hlines
  · refine Or.inr fun hpd => ?_
    have hlookup : ∀ library, scope.lookup "pd" ≠ .ok (.module library) := fun library hlookup =>
      (lookup_eq_module_iff.mp hlookup).1 (hbook ▸ hpd)
    rw [afterLines_import_eq_none hcontent h hlines hlookup] at hafter
    cases hafter

/-- The lines of an import are right exactly if the library is not hidden from them. -/
theorem replays_import_iff {files : Files} {c : Chunk} (hcontent : c.content = .fileImport)
    (h : c.Sound files) (hdistinct : c.prev.names.Nodup) (hlines : ∀ line ∈ c.lines, Text.OneLine line) :
    Replays files c.lines c.prev c.post ↔ c.Unhidden := by
  constructor
  · intro hreplays
    obtain ⟨after, hafter, -⟩ := (replays_iff hlines).mp hreplays
    exact unhidden_of_afterLines hcontent h rfl hafter
  · exact fun hunhidden => (faithful_of_unhidden hcontent h hdistinct hunhidden).replays hlines

/-- Without paths there are no lines. -/
theorem import_lines_eq_nil_iff {files : Files} {c : Chunk} (hcontent : c.content = .fileImport)
    (h : c.Sound files) : c.lines = [] ↔ textsParam c.params "file_names" = [] := by
  obtain ⟨paths, entries, himported, -, htexts, hscript⟩ := scriptLines_import hcontent h
  have hlines : c.lines = [] ↔ c.scriptLines = [] := by rw [scriptLines, List.map_eq_nil_iff]
  rw [hlines, hscript, htexts]
  cases himported.read with
  | nil => simp
  | cons _ _ => simp [Keyed.keys]

/-- The lines that rename columns are right exactly if the mapping makes the wanted dataframe. -/
theorem replays_renaming_iff {files : Files} {c : Chunk} {mapping : Keyed String} {name : String}
    {f k : Frame} (hcontent : c.content = .renaming mapping) (hsheet : c.sheet? = some (name, f))
    (hkeys : mapping.keys.Nodup) (hheaders : f.headers.Nodup) (hdistinct : c.prev.names.Nodup)
    (hlead : ∀ name ∈ c.prev.names, Leads name) (hlines : ∀ line ∈ c.lines, Text.OneLine line) :
    Replays files c.lines c.prev (c.prev.insert name k) ↔ (f.rename mapping).made = .ok k := by
  have hname := hlead name (mem_names_of_sheetName? (sheetName?_of_sheet? hsheet))
  have hafter : (Scope.initial c.prev).afterLines files (c.lines.map scriptLine) =
      (f.rename mapping).made.toOption.map ((Scope.initial c.prev).setFrame name) :=
    afterLines_renaming_eq hdistinct rfl hcontent hsheet hkeys hheaders fun _ => hname
  rw [replays_iff hlines, hafter]
  cases (f.rename mapping).made with
  | error e => simp [Except.toOption]
  | ok g =>
    simp only [Except.toOption, Option.map_some, Option.some.injEq, exists_eq_left', Except.ok.injEq]
    exact ⟨Workbook.insert_injective, fun heq => heq ▸ rfl⟩

/-- The lines of a sound renaming or deletion are right, and the names of dataframes stay. -/
theorem Sound.faithful_of_leads {files : Files} {c : Chunk} (h : c.Sound files)
    (hcontent : (∃ mapping, c.content = .renaming mapping) ∨ ∃ headers, c.content = .deletion headers)
    (hdistinct : c.prev.names.Nodup) (hlead : ∀ name ∈ c.prev.names, Leads name) :
    c.Faithful files := by
  have hname : ∀ name, c.sheetName? = some name → Leads name := fun name hname =>
    hlead name (mem_names_of_sheetName? hname)
  rcases hcontent with ⟨mapping, hcontent⟩ | ⟨headers, hcontent⟩
  · exact fun scope hscope => ⟨_, afterLines_renaming hdistinct hscope.book h hcontent fun _ => hname,
      rfl, hscope.tidy, hscope.library⟩
  · exact fun scope hscope => ⟨_, afterLines_deletion hdistinct hscope.book h hcontent fun _ => hname,
      rfl, hscope.tidy, hscope.library⟩

/-- An import is combined with an import only, to one of the files of both. -/
theorem import_of_combine? {c d e : Chunk} (h : c.combine? d = some e) (hcontent : c.content = .fileImport) :
    e.content = .fileImport ∧ textsParam e.params "file_names" =
      textsParam c.params "file_names" ++ textsParam d.params "file_names" := by
  rcases combine?_cases h with ⟨-, -, rfl⟩ | ⟨_, _, hother, -⟩ | ⟨_, _, hother, -⟩
  · refine ⟨rfl, ?_⟩
    change textsParam (c.params.put "file_names" _) "file_names" = _
    rw [textsParam, Keyed.get?_put, if_pos rfl, Option.bind_some, asTexts?_ofTexts, Option.getD_some]
  · cases hcontent.symm.trans hother
  · cases hcontent.symm.trans hother

/-- Two faithful neighbours one after the other. -/
theorem replays_in_turn {files : Files} {c d : Chunk} (hc : c.Faithful files) (hd : d.Faithful files)
    (hnext : c.post = d.prev) (hlines : ∀ line ∈ c.lines ++ d.lines, Text.OneLine line) :
    Replays files (c.lines ++ d.lines) c.prev d.post := by
  refine Reproduces.replays ?_ hlines
  rw [List.map_append]
  exact Reproduces.append hc (hnext ▸ hd)

/-! ## When a combined chunk is right -/

section Combined

variable {files : Files} {c d e : Chunk} (hc : Built files c) (hd : Built files d)
  (hnext : c.post = d.prev) (hdistinct : c.prev.names.Nodup)
  (hlead : ∀ name ∈ c.prev.names, Leads name)
include hc hd hnext hdistinct hlead

/-- What holds of neighbours that native steps have left. -/
theorem neighbours (hnative : c.content ≠ .transformation) (hnative' : d.content ≠ .transformation) :
    c.Sound files ∧ d.Sound files ∧ d.prev.names.Nodup ∧ (∀ name ∈ d.prev.names, Leads name) ∧
      ∀ line ∈ c.lines ++ d.lines, Text.OneLine line := by
  have hsound := hc.sound hdistinct
  have hdistinct' : d.prev.names.Nodup := hnext ▸ hsound.nodup_post hdistinct
  have hsound' := hd.sound hdistinct'
  have hlead' : ∀ name ∈ d.prev.names, Leads name := hnext ▸ hsound.leads_post hnative hlead
  exact ⟨hsound, hsound', hdistinct', hlead', List.forall_mem_append.mpr
    ⟨hsound.oneLine_lines hnative hlead, hsound'.oneLine_lines hnative' hlead'⟩⟩

variable (h : c.combine? d = some e)
include h

/-- The library is hidden from a combined import exactly if it is hidden from one of the two. -/
theorem unhidden_combined_iff (hfirst : c.content = .fileImport) (hsecond : d.content = .fileImport) :
    e.Unhidden ↔ c.Unhidden ∧ d.Unhidden := by
  obtain ⟨hsound, hsound', -⟩ := neighbours hc hd hnext hdistinct hlead
    (by simp [hfirst]) (by simp [hsecond])
  have hprev := (spans_of_combine? h).1
  have hsounde : e.Sound files := hsound.combine hsound' hnext hdistinct (by simp only [Fits, hfirst]) h
  obtain ⟨hcontent, hpaths⟩ := import_of_combine? h hfirst
  have hnil : e.lines = [] ↔ c.lines = [] ∧ d.lines = [] := by
    rw [import_lines_eq_nil_iff hcontent hsounde, import_lines_eq_nil_iff hfirst hsound,
      import_lines_eq_nil_iff hsecond hsound', hpaths, List.append_eq_nil_iff]
  -- the names that an import gives are none of the library
  have hlibrary : "pd" ∈ d.prev.names ↔ "pd" ∈ c.prev.names := by
    obtain ⟨_, entries, himported, hpost, -, -⟩ := scriptLines_import hfirst hsound
    rw [← hnext, hpost, Workbook.names, Keyed.keys_append, List.mem_append]
    exact or_iff_left fun hmem => (himported.plain _ hmem).ne_library rfl
  simp only [Unhidden, hcontent, hfirst, hsecond, forall_const, hnil, hprev, hlibrary]
  exact and_or_right

/-- The lines of two imports one after the other are right exactly if the library is not hidden, and so are
those of the combined import. -/
theorem combined_import_iff (hfirst : c.content = .fileImport) (hsecond : d.content = .fileImport) :
    (Replays files (c.lines ++ d.lines) c.prev d.post ↔ e.Unhidden) ∧
      (Replays files e.lines c.prev d.post ↔ e.Unhidden) := by
  obtain ⟨hsound, hsound', hdistinct', -, hlines⟩ := neighbours hc hd hnext hdistinct hlead
    (by simp [hfirst]) (by simp [hsecond])
  obtain ⟨hprev, hpost⟩ := spans_of_combine? h
  have hsounde : e.Sound files := hsound.combine hsound' hnext hdistinct (by simp only [Fits, hfirst]) h
  have hcontent := (import_of_combine? h hfirst).1
  constructor
  · rw [unhidden_combined_iff hc hd hnext hdistinct hlead h hfirst hsecond]
    constructor
    · intro hreplays
      obtain ⟨after, hafter, -⟩ := (replays_iff hlines).mp hreplays
      rw [List.map_append, Scope.afterLines_append, Option.bind_eq_some_iff] at hafter
      obtain ⟨between, hbetween, hafter⟩ := hafter
      have hunhidden := unhidden_of_afterLines hfirst hsound rfl hbetween
      -- the lines of the second import start where those of the first lead
      obtain ⟨reached, hreached, hstands⟩ :=
        faithful_of_unhidden hfirst hsound hdistinct hunhidden _ (Scope.standsFor_initial c.prev)
      obtain rfl : reached = between := Option.some.inj (hreached.symm.trans hbetween)
      exact ⟨hunhidden, unhidden_of_afterLines hsecond hsound' (hstands.book.trans hnext) hafter⟩
    · rintro ⟨hunhidden, hunhidden'⟩
      exact replays_in_turn (faithful_of_unhidden hfirst hsound hdistinct hunhidden)
        (faithful_of_unhidden hsecond hsound' hdistinct' hunhidden') hnext hlines
  · rw [← hprev, ← hpost]
    exact replays_import_iff hcontent hsounde (hprev ▸ hdistinct)
      (hsounde.oneLine_lines (by simp [hcontent]) (hprev ▸ hlead))

/-- The lines of two renamings one after the other are right, and those of the combined renaming exactly if
the two fit. -/
theorem combined_renaming_iff {first second : Keyed String} (hfirst : c.content = .renaming first)
    (hsecond : d.content = .renaming second) :
    Replays files (c.lines ++ d.lines) c.prev d.post ∧
      (Replays files e.lines c.prev d.post ↔ c.Fits d) := by
  obtain ⟨hsound, hsound', hdistinct', hlead', hlines⟩ := neighbours hc hd hnext hdistinct hlead
    (by simp [hfirst]) (by simp [hsecond])
  refine ⟨replays_in_turn (hsound.faithful_of_leads (Or.inl ⟨first, hfirst⟩) hdistinct hlead)
    (hsound'.faithful_of_leads (Or.inl ⟨second, hsecond⟩) hdistinct' hlead') hnext hlines, ?_⟩
  rcases combine?_cases h with ⟨hother, -⟩ | ⟨first', second', hf, hs, hmatch, rfl⟩ |
    ⟨_, _, hother, -⟩
  · cases hfirst.symm.trans hother
  · cases hfirst.symm.trans hf
    cases hsecond.symm.trans hs
    obtain ⟨name, f, g, k, hsheet, hrenames, hmade, hrenames', hproper, hmade', hpost⟩ :=
      renamings_in_turn hsound hsound' hnext hdistinct hfirst hsecond hmatch
    have hkeys := (composeRenamings_keys hrenames hrenames' f.headers).1
    have hheaders : (match c.sheet? with
        | some (_, f) => f.headers
        | none => []) = f.headers := by rw [hsheet]
    rw [hheaders]
    have hlinese : ∀ line ∈ (c.spanning d c.params
        (.renaming (composeRenamings f.headers first second))).lines, Text.OneLine line :=
      oneLine_of_mem_lines (fun name hname => (hlead name (mem_names_of_sheetName? hname)).1.oneLine)
        (fun name hname => (hsound'.leads_post (by simp [hsecond]) hlead' name hname).1.oneLine)
        fun hcontent => by cases hcontent
    have hiff : Replays files (c.spanning d c.params
        (.renaming (composeRenamings f.headers first second))).lines c.prev (c.prev.insert name k) ↔
        (f.rename (composeRenamings f.headers first second)).made = .ok k :=
      replays_renaming_iff rfl hsheet hkeys (Frame.nodup_headers_of_rename hmade) hdistinct hlead hlinese
    rw [hpost, hiff, Frame.rename_composed_iff hmade hmade', composeRenamings_iff hrenames hrenames' hproper f.headers]
    simp only [Fits, hfirst, hsecond]
  · cases hfirst.symm.trans hother

/-- The lines of two deletions one after the other are right, and so are those of the combined one. -/
theorem combined_deletion {first second : List String} (hfirst : c.content = .deletion first)
    (hsecond : d.content = .deletion second) :
    Replays files (c.lines ++ d.lines) c.prev d.post ∧ Replays files e.lines c.prev d.post := by
  obtain ⟨hsound, hsound', hdistinct', hlead', hlines⟩ := neighbours hc hd hnext hdistinct hlead
    (by simp [hfirst]) (by simp [hsecond])
  refine ⟨replays_in_turn (hsound.faithful_of_leads (Or.inr ⟨first, hfirst⟩) hdistinct hlead)
    (hsound'.faithful_of_leads (Or.inr ⟨second, hsecond⟩) hdistinct' hlead') hnext hlines, ?_⟩
  obtain ⟨hprev, hpost⟩ := spans_of_combine? h
  have hfits : c.Fits d := by simp only [Fits, hfirst]
  have hsounde : e.Sound files := hsound.combine hsound' hnext hdistinct hfits h
  obtain ⟨headers, hcontent⟩ : ∃ headers, e.content = .deletion headers := by
    rcases combine?_cases h with ⟨hother, -⟩ | ⟨_, _, hother, -⟩ | ⟨_, _, -, -, -, rfl⟩
    · cases hfirst.symm.trans hother
    · cases hfirst.symm.trans hother
    · exact ⟨_, rfl⟩
  have hfaithful := hsounde.faithful_of_leads (Or.inr ⟨headers, hcontent⟩) (hprev ▸ hdistinct)
    (hprev ▸ hlead)
  rw [Faithful, hprev, hpost] at hfaithful
  exact hfaithful.replays (hsounde.oneLine_lines (by simp [hcontent]) (hprev ▸ hlead))

/-- The lines of neighbours that can be combined are right one after the other exactly if the library is
not hidden from them. Those of the combined chunk are right exactly if the two fit as well. -/
theorem combined_iff : (Replays files (c.lines ++ d.lines) c.prev d.post ↔ e.Unhidden) ∧
    (Replays files e.lines c.prev d.post ↔ e.Unhidden ∧ c.Fits d) := by
  rcases combine?_cases h with ⟨hfirst, hsecond, -⟩ | ⟨first, second, hfirst, hsecond, -, heq⟩ |
    ⟨first, second, hfirst, hsecond, -, heq⟩
  · have hfits : c.Fits d := by simp only [Fits, hfirst]
    rw [and_iff_left hfits]
    exact combined_import_iff hc hd hnext hdistinct hlead h hfirst hsecond
  · have hunhidden : e.Unhidden := fun hcontent => by simp [heq, spanning] at hcontent
    rw [and_iff_right hunhidden, iff_true_right hunhidden]
    exact combined_renaming_iff hc hd hnext hdistinct hlead h hfirst hsecond
  · have hunhidden : e.Unhidden := fun hcontent => by simp [heq, spanning] at hcontent
    have hfits : c.Fits d := by simp only [Fits, hfirst]
    rw [iff_true_right hunhidden, iff_true_right (And.intro hunhidden hfits)]
    exact combined_deletion hc hd hnext hdistinct hlead h hfirst hsecond

end Combined

/-- A combined chunk spans its parts. Its lines are right exactly if its parts fit and the library is not
hidden, while the lines of its parts, one after the other, need the latter only. So three chunks can be
combined from either side, with the same effect wherever the parts fit. -/
theorem replays_combine?_iff {files : Files} {c d e : Chunk} (hc : Built files c) (hd : Built files d)
    (hnext : c.post = d.prev) (hdistinct : c.prev.names.Nodup)
    (hlead : ∀ name ∈ c.prev.names, Leads name) (h : c.combine? d = some e) :
    (e.prev = c.prev ∧ e.post = d.post) ∧
      (Replays files (c.lines ++ d.lines) c.prev d.post ↔ e.Unhidden) ∧
      (Replays files e.lines c.prev d.post ↔ e.Unhidden ∧ c.Fits d) ∧
      ∀ {k fromLeft right fromRight : Chunk}, Built files k → d.post = k.prev → c.Fits d → d.Fits k →
        e.combine? k = some fromLeft → d.combine? k = some right → c.combine? right = some fromRight →
        (fromLeft.prev = fromRight.prev ∧ fromLeft.post = fromRight.post) ∧
          (Replays files fromLeft.lines c.prev k.post ↔ fromLeft.Unhidden ∧ e.Fits k) ∧
          (Replays files fromRight.lines c.prev k.post ↔ fromRight.Unhidden ∧ c.Fits right) := by
  obtain ⟨hprev, hpost⟩ := spans_of_combine? h
  obtain ⟨hturn, hcombined⟩ := combined_iff hc hd hnext hdistinct hlead h
  refine ⟨⟨hprev, hpost⟩, hturn, hcombined, ?_⟩
  intro k fromLeft right fromRight hk hnextk hfits hfitsk hleft hright hfromRight
  obtain ⟨hprevl, hpostl⟩ := spans_of_combine? hleft
  obtain ⟨hprevr, hpostr⟩ := spans_of_combine? hright
  obtain ⟨hprevf, hpostf⟩ := spans_of_combine? hfromRight
  have he : Built files e := hc.combine hd hnext hfits h
  have hr : Built files right := hd.combine hk hnextk hfitsk hright
  have hleftIff := (combined_iff he hk (hpost.trans hnextk) (hprev ▸ hdistinct) (hprev ▸ hlead) hleft).2
  have hrightIff := (combined_iff hc hr (hnext.trans hprevr.symm) hdistinct hlead hfromRight).2
  rw [hprev] at hleftIff
  rw [hpostr] at hrightIff
  refine ⟨⟨?_, ?_⟩, hleftIff, hrightIff⟩
  · rw [hprevl, hprev, hprevf]
  · rw [hpostl, hpostf, hpostr]

/-- Two columns that are renamed one after the other. -/
theorem replays_combine?_two_columns :
    let before : Workbook := ⟨[("df", ⟨[("A", [.int 1]), ("B", [.int 2])], 1⟩)]⟩
    let between : Workbook := ⟨[("df", ⟨[("C", [.int 1]), ("B", [.int 2])], 1⟩)]⟩
    let after : Workbook := ⟨[("df", ⟨[("C", [.int 1]), ("A", [.int 2])], 1⟩)]⟩
    let first := ofStep .renameColumn before between
      [("sheet_index", .int 0), ("old_column_header", .str "A"), ("new_column_header", .str "C")] none
    let second := ofStep .renameColumn between after
      [("sheet_index", .int 0), ("old_column_header", .str "B"), ("new_column_header", .str "A")] none
    ∃ combined, first.combine? second = some combined ∧
      Replays default combined.lines before after := by
  intro before between after first second
  have hcombined : first.combine? second = some (first.spanning second first.params
      (.renaming (composeRenamings ["A", "B"] [("A", "C")] [("B", "A")]))) := by rfl
  have hlead : ∀ name ∈ first.prev.names, Leads name := by
    intro name hname
    obtain rfl := List.mem_singleton.mp hname
    exact ⟨by decide, by decide⟩
  have hfits : first.Fits second := fits_ofStep _ _ _ _ _ _
  have hperform : StepKind.renameColumn.perform default before first.params = .ok ⟨between, none⟩ := rfl
  have hperform' : StepKind.renameColumn.perform default between second.params = .ok ⟨after, none⟩ := rfl
  refine ⟨_, hcombined, ?_⟩
  obtain ⟨-, -, hiff, -⟩ := replays_combine?_iff (.step hperform) (.step hperform') rfl (by decide)
    hlead hcombined
  exact hiff.mpr ⟨fun hcontent => (by cases hcontent), hfits⟩

/-- A renaming that changes two names is not always right when it is put to one that leads to both. -/
example : ¬ Untangled [("B", "P"), ("C", "Q")] [("P", "Q"), ("Q", "P")] := by decide

end Chunk

end TableScript
