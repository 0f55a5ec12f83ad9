import TableScript.Proofs.Chunks
import TableScript.Proofs.LineFeeds

/-!
# What the lines of a chunk do

Run where the dataframes are those before a sound chunk, its lines leave those after it. The lemmas below
say so kind by kind, and each says what its lines need: the lines that read files need the library under
its name, and the others a dataframe whose name can begin a line. `Sound.faithful` puts them together for
chunks whose dataframes have plain names. Chunks of scripts are left to
`TableScript.Proofs.Transformations`.
-/

namespace TableScript

open Script Step

/-- Each dataframe has as many columns as a 64-bit machine can count. -/
def Workbook.Countable (book : Workbook) : Prop :=
  ∀ entry ∈ book.frames, entry.2.columns.length < 2 ^ 63

instance (book : Workbook) : Decidable book.Countable :=
  inferInstanceAs (Decidable (∀ entry ∈ book.frames, entry.2.columns.length < 2 ^ 63))

/-- The name can begin a line of a script. -/
def Leads (name : String) : Prop := IsWord name.toList ∧ name ∉ leadingWords

/-- A plain name can begin a line. -/
theorem Plain.leads {name : String} (h : Plain name) : Leads name := by
  have hsub : ∀ n ∈ leadingWords, n ∈ ["import", "del", "not", "True", "False", "None", "pd"] := by
    decide
  exact ⟨h.isWord, fun hmem => h.free (hsub name hmem)⟩

/-- A line that gives a name to an expression. -/
theorem lineStatement?_binding {name : String} (hname : Leads name) {code : List Char} {ts : List Token}
    {e : Expr} (htokens : tokens code = .ok ts) (h : expression ts = .ok (e, [])) :
    lineStatement? (name.toList ++ ' ' :: '=' :: ' ' :: code) =
      .ok (some (.assign (.name name) e)) := by
  have hline : tokens (name.toList ++ ' ' :: '=' :: ' ' :: code) = .ok (.name name :: .assign :: ts) := by
    rw [tokens_binding_append hname.1, htokens]
    rfl
  exact lineStatement?_eq hline (by simp) (statement_assign hname.2 h)

/-! ## From one workbook to another -/

/-- Lines lead from one workbook to another, whatever locals there are besides the library. -/
def Reproduces (files : Files) (lines : List (List Char)) (prev post : Workbook) : Prop :=
  ∀ scope : Scope, scope.StandsFor prev →
    ∃ after, scope.afterLines files lines = some after ∧ after.StandsFor post

/-- Lines that lead to a workbook and lines that lead on from it lead there in turn. -/
theorem Reproduces.append {files : Files} {first second : List (List Char)} {a b c : Workbook}
    (hfirst : Reproduces files first a b) (hsecond : Reproduces files second b c) :
    Reproduces files (first ++ second) a c := by
  intro scope hscope
  obtain ⟨between, hbetween, hstands⟩ := hfirst scope hscope
  obtain ⟨after, hafter, hstands'⟩ := hsecond between hstands
  exact ⟨after, by rw [Scope.afterLines_append, hbetween, Option.bind_some, hafter], hstands'⟩

/-- A run of the lines as a script of their own leads from one workbook to another. -/
def Replays (files : Files) (lines : List String) (prev post : Workbook) : Prop :=
  ∃ outcome, Script.run files prev (scriptOf lines) = .ok outcome ∧ outcome.book = post

/-- Lines of one line each lead to a workbook as a script of their own exactly if they lead to it in turn.
-/
theorem replays_iff {files : Files} {lines : List String} {prev post : Workbook}
    (h : ∀ line ∈ lines, Text.OneLine line) : Replays files lines prev post ↔
      ∃ after, (Scope.initial prev).afterLines files (lines.map scriptLine) = some after ∧
        after.book = post := by
  rw [Replays, run_ok_iff, linesOf_scriptOf_iff.mpr h]

/-- Lines that lead from one workbook to another do so in a run of their own. -/
theorem Reproduces.replays {files : Files} {lines : List String} {prev post : Workbook}
    (h : Reproduces files (lines.map scriptLine) prev post) (hlines : ∀ line ∈ lines, Text.OneLine line) :
    Replays files lines prev post := by
  obtain ⟨after, hafter, hstands⟩ := h (.initial prev) (Scope.standsFor_initial prev)
  exact (replays_iff hlines).mpr ⟨after, hafter, hstands.book⟩

/-- No lines lead to where they begin. -/
theorem reproduces_nil (files : Files) (book : Workbook) : Reproduces files [] book book :=
  fun scope hscope => ⟨scope, rfl, hscope⟩

namespace Chunk

/-! ## Imports -/

/-- The line that reads a file is read as it is. -/
theorem scriptLine_readLine (name path : String) :
    scriptLine (readLine name path) = (readLine name path).toList :=
  scriptLine_append _ (by decide) (by decide)

/-- Dataframes that were read from files, under plain names that were not taken. -/
structure Imported (files : Files) (prev : Workbook) (paths : List String) (entries : Keyed Frame) :
    Prop where
  read : List.Forall₂ (fun path entry => Frame.readCsv files path = .ok entry.2) paths entries
  plain : ∀ name ∈ entries.keys, Plain name
  distinct : entries.keys.Nodup
  fresh : ∀ name ∈ entries.keys, name ∉ prev.names

/-- Reading files puts dataframes at the end. -/
theorem imported_of_importAll {files : Files} {prev post : Workbook} {paths : List String}
    (h : importAll files prev paths = .ok post) :
    ∃ entries, Imported files prev paths entries ∧ post = ⟨prev.frames ++ entries⟩ := by
  induction paths generalizing prev with
  | nil =>
    cases h
    exact ⟨[], ⟨.nil, by simp, List.nodup_nil, by simp⟩, by rw [List.append_nil]⟩
  | cons path rest ih =>
    obtain ⟨f, hread, hrest⟩ := importAll_cons_eq_ok_iff.mp h
    obtain ⟨entries, himported, rfl⟩ := ih hrest
    have hfresh := prev.freshName_not_mem (importName path)
    have hfree : ∀ name ∈ entries.keys, name ∉ prev.names ∧
        name ≠ prev.freshName (importName path) := by
      intro name hname
      have hnot := himported.fresh name hname
      rw [Workbook.names, Keyed.keys_append, List.mem_append, not_or] at hnot
      exact ⟨hnot.1, by simpa using hnot.2⟩
    refine ⟨(prev.freshName (importName path), f) :: entries, ⟨.cons hread himported.read, ?_, ?_, ?_⟩, ?_⟩
    · intro name hname
      rcases List.mem_cons.mp hname with rfl | hmem
      · exact prev.plain_freshName (plain_usableName _)
      · exact himported.plain name hmem
    · exact List.nodup_cons.mpr ⟨fun hmem => (hfree _ hmem).2 rfl, himported.distinct⟩
    · intro name hname
      rcases List.mem_cons.mp hname with rfl | hmem
      · exact hfresh
      · exact (hfree name hmem).1
    · rw [List.append_assoc, List.singleton_append]

/-- The new names are those of the dataframes that were put at the end. -/
theorem newNames_of_append {c : Chunk} {entries : Keyed Frame}
    (hpost : c.post = ⟨c.prev.frames ++ entries⟩) (hfresh : ∀ name ∈ entries.keys, name ∉ c.prev.names) :
    c.newNames = entries.keys := by
  have hold : c.prev.names.filter (fun name => !c.prev.has name) = [] := by
    rw [List.filter_eq_nil_iff]
    intro name hname
    rw [Workbook.has, (Keyed.has_iff _ _).mpr hname]
    exact Bool.false_ne_true
  have hnew : entries.keys.filter (fun name => !c.prev.has name) = entries.keys := by
    rw [List.filter_eq_self]
    intro name hname
    rw [Workbook.has, (Keyed.has_eq_false_iff _ _).mpr (hfresh name hname)]
    rfl
  rw [newNames, namesOnlyIn, hpost, Workbook.names, Keyed.keys_append, List.filter_append]
  exact (congrArg₂ (· ++ ·) hold hnew).trans (List.nil_append _)

/-- A name stands for a library if no dataframe has it and a local of that name is the library. -/
theorem lookup_eq_module_iff {scope : Scope} {name library : String} :
    scope.lookup name = .ok (.module library) ↔
      name ∉ scope.book.names ∧ scope.locals.get? name = some (.module library) := by
  unfold Scope.lookup
  cases hframe : scope.book.frame? name with
  | some f => simp [frame?_mem hframe]
  | none =>
    have hfree : name ∉ scope.book.names := (Keyed.get?_eq_none_iff _ _).mp hframe
    cases hlocal : scope.locals.get? name <;> simp [hfree]

/-- Lines that read files bind their names one after the other, as long as the library is there. -/
theorem afterLines_reads {files : Files} {paths : List String} {entries : Keyed Frame}
    (hread : List.Forall₂ (fun path entry => Frame.readCsv files path = .ok entry.2) paths entries)
    {scope : Scope} (hplain : ∀ name ∈ entries.keys, Plain name) {library : String}
    (hlookup : scope.lookup "pd" = .ok (.module library)) :
    ∃ after, scope.afterLines files
        (List.zipWith (fun path name => (readLine name path).toList) paths entries.keys) = some after ∧
      after.book = scope.book.insertAll entries ∧ after.lookup "pd" = .ok (.module library) ∧
      (scope.Tidy → after.Tidy) := by
  induction hread generalizing scope with
  | nil => exact ⟨scope, rfl, rfl, hlookup, id⟩
  | @cons path entry paths entries hfirst hrest ih =>
    obtain ⟨name, f⟩ := entry
    have hname : Plain name := hplain name (by simp)
    have hne := hname.ne_library
    obtain ⟨hpd, hlocal⟩ := lookup_eq_module_iff.mp hlookup
    have hlookup' : (scope.bind name (.frame f)).lookup "pd" = .ok (.module library) := by
      refine lookup_eq_module_iff.mpr ⟨fun hmem => ?_, (Keyed.get?_erase_of_ne scope.locals hne).trans hlocal⟩
      rcases (Keyed.mem_keys_put _ _ _ _).mp hmem with heq | hmem
      · exact hne heq.symm
      · exact hpd hmem
    obtain ⟨after, hafter, hbook, hlookup'', htidy⟩ := ih (fun n hn => hplain n (by simp [hn])) hlookup'
    refine ⟨after, ?_, hbook, hlookup'', fun h => htidy (Keyed.nodup_keys_erase h name)⟩
    rw [Keyed.keys_cons, List.zipWith_cons_cons, Scope.afterLines_cons,
      afterLine_readLine hname.leads.1 hname.leads.2 hlookup hpd hfirst, Option.bind_some, hafter]

/-- The lines of an import. -/
theorem scriptLines_import {files : Files} {c : Chunk} (hcontent : c.content = .fileImport)
    (h : c.Sound files) : ∃ paths entries, Imported files c.prev paths entries ∧
      c.post = ⟨c.prev.frames ++ entries⟩ ∧ textsParam c.params "file_names" = paths ∧
      c.scriptLines =
        List.zipWith (fun path name => (readLine name path).toList) paths entries.keys := by
  simp only [Sound, hcontent] at h
  obtain ⟨paths, hpaths, himport⟩ := h
  obtain ⟨entries, himported, hpost⟩ := imported_of_importAll himport
  have htexts : textsParam c.params "file_names" = paths := by
    rw [textsParam, hpaths, Option.getD_some]
  refine ⟨paths, entries, himported, hpost, htexts, ?_⟩
  rw [scriptLines, lines, hcontent]
  simp only [importLines, htexts, newNames_of_append hpost himported.fresh, List.map_zipWith,
    scriptLine_readLine]

/-- An import needs the library under its name. -/
theorem afterLines_import {files : Files} {c : Chunk} (hcontent : c.content = .fileImport)
    (h : c.Sound files) (hdistinct : c.prev.names.Nodup) {scope : Scope} (hbook : scope.book = c.prev)
    {library : String} (hlookup : scope.lookup "pd" = .ok (.module library)) :
    ∃ after, scope.afterLines files c.scriptLines = some after ∧ after.book = c.post ∧
      after.lookup "pd" = .ok (.module library) ∧ (scope.Tidy → after.Tidy) := by
  obtain ⟨paths, entries, himported, hpost, -, hlines⟩ := scriptLines_import hcontent h
  have hnodup : (scope.book.names ++ entries.keys).Nodup := by
    rw [hbook]
    refine List.nodup_append.mpr ⟨hdistinct, himported.distinct, fun name hname other hother heq => ?_⟩
    exact himported.fresh other hother (heq ▸ hname)
  rw [hlines, hpost, ← hbook, ← Workbook.insertAll_of_nodup hnodup]
  exact afterLines_reads himported.read himported.plain hlookup

/-- Without the library under its name, an import with lines fails. -/
theorem afterLines_import_eq_none {files : Files} {c : Chunk} (hcontent : c.content = .fileImport)
    (h : c.Sound files) (hlines : c.lines ≠ []) {scope : Scope}
    (hlookup : ∀ library, scope.lookup "pd" ≠ .ok (.module library)) :
    scope.afterLines files c.scriptLines = none := by
  obtain ⟨paths, entries, himported, -, -, hscript⟩ := scriptLines_import hcontent h
  have hne : c.scriptLines ≠ [] := by simpa [scriptLines] using hlines
  rw [hscript] at hne ⊢
  have hplain := himported.plain
  cases himported.read with
  | nil => exact absurd rfl hne
  | @cons path entry paths entries _ _ =>
    have hname : Plain entry.1 := hplain entry.1 (by simp [Keyed.keys])
    rw [Keyed.keys_cons, List.zipWith_cons_cons, Scope.afterLines_cons,
      afterLine_readLine_eq_none hname.leads.1 hname.leads.2 path hlookup, Option.bind_none]

/-- An import without lines changes nothing. -/
theorem post_eq_of_import_nil {files : Files} {c : Chunk} (hcontent : c.content = .fileImport)
    (h : c.Sound files) (hlines : c.lines = []) : c.post = c.prev := by
  obtain ⟨paths, entries, himported, hpost, -, hscript⟩ := scriptLines_import hcontent h
  have hnil : c.scriptLines = [] := by rw [scriptLines, hlines, List.map_nil]
  rw [hscript] at hnil
  cases himported.read with
  | nil => rw [hpost, List.append_nil]
  | cons _ _ => cases hnil

/-! ## Columns -/

/-- The dataframe that a chunk works on is one of those before it. -/
theorem mem_names_of_sheetName? {c : Chunk} {name : String} (h : c.sheetName? = some name) :
    name ∈ c.prev.names := by
  obtain ⟨⟨_, f⟩, hsheet, rfl⟩ := Option.map_eq_some_iff.mp h
  obtain ⟨index, -, -, hframe⟩ := sheet?_eq_some_iff.mp hsheet
  exact Keyed.mem_keys_of_mem (List.mem_of_getElem? hframe)

section Columns

variable {files : Files} {c : Chunk} {scope : Scope} (hdistinct : c.prev.names.Nodup)
  (hbook : scope.book = c.prev) (h : c.Sound files)

/-- The dataframe that a chunk works on, where the dataframes are those before the chunk. -/
theorem frame?_of_sheet? {name : String} {f : Frame} (hdistinct : c.prev.names.Nodup)
    (hbook : scope.book = c.prev) (hsheet : c.sheet? = some (name, f)) :
    scope.book.frame? name = some f := by
  obtain ⟨index, -, -, hframe⟩ := sheet?_eq_some_iff.mp hsheet
  rw [hbook]
  exact Workbook.frame?_of_frameAt? hdistinct hframe

/-- The name of the dataframe that a chunk works on is that of its index. -/
theorem sheetName?_of_sheet? {name : String} {f : Frame} (hsheet : c.sheet? = some (name, f)) :
    c.sheetName? = some name := by
  rw [sheetName?, hsheet, Option.map_some]

/-- A column is inserted at a position that there is. -/
theorem insertPosition_le (f : Frame) (params : Params) : insertPosition f params ≤ f.columns.length := by
  unfold insertPosition
  split
  · split
    · exact Nat.le_refl _
    · exact Nat.min_le_right _ _
  · exact Nat.le_refl _

include hdistinct hbook

/-- The line that renames columns can be carried out exactly if the renaming can. Without anything to
rename there is no line. -/
theorem afterLines_renaming_eq {mapping : Keyed String} (hcontent : c.content = .renaming mapping)
    {name : String} {f : Frame} (hsheet : c.sheet? = some (name, f)) (hkeys : mapping.keys.Nodup)
    (hheaders : f.headers.Nodup) (hname : mapping ≠ [] → Leads name) :
    scope.afterLines files c.scriptLines =
      (f.rename mapping).made.toOption.map (scope.setFrame name) := by
  have hframe := frame?_of_sheet? hdistinct hbook hsheet
  rw [scriptLines, lines, hcontent]
  simp only [renamingLines, sheetName?_of_sheet? hsheet]
  by_cases hempty : mapping = []
  · have hmade : (f.rename []).made = .ok f := by
      refine (Frame.rename_made_iff f f []).mpr ⟨?_, by rw [Frame.renamedColumns_nil]⟩
      rwa [show Frame.renamed [] = id from rfl, List.map_id]
    have hkept : scope.setFrame name f = scope := by
      rw [Scope.setFrame, Workbook.insert_of_frame? hframe]
    rw [hempty, List.isEmpty_nil, if_pos rfl, List.map_nil, Scope.afterLines_nil, hmade,
      Except.toOption, Option.map_some, hkept]
  · obtain ⟨hword, hleads⟩ := hname hempty
    rw [List.isEmpty_eq_false_iff.mpr hempty, if_neg Bool.false_ne_true, List.map_cons, List.map_nil,
      Scope.afterLines_singleton, scriptLine_append _ (by decide) (by decide), afterLine_renameLine hword hleads hempty hkeys hframe]

include h

/-- The line that adds a column. -/
theorem afterLines_newColumn (hcontent : c.content = .newColumn)
    (hname : ∀ name, c.sheetName? = some name → Leads name) (hcount : c.prev.Countable) :
    scope.afterLines files c.scriptLines = some ⟨c.post, scope.locals⟩ := by
  simp only [Sound, hcontent] at h
  obtain ⟨name, f, header, g, hsheet, hheader, hmade, hpost⟩ := h
  obtain ⟨hword, hleads⟩ := hname name (sheetName?_of_sheet? hsheet)
  have hframe := frame?_of_sheet? hdistinct hbook hsheet
  have hbound := insertPosition_le f c.params
  have hposition := Nat.lt_of_le_of_lt hbound
    (hcount (name, f) (Keyed.mem_of_get? (show c.prev.frame? name = some f from hbook ▸ hframe)))
  rw [scriptLines, lines, hcontent]
  simp only [newColumnLines, hsheet, hheader, List.map_cons, List.map_nil]
  rw [Scope.afterLines_singleton, scriptLine_append _ (by decide) (by decide),
    afterLine_insertLine hword hleads hposition hbound hframe hmade, hpost, ← hbook]
  rfl

/-- The line that renames columns by a sound mapping. -/
theorem afterLines_renaming {mapping : Keyed String} (hcontent : c.content = .renaming mapping)
    (hname : mapping ≠ [] → ∀ name, c.sheetName? = some name → Leads name) :
    scope.afterLines files c.scriptLines = some ⟨c.post, scope.locals⟩ := by
  simp only [Sound, hcontent] at h
  obtain ⟨name, f, g, hsheet, hrenames, -, hmade, hpost⟩ := h
  rw [afterLines_renaming_eq hdistinct hbook hcontent hsheet hrenames.keys
    (Frame.nodup_headers_of_rename hmade) (fun hne => hname hne name (sheetName?_of_sheet? hsheet)), hmade,
    Except.toOption, Option.map_some, hpost, ← hbook]
  rfl

/-- The line that deletes columns. Without anything to delete there is no line. -/
theorem afterLines_deletion {headers : List String} (hcontent : c.content = .deletion headers)
    (hname : headers ≠ [] → ∀ name, c.sheetName? = some name → Leads name) :
    scope.afterLines files c.scriptLines = some ⟨c.post, scope.locals⟩ := by
  simp only [Sound, hcontent] at h
  obtain ⟨name, f, g, hsheet, hdrop, hpost⟩ := h
  have hframe := frame?_of_sheet? hdistinct hbook hsheet
  rw [scriptLines, lines, hcontent]
  simp only [deletionLines, sheetName?_of_sheet? hsheet]
  by_cases hempty : headers = []
  · have hsame : g = f := by
      subst hempty
      exact (Except.ok.inj hdrop).symm
    rw [hempty, List.isEmpty_nil, if_pos rfl, List.map_nil, Scope.afterLines_nil, hpost, hsame,
      Workbook.insert_of_frame? (hbook ▸ hframe), ← hbook]
  · obtain ⟨hword, hleads⟩ := hname hempty name (sheetName?_of_sheet? hsheet)
    rw [List.isEmpty_eq_false_iff.mpr hempty, if_neg Bool.false_ne_true, List.map_cons, List.map_nil,
      Scope.afterLines_singleton, scriptLine_append _ (by decide) (by decide),
      afterLine_dropLine hword hleads hframe hdrop, hpost, ← hbook]
    rfl

end Columns

/-! ## Copies -/

/-- The line of a copy, which has a plain name that was not taken. -/
theorem scriptLines_copy {files : Files} {c : Chunk} (h : c.Sound files) (hcontent : c.content = .copy)
    (hword : ∀ name, c.sheetName? = some name → IsWord name.toList) :
    ∃ name copy f, c.sheet? = some (name, f) ∧ Plain copy ∧ c.post = c.prev.insert copy f ∧
      c.scriptLines = [(copy ++ " = " ++ name ++ ".copy(deep=True)").toList] := by
  simp only [Sound, hcontent] at h
  obtain ⟨name, f, hsheet, hpost⟩ := h
  have hname := sheetName?_of_sheet? hsheet
  have hfresh := c.prev.freshName_not_mem (name ++ "_copy")
  have hpost' : c.post = ⟨c.prev.frames ++ [(c.prev.freshName (name ++ "_copy"), f)]⟩ :=
    hpost.trans (congrArg Workbook.mk (Keyed.put_of_not_mem hfresh f))
  have hnew : c.newNames = [c.prev.freshName (name ++ "_copy")] := by
    refine newNames_of_append hpost' fun new hmem => ?_
    obtain rfl := List.mem_singleton.mp hmem
    exact hfresh
  refine ⟨name, _, f, hsheet, c.prev.plain_freshName (plain_copy (hword name hname)), hpost, ?_⟩
  rw [scriptLines, lines, hcontent]
  simp only [copyLines, hname, hnew, List.head?_cons, List.map_cons, List.map_nil]
  rw [scriptLine_append _ (by decide) (by decide)]

/-- The line that copies a dataframe. -/
theorem afterLines_copy {files : Files} {c : Chunk} {scope : Scope} (hdistinct : c.prev.names.Nodup)
    (hbook : scope.book = c.prev) (h : c.Sound files) (hcontent : c.content = .copy)
    (hname : ∀ name, c.sheetName? = some name →
      IsWord name.toList ∧ name ∉ ["not", "True", "False", "None"]) :
    ∃ copy f, Plain copy ∧
      scope.afterLines files c.scriptLines = some (scope.bind copy (.frame f)) ∧
      (scope.bind copy (.frame f)).book = c.post := by
  obtain ⟨name, copy, f, hsheet, hplain, hpost, hlines⟩ :=
    scriptLines_copy h hcontent fun name hsheet => (hname name hsheet).1
  obtain ⟨hword, hfree⟩ := hname name (sheetName?_of_sheet? hsheet)
  refine ⟨copy, f, hplain, ?_, by rw [hpost, ← hbook]; rfl⟩
  rw [hlines, Scope.afterLines_singleton, afterLine_copyLine hplain.leads.1 hplain.leads.2 hword hfree
    (frame?_of_sheet? hdistinct hbook hsheet)]

/-! ## Chunks of native steps -/

/-- Native steps leave the names that there were, and plain ones. -/
theorem Sound.names_post {files : Files} {c : Chunk} (h : c.Sound files)
    (hnative : c.content ≠ .transformation) (hword : ∀ name ∈ c.prev.names, IsWord name.toList) :
    ∀ name ∈ c.post.names, name ∈ c.prev.names ∨ Plain name := by
  have hinsert : ∀ name f, name ∈ c.prev.names ∨ Plain name → c.post = c.prev.insert name f →
      ∀ other ∈ c.post.names, other ∈ c.prev.names ∨ Plain other := by
    intro name f hname hpost other hother
    rw [hpost] at hother
    rcases (Keyed.mem_keys_put _ _ _ _).mp hother with rfl | hmem
    · exact hname
    · exact Or.inl hmem
  have hsheet : ∀ name f, c.sheet? = some (name, f) → name ∈ c.prev.names := fun name f hsheet =>
    mem_names_of_sheetName? (sheetName?_of_sheet? hsheet)
  unfold Sound at h
  split at h
  case h_1 hcontent => exact absurd hcontent hnative
  case h_2 =>
    obtain ⟨paths, -, himport⟩ := h
    obtain ⟨entries, himported, hpost⟩ := imported_of_importAll himport
    intro name hname
    rw [hpost, Workbook.names, Keyed.keys_append] at hname
    exact (List.mem_append.mp hname).imp_right (himported.plain name)
  case h_3 =>
    obtain ⟨name, f, header, g, hfound, -, -, hpost⟩ := h
    exact hinsert name g (Or.inl (hsheet name f hfound)) hpost
  case h_4 =>
    obtain ⟨name, f, g, hfound, -, -, -, hpost⟩ := h
    exact hinsert name g (Or.inl (hsheet name f hfound)) hpost
  case h_5 =>
    obtain ⟨name, f, g, hfound, -, hpost⟩ := h
    exact hinsert name g (Or.inl (hsheet name f hfound)) hpost
  case h_6 =>
    obtain ⟨name, f, hfound, hpost⟩ := h
    exact hinsert _ f (Or.inr (c.prev.plain_freshName (plain_copy (hword _ (hsheet name f hfound))))) hpost

/-- The lines of the chunk lead from the workbook before it to the one after it. -/
def Faithful (files : Files) (c : Chunk) : Prop := Reproduces files c.scriptLines c.prev c.post

/-- The lines of a sound chunk do what the chunk stands for. -/
theorem Sound.faithful {files : Files} {c : Chunk} (h : c.Sound files)
    (hnative : c.content ≠ .transformation) (hprev : c.prev.Tame) (hcount : c.prev.Countable) :
    c.Faithful files := by
  intro scope hscope
  have hsheet : ∀ name, c.sheetName? = some name → Plain name := fun name hname =>
    hprev.plain name (mem_names_of_sheetName? hname)
  have hkept : ∀ after, after = some (⟨c.post, scope.locals⟩ : Scope) →
      ∃ reached, after = some reached ∧ reached.StandsFor c.post := by
    rintro _ rfl
    exact ⟨_, rfl, rfl, hscope.tidy, hscope.library⟩
  match hcontent : c.content with
  | .transformation => exact absurd hcontent hnative
  | .fileImport =>
    have hpd : "pd" ∉ scope.book.names := by
      rw [hscope.book]
      exact fun hmem => (hprev.plain _ hmem).ne_library rfl
    have hlookup : scope.lookup "pd" = .ok (.module "pandas") :=
      lookup_eq_module_iff.mpr ⟨hpd, hscope.library⟩
    obtain ⟨after, hafter, hbook, hlookup', htidy⟩ :=
      afterLines_import hcontent h hprev.distinct hscope.book hlookup
    exact ⟨after, hafter, hbook, htidy hscope.tidy, (lookup_eq_module_iff.mp hlookup').2⟩
  | .newColumn =>
    exact hkept _ (afterLines_newColumn hprev.distinct hscope.book h hcontent
      (fun name hname => (hsheet name hname).leads) hcount)
  | .renaming mapping =>
    exact hkept _ (afterLines_renaming hprev.distinct hscope.book h hcontent
      fun _ name hname => (hsheet name hname).leads)
  | .deletion headers =>
    exact hkept _ (afterLines_deletion hprev.distinct hscope.book h hcontent
      fun _ name hname => (hsheet name hname).leads)
  | .copy =>
    obtain ⟨copy, f, hplain, hafter, hpost⟩ := afterLines_copy hprev.distinct hscope.book h hcontent
      fun name hname => ⟨(hsheet name hname).isWord, (hsheet name hname).not_mem_values⟩
    refine ⟨_, hafter, hpost, Keyed.nodup_keys_erase hscope.tidy copy, ?_⟩
    exact (Keyed.get?_erase_of_ne scope.locals hplain.ne_library).trans hscope.library

end Chunk

end TableScript
