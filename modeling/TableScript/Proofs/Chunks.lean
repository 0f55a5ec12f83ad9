import TableScript.Proofs.Naming
import TableScript.Proofs.Renaming
import TableScript.Proofs.Effects

/-!
# What chunks stand for

`Chunk.Sound` says what a chunk stands for: the operation on the workbook that its content describes, for
one step or for several. The chunk of a step that was carried out is sound (`sound_ofStep`), and the names
of dataframes stay distinct over it (`Sound.nodup_post`). What the lines of a sound chunk do is said in
`TableScript.Proofs.Transitions`, and what becomes of sound chunks that are combined in
`TableScript.Proofs.Combining`.
-/

namespace TableScript

open Script Step

/-! ## Workbooks and scopes between chunks -/

/-- The names of the dataframes are distinct, and all of them are plain. -/
structure Workbook.Tame (book : Workbook) : Prop where
  distinct : book.names.Nodup
  plain : ∀ name ∈ book.names, Plain name

/-- The scope has the dataframes of the workbook, each local is bound once, and the library is there. -/
structure Script.Scope.StandsFor (scope : Scope) (book : Workbook) : Prop where
  book : scope.book = book
  tidy : scope.Tidy
  library : scope.HasLibrary

/-- The scope that a script begins in stands for the workbook. -/
theorem Script.Scope.standsFor_initial (book : Workbook) : (Scope.initial book).StandsFor book :=
  ⟨rfl, Scope.tidy_initial book, Scope.hasLibrary_initial book⟩

namespace Workbook

/-- A dataframe found by its index is found by its name. -/
theorem frame?_of_frameAt? {book : Workbook} (distinct : book.names.Nodup) {index : Nat} {name : String}
    {f : Frame} (h : book.frameAt? index = some (name, f)) : book.frame? name = some f :=
  Keyed.get?_of_mem distinct (List.mem_of_getElem? h)

/-- A dataframe that is put in its place keeps its index. -/
theorem frameAt?_insert {book : Workbook} (distinct : book.names.Nodup) {index : Nat} {name : String}
    {f : Frame} (h : book.frameAt? index = some (name, f)) (g : Frame) :
    (book.insert name g).frameAt? index = some (name, g) := by
  obtain ⟨frames⟩ := book
  change frames[index]? = some (name, f) at h
  change (frames.put name g)[index]? = some (name, g)
  induction frames generalizing index with
  | nil => cases h
  | cons entry rest ih =>
    obtain ⟨other, old⟩ := entry
    change (other :: Keyed.keys rest).Nodup at distinct
    rw [List.nodup_cons] at distinct
    cases index with
    | zero =>
      obtain ⟨rfl, rfl⟩ : other = name ∧ old = f := by simpa using h
      simp [Keyed.put]
    | succ index =>
      rw [List.getElem?_cons_succ] at h
      have hne : other ≠ name := by
        rintro rfl
        exact distinct.1 (Keyed.mem_keys_of_mem (List.mem_of_getElem? h))
      rw [Keyed.put, if_neg hne, List.getElem?_cons_succ]
      exact ih distinct.2 h

/-- Of two dataframes put under one name the second one stays. -/
theorem insert_insert (book : Workbook) (name : String) (f g : Frame) :
    (book.insert name f).insert name g = book.insert name g :=
  congrArg Workbook.mk (Keyed.put_put book.frames name f g)

/-- Putting a dataframe where it is already changes nothing. -/
theorem insert_of_frame? {book : Workbook} {name : String} {f : Frame} (h : book.frame? name = some f) :
    book.insert name f = book := congrArg Workbook.mk (Keyed.put_of_get? h)

/-- Put dataframes in, one after the other. -/
def insertAll (book : Workbook) (entries : Keyed Frame) : Workbook :=
  ⟨entries.foldl (fun kept entry => kept.put entry.1 entry.2) book.frames⟩

/-- Dataframes are put in one after the other. -/
theorem insertAll_cons (book : Workbook) (entry : String × Frame) (rest : Keyed Frame) :
    book.insertAll (entry :: rest) = (book.insert entry.1 entry.2).insertAll rest := rfl

/-- Dataframes under new names go to the end. -/
theorem insertAll_of_nodup {book : Workbook} {entries : Keyed Frame}
    (distinct : (book.names ++ entries.keys).Nodup) : book.insertAll entries = ⟨book.frames ++ entries⟩ :=
  congrArg Workbook.mk (Keyed.foldl_put_of_nodup entries book.frames (by rwa [Keyed.keys_append]))

/-- Dataframes that are there stay where they are. -/
theorem insertAll_of_frame? {book : Workbook} {entries : Keyed Frame}
    (h : ∀ entry ∈ entries, book.frame? entry.1 = some entry.2) : book.insertAll entries = book := by
  induction entries with
  | nil => rfl
  | cons entry rest ih =>
    rw [insertAll_cons, insert_of_frame? (h entry (by simp)), ih fun other hother => h other (by simp [hother])]

/-- What is put under a name can be told from the workbook. -/
theorem insert_injective {book : Workbook} {name : String} {f g : Frame}
    (h : book.insert name f = book.insert name g) : f = g :=
  Keyed.put_injective (congrArg Workbook.frames h)

end Workbook

namespace Chunk

/-- The lines of the chunk as a run has them. -/
def scriptLines (c : Chunk) : List (List Char) := c.lines.map scriptLine

/-! ## What a chunk stands for -/

/-- What leads from the workbook before the chunk to the one after it, by its content. -/
def Sound (files : Files) (c : Chunk) : Prop :=
  match c.content with
  | .transformation => transform files c.prev c.params = .ok ⟨c.post, c.data⟩
  | .fileImport => ∃ paths, (c.params.get? "file_names").bind Value.asTexts? = some paths ∧
      importAll files c.prev paths = .ok c.post
  | .newColumn => ∃ name f header g, c.sheet? = some (name, f) ∧
      c.textParam? "column_header" = some header ∧
      (f.insert (insertPosition f c.params) header (List.replicate f.rows (.int 0))).made = .ok g ∧
      c.post = c.prev.insert name g
  | .renaming mapping => ∃ name f g, c.sheet? = some (name, f) ∧ Renames f.headers mapping ∧
      (∀ entry ∈ mapping, entry.1 ≠ entry.2) ∧ (f.rename mapping).made = .ok g ∧
      c.post = c.prev.insert name g
  | .deletion headers => ∃ name f g, c.sheet? = some (name, f) ∧ dropAll f headers = .ok g ∧
      c.post = c.prev.insert name g
  | .copy => ∃ name f, c.sheet? = some (name, f) ∧
      c.post = c.prev.insert (c.prev.freshName (name ++ "_copy")) f

/-! ## Steps -/

/-- A parameter that could be read is there, and of that form. -/
theorem ok_of_requireAs {α : Type} {view : Value → Option α} {expected : String} {params : Params}
    {key : String} {a : α} (h : requireAs view expected params key = .ok a) :
    (params.get? key).bind view = some a := by
  unfold requireAs requireParam at h
  cases hget : params.get? key with
  | none => simp [hget] at h
  | some v =>
    cases hview : view v with
    | none => simp [hget, hview] at h
    | some b =>
      simp only [hget, hview, Except.ok.injEq] at h
      rw [Option.bind_some, hview, h]

/-- The dataframe that a chunk works on is the one at the index in its parameters. -/
theorem sheet?_eq_some_iff {c : Chunk} {entry : String × Frame} : c.sheet? = some entry ↔
    ∃ index, c.params.get? "sheet_index" = some (.int index) ∧ 0 ≤ index.toInt ∧
      c.prev.frameAt? index.toInt.toNat = some entry := by
  have hparam : ∀ index, c.intParam? "sheet_index" = some index ↔
      c.params.get? "sheet_index" = some (.int index) := by
    intro index
    unfold intParam?
    cases c.params.get? "sheet_index" with
    | none => simp
    | some v => cases v <;> simp [Value.asInt?]
  simp only [← hparam]
  unfold sheet?
  cases c.intParam? "sheet_index" with
  | none => simp
  | some index =>
    by_cases hnegative : index.toInt < 0
    · simp [hnegative]
    · simp [hnegative, Int.not_lt.mp hnegative]

/-- The dataframe that a step works on is the one that its chunk works on. -/
theorem sheet?_of_requireSheet {kind : StepKind} {prev post : Workbook} {params : Params}
    {data : Option Params} {sheet : Sheet} (h : requireSheet prev params = .ok sheet) :
    (ofStep kind prev post params data).sheet? = some (sheet.name, sheet.frame) := by
  obtain ⟨index, hindex, h⟩ := except_bind_eq_ok.mp h
  have hparam : params.get? "sheet_index" = some (.int index) := by
    obtain ⟨v, hv, hint⟩ := Option.bind_eq_some_iff.mp (ok_of_requireAs hindex)
    cases v with
    | int n => rw [hv, Option.some.inj hint]
    | _ => cases hint
  unfold sheetAt at h
  split at h
  case isTrue => cases h
  case isFalse hnegative =>
    split at h
    case h_1 name f hframe =>
      cases h
      exact sheet?_eq_some_iff.mpr ⟨index, hparam, Int.not_lt.mp hnegative, hframe⟩
    case h_2 => cases h

/-- A frame operation whose result a step goes on with has succeeded. -/
theorem ok_of_ofFrame {α : Type} {x : Except FrameError α} {a : α} (h : Step.ofFrame x = .ok a) :
    x = .ok a := by
  cases x with
  | error e => cases h
  | ok b => cases h; rfl

/-- Columns that a step removes are columns that a script can drop. -/
theorem dropAll_of_dropColumns {f g : Frame} {headers : List String}
    (h : Step.dropColumns f headers = .ok g) : dropAll f headers = .ok g := by
  induction headers generalizing f with
  | nil => cases h; rfl
  | cons header rest ih =>
    unfold Step.dropColumns at h
    split at h
    case isFalse => cases h
    case isTrue =>
      split at h
      case h_1 next hnext =>
        unfold dropAll
        rw [hnext]
        exact ih h
      case h_2 => cases h

/-- A renaming of one column as the mapping of its chunk. -/
theorem renames_single {f g : Frame} {old new : String} (hold : f.hasColumn old = true)
    (h : (f.rename [(old, new)]).made = .ok g) :
    Renames f.headers (if old = new then [] else [(old, new)]) ∧
      (f.rename (if old = new then [] else [(old, new)])).made = .ok g := by
  obtain ⟨hnodup, rfl⟩ := (Frame.rename_made_iff f g _).mp h
  split
  case isTrue hsame =>
    subst hsame
    have hrenamed : Frame.renamed [(old, old)] = Frame.renamed [] := by
      funext header
      by_cases heq : old = header <;> simp [Frame.renamed, Keyed.get?, heq]
    rw [hrenamed] at hnodup
    refine ⟨⟨List.nodup_nil, by simp, hnodup⟩, (Frame.rename_made_iff _ _ _).mpr ⟨hnodup, ?_⟩⟩
    rw [Frame.renamedColumns, Frame.renamedColumns, hrenamed]
  case isFalse =>
    refine ⟨⟨by simp, fun header hheader => ?_, hnodup⟩, h⟩
    obtain rfl : header = old := by simpa using hheader
    exact (Keyed.has_iff _ _).mp hold

/-- The chunk of a step that was carried out is sound. -/
theorem sound_ofStep {files : Files} {kind : StepKind} {prev : Workbook} {params : Params}
    {performed : Performed} (h : kind.perform files prev params = .ok performed) :
    (ofStep kind prev performed.book params performed.data).Sound files := by
  cases kind with
  | aiTransformation => exact h
  | simpleImport =>
    obtain ⟨paths, hpaths, h⟩ := except_bind_eq_ok.mp h
    obtain ⟨post, hpost, h⟩ := except_bind_eq_ok.mp h
    cases h
    exact ⟨paths, ok_of_requireAs hpaths, hpost⟩
  | addColumn =>
    obtain ⟨sheet, hsheet, h⟩ := except_bind_eq_ok.mp h
    obtain ⟨header, hheader, h⟩ := except_bind_eq_ok.mp h
    obtain ⟨g, hg, h⟩ := except_bind_eq_ok.mp h
    cases h
    exact ⟨sheet.name, sheet.frame, header, g, sheet?_of_requireSheet hsheet, ok_of_requireAs hheader,
      ok_of_ofFrame hg, rfl⟩
  | renameColumn =>
    obtain ⟨sheet, hsheet, h⟩ := except_bind_eq_ok.mp h
    obtain ⟨old, hold, h⟩ := except_bind_eq_ok.mp h
    obtain ⟨new, hnew, h⟩ := except_bind_eq_ok.mp h
    -- the step refuses a header that is not there, so only the other case is left
    by_cases hcolumn : sheet.frame.hasColumn old = true
    · simp only [hcolumn, Bool.not_true, Bool.false_eq_true, if_false] at h
      obtain ⟨g, hg, h⟩ := except_bind_eq_ok.mp h
      cases h
      have hmapping : renamingOf params = if old = new then [] else [(old, new)] := by
        have hold' : (params.get? "old_column_header").bind Value.asText? = some old :=
          ok_of_requireAs hold
        have hnew' : (params.get? "new_column_header").bind Value.asText? = some new :=
          ok_of_requireAs hnew
        rw [renamingOf, hold', hnew']
      obtain ⟨hrenames, hmade⟩ := renames_single hcolumn (ok_of_ofFrame hg)
      rw [← hmapping] at hrenames hmade
      refine ⟨sheet.name, sheet.frame, g, sheet?_of_requireSheet hsheet, hrenames, fun entry hentry => ?_,
        hmade, rfl⟩
      rw [hmapping] at hentry
      split at hentry
      · cases hentry
      · rw [List.mem_singleton.mp hentry]
        assumption
    · simp only [hcolumn, Bool.not_false, if_true] at h
      cases h
  | deleteColumn =>
    obtain ⟨sheet, hsheet, h⟩ := except_bind_eq_ok.mp h
    obtain ⟨headers, hheaders, h⟩ := except_bind_eq_ok.mp h
    obtain ⟨g, hg, h⟩ := except_bind_eq_ok.mp h
    cases h
    have hparam : textsParam params "column_headers" = headers := by
      have hheaders' : (params.get? "column_headers").bind Value.asTexts? = some headers :=
        ok_of_requireAs hheaders
      rw [textsParam, hheaders', Option.getD_some]
    refine ⟨sheet.name, sheet.frame, g, sheet?_of_requireSheet hsheet, ?_, rfl⟩
    rw [hparam]
    exact dropAll_of_dropColumns hg
  | dataframeDuplicate =>
    obtain ⟨sheet, hsheet, h⟩ := except_bind_eq_ok.mp h
    cases h
    exact ⟨sheet.name, sheet.frame, sheet?_of_requireSheet hsheet, rfl⟩

/-! ## Names after a chunk -/

/-- What a script that was run leaves. -/
theorem transform_cases {files : Files} {prev : Workbook} {params : Params} {performed : Performed}
    (h : transform files prev params = .ok performed) :
    ∃ code outcome, (params.get? "edited_completion").bind Value.asText? = some code ∧
      Script.run files prev code = .ok outcome ∧
      ((∃ f line, capturedFrame? outcome = some (f, line) ∧
        performed.book = outcome.book.insert (capturedName outcome.book) f ∧
        performed.data = some (scriptFacts prev performed.book outcome
          (some (capturedName outcome.book, line)))) ∨
      (capturedFrame? outcome = none ∧ performed.book = outcome.book ∧
        performed.data = some (scriptFacts prev outcome.book outcome none))) := by
  obtain ⟨code, hcode, h⟩ := except_bind_eq_ok.mp h
  refine ⟨code, ?_⟩
  split at h
  case h_1 => cases h
  case h_2 outcome hrun =>
    refine ⟨outcome, ok_of_requireAs hcode, hrun, ?_⟩
    split at h
    case h_1 f line hcaptured =>
      cases h
      exact Or.inl ⟨f, line, hcaptured, rfl, rfl⟩
    case h_2 hcaptured =>
      cases h
      exact Or.inr ⟨hcaptured, rfl, rfl⟩

/-- The names stay distinct over a run. -/
theorem nodup_of_run {files : Files} {book : Workbook} {code : String} {outcome : Outcome}
    (h : Script.run files book code = .ok outcome) (hdistinct : book.names.Nodup) :
    outcome.book.names.Nodup := by
  obtain ⟨after, hafter, hbook⟩ := run_ok_iff.mp ⟨outcome, h, rfl⟩
  rw [← hbook]
  exact (Scope.afterLines_names hafter).2.1 hdistinct

/-- The first of the files is put at the end, under a fresh name, and the others are read after it. -/
theorem importAll_cons_eq_ok_iff {files : Files} {prev post : Workbook} {path : String}
    {rest : List String} : importAll files prev (path :: rest) = .ok post ↔
      ∃ f, Frame.readCsv files path = .ok f ∧
        importAll files ⟨prev.frames ++ [(prev.freshName (importName path), f)]⟩ rest = .ok post := by
  rw [importAll]
  cases hread : Frame.readCsv files path with
  | error e => simp
  | ok f => simp [Workbook.insert_freshName]

/-- Imports keep names distinct. -/
theorem nodup_of_importAll {files : Files} {prev post : Workbook} {paths : List String}
    (h : importAll files prev paths = .ok post) (hdistinct : prev.names.Nodup) : post.names.Nodup := by
  induction paths generalizing prev with
  | nil =>
    cases h
    exact hdistinct
  | cons path rest ih =>
    obtain ⟨f, -, hrest⟩ := importAll_cons_eq_ok_iff.mp h
    refine ih hrest ?_
    rw [Workbook.names, Keyed.keys_append, Keyed.keys_cons, Keyed.keys_nil, ← List.concat_eq_append]
    exact hdistinct.concat (prev.freshName_not_mem _)

/-- The names stay distinct over a chunk. -/
theorem Sound.nodup_post {files : Files} {c : Chunk} (h : c.Sound files)
    (hdistinct : c.prev.names.Nodup) : c.post.names.Nodup := by
  unfold Sound at h
  split at h
  case h_1 =>
    obtain ⟨code, outcome, -, hrun, ⟨f, line, -, hpost, -⟩ | ⟨-, hpost, -⟩⟩ := transform_cases h
    · rw [show c.post = _ from hpost]
      exact Keyed.nodup_keys_put (nodup_of_run hrun hdistinct) _ f
    · rw [show c.post = _ from hpost]
      exact nodup_of_run hrun hdistinct
  case h_2 =>
    obtain ⟨paths, -, himport⟩ := h
    exact nodup_of_importAll himport hdistinct
  case h_3 =>
    obtain ⟨name, f, header, g, -, -, -, hpost⟩ := h
    rw [hpost]
    exact Keyed.nodup_keys_put hdistinct name g
  case h_4 =>
    obtain ⟨name, f, g, -, -, -, -, hpost⟩ := h
    rw [hpost]
    exact Keyed.nodup_keys_put hdistinct name g
  case h_5 =>
    obtain ⟨name, f, g, -, -, hpost⟩ := h
    rw [hpost]
    exact Keyed.nodup_keys_put hdistinct name g
  case h_6 =>
    obtain ⟨name, f, -, hpost⟩ := h
    rw [hpost]
    exact Keyed.nodup_keys_put hdistinct _ f

end Chunk

end TableScript
