import TableScript.Proofs.Scripts
import TableScript.Proofs.Substitution

/-!
# What a script leaves to later steps

A step that runs a script has a scope of its own, but the code for it shares one with the code for the steps
after it. What the script leaves there can make the lines of a later step fail, and there are two ways to do
so: the name of the library can stand for something else or for nothing, and a dataframe can have a name
that no line can begin with. `Chunk.Undisturbed` says what a later step needs, and `replays_iff_undisturbed`
that nothing else is needed. Whatever is left, it never makes the lines do something else.
-/

namespace TableScript

open Script Step Text

/-! ## Names that no line can begin with -/

namespace Script

variable {files : Files} {scope : Scope}

/-- A line that cannot be read cannot be carried out. -/
theorem afterLine_eq_none {line : List Char} (h : ∀ s?, lineStatement? line ≠ .ok s?) :
    scope.afterLine files line = none := by
  unfold Scope.afterLine
  split
  · rfl
  · exact absurd ‹_› (h _)
  · exact absurd ‹_› (h _)

/-- A line that begins with a method of a dataframe fails if the dataframe has a name that lines take for
themselves. -/
theorem afterLine_method_eq_none {name method : String} (hword : IsWord name.toList)
    (hname : name ∈ ["import", "del", "not"]) (hmethod : IsWord method.toList) (rest : List Char) :
    scope.afterLine files (name.toList ++ '.' :: (method.toList ++ '(' :: rest)) = none := by
  refine afterLine_eq_none (lineStatement?_ne (tokens_method_append hword hmethod rest) (by simp) ?_)
  exact fun more => statement_method_ne hname _

/-- A line that copies a dataframe fails if the dataframe's name is a negation. -/
theorem afterLine_copy_eq_none {copy : String} (hcopy : IsWord copy.toList) (hleads : copy ∉ leadingWords)
    (rest : List Char) : scope.afterLine files
      (copy.toList ++ ' ' :: '=' :: ' ' :: ("not".toList ++ '.' :: ("copy".toList ++ '(' :: rest))) = none := by
  have htokens : tokens (copy.toList ++ ' ' :: '=' :: ' ' ::
      ("not".toList ++ '.' :: ("copy".toList ++ '(' :: rest))) =
      ((tokens rest).map ([.name "copy", .lParen] ++ ·)).map
        ([.name copy, .assign, .name "not", .dot] ++ ·) := by
    rw [tokens_binding_append hcopy, tokens_method_append (by decide) (by decide)]
    cases tokens rest <;> rfl
  exact afterLine_eq_none (lineStatement?_ne htokens (by simp) fun more => statement_binding_ne hleads _)

end Script

namespace Chunk

variable {files : Files} {c : Chunk} {scope : Scope}

/-- The line of a chunk that changes a dataframe begins with a method of it. -/
theorem scriptLines_method (hcontent : c.content = .newColumn ∨ (∃ mapping, c.content = .renaming mapping) ∨
    ∃ headers, c.content = .deletion headers) (hlines : c.lines ≠ []) :
    ∃ name method rest, c.sheetName? = some name ∧ IsWord (String.toList method) ∧
      c.scriptLines = [name.toList ++ '.' :: (method.toList ++ '(' :: rest)] := by
  unfold scriptLines
  -- the three kinds of lines differ in the method and in what they are given
  rcases hcontent with hcontent | ⟨mapping, hcontent⟩ | ⟨headers, hcontent⟩
  · rw [lines, hcontent] at hlines ⊢
    simp only [newColumnLines] at hlines ⊢
    split at hlines
    case h_1 name f header hsheet hheader =>
      refine ⟨name, "insert", (toString (insertPosition f c.params) ++ (", " ++ (stringLiteral header ++ ", 0)"))).toList,
        sheetName?_of_sheet? hsheet, by decide, ?_⟩
      rw [List.map_cons, List.map_nil, scriptLine_append _ (by decide) (by decide)]
      simp only [String.toList_append, List.append_assoc]
      rfl
    case h_2 => exact absurd rfl hlines
  · rw [lines, hcontent] at hlines ⊢
    simp only [renamingLines] at hlines ⊢
    split at hlines
    case h_1 name hname =>
      split at hlines
      case isTrue => exact absurd rfl hlines
      case isFalse hempty =>
        rw [if_neg hempty]
        refine ⟨name, "rename", ("columns=" ++ (literal (.dict (mapping.map fun entry => (entry.1, .str entry.2))) ++
          ", inplace=True)")).toList, hname, by decide, ?_⟩
        rw [List.map_cons, List.map_nil, scriptLine_append _ (by decide) (by decide)]
        simp only [String.toList_append, List.append_assoc]
        rfl
    case h_2 => exact absurd rfl hlines
  · rw [lines, hcontent] at hlines ⊢
    simp only [deletionLines] at hlines ⊢
    split at hlines
    case h_1 name hname =>
      split at hlines
      case isTrue => exact absurd rfl hlines
      case isFalse hempty =>
        rw [if_neg hempty]
        refine ⟨name, "drop", (textListLiteral headers ++ ", axis=1, inplace=True)").toList, hname, by decide, ?_⟩
        rw [List.map_cons, List.map_nil, scriptLine_append _ (by decide) (by decide)]
        simp only [String.toList_append, List.append_assoc]
        rfl
    case h_2 => exact absurd rfl hlines

/-- What the lines of a chunk need of the scope that they are carried out in, besides the dataframes before
the chunk. Lines that read files need the library under its name. Lines that change a dataframe need one
whose name can begin a line, and the line of a copy one whose name is no negation. The lines of a script
have to do with that local only which has the name of the library. -/
def Undisturbed (files : Files) (scope : Scope) (c : Chunk) : Prop :=
  match c.content with
  | .transformation => ∃ after, scope.libraryOnly.afterLines files c.scriptLines = some after
  | .fileImport => c.lines = [] ∨ ∃ library, scope.lookup "pd" = .ok (.module library)
  | .newColumn | .renaming _ | .deletion _ =>
    c.lines = [] ∨ ∀ name, c.sheetName? = some name → name ∉ ["import", "del", "not"]
  | .copy => c.sheetName? ≠ some "not"

/-- A name that can be bound, and is no word of a statement, can begin one. -/
theorem leads_of_bindable {name : String} (h : Bindable name) (hfree : name ∉ ["import", "del", "not"]) :
    Leads name := by
  have hsplit : ∀ n ∈ leadingWords, n ∈ ["import", "del", "not"] ∨ n ∈ ["True", "False", "None"] := by
    decide
  exact ⟨h.1, fun hmem => (hsplit name hmem).elim hfree h.2⟩

section Carried

variable (h : c.Sound files) (hbook : scope.book = c.prev)
include h hbook

/-- The lines of a script that was run can be carried out wherever they can with the local that has the
name of the library, and do there what they did before. -/
theorem afterLines_transformation_iff (hcontent : c.content = .transformation) (htidy : scope.Tidy)
    (hapart : scope.Apart) (hcount : (linesOf c.code).length < 2 ^ 63) :
    ((∃ after, scope.afterLines files c.scriptLines = some after) ↔
      ∃ after, scope.libraryOnly.afterLines files c.scriptLines = some after) ∧
    ∀ after, scope.afterLines files c.scriptLines = some after → after.book = c.post := by
  obtain ⟨reached, hreached, hpost, -⟩ := h.transformation_initial hcontent hcount
  have htwins := Scope.twins_initial htidy hapart
  rw [hbook] at htwins
  refine ⟨⟨?_, ?_⟩, ?_⟩
  · rintro ⟨after, hafter⟩
    obtain ⟨bare, hbare, -⟩ := Scope.afterLines_twins htwins hreached hafter
    exact ⟨bare, hbare⟩
  · rintro ⟨bare, hbare⟩
    obtain ⟨after, hafter, -⟩ := Scope.afterLines_extends hbare scope.extends_libraryOnly htidy
      scope.tidy_libraryOnly
    exact ⟨after, hafter⟩
  · intro after hafter
    obtain ⟨bare, -, htwins'⟩ := Scope.afterLines_twins htwins hreached hafter
    exact htwins'.book.trans hpost

/-- The lines of an import can be carried out exactly if they read nothing or the library is still there,
and then they give its workbook. -/
theorem afterLines_import_iff (hcontent : c.content = .fileImport) (hdistinct : c.prev.names.Nodup) :
    ((∃ after, scope.afterLines files c.scriptLines = some after) ↔
      c.lines = [] ∨ ∃ library, scope.lookup "pd" = .ok (.module library)) ∧
    ∀ after, scope.afterLines files c.scriptLines = some after → after.book = c.post := by
  by_cases hlines : c.lines = []
  · have hnil : c.scriptLines = [] := by rw [scriptLines, hlines, List.map_nil]
    rw [hnil]
    refine ⟨⟨fun _ => Or.inl hlines, fun _ => ⟨scope, rfl⟩⟩, ?_⟩
    rintro _ ⟨⟩
    rw [hbook, post_eq_of_import_nil hcontent h hlines]
  · by_cases hlookup : ∃ library, scope.lookup "pd" = .ok (.module library)
    · obtain ⟨library, hlibrary⟩ := hlookup
      obtain ⟨reached, hreached, hpost, -⟩ := afterLines_import hcontent h hdistinct hbook hlibrary
      refine ⟨⟨fun _ => Or.inr ⟨library, hlibrary⟩, fun _ => ⟨reached, hreached⟩⟩, fun after hafter => ?_⟩
      obtain rfl : reached = after := Option.some.inj (hreached.symm.trans hafter)
      exact hpost
    · have hnone := afterLines_import_eq_none hcontent h hlines (not_exists.mp hlookup)
      rw [hnone]
      refine ⟨⟨?_, fun hor => absurd hor (not_or.mpr ⟨hlines, hlookup⟩)⟩, ?_⟩
      · rintro ⟨_, ⟨⟩⟩
      · rintro _ ⟨⟩

/-- Lines that change a dataframe. -/
theorem afterLines_method_iff (hcontent : c.content = .newColumn ∨
      (∃ mapping, c.content = .renaming mapping) ∨ ∃ headers, c.content = .deletion headers)
    (hdistinct : c.prev.names.Nodup) (hnames : ∀ name ∈ c.prev.names, Bindable name)
    (hcount : c.prev.Countable) :
    ((∃ after, scope.afterLines files c.scriptLines = some after) ↔
      c.lines = [] ∨ ∀ name, c.sheetName? = some name → name ∉ ["import", "del", "not"]) ∧
    ∀ after, scope.afterLines files c.scriptLines = some after → after.book = c.post := by
  -- without lines nothing can fail, and with some the name of the dataframe begins one
  by_cases hfree : c.lines = [] ∨ ∀ name, c.sheetName? = some name → name ∉ ["import", "del", "not"]
  · have hleads : c.lines ≠ [] → ∀ name, c.sheetName? = some name → Leads name := fun hlines name hname =>
      leads_of_bindable (hnames name (mem_names_of_sheetName? hname)) (hfree.resolve_left hlines name hname)
    have hafter : scope.afterLines files c.scriptLines = some ⟨c.post, scope.locals⟩ := by
      rcases hcontent with hcontent | ⟨mapping, hcontent⟩ | ⟨headers, hcontent⟩
      · refine afterLines_newColumn hdistinct hbook h hcontent (hleads ?_) hcount
        simp only [Sound, hcontent] at h
        obtain ⟨name, f, header, g, hsheet, hheader, -, -⟩ := h
        rw [lines, hcontent]
        simp [newColumnLines, hsheet, hheader]
      · refine afterLines_renaming hdistinct hbook h hcontent fun hne name hname => hleads ?_ name hname
        rw [lines, hcontent]
        simp [renamingLines, hname, hne]
      · refine afterLines_deletion hdistinct hbook h hcontent fun hne name hname => hleads ?_ name hname
        rw [lines, hcontent]
        simp [deletionLines, hname, hne]
    rw [hafter]
    refine ⟨⟨fun _ => hfree, fun _ => ⟨_, rfl⟩⟩, ?_⟩
    rintro _ ⟨⟩
    rfl
  · have hnone : scope.afterLines files c.scriptLines = none := by
      rw [not_or, not_forall] at hfree
      obtain ⟨hlines, other, hother⟩ := hfree
      rw [Classical.not_imp, not_not] at hother
      obtain ⟨name, method, rest, hname, hmethod, hscript⟩ := scriptLines_method hcontent hlines
      obtain rfl : other = name := Option.some.inj (hother.1.symm.trans hname)
      have hword := (hnames other (mem_names_of_sheetName? hname)).1
      rw [hscript, Scope.afterLines_singleton, afterLine_method_eq_none hword hother.2 hmethod]
    rw [hnone]
    refine ⟨⟨?_, fun hor => absurd hor hfree⟩, ?_⟩
    · rintro ⟨_, ⟨⟩⟩
    · rintro _ ⟨⟩

/-- The line that copies a dataframe. -/
theorem afterLines_copy_iff (hcontent : c.content = .copy) (hdistinct : c.prev.names.Nodup)
    (hnames : ∀ name ∈ c.prev.names, Bindable name) :
    ((∃ after, scope.afterLines files c.scriptLines = some after) ↔ c.sheetName? ≠ some "not") ∧
    ∀ after, scope.afterLines files c.scriptLines = some after → after.book = c.post := by
  by_cases hnot : c.sheetName? = some "not"
  · have hnone : scope.afterLines files c.scriptLines = none := by
      obtain ⟨name, copy, f, hsheet, hplain, -, hlines⟩ := scriptLines_copy h hcontent fun name hname =>
        (hnames name (mem_names_of_sheetName? hname)).1
      obtain rfl : name = "not" := Option.some.inj ((sheetName?_of_sheet? hsheet).symm.trans hnot)
      have hline : (copy ++ " = " ++ "not" ++ ".copy(deep=True)").toList = copy.toList ++ ' ' :: '=' :: ' ' ::
          ("not".toList ++ '.' :: ("copy".toList ++ '(' :: "deep=True)".toList)) := by
        simp only [String.toList_append, List.append_assoc]
        rfl
      rw [hlines, hline, Scope.afterLines_singleton,
        afterLine_copy_eq_none hplain.leads.1 hplain.leads.2]
    rw [hnone]
    exact ⟨⟨fun ⟨_, hsome⟩ => (by cases hsome), fun hne => absurd hnot hne⟩, fun _ hsome => (by cases hsome)⟩
  · obtain ⟨copy, f, -, hafter, hpost⟩ := afterLines_copy hdistinct hbook h hcontent
      fun name hname => by
        obtain ⟨hword, hfree⟩ := hnames name (mem_names_of_sheetName? hname)
        refine ⟨hword, fun hmem => ?_⟩
        rcases List.mem_cons.mp hmem with rfl | hmem
        · exact hnot hname
        · exact hfree hmem
    rw [hafter]
    refine ⟨⟨fun _ => hnot, fun _ => ⟨_, rfl⟩⟩, ?_⟩
    rintro _ ⟨⟩
    exact hpost

/-- The lines of a chunk can be carried out exactly if nothing disturbs them, and then they do what the
chunk stands for. -/
theorem afterLines_iff_undisturbed (htidy : scope.Tidy) (hapart : scope.Apart)
    (hdistinct : c.prev.names.Nodup) (hnames : ∀ name ∈ c.prev.names, Bindable name)
    (hcolumns : c.prev.Countable) (hcount : (linesOf c.code).length < 2 ^ 63) :
    ((∃ after, scope.afterLines files c.scriptLines = some after) ↔ c.Undisturbed files scope) ∧
    ∀ after, scope.afterLines files c.scriptLines = some after → after.book = c.post := by
  unfold Undisturbed
  match hcontent : c.content with
  | .transformation => exact afterLines_transformation_iff h hbook hcontent htidy hapart hcount
  | .fileImport => exact afterLines_import_iff h hbook hcontent hdistinct
  | .newColumn => exact afterLines_method_iff h hbook (Or.inl hcontent) hdistinct hnames hcolumns
  | .renaming mapping =>
    exact afterLines_method_iff h hbook (Or.inr (Or.inl ⟨mapping, hcontent⟩)) hdistinct hnames hcolumns
  | .deletion headers =>
    exact afterLines_method_iff h hbook (Or.inr (Or.inr ⟨headers, hcontent⟩)) hdistinct hnames hcolumns
  | .copy => exact afterLines_copy_iff h hbook hcontent hdistinct hnames

end Carried

end Chunk

/-! ## A script and the step after it -/

section Steps

variable {files : Files} {start : Workbook} {first second : StepRecord}

/-- The lines of a script and of the step after it, in one run, leave what the step left exactly if the
script left nothing that disturbs the lines of the step; and never do they leave anything else. -/
theorem replays_iff_undisturbed (hdistinct : start.names.Nodup)
    (hnames : ∀ name ∈ start.names, usableName name = name) (hfirst : first.Performs files start)
    (hkind : first.kind = .aiTransformation) (hsecond : second.Performs files first.post)
    (hcolumns : first.post.Countable) (hlines : (linesOf first.chunk.code).length < 2 ^ 63)
    (hlines' : (linesOf second.chunk.code).length < 2 ^ 63) :
    ∃ scope, (Scope.initial start).afterLines files first.chunk.scriptLines = some scope ∧
      scope.book = first.post ∧
      (Replays files (first.chunk.lines ++ second.chunk.lines) start second.post ↔
        second.chunk.Undisturbed files scope) ∧
      ∀ outcome, Script.run files start (scriptOf (first.chunk.lines ++ second.chunk.lines)) = .ok outcome →
        outcome.book = second.post := by
  have hcontent : first.chunk.content = .transformation := by
    simp [StepRecord.chunk, Chunk.ofStep, Chunk.contentOf, hkind]
  have hbindable : ∀ name ∈ first.chunk.prev.names, Bindable name := by
    rw [hfirst.chunk_prev]
    exact fun name hname => (plain_of_usableName (hnames name hname)).bindable
  have hbindable' : ∀ name ∈ second.chunk.prev.names, Bindable name := by
    rw [hsecond.chunk_prev]
    exact hfirst.sound.bindable_post hbindable
  have hdistinct' : second.chunk.prev.names.Nodup := by
    rw [hsecond.chunk_prev]
    exact hfirst.sound.nodup_post (by rwa [hfirst.chunk_prev])
  -- the scope that the script leaves
  obtain ⟨scope, hscope, hbook, -⟩ := hfirst.sound.transformation_initial hcontent hlines
  rw [hfirst.chunk_prev] at hscope
  have htidy : scope.Tidy := by
    obtain ⟨after, hafter, -, htidy, -⟩ := Scope.afterLines_extends hscope ⟨rfl, Covers.refl _⟩
      (Scope.tidy_initial start) (Scope.tidy_initial start)
    obtain rfl : after = scope := Option.some.inj (hafter.symm.trans hscope)
    exact htidy
  obtain ⟨hiff, hpost⟩ := Chunk.afterLines_iff_undisturbed hsecond.sound
    (hbook.trans hsecond.chunk_prev.symm) htidy ((Scope.apart_initial start).afterLines hscope) hdistinct'
    hbindable' (hsecond.chunk_prev ▸ hcolumns) hlines'
  -- the lines of both are single lines, so a run has them one after the other
  have hsingle : ∀ line ∈ first.chunk.lines ++ second.chunk.lines, OneLine line :=
    List.forall_mem_append.mpr
      ⟨hfirst.sound.oneLine_of_mem hbindable, hsecond.sound.oneLine_of_mem hbindable'⟩
  have hsplit : ∀ after, (Scope.initial start).afterLines files
      ((first.chunk.lines ++ second.chunk.lines).map scriptLine) = some after ↔
        scope.afterLines files second.chunk.scriptLines = some after := by
    intro after
    rw [List.map_append, Scope.afterLines_append, show first.chunk.lines.map scriptLine =
      first.chunk.scriptLines from rfl, hscope, Option.bind_some]
    rfl
  refine ⟨scope, hscope, hbook, ?_, ?_⟩
  · rw [replays_iff hsingle, ← hiff]
    simp only [hsplit]
    exact ⟨fun ⟨after, hafter, _⟩ => ⟨after, hafter⟩, fun ⟨after, hafter⟩ => ⟨after, hafter, hpost after hafter⟩⟩
  · intro outcome hrun
    obtain ⟨after, hafter, hresult⟩ := run_ok_iff.mp ⟨outcome, hrun, rfl⟩
    rw [linesOf_scriptOf_iff.mpr hsingle, hsplit] at hafter
    rw [← hresult]
    exact hpost after hafter

/-- A script that gives the name of the library to a number disturbs one after it that needs the library. -/
theorem not_replays_after_hidden_library :
    let start : Workbook := ⟨[("df", ⟨[("A", [.int 1])], 1⟩)]⟩
    ∃ first second,
      runStep default .aiTransformation "step-0" start [("edited_completion", .str "pd = 1")] = .ok first ∧
      runStep default .aiTransformation "step-1" first.post
        [("edited_completion", .str "x = pd.DataFrame()")] = .ok second ∧
      ¬ Replays default (first.chunk.lines ++ second.chunk.lines) start second.post := by
  intro start
  have hrun : ∃ first ∈ (runStep default .aiTransformation "step-0" start
        [("edited_completion", .str "pd = 1")]).toOption,
      ∃ second ∈ (runStep default .aiTransformation "step-1" first.post
        [("edited_completion", .str "x = pd.DataFrame()")]).toOption,
      (first.kind = .aiTransformation ∧ second.kind = .aiTransformation) ∧ first.post.Countable ∧
        (linesOf first.chunk.code).length < 2 ^ 63 ∧ (linesOf second.chunk.code).length < 2 ^ 63 ∧
        ∀ scope ∈ (Scope.initial start).afterLines default first.chunk.scriptLines,
          (scope.libraryOnly.afterLines default second.chunk.scriptLines).isNone = true := by
    decide +kernel
  obtain ⟨first, hfirst, second, hsecond, ⟨hkind, hkind'⟩, hcolumns, hlines, hlines', hnone⟩ := hrun
  replace hfirst := except_eq_ok_of_mem hfirst
  replace hsecond := except_eq_ok_of_mem hsecond
  refine ⟨first, second, hfirst, hsecond, fun hreplays => ?_⟩
  obtain ⟨scope, hscope, -, hiff, -⟩ := replays_iff_undisturbed (by decide +kernel) (by decide +kernel)
    (performs_of_runStep hfirst) hkind (performs_of_runStep hsecond) hcolumns hlines hlines'
  have hundisturbed := hiff.mp hreplays
  rw [Chunk.Undisturbed, show second.chunk.content = .transformation by
    simp [StepRecord.chunk, Chunk.ofStep, Chunk.contentOf, hkind']] at hundisturbed
  obtain ⟨after, hafter⟩ := hundisturbed
  exact absurd (hnone scope hscope) (by simp [hafter])

end Steps

end TableScript
