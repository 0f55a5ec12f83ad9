import TableScript.Proofs.Scripts
import TableScript.Proofs.Indexes

/-!
# Dataframes that a script ends with

A step that runs a script gives a name to the dataframe that the script ends with, unless the script has
one for it. Two things are said about such steps.

`Step.transform_agrees`: the step leaves what the script left, with one more dataframe at the end exactly
if the last statement is an expression that is no name and has a dataframe as its value (`EndsUnnamed`).
The lines that are generated for the step, with line feeds between them, run on the same workbook and leave
the same. Trimming takes the end off the script, so that its last line is read as a line although no line
feed follows it (`Text.linesOf_intercalate`).

`Pipeline.captured_of_apply`: the new name is free in the workbook that the script left, but what counts
as new is judged by the workbook before the script. The record reports the dataframe as new exactly if its
name was free there too. That is so for every script that leaves the name alone, because a name stays
until a statement binds or removes it (`Scope.afterLines_keeps_name`).
-/

namespace TableScript

open Script Step

/-! ## Names that stay -/

namespace Script

variable {files : Files} {scope after : Scope} {name : String}

/-- Binding another name takes no dataframe away. -/
theorem Scope.mem_names_bind {other : String} (hne : name ≠ other) (v : Operand)
    (h : name ∈ scope.book.names) : name ∈ (scope.bind other v).book.names := by
  cases v with
  | frame f => exact (Keyed.mem_keys_put scope.book.frames other name f).mpr (Or.inr h)
  | scalar _ | series _ | module _ => exact Keyed.mem_keys_erase_of_ne hne h

/-- Removing another name takes no dataframe away. -/
theorem Scope.mem_names_unbind {other : String} (hne : name ≠ other)
    (hunbind : scope.unbind other = .ok after) (h : name ∈ scope.book.names) :
    name ∈ after.book.names := by
  unfold Scope.unbind at hunbind
  split at hunbind
  case isTrue =>
    cases hunbind
    exact Keyed.mem_keys_erase_of_ne hne h
  case isFalse =>
    split at hunbind
    case isFalse => cases hunbind
    case isTrue =>
      cases hunbind
      exact h

/-- A statement leaves the names of dataframes that it does not bind or remove. -/
theorem exec_keeps_name {s : Statement} {v : Option Operand} (h : exec files s scope = .ok (v, after))
    (hfree : s.boundName? ≠ some name) (hname : name ∈ scope.book.names) :
    name ∈ after.book.names := by
  cases executed_of_exec h with
  | load shortName hafter =>
    subst hafter
    exact hname
  | @bind other e value between heval hafter =>
    subst hafter
    have hbetween : name ∈ between.book.names := by
      rwa [(steady_eval files e scope value between heval).2.1]
    exact Scope.mem_names_bind (fun heq => hfree (congrArg some heq.symm)) value hbetween
  | @setColumn frame label e value between heval hassign =>
    rwa [(steady_assign_column files value frame label between _ _ hassign).2.1,
      (steady_eval files e scope value between heval).2.1]
  | unbind hunbind =>
    exact Scope.mem_names_unbind (fun heq => hfree (congrArg some heq.symm)) hunbind hname
  | @dropColumn frame label hdelete =>
    rwa [(steady_delete_column files frame label scope _ _ hdelete).2.1]
  | @expr e value heval => rwa [(steady_eval files e scope value _ heval).2.1]

/-- Lines leave the names of dataframes that none of them binds or removes. -/
theorem Scope.afterLines_keeps_name {lines : List (List Char)}
    (h : scope.afterLines files lines = some after)
    (hfree : ∀ line ∈ lines, ∀ s, lineStatement? line = .ok (some s) → s.boundName? ≠ some name)
    (hname : name ∈ scope.book.names) : name ∈ after.book.names := by
  induction lines generalizing scope with
  | nil =>
    cases h
    exact hname
  | cons line rest ih =>
    rw [afterLines_cons, Option.bind_eq_some_iff] at h
    obtain ⟨next, hnext, hrest⟩ := h
    obtain ⟨hline, hfree⟩ := List.forall_mem_cons.mp hfree
    refine ih hrest hfree ?_
    rcases afterLine_eq_some_iff.mp hnext with ⟨-, rfl⟩ | ⟨s, v, hsome, hexec⟩
    · exact hname
    · exact exec_keeps_name hexec (hline s hsome) hname

/-! ## What a script ends with -/

/-- The last statement that the script carries out is an expression that is no name, and the dataframe is
its value. -/
def EndsUnnamed (files : Files) (book : Workbook) (code : List Char) (f : Frame) : Prop :=
  ∃ front line back before after e, Text.linesOf code = front ++ line :: back ∧
    (Scope.initial book).afterLines files front = some before ∧
    lineStatement? line = .ok (some (.expr e)) ∧ (∀ s, e ≠ .name s) ∧
    eval files e before = .ok (.frame f, after) ∧ ∀ l ∈ back, lineStatement? l = .ok none

/-- An expression is just a name exactly if it is the name of something. -/
theorem isName_eq_false_iff {e : Expr} : e.isName = false ↔ ∀ s, e ≠ .name s := by
  cases e <;> simp [Expr.isName]

/-- Lines without statements do not end a script. -/
theorem runLines_of_none {lines : List (List Char)} (h : ∀ line ∈ lines, lineStatement? line = .ok none)
    (number : Nat) (progress : Progress) : runLines files number progress lines = .ok progress := by
  induction lines generalizing number with
  | nil => rfl
  | cons line rest ih =>
    obtain ⟨hline, hrest⟩ := List.forall_mem_cons.mp h
    have hstep : runLine files number progress line = .ok progress := by
      rw [runLine, hline]
    rw [runLines, hstep]
    exact ih hrest (number + 1)

/-- A run ends with the expression after which no line has a statement. -/
theorem runLines_of_expr {front back : List (List Char)} {line : List Char} {e : Expr} {v : Operand}
    {before : Scope} (hfront : scope.afterLines files front = some before)
    (hline : lineStatement? line = .ok (some (.expr e))) (heval : eval files e before = .ok (v, after))
    (hback : ∀ l ∈ back, lineStatement? l = .ok none) (number : Nat) (last? : Option LastExpression) :
    runLines files number ⟨scope, last?⟩ (front ++ line :: back) = .ok ⟨after,
      some ⟨v, number + front.length, String.ofList (Text.trimChars line), e.isName⟩⟩ := by
  induction front generalizing scope number last? with
  | nil =>
    cases hfront
    have hexec : (exec files (.expr e)).run before = .ok (some v, after) := by
      change exec files (.expr e) before = _
      rw [exec, run_bind_of_ok heval]
      rfl
    have hstep : runLine files number ⟨before, last?⟩ line = .ok ⟨after,
        some ⟨v, number, String.ofList (Text.trimChars line), e.isName⟩⟩ := by
      rw [runLine, hline]
      simp only [hexec, Statement.isName]
    rw [List.nil_append, runLines, hstep]
    exact runLines_of_none hback _ _
  | cons first rest ih =>
    rw [Scope.afterLines_cons, Option.bind_eq_some_iff] at hfront
    obtain ⟨next, hnext, hrest⟩ := hfront
    obtain ⟨last', hstep⟩ := (runLine_iff number last?).mpr hnext
    rw [List.cons_append, runLines, hstep]
    exact (ih hrest (number + 1) last').trans (by rw [List.length_cons, Nat.add_assoc, Nat.add_comm 1])

/-- A dataframe gets a name exactly if it is the value of the last expression, and that is not just a name.
-/
theorem capturedFrame?_eq_some_iff {outcome : Outcome} {f : Frame} {number : Nat} :
    capturedFrame? outcome = some (f, number) ↔ ∃ last, outcome.last = some last ∧
      last.value = .frame f ∧ last.isName = false ∧ number = last.line := by
  unfold capturedFrame?
  cases outcome.last with
  | none => simp
  | some last =>
    obtain ⟨value, line, source, isName⟩ := last
    have hline : line = number ↔ number = line := eq_comm
    cases value <;> cases isName <;> simp [hline]

/-- A dataframe gets a name after a run exactly if the script ends with it and has no name for it. -/
theorem capturedFrame?_iff {book : Workbook} {code : String} {outcome : Outcome}
    (h : run files book code = .ok outcome) (f : Frame) :
    (∃ number, capturedFrame? outcome = some (f, number)) ↔ EndsUnnamed files book code.toList f := by
  obtain ⟨⟨reached, last?⟩, hlines, rfl⟩ := run_eq_ok_iff.mp h
  constructor
  · rintro ⟨number, hcaptured⟩
    obtain ⟨last, hlast, hvalue, hname, -⟩ := capturedFrame?_eq_some_iff.mp hcaptured
    obtain rfl : last? = some last := hlast
    rcases exists_capture hlines with ⟨hnone, -⟩ |
      ⟨front, line, back, before, e, hsplit, -, hisName, hfront, hline, heval, hback⟩
    · cases hnone
    rw [hvalue] at heval
    rw [hisName] at hname
    exact ⟨front, line, back, before, reached, e, hsplit, hfront, hline, isName_eq_false_iff.mp hname,
      heval, hback⟩
  · rintro ⟨front, line, back, before, after, e, hsplit, hfront, hline, hname, heval, hback⟩
    rw [hsplit, runLines_of_expr hfront hline heval hback] at hlines
    cases hlines
    refine ⟨1 + front.length, ?_⟩
    simp only [capturedFrame?, isName_eq_false_iff.mpr hname, Bool.false_eq_true, if_false]

end Script

/-! ## The lines of a script that was run -/

namespace Chunk

/-- The last line after a change is the last line, or one that was changed. -/
theorem getLast?_changeLine {number : Nat} {change : List Char → List Char}
    {lines : List (List Char)} {last : List Char}
    (h : (changeLine number change lines).getLast? = some last) :
    lines.getLast? = some last ∨ ∃ line, last = change line := by
  unfold changeLine at h
  split at h
  · exact Or.inl h
  · rw [List.getLast?_eq_getElem?, List.length_modify, List.getElem?_modify] at h
    split at h
    · obtain ⟨line, -, rfl⟩ := Option.map_eq_some_iff.mp h
      exact Or.inr ⟨line, rfl⟩
    · rw [id_map', ← List.getLast?_eq_getElem?] at h
      exact Or.inl h

/-- There is something on a line that gives a name, and no carriage return ends it. -/
theorem getLast?_assignLine (name : String) (line : List Char) :
    assignLine name line ≠ [] ∧ (assignLine name line).getLast? ≠ some '\r' := by
  have hassign : assignLine name line = name.toList ++ (" = ".toList ++ Text.trimChars line) := rfl
  refine ⟨by simp [hassign], ?_⟩
  rw [hassign, List.getLast?_append_of_ne_nil _ (by simp)]
  by_cases hempty : Text.trimChars line = []
  · rw [hempty]
    decide
  · rw [List.getLast?_append_of_ne_nil _ hempty]
    exact Text.getLast?_trimEnd_ne _ Text.isBlank_return

/-- The last line of a script that was run is not empty, and no carriage return ends it. -/
theorem getLast?_transformationLines (c : Chunk) :
    ∀ last ∈ (c.transformationLines.map String.toList).getLast?,
      last ≠ [] ∧ last.getLast? ≠ some '\r' := by
  have hplain := Text.getLast?_linesOf_trimEnd ((c.textParam? "edited_completion").getD "").toList
  intro last hlast
  unfold transformationLines at hlast
  have hofList : String.toList ∘ String.ofList = id := funext fun _ => String.toList_ofList
  rw [List.map_map, hofList, List.map_id] at hlast
  split at hlast
  case h_1 =>
    rcases getLast?_changeLine hlast with hlast | ⟨line, rfl⟩
    · exact hplain last hlast
    · exact getLast?_assignLine _ line
  case h_2 => exact hplain last hlast

/-- With line feeds between them, the lines of a script that was run are found again. -/
theorem linesOf_intercalate_transformationLines {c : Chunk} (hlines : c.lines = c.transformationLines)
    (hone : ∀ line ∈ c.lines, Text.OneLine line) :
    Text.linesOf ("\n".intercalate c.lines).toList = c.scriptLines := by
  have hends := c.getLast?_transformationLines
  rw [← hlines] at hends
  rw [String.toList_intercalate, show "\n".toList = ['\n'] from rfl,
    Text.linesOf_intercalate (List.forall_mem_map.mpr hone) hends, List.map_map]
  rfl

end Chunk

/-! ## Agreement -/

/-- A value that is a text is that text. -/
theorem Value.eq_str_of_asText? {v : Value} {s : String} (h : v.asText? = some s) : v = .str s := by
  cases v with
  | str t => rw [Option.some.inj h]
  | _ => cases h

/-- A dataframe that was put at the end has its name at the end. -/
theorem Workbook.names_of_frames {w before : Workbook} {name : String} {f : Frame}
    (h : w.frames = before.frames ++ [(name, f)]) : w.names = before.names ++ [name] := by
  rw [names, h, Keyed.keys_append]
  rfl

namespace Step

variable {files : Files} {prev : Workbook} {params : Params} {performed : Performed} {text : String}

/-- A dataframe that gets a name is put at the end of the workbook that the script left. -/
theorem frames_insert_capturedName (book : Workbook) (f : Frame) :
    (book.insert (capturedName book) f).frames = book.frames ++ [(capturedName book, f)] :=
  congrArg Workbook.frames (book.insert_freshName _ f)

/-- The lines of a script that was run leave what the step left. -/
theorem run_lines_of_transform (h : transform files prev params = .ok performed)
    (htext : params.get? "edited_completion" = some (.str text))
    (hcount : (Text.linesOf text.toList).length < 2 ^ 63) :
    ∃ again, Script.run files prev ("\n".intercalate
        (Chunk.ofStep .aiTransformation prev performed.book params performed.data).lines) = .ok again ∧
      again.book = performed.book := by
  let c := Chunk.ofStep .aiTransformation prev performed.book params performed.data
  have hsound : c.Sound files := h
  have hcode : c.code = text.toList := by
    change ((((params.get? "edited_completion").bind Value.asText?)).getD "").toList = _
    rw [htext]
    rfl
  obtain ⟨reached, hreached, hbook, -⟩ := hsound.transformation_initial rfl (hcode ▸ hcount)
  have hcreated : ∀ name, (c.fact? "created_dataframe_name").bind Value.asText? = some name →
      Text.OneLine name := fun name hname => (hsound.plain_created rfl hname).isWord.oneLine
  have hlines := Chunk.linesOf_intercalate_transformationLines (c := c) rfl
    (Chunk.oneLine_of_mem_transformationLines hcreated)
  exact run_ok_iff.mpr ⟨reached, by rwa [hlines], hbook⟩

/-- A step that runs a script leaves what the script left, with one more dataframe under a new name if the
script ended with it and had no name for it, and the lines that are generated for the step leave the
same. -/
theorem transform_agrees (h : transform files prev params = .ok performed)
    (htext : params.get? "edited_completion" = some (.str text))
    (hcount : (Text.linesOf text.toList).length < 2 ^ 63) :
    ∃ outcome, Script.run files prev text = .ok outcome ∧
      (∀ f, EndsUnnamed files prev text.toList f → ∃ name, name ∉ outcome.book.names ∧
        performed.book.frames = outcome.book.frames ++ [(name, f)]) ∧
      ((∀ f, ¬ EndsUnnamed files prev text.toList f) → performed.book = outcome.book) ∧
      ∃ again, Script.run files prev ("\n".intercalate
          (Chunk.ofStep .aiTransformation prev performed.book params performed.data).lines) =
            .ok again ∧
        again.book = performed.book := by
  obtain ⟨code, outcome, hcode, hrun, hcases⟩ := Chunk.transform_cases h
  obtain rfl : text = code := by
    rw [htext] at hcode
    exact Option.some.inj hcode
  refine ⟨outcome, hrun, fun f hends => ?_, fun hends => ?_, run_lines_of_transform h htext hcount⟩
  · obtain ⟨number, hcaptured⟩ := (capturedFrame?_iff hrun f).mpr hends
    rcases hcases with ⟨g, line, hother, hbook, -⟩ | ⟨hnone, -, -⟩
    · obtain ⟨rfl, rfl⟩ : g = f ∧ line = number := by
        rw [hcaptured, Option.some.injEq, Prod.mk.injEq] at hother
        exact ⟨hother.1.symm, hother.2.symm⟩
      exact ⟨capturedName outcome.book, outcome.book.freshName_not_mem _,
        by rw [hbook, frames_insert_capturedName]⟩
    · rw [hnone] at hcaptured
      cases hcaptured
  · rcases hcases with ⟨f, line, hcaptured, -, -⟩ | ⟨-, hbook, -⟩
    · exact absurd ((capturedFrame?_iff hrun f).mp ⟨line, hcaptured⟩) (hends f)
    · exact hbook

/-- The script removes a dataframe, ends its lines in several ways and ends with a dataframe that has no
name, whose first two names are taken. -/
theorem transform_agrees_after_removal :
    let prev : Workbook := ⟨[("df", ⟨[("A", [.int 1, .int 2])], 2⟩), ("df3", ⟨[("B", [.int 3])], 1⟩)]⟩
    let text := "b = df\r\ndel df\r\n (b.head(1)) # first\n \n"
    ∃ performed outcome f, transform default prev [("edited_completion", .str text)] = .ok performed ∧
      (Text.linesOf text.toList).length < 2 ^ 63 ∧ Script.run default prev text = .ok outcome ∧
      EndsUnnamed default prev text.toList f ∧
      performed.book.frames = outcome.book.frames ++ [("df3_1", f)] ∧
      ∃ again, Script.run default prev ("\n".intercalate (Chunk.ofStep .aiTransformation prev
          performed.book [("edited_completion", .str text)] performed.data).lines) = .ok again ∧
        again.book = performed.book := by
  intro prev text
  have hcount : (Text.linesOf text.toList).length < 2 ^ 63 := by decide +kernel
  obtain ⟨performed, hperformed, hnames⟩ :
      ∃ performed ∈ (transform default prev [("edited_completion", .str text)]).toOption,
        performed.book.names = ["df3", "b", "df3_1"] := by decide +kernel
  obtain ⟨ran, hran, hsome⟩ : ∃ ran ∈ (Script.run default prev text).toOption,
      (capturedFrame? ran).isSome = true := by decide +kernel
  have htransform := except_eq_ok_of_mem hperformed
  obtain ⟨outcome, hrun, hcaptured, -, hagain⟩ := transform_agrees htransform rfl hcount
  obtain rfl : ran = outcome := Except.ok.inj ((except_eq_ok_of_mem hran).symm.trans hrun)
  obtain ⟨⟨f, line⟩, hf⟩ := Option.isSome_iff_exists.mp hsome
  have hends := (capturedFrame?_iff hrun f).mp ⟨line, hf⟩
  obtain ⟨name, -, hframes⟩ := hcaptured f hends
  have hname : name = "df3_1" := by
    have hlast := congrArg List.getLast? (Workbook.names_of_frames hframes)
    rw [hnames, List.getLast?_concat] at hlast
    exact (Option.some.inj hlast).symm
  exact ⟨performed, ran, f, htransform, hcount, hrun, hends, hname ▸ hframes, hagain⟩

/-- The name in the facts is that of the dataframe that was put at the end. -/
theorem created_of_transform (h : transform files prev params = .ok performed) {data : Params}
    (hdata : performed.data = some data) {name : String}
    (hname : data.get? "created_dataframe_name" = some (.str name)) :
    ∃ text outcome f, params.get? "edited_completion" = some (.str text) ∧
      Script.run files prev text = .ok outcome ∧ name ∉ outcome.book.names ∧
      performed.book.frames = outcome.book.frames ++ [(name, f)] := by
  obtain ⟨text, outcome, htext, hrun, ⟨f, line, -, hbook, hfacts⟩ | ⟨-, -, hfacts⟩⟩ :=
    Chunk.transform_cases h
  · obtain ⟨v, hv, htext⟩ := Option.bind_eq_some_iff.mp htext
    obtain rfl := Value.eq_str_of_asText? htext
    obtain rfl := Option.some.inj (hdata.symm.trans hfacts)
    obtain rfl : capturedName outcome.book = name := by
      simpa [scriptFacts, Keyed.get?, Value.ofText?] using hname
    exact ⟨text, outcome, f, hv, hrun, outcome.book.freshName_not_mem _,
      by rw [hbook, frames_insert_capturedName]⟩
  · obtain rfl := Option.some.inj (hdata.symm.trans hfacts)
    simp [scriptFacts, Keyed.get?, Value.ofText?] at hname

end Step

/-! ## Reports -/

/-- The record of a script reports the dataframe at an index as a new one, by its name in the facts about
the run and by its index. -/
structure StepRecord.ReportsNew (record : StepRecord) (name : String) (index : Nat) : Prop where
  listed : ∃ data result names, record.data = some data ∧ data.get? "result" = some (.dict result) ∧
    Keyed.get? result "created_dataframe_names" = some (.ofTexts names) ∧ name ∈ names
  unchanged : ∀ data result changes, record.data = some data →
    data.get? "result" = some (.dict result) →
    Keyed.get? result "modified_dataframes_recons" = some (.dict changes) →
    name ∉ Keyed.keys changes
  created : index ∈ record.created
  unmodified : index ∉ record.modified

/-- A name that is at one index only is among those at indexes exactly if its index is one of them. -/
theorem Workbook.mem_namesAt_iff {w : Workbook} {index : Nat} {name : String}
    (h : ∀ other, w.names[other]? = some name ↔ other = index) (indexes : List Nat) :
    name ∈ w.namesAt indexes ↔ index ∈ indexes := by
  rw [namesAt, List.mem_filterMap]
  constructor
  · rintro ⟨other, hother, hname⟩
    exact (h other).mp hname ▸ hother
  · exact fun hindex => ⟨index, hindex, (h index).mpr rfl⟩

/-- A workbook has as many names as dataframes. -/
theorem Workbook.length_names (w : Workbook) : w.names.length = w.size := List.length_map _

/-- A name that was put at the end of others is at that index only. -/
theorem Workbook.getElem?_names_iff {w before : Workbook} {name : String} {f : Frame}
    (hframes : w.frames = before.frames ++ [(name, f)]) (hfresh : name ∉ before.names) (index : Nat) :
    w.names[index]? = some name ↔ index = before.size := by
  rw [names_of_frames hframes, ← before.length_names]
  constructor
  · intro h
    by_contra hne
    rw [List.getElem?_append] at h
    split at h
    · exact hfresh (List.mem_of_getElem? h)
    · rw [List.getElem?_singleton, if_neg (by omega)] at h
      cases h
  · rintro rfl
    simp

/-- A script's record reports a dataframe as new exactly if its name is new. -/
theorem StepRecord.reportsNew_iff {record : StepRecord} (hindexed : record.Indexed)
    (hreconciled : record.Reconciled) {index : Nat} {name : String}
    (h : ∀ other, record.post.names[other]? = some name ↔ other = index) :
    record.ReportsNew name index ↔ name ∉ record.prev.names := by
  have hcreated := hindexed.mem_created_iff_of_name ((h index).mpr rfl)
  obtain ⟨data, result, changes, hdata, hresult, hlisted, hchanges, hkeys, -⟩ := hreconciled
  refine ⟨fun hreport => hcreated.mp hreport.created, fun hnew => ?_⟩
  have hindex := hcreated.mpr hnew
  have hunmodified : index ∉ record.modified := fun hmem => hindexed.disjoint hindex hmem
  refine ⟨⟨data, result, _, hdata, hresult, hlisted, (Workbook.mem_namesAt_iff h _).mpr hindex⟩,
    fun data' result' changes' hdata' hresult' hchanges' => ?_, hindex, hunmodified⟩
  obtain rfl := Option.some.inj (hdata.symm.trans hdata')
  obtain rfl : result = result' := by simpa using hresult.symm.trans hresult'
  obtain rfl : changes = changes' := by simpa using hchanges.symm.trans hchanges'
  rwa [hkeys, Workbook.mem_namesAt_iff h]

namespace Pipeline

variable {files : Files} {p q : Pipeline} {typeName : String} {params : Params}
  {record : StepRecord}

/-- A dataframe that got a name after its script stands behind those that the script left. Its record
reports it as new exactly if no dataframe before the script had that name, and one can only have had it if
the script binds or removes the name. -/
theorem captured_of_apply (h : p.apply files typeName params = (.ok record, q))
    (hkind : record.kind = .aiTransformation) {data : Params} (hdata : record.data = some data)
    {name : String} (hname : data.get? "created_dataframe_name" = some (.str name)) :
    ∃ text outcome f, params.get? "edited_completion" = some (.str text) ∧
      Script.run files p.book text = .ok outcome ∧ name ∉ outcome.book.names ∧
      q.book.frames = outcome.book.frames ++ [(name, f)] ∧
      (record.ReportsNew name outcome.book.size ↔ name ∉ p.book.names) ∧
      (outcome.book.size ∈ record.created ↔ name ∉ p.book.names) ∧
      (Keeps name text.toList → name ∉ p.book.names) := by
  obtain ⟨performed, hperform, hrecord, -⟩ := recorded_of_apply h
  obtain ⟨hprev, hbook⟩ := workbooks_of_apply h
  have hindexed := recordIndexed_of_apply h
  rw [hkind] at hperform
  have hpost : record.post = performed.book := by rw [hrecord]; rfl
  have hfacts : performed.data = some data := by rw [← hdata, hrecord]; rfl
  obtain ⟨text, outcome, f, htext, hrun, hfresh, hframes⟩ := created_of_transform hperform hfacts hname
  rw [← hpost] at hframes
  have hindex := Workbook.getElem?_names_iff hframes hfresh
  rw [← hprev] at hrun ⊢
  refine ⟨text, outcome, f, htext, hrun, hfresh, hbook ▸ hframes,
    StepRecord.reportsNew_iff hindexed (recordReconciled_of_apply h hkind) hindex,
    hindexed.mem_created_iff_of_name ((hindex _).mpr rfl), fun hkeeps hmem => hfresh ?_⟩
  obtain ⟨after, hafter, hleft⟩ := run_ok_iff.mp ⟨outcome, hrun, rfl⟩
  rw [← hleft]
  exact Scope.afterLines_keeps_name hafter hkeeps hmem

/-- A script removes a dataframe and ends with another, which gets the free name: it is reported as a
change of the one that was removed. -/
theorem captured_after_removal :
    let p := new .standard ⟨[("df", ⟨[("A", [.int 1])], 1⟩), ("df2", ⟨[("B", [.int 2])], 1⟩)]⟩
    ∃ record q data, p.apply default "ai_transformation"
        [("edited_completion", .str "del df2\ndf.head(1)")] = (.ok record, q) ∧
      record.kind = .aiTransformation ∧ record.data = some data ∧
      data.get? "created_dataframe_name" = some (.str "df2") ∧
      ¬ record.ReportsNew "df2" 1 ∧ 1 ∉ record.created ∧ 1 ∈ record.modified := by
  intro p
  obtain ⟨record, hrecord, hkind, hnames, hcreated, hmodified⟩ : ∃ record ∈ (p.apply default
        "ai_transformation" [("edited_completion", .str "del df2\ndf.head(1)")]).1.toOption,
      record.kind = .aiTransformation ∧ record.post.names = ["df", "df2"] ∧
        (record.data.bind (·.get? "created_dataframe_name")).bind Value.asText? = some "df2" ∧
        record.modified = [1] := by
    decide +kernel
  have happly := apply_eq_of_mem hrecord
  obtain ⟨v, hv, htext⟩ := Option.bind_eq_some_iff.mp hcreated
  obtain ⟨data, hdata, hname⟩ := Option.bind_eq_some_iff.mp hv
  obtain rfl := Value.eq_str_of_asText? htext
  obtain ⟨-, outcome, f, -, -, -, hframes, hreports, hindex, -⟩ :=
    captured_of_apply happly hkind hdata hname
  have hsize : outcome.book.size = 1 := by
    rw [← (workbooks_of_apply happly).2] at hframes
    have hlength := congrArg List.length (Workbook.names_of_frames hframes)
    rw [hnames, List.length_append, Workbook.length_names] at hlength
    exact (Nat.succ.inj hlength).symm
  rw [hsize] at hreports hindex
  have hold : "df2" ∈ p.book.names := by decide
  exact ⟨record, _, data, happly, hkind, hdata, hname, fun h => hreports.mp h hold,
    fun h => hindex.mp h hold, by simp [hmodified]⟩

end Pipeline

end TableScript
