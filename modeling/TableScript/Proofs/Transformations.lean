import TableScript.Proofs.Transitions

/-!
# Scripts that were run, as chunks

The chunk of a script that was run has the lines of the script, without blanks at the end and without
lines of blanks after the last. If the script ended with a dataframe that had no name, the line of that
expression gives it the name that it got afterwards.

Run on the workbook before the chunk, these lines do what the script did
(`Sound.transformation_initial`). They do the same among the locals of other chunks as long as the name
of the library is not bound or removed (`Sound.faithful_transformation`).
-/

namespace TableScript

open Script Step

/-- No line of the script binds the name or removes it. -/
def Script.Keeps (name : String) (code : List Char) : Prop :=
  ∀ line ∈ Text.linesOf code, ∀ s, lineStatement? line = .ok (some s) → s.boundName? ≠ some name

instance (name : String) (code : List Char) : Decidable (Script.Keeps name code) :=
  decidable_of_iff
    (∀ line ∈ Text.linesOf code, (match lineStatement? line with
      | .ok (some s) => s.boundName?
      | _ => none) ≠ some name)
    ⟨fun h line hline s hs => by simpa only [hs] using h line hline, fun h line hline => by
      split
      case h_1 s hs => exact h line hline s hs
      case h_2 => exact (Option.some_ne_none name).symm⟩

namespace Chunk

/-! ## Lines of a script -/

section Trimming

variable {files : Files} {scope before after : Scope} {code : List Char}

/-- Lines of blanks at the end do nothing. -/
theorem afterLines_of_append_blank {front later : List (List Char)}
    (hlater : ∀ line ∈ later, ∀ c ∈ line, Text.isBlank c = true)
    (h : scope.afterLines files (front ++ later) = some after) :
    scope.afterLines files front = some after := by
  rw [Scope.afterLines_append, Option.bind_eq_some_iff] at h
  obtain ⟨between, hbetween, hrest⟩ := h
  have hnone : ∀ line ∈ later, lineStatement? line = .ok none := by
    intro line hline
    obtain ⟨s?, hs⟩ := Scope.lineStatement?_of_afterLines hrest line hline
    rwa [lineStatement?_of_blank (hlater line hline) hs] at hs
  rw [Scope.afterLines_of_none hnone] at hrest
  rw [hbetween, hrest]

/-- The lines of a script do the same without the blanks at its end. -/
theorem afterLines_trimEnd (h : scope.afterLines files (Text.linesOf code) = some after) :
    scope.afterLines files ((Text.linesOf (Text.trimEnd code)).map Text.dropReturn) = some after := by
  obtain ⟨items, later, hshort, hlong, hblank, hlater⟩ := Text.linesOf_trimEnd code
  rw [hlong] at h
  rw [hshort, List.map_map]
  exact Scope.afterLines_congr items (fun item hitem s? hs => lineStatement?_dropReturn
    (lineStatement?_of_append_blanks (hblank item hitem) hs)) (afterLines_of_append_blank hlater h)

/-- A line that gives its name to the expression on it. -/
theorem lineStatement?_assignLine {line : List Char} {e : Expr} {name : String} (hname : Leads name)
    (h : lineStatement? line = .ok (some (.expr e))) :
    lineStatement? (assignLine name line) = .ok (some (.assign (.name name) e)) := by
  obtain ⟨ts, hts, ⟨-, hnone⟩ | ⟨-, s, hs, hsome⟩⟩ := lineStatement?_ok_iff.mp h
  · cases hnone
  · cases hsome
    exact lineStatement?_binding hname (tokens_trimChars hts) (expression_of_statement hs)

/-- Changing a line between others. -/
theorem changeLine_append (front back : List (List Char)) (line : List Char)
    (change : List Char → List Char) :
    changeLine (1 + front.length) change (front ++ line :: back) = front ++ change line :: back := by
  rw [changeLine, if_neg (by omega), Nat.add_sub_cancel_left]
  induction front with
  | nil => rfl
  | cons first rest ih =>
    rw [List.cons_append, List.length_cons, List.modify_succ_cons, ih, List.cons_append]

/-- The line that the last expression stands on, and the lines around it, without the blanks at the end of
the script. -/
theorem split_trimEnd {front back : List (List Char)} {line : List Char} {s : Statement}
    (hlines : Text.linesOf code = front ++ line :: back) (hline : lineStatement? line = .ok (some s)) :
    ∃ (first second : List (List Char × List Char)) (kept blanks : List Char) (later : List (List Char)),
      Text.linesOf (Text.trimEnd code) = first.map (·.1) ++ kept :: second.map (·.1) ∧
      front = first.map (fun item => item.1 ++ item.2) ∧ line = kept ++ blanks ∧
      back = second.map (fun item => item.1 ++ item.2) ++ later ∧
      (∀ item ∈ first ++ (kept, blanks) :: second, ∀ c ∈ item.2, Text.isBlank c = true) := by
  obtain ⟨items, later, hshort, hlong, hblank, hlater⟩ := Text.linesOf_trimEnd code
  rw [hlines] at hlong
  -- the line has a statement, so it is none of the blank lines at the end
  have hlength : front.length < items.length := by
    by_contra hge
    have hmem : line ∈ later := by
      have hget : (items.map (fun item => item.1 ++ item.2) ++ later)[front.length]? = some line := by
        rw [← hlong]
        simp
      rw [List.getElem?_append_right (by simpa using hge)] at hget
      exact List.mem_of_getElem? hget
    cases lineStatement?_of_blank (hlater line hmem) hline
  obtain ⟨first, ⟨kept, blanks⟩, second, rfl, hfirst⟩ : ∃ first item second,
      items = first ++ item :: second ∧ first.length = front.length :=
    ⟨items.take front.length, items[front.length], items.drop (front.length + 1),
      by rw [← List.drop_eq_getElem_cons, List.take_append_drop], by simp; omega⟩
  rw [List.map_append, List.map_cons, List.append_assoc, List.cons_append] at hlong
  obtain ⟨hfront, hrest⟩ := List.append_inj hlong (by rw [List.length_map, hfirst])
  obtain ⟨hkept, hback⟩ := List.cons.inj hrest
  exact ⟨first, second, kept, blanks, later, by rw [hshort, List.map_append, List.map_cons], hfront,
    hkept, hback, hblank⟩

/-- The lines of a script, with a name for its last expression. -/
theorem afterLines_changeLine {front back : List (List Char)} {line : List Char} {e : Expr} {v : Operand}
    {name : String} (hlines : Text.linesOf code = front ++ line :: back)
    (hfront : scope.afterLines files front = some before)
    (hline : lineStatement? line = .ok (some (.expr e))) (heval : eval files e before = .ok (v, after))
    (hback : ∀ l ∈ back, lineStatement? l = .ok none) (hname : Leads name) :
    scope.afterLines files ((changeLine (1 + front.length) (assignLine name)
      (Text.linesOf (Text.trimEnd code))).map Text.dropReturn) = some (after.bind name v) := by
  obtain ⟨first, second, kept, blanks, later, hshort, rfl, rfl, rfl, hblank⟩ := split_trimEnd hlines hline
  rw [List.forall_mem_append, List.forall_mem_cons] at hblank
  obtain ⟨hfirst, hkept, hsecond⟩ := hblank
  have hassign := lineStatement?_dropReturn (lineStatement?_assignLine hname
    (lineStatement?_of_append_blanks hkept hline))
  have hexec : exec files (.assign (.name name) e) before = .ok (none, after.bind name v) := by
    rw [exec, run_bind_of_ok heval]
    rfl
  have hnone : ∀ l ∈ (second.map (·.1)).map Text.dropReturn, lineStatement? l = .ok none := by
    intro l hl
    rw [List.map_map] at hl
    obtain ⟨item, hitem, rfl⟩ := List.mem_map.mp hl
    exact lineStatement?_dropReturn (lineStatement?_of_append_blanks (hsecond item hitem)
      (hback _ (List.mem_append_left _ (List.mem_map_of_mem hitem))))
  have hfront' : scope.afterLines files ((first.map (·.1)).map Text.dropReturn) = some before := by
    rw [List.map_map]
    exact Scope.afterLines_congr first (fun item hitem s? hs => lineStatement?_dropReturn
      (lineStatement?_of_append_blanks (hfirst item hitem) hs)) hfront
  have hchange := changeLine_append (first.map (·.1)) (second.map (·.1)) kept (assignLine name)
  rw [List.length_map] at hchange ⊢
  rw [hshort, hchange, List.map_append, List.map_cons, Scope.afterLines_append, hfront', Option.bind_some,
    Scope.afterLines_cons, Scope.afterLine_of_some hassign hexec, Option.bind_some,
    Scope.afterLines_of_none hnone]

end Trimming

/-! ## Chunks of scripts -/

/-- The script that the chunk is for. -/
def code (c : Chunk) : List Char := ((c.textParam? "edited_completion").getD "").toList

/-- The name that the last dataframe of a script gets is plain. -/
theorem plain_capturedName (book : Workbook) : Plain (capturedName book) :=
  book.plain_freshName (plain_df _)

/-- The number of a line comes back from the facts. -/
theorem toNat_asInt?_ofNat {n : Nat} (h : n < 2 ^ 63) : (Int64.ofNat n).toInt.toNat = n := by
  have hint : (Int64.ofNat n).toInt = n := Int64.toInt_ofNat_of_lt h
  rw [hint, Int.toNat_natCast]

/-- The dataframe that gets a name is the value of the last expression. -/
theorem capturedFrame?_eq_some {outcome : Outcome} {f : Frame} {number : Nat}
    (h : capturedFrame? outcome = some (f, number)) :
    ∃ last, outcome.last = some last ∧ last.value = .frame f ∧ number = last.line := by
  unfold capturedFrame? at h
  split at h
  case h_2 => cases h
  case h_1 last hlast =>
    split at h
    case h_2 => cases h
    case h_1 g hvalue =>
      split at h
      · cases h
      · cases h
        exact ⟨last, hlast, hvalue, rfl⟩

variable {files : Files} {c : Chunk}

/-- On the workbook before the chunk, the lines do what the script did. The library is still there if the
script left it alone. -/
theorem Sound.transformation_initial (h : c.Sound files) (hcontent : c.content = .transformation)
    (hcount : (Text.linesOf c.code).length < 2 ^ 63) :
    ∃ reached, (Scope.initial c.prev).afterLines files c.scriptLines = some reached ∧
      reached.book = c.post ∧ (Keeps "pd" c.code → reached.HasLibrary) := by
  simp only [Sound, hcontent] at h
  obtain ⟨text, outcome, htext, hrun, hcases⟩ := transform_cases h
  have hcode : c.code = text.toList := by
    rw [code, textParam?, htext, Option.getD_some]
  obtain ⟨⟨after, last?⟩, hlines, rfl⟩ := run_eq_ok_iff.mp hrun
  rw [← hcode] at hlines
  have hafter := (runLines_iff 1 none).mp ⟨last?, hlines⟩
  have hlibrary : Keeps "pd" c.code → after.HasLibrary := fun hkeeps =>
    (Scope.afterLines_names hafter).2.2 hkeeps (Scope.hasLibrary_initial c.prev)
  -- either the script ended with a dataframe that was captured, or the lines are its own
  rcases hcases with ⟨f, number, hcaptured, hpost, hdata⟩ | ⟨-, hpost, hdata⟩
  · obtain ⟨last, rfl, hvalue, rfl⟩ := capturedFrame?_eq_some hcaptured
    rcases exists_capture hlines with ⟨hnone, -⟩ |
      ⟨front, line, back, before, e, hsplit, hnumber, -, hfront, hline, heval, hback⟩
    · cases hnone
    -- the line that shows the dataframe is found again by the number recorded with the step
    have hplain := plain_capturedName after.book
    have hbound : 1 + front.length < 2 ^ 63 := by
      have hlength := congrArg List.length hsplit
      simp only [List.length_append, List.length_cons] at hlength
      omega
    have hfacts : (c.fact? "created_dataframe_name").bind Value.asText? =
          some (capturedName after.book) ∧
        (c.fact? "last_expression_line").bind Value.asInt? = some (Int64.ofNat last.line) := by
      have hdata' : c.data = _ := hdata
      rw [fact?, fact?, hdata']
      exact ⟨rfl, rfl⟩
    rw [hvalue] at heval
    refine ⟨after.bind (capturedName after.book) (.frame f), ?_, hpost.symm, fun hkeeps =>
      (after.bind_names _ _).2.2 hplain.ne_library (hlibrary hkeeps)⟩
    have hscript : c.scriptLines = (changeLine (1 + front.length) (assignLine (capturedName after.book))
        (Text.linesOf (Text.trimEnd c.code))).map Text.dropReturn := by
      rw [scriptLines, lines, hcontent]
      simp only [transformationLines, hfacts.1, hfacts.2]
      rw [hnumber, toNat_asInt?_ofNat hbound, map_scriptLine_ofList]
      rfl
    rw [hscript]
    exact afterLines_changeLine hsplit hfront hline heval hback hplain.leads
  · have hfact : (c.fact? "created_dataframe_name").bind Value.asText? = none := by
      have hdata' : c.data = _ := hdata
      rw [fact?, hdata']
      rfl
    refine ⟨after, ?_, hpost.symm, hlibrary⟩
    have hscript : c.scriptLines = (Text.linesOf (Text.trimEnd c.code)).map Text.dropReturn := by
      rw [scriptLines, lines, hcontent]
      simp only [transformationLines, hfact]
      rw [map_scriptLine_ofList]
      rfl
    rw [hscript]
    exact afterLines_trimEnd hafter

/-- The lines of a script that leaves the library alone do what the script did. -/
theorem Sound.faithful_transformation (h : c.Sound files) (hcontent : c.content = .transformation)
    (hcount : (Text.linesOf c.code).length < 2 ^ 63) (hkeeps : Keeps "pd" c.code) : c.Faithful files := by
  obtain ⟨reached, hreached, hbook, hlibrary⟩ := h.transformation_initial hcontent hcount
  intro scope hscope
  have hextends : scope.Extends (.initial c.prev) := by
    refine ⟨hscope.book, fun name v hv => ?_⟩
    obtain ⟨rfl, rfl⟩ : name = "pd" ∧ v = .module "pandas" := by
      have hmem := Keyed.mem_of_get? hv
      simpa [Scope.initial] using hmem
    exact hscope.library
  obtain ⟨after, hafter, hext, htidy, -⟩ := Scope.afterLines_extends hreached hextends hscope.tidy
    (Scope.tidy_initial c.prev)
  exact ⟨after, hafter, hext.book.trans hbook, htidy, hext.locals "pd" _ (hlibrary hkeeps)⟩

end Chunk

end TableScript
