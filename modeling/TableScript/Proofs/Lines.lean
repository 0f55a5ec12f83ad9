import TableScript.Text.Blank
import Mathlib.Data.List.DropRight
import Mathlib.Data.List.Infix

/-!
# Texts line by line

A text made of lines is taken apart into the same lines again, up to a carriage return at the end of a
line (`linesOf_joined`), as long as no line has a line feed in it. That is the only thing that can go
wrong, and none of the lines of a text has one (`newline_not_mem_of_mem_linesOf`).

Trimming the end of a text shortens its last line by blanks and drops lines of blanks after it
(`linesOf_append_blanks`); every other line stays.
-/

namespace TableScript.Text

/-! ## One line after the other -/

/-- A line without the carriage return at its end, if it has one. -/
def dropReturn (line : List Char) : List Char :=
  if line.getLast? = some '\r' then line.dropLast else line

/-- An empty line has no return to be dropped. -/
@[simp] theorem dropReturn_nil : dropReturn [] = [] := rfl

/-- Only the last character can be dropped. -/
theorem dropReturn_cons_cons (c d : Char) (rest : List Char) :
    dropReturn (c :: d :: rest) = c :: dropReturn (d :: rest) := by
  unfold dropReturn
  rw [List.getLast?_cons_cons, List.dropLast_cons_cons]
  split <;> rfl

/-- A line without its carriage return is the line, or the line is that and a carriage return. -/
theorem dropReturn_eq_or (line : List Char) :
    dropReturn line = line ∨ line = dropReturn line ++ ['\r'] := by
  unfold dropReturn
  split
  case isTrue h => exact Or.inr (List.dropLast_append_getLast? _ h).symm
  case isFalse => exact Or.inl rfl

/-- A character that is no line feed, nor a carriage return before one, goes to the first line. -/
theorem linesOf_cons (c : Char) (rest : List Char) (hn : c ≠ '\n')
    (hr : ¬ (c = '\r' ∧ rest.head? = some '\n')) :
    linesOf (c :: rest) = consFirst c (linesOf rest) := by
  rw [linesOf]
  · rintro rfl
    exact hn rfl
  · rintro tail rfl rfl
    exact hr ⟨rfl, rfl⟩

/-- A line feed ends a line that has none. -/
theorem linesOf_append_newline (line rest : List Char) (h : '\n' ∉ line) :
    linesOf (line ++ '\n' :: rest) = dropReturn line :: linesOf rest := by
  induction line with
  | nil => rw [List.nil_append, linesOf, dropReturn_nil]
  | cons c cs ih =>
    rw [List.mem_cons, not_or] at h
    cases cs with
    | nil =>
      by_cases hc : c = '\r'
      · subst hc
        rfl
      · have hlast : dropReturn [c] = [c] := by simp [dropReturn, hc]
        rw [List.cons_append, linesOf_cons _ _ (Ne.symm h.1) (fun hr => hc hr.1), ih h.2, hlast]
        rfl
    | cons d ds =>
      have hd : d ≠ '\n' := fun hd => h.2 (by simp [hd])
      rw [List.cons_append, linesOf_cons _ _ (Ne.symm h.1) (fun hr => hd (by simpa using hr.2)),
        ih h.2, dropReturn_cons_cons]
      rfl

/-- Lines that are each ended by a line feed are found again. -/
theorem linesOf_joined (lines : List (List Char)) (h : ∀ line ∈ lines, '\n' ∉ line) :
    linesOf (lines.flatMap fun line => line ++ ['\n']) = lines.map dropReturn := by
  induction lines with
  | nil => rfl
  | cons line rest ih =>
    rw [List.flatMap_cons, List.append_assoc, List.singleton_append,
      linesOf_append_newline _ _ (h line (by simp)), ih fun l hl => h l (by simp [hl]), List.map_cons]

/-! ## What a line consists of -/

/-- The characters of lines after one was put in front of the first. -/
theorem mem_consFirst {c : Char} {lines : List (List Char)} {line : List Char}
    (h : line ∈ consFirst c lines) :
    line ∈ lines ∨ line = [c] ∨ ∃ first ∈ lines, line = c :: first := by
  cases lines with
  | nil => exact Or.inr (Or.inl (by simpa [consFirst] using h))
  | cons first rest =>
    rcases List.mem_cons.mp h with heq | hrest
    · exact Or.inr (Or.inr ⟨first, by simp, heq⟩)
    · exact Or.inl (List.mem_cons_of_mem _ hrest)

/-- Whatever holds of all characters of a text but its line feeds holds of those of its lines. -/
theorem forall_mem_linesOf {P : Char → Prop} (cs : List Char) (h : ∀ c ∈ cs, c ≠ '\n' → P c) :
    ∀ line ∈ linesOf cs, ∀ c ∈ line, P c := by
  fun_induction linesOf cs with
  | case1 => simp
  | case2 rest ih =>
    intro line hline
    rcases List.mem_cons.mp hline with rfl | hrest
    · simp
    · exact ih (fun c hc => h c (by simp [hc])) line hrest
  | case3 rest ih =>
    intro line hline
    rcases List.mem_cons.mp hline with rfl | hrest
    · simp
    · exact ih (fun c hc => h c (by simp [hc])) line hrest
  | case4 c rest hn hr ih =>
    have hc : P c := h c (by simp) (fun heq => hn heq)
    have hrest := ih fun d hd => h d (by simp [hd])
    intro line hline
    rcases mem_consFirst hline with hl | rfl | ⟨first, hfirst, rfl⟩
    · exact hrest line hl
    · simpa using hc
    · intro d hd
      rcases List.mem_cons.mp hd with rfl | hd
      · exact hc
      · exact hrest first hfirst d hd

/-- No line of a text has a line feed in it. -/
theorem newline_not_mem_of_mem_linesOf {cs line : List Char} (h : line ∈ linesOf cs) : '\n' ∉ line :=
  fun hmem => forall_mem_linesOf (P := (· ≠ '\n')) cs (fun _ _ hne => hne) line h _ hmem rfl

/-- Lines come back only if none of them has a line feed in it. -/
theorem linesOf_joined_iff (lines : List (List Char)) :
    linesOf (lines.flatMap (· ++ ['\n'])) = lines.map dropReturn ↔ ∀ line ∈ lines, '\n' ∉ line := by
  refine ⟨fun h line hline hnewline => ?_, linesOf_joined lines⟩
  have hmem : dropReturn line ∈ linesOf (lines.flatMap (· ++ ['\n'])) := by
    rw [h]
    exact List.mem_map_of_mem hline
  have hshort := newline_not_mem_of_mem_linesOf hmem
  rcases dropReturn_eq_or line with heq | heq
  · rw [heq] at hshort
    exact hshort hnewline
  · rw [heq, List.mem_append] at hnewline
    exact hnewline.elim hshort (by decide)

/-! ## Lines with line feeds between them -/

/-- What has no line feed in it is one line. -/
theorem linesOf_of_newline_not_mem {line : List Char} (hne : line ≠ []) (h : '\n' ∉ line) :
    linesOf line = [line] := by
  induction line with
  | nil => exact absurd rfl hne
  | cons c rest ih =>
    rw [List.mem_cons, not_or] at h
    have hhead : rest.head? ≠ some '\n' := fun heq => h.2 (List.mem_of_head? heq)
    rw [linesOf_cons c rest (Ne.symm h.1) fun hr => hhead hr.2]
    cases rest with
    | nil => rfl
    | cons d ds => rw [ih (by simp) h.2, consFirst]

/-- Lines with line feeds between them are found again, if there is something on the last one. -/
theorem linesOf_intercalate {lines : List (List Char)} (h : ∀ line ∈ lines, '\n' ∉ line)
    (hlast : ∀ last ∈ lines.getLast?, last ≠ [] ∧ last.getLast? ≠ some '\r') :
    linesOf (['\n'].intercalate lines) = lines.map dropReturn := by
  induction lines with
  | nil => rfl
  | cons line rest ih =>
    obtain ⟨hline, hrest⟩ := List.forall_mem_cons.mp h
    cases rest with
    | nil =>
      obtain ⟨hne, hreturn⟩ := hlast line rfl
      rw [List.intercalate_singleton, linesOf_of_newline_not_mem hne hline, List.map_singleton,
        dropReturn, if_neg hreturn]
    | cons next rest =>
      rw [List.intercalate_cons_cons, List.append_assoc, List.singleton_append,
        linesOf_append_newline _ _ hline, ih hrest hlast]
      rfl

/-- A text with characters has a line. -/
theorem linesOf_ne_nil {cs : List Char} (h : cs ≠ []) : linesOf cs ≠ [] := by
  fun_cases linesOf cs with
  | case1 => exact absurd rfl h
  | case2 | case3 => exact List.cons_ne_nil _ _
  | case4 c rest =>
    unfold consFirst
    split <;> exact List.cons_ne_nil _ _

/-- A line before those of a text is not the last. -/
theorem getLast?_cons_linesOf {cs : List Char} (h : cs ≠ []) (line : List Char) :
    (line :: linesOf cs).getLast? = (linesOf cs).getLast? := by
  obtain ⟨first, more, hlines⟩ := List.exists_cons_of_ne_nil (linesOf_ne_nil h)
  rw [hlines, List.getLast?_cons_cons]

/-- The last line of a text that does not end with a line feed ends as the text does. -/
theorem getLast?_of_getLast?_linesOf {cs last : List Char} (h : (linesOf cs).getLast? = some last)
    (hnewline : cs.getLast? ≠ some '\n') : last.getLast? = cs.getLast? := by
  fun_induction linesOf cs generalizing last with
  | case1 => cases h
  | case2 rest ih =>
    cases rest with
    | nil => exact absurd rfl hnewline
    | cons c cs =>
      rw [List.getLast?_cons_cons] at hnewline ⊢
      rw [getLast?_cons_linesOf (List.cons_ne_nil c cs)] at h
      exact ih h hnewline
  | case3 rest ih =>
    cases rest with
    | nil => exact absurd rfl hnewline
    | cons c cs =>
      rw [List.getLast?_cons_cons, List.getLast?_cons_cons] at hnewline ⊢
      rw [getLast?_cons_linesOf (List.cons_ne_nil c cs)] at h
      exact ih h hnewline
  | case4 c rest hn hr ih =>
    cases rest with
    | nil =>
      obtain rfl : [c] = last := Option.some.inj h
      rfl
    | cons d ds =>
      obtain ⟨first, more, hlines⟩ := List.exists_cons_of_ne_nil (linesOf_ne_nil (List.cons_ne_nil d ds))
      rw [List.getLast?_cons_cons] at hnewline ⊢
      rw [hlines] at h ih
      cases more with
      | nil =>
        obtain rfl : c :: first = last := Option.some.inj h
        have hfirst := ih rfl hnewline
        cases first with
        | nil => exact absurd hfirst.symm (by simp)
        | cons e es => rwa [List.getLast?_cons_cons]
      | cons line more => exact ih h hnewline

/-! ## Trimming -/

/-- The blanks, by their code points. -/
theorem isBlank_iff (c : Char) : isBlank c = true ↔ c.toNat ∈
    [9, 10, 11, 12, 13, 0x20, 0x85, 0xA0, 0x1680, 0x2000, 0x2001, 0x2002, 0x2003, 0x2004, 0x2005,
      0x2006, 0x2007, 0x2008, 0x2009, 0x200A, 0x2028, 0x2029, 0x202F, 0x205F, 0x3000] := by
  simp only [isBlank, CharRanges.contains, blankRanges, List.any_toArray, List.any_cons,
    List.any_nil, Bool.or_eq_true, Bool.and_eq_true, decide_eq_true_eq, List.mem_cons,
    List.not_mem_nil, Bool.false_eq_true, or_false]
  omega

/-- A line feed is blank. -/
theorem isBlank_newline : isBlank '\n' = true := by decide +kernel

/-- So is a return. -/
theorem isBlank_return : isBlank '\r' = true := by decide +kernel

/-- The end that trimming takes off. -/
def blankEnd (cs : List Char) : List Char := cs.rtakeWhile isBlank

/-- A text is what is left of it without the blanks at its end, and these blanks. -/
theorem trimEnd_append_blankEnd (cs : List Char) : trimEnd cs ++ blankEnd cs = cs :=
  List.rdropWhile_append_rtakeWhile

/-- Trimming puts nothing in. -/
theorem mem_of_mem_trimChars {cs : List Char} {c : Char} (h : c ∈ trimChars cs) : c ∈ cs := by
  have hmem : c ∈ cs.dropWhile isBlank := by
    rw [← trimEnd_append_blankEnd (cs.dropWhile isBlank)]
    exact List.mem_append_left _ h
  exact (List.dropWhile_suffix isBlank).subset hmem

/-- What stands in the blanks at the end is blank. -/
theorem isBlank_of_mem_blankEnd {cs : List Char} {c : Char} (h : c ∈ blankEnd cs) : isBlank c = true :=
  List.mem_rtakeWhile_imp h

/-- What is left by trimming does not end with a blank. -/
theorem not_isBlank_getLast_trimEnd (cs : List Char) (h : trimEnd cs ≠ []) :
    isBlank ((trimEnd cs).getLast h) = false := by
  have := List.rdropWhile_last_not isBlank cs h
  exact Bool.not_eq_true _ ▸ this

/-- What is left by trimming does not end with that blank. -/
theorem getLast?_trimEnd_ne (cs : List Char) {c : Char} (hc : isBlank c = true) :
    (trimEnd cs).getLast? ≠ some c := by
  intro h
  have hne : trimEnd cs ≠ [] := by
    rintro hnil
    rw [hnil] at h
    cases h
  have hlast := not_isBlank_getLast_trimEnd cs hne
  rw [List.getLast?_eq_some_getLast hne, Option.some.injEq] at h
  rw [h, hc] at hlast
  cases hlast

/-- There is something on the last line of what is left by trimming, and no carriage return ends it. -/
theorem getLast?_linesOf_trimEnd (cs : List Char) :
    ∀ last ∈ (linesOf (trimEnd cs)).getLast?, last ≠ [] ∧ last.getLast? ≠ some '\r' := by
  intro last hlast
  have hend := getLast?_of_getLast?_linesOf hlast (getLast?_trimEnd_ne cs isBlank_newline)
  refine ⟨?_, hend ▸ getLast?_trimEnd_ne cs isBlank_return⟩
  rintro rfl
  rw [List.getLast?_eq_none_iff.mp hend.symm] at hlast
  cases hlast

/-- Blanks after a text whose last character is none lengthen its last line, and add lines of blanks. -/
theorem linesOf_append_blanks (body blanks : List Char) (hne : body ≠ [])
    (hlast : isBlank (body.getLast hne) = false) (hb : ∀ c ∈ blanks, isBlank c = true) :
    ∃ front last tail later, linesOf body = front ++ [last] ∧
      linesOf (body ++ blanks) = front ++ (last ++ tail) :: later ∧
      (∀ c ∈ tail, isBlank c = true) ∧ ∀ line ∈ later, ∀ c ∈ line, isBlank c = true := by
  have hblank := forall_mem_linesOf blanks fun c hc _ => hb c hc
  fun_induction linesOf body with
  | case1 => exact absurd rfl hne
  | case2 rest ih =>
    -- the body cannot end with a line feed, which is a blank
    have hrest : rest ≠ [] := by
      rintro rfl
      exact absurd (hlast.symm.trans isBlank_newline) (by simp)
    rw [List.getLast_cons hrest] at hlast
    obtain ⟨front, last, tail, later, h₁, h₂, ht, hl⟩ := ih hrest hlast
    exact ⟨[] :: front, last, tail, later, by rw [h₁]; rfl,
      by rw [List.cons_append, linesOf, h₂]; rfl, ht, hl⟩
  | case3 rest ih =>
    have hrest : rest ≠ [] := by
      rintro rfl
      exact absurd (hlast.symm.trans isBlank_newline) (by simp)
    rw [List.getLast_cons (by simp), List.getLast_cons hrest] at hlast
    obtain ⟨front, last, tail, later, h₁, h₂, ht, hl⟩ := ih hrest hlast
    exact ⟨[] :: front, last, tail, later, by rw [h₁]; rfl,
      by rw [List.cons_append, List.cons_append, linesOf, h₂]; rfl, ht, hl⟩
  | case4 c rest hn hr ih =>
    cases rest with
    | nil =>
      -- the body ends here, so its last line goes on with the first line of the blanks
      have hc : isBlank c = false := hlast
      have hcr : c ≠ '\r' := by
        rintro rfl
        exact absurd (hc.symm.trans isBlank_return) (by simp)
      have hstep : linesOf ([c] ++ blanks) = consFirst c (linesOf blanks) :=
        linesOf_cons _ _ (fun heq => hn heq) (fun h => hcr h.1)
      cases hlines : linesOf blanks with
      | nil =>
        exact ⟨[], [c], [], [], rfl, by rw [hstep, hlines]; rfl, by simp, by simp⟩
      | cons first later =>
        rw [hlines] at hblank
        exact ⟨[], [c], first, later, rfl, by rw [hstep, hlines]; rfl,
          hblank first (by simp), fun line hline => hblank line (by simp [hline])⟩
    | cons d ds =>
      rw [List.getLast_cons (by simp)] at hlast
      obtain ⟨front, last, tail, later, h₁, h₂, ht, hl⟩ := ih (by simp) hlast
      have hstep : linesOf (c :: (d :: ds) ++ blanks) = consFirst c (linesOf (d :: ds ++ blanks)) :=
        linesOf_cons _ _ (fun heq => hn heq)
          (fun h => hr ds h.1 (by simpa using h.2))
      cases front with
      | nil =>
        exact ⟨[], c :: last, tail, later, by rw [h₁]; rfl, by rw [hstep, h₂]; rfl, ht, hl⟩
      | cons first front =>
        exact ⟨(c :: first) :: front, last, tail, later, by rw [h₁]; rfl,
          by rw [hstep, h₂]; rfl, ht, hl⟩

/-- The lines of a text and those of the text without the blanks at its end: each of these is one of
those without blanks at its end, and what comes after them is blank. -/
theorem linesOf_trimEnd (cs : List Char) : ∃ (items : List (List Char × List Char)) (later : List (List Char)),
    linesOf (trimEnd cs) = items.map (·.1) ∧
      linesOf cs = items.map (fun item => item.1 ++ item.2) ++ later ∧
      (∀ item ∈ items, ∀ c ∈ item.2, isBlank c = true) ∧ ∀ line ∈ later, ∀ c ∈ line, isBlank c = true := by
  by_cases hempty : trimEnd cs = []
  · refine ⟨[], linesOf cs, by rw [hempty]; rfl, rfl, by simp, ?_⟩
    have hblank : ∀ c ∈ cs, isBlank c = true := by
      have hsplit := trimEnd_append_blankEnd cs
      rw [hempty, List.nil_append] at hsplit
      rw [← hsplit]
      exact fun c hc => isBlank_of_mem_blankEnd hc
    exact forall_mem_linesOf cs fun c hc _ => hblank c hc
  · obtain ⟨front, last, tail, later, hshort, hlong, htail, hlater⟩ :=
      linesOf_append_blanks (trimEnd cs) (blankEnd cs) hempty (not_isBlank_getLast_trimEnd cs hempty)
        fun c hc => isBlank_of_mem_blankEnd hc
    rw [trimEnd_append_blankEnd] at hlong
    refine ⟨front.map (fun line => (line, [])) ++ [(last, tail)], later, ?_, ?_, ?_, hlater⟩
    · simp [hshort, Function.comp_def]
    · simp [hlong, Function.comp_def]
    · intro item hitem
      rcases List.mem_append.mp hitem with hfront | hlast
      · obtain ⟨line, -, rfl⟩ := List.mem_map.mp hfront
        simp
      · rw [List.mem_singleton.mp hlast]
        exact htail

end TableScript.Text
