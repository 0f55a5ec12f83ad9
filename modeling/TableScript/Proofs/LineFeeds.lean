import TableScript.Proofs.Naming
import TableScript.Chunk

/-!
# Line feeds

Lines of a script must not have line feeds in them. Literals escape those of texts, so the lines of a
chunk have none as long as the names of its dataframes have none (`oneLine_of_mem_lines`), whatever
headers, paths and scripts are in its parameters.

Comments do not escape anything. Most of them show texts of their parameters as they are, and they have
a line feed exactly if one of these texts has one (`oneLine_comment_iff`).
-/

namespace TableScript

/-! ## Texts on one line -/

namespace Text

/-- The text has no line feed in it. -/
def OneLine (s : String) : Prop := '\n' ∉ s.toList

instance (s : String) : Decidable (OneLine s) := inferInstanceAs (Decidable ('\n' ∉ s.toList))

/-- A text of two pieces is one line exactly if both are. -/
@[simp] theorem oneLine_append (s t : String) : OneLine (s ++ t) ↔ OneLine s ∧ OneLine t := by
  rw [OneLine, String.toList_append, List.mem_append, not_or]
  rfl

/-- Characters without a line feed are one line. -/
theorem oneLine_ofList (cs : List Char) : OneLine (String.ofList cs) ↔ '\n' ∉ cs := by
  rw [OneLine, String.toList_ofList]

/-- A character that is not in what separates the pieces is not between them. -/
theorem not_mem_intercalate {c : Char} {separator : String} (h : c ∉ separator.toList)
    (pieces : List String) :
    c ∉ (separator.intercalate pieces).toList ↔ ∀ piece ∈ pieces, c ∉ piece.toList := by
  rw [String.toList_intercalate]
  induction pieces with
  | nil => simp
  | cons piece rest ih =>
    cases rest with
    | nil => simp
    | cons next rest =>
      rw [List.map_cons] at ih
      rw [List.map_cons, List.map_cons, List.intercalate_cons_cons, List.mem_append, List.mem_append,
        not_or, not_or, ih]
      constructor
      · rintro ⟨⟨hpiece, -⟩, hrest⟩
        exact List.forall_mem_cons.mpr ⟨hpiece, hrest⟩
      · intro hall
        obtain ⟨hpiece, hrest⟩ := List.forall_mem_cons.mp hall
        exact ⟨⟨hpiece, h⟩, hrest⟩

/-- Pieces that are put together are on one line exactly if each is. -/
theorem oneLine_intercalate {separator : String} (h : OneLine separator) (pieces : List String) :
    OneLine (separator.intercalate pieces) ↔ ∀ piece ∈ pieces, OneLine piece :=
  not_mem_intercalate h pieces

/-- A word has no blanks in it. -/
theorem oneLine_of_mem_wordsFrom {word cs : List Char} (hword : '\n' ∉ word) {s : String}
    (h : s ∈ wordsFrom word cs) : OneLine s := by
  have hdone : OneLine (String.ofList word.reverse) := by
    rwa [oneLine_ofList, List.mem_reverse]
  induction cs generalizing word with
  | nil =>
    rw [wordsFrom] at h
    split at h
    · cases h
    · obtain rfl := List.mem_singleton.mp h
      exact hdone
  | cons c rest ih =>
    rw [wordsFrom] at h
    split at h
    case isTrue =>
      split at h
      · exact ih (by simp) h (by decide)
      · rcases List.mem_cons.mp h with rfl | hrest
        · exact hdone
        · exact ih (by simp) hrest (by decide)
    case isFalse hblank =>
      have hc : c ≠ '\n' := by
        rintro rfl
        exact hblank isBlank_newline
      have hword' : '\n' ∉ c :: word := fun hmem => by
        rcases List.mem_cons.mp hmem with heq | hmem
        · exact hc heq.symm
        · exact hword hmem
      exact ih hword' h (by rwa [oneLine_ofList, List.mem_reverse])

/-- The words of a text are one line each. -/
theorem oneLine_of_mem_words {s word : String} (h : word ∈ words s) : OneLine word :=
  oneLine_of_mem_wordsFrom (by simp) h

end Text

open Text

/-! ## Literals -/

namespace Script

/-- The literal of a text is one line, whatever the text is. -/
theorem oneLine_stringLiteral (s : String) : OneLine (stringLiteral s) :=
  not_mem_stringLiteral (by simp) s

/-- So is the literal of a path. -/
theorem oneLine_pathLiteral (path : String) : OneLine (pathLiteral path) :=
  not_mem_pathLiteral (by simp) path

/-- No list of literals has a line feed or a carriage return in it. -/
theorem not_mem_textListLiteral {c : Char} (hc : c ∈ ['\n', '\r']) (texts : List String) :
    c ∉ (textListLiteral texts).toList := by
  have hends : ∀ c ∈ ['\n', '\r'], c ∉ ['[', ']', ',', ' '] := by simp
  have hsigns := hends c hc
  simp only [List.mem_cons, List.not_mem_nil, or_false, not_or] at hsigns
  have hcomma : c ∉ ", ".toList := by
    rw [show ", ".toList = [',', ' '] from rfl]
    simp [hsigns]
  have hitems : c ∉ (", ".intercalate (texts.map stringLiteral)).toList :=
    (not_mem_intercalate hcomma _).mpr (List.forall_mem_map.mpr fun s _ => not_mem_stringLiteral hc s)
  rw [textListLiteral, String.toList_append, String.toList_append, List.mem_append, List.mem_append,
    not_or, not_or]
  exact ⟨⟨by simp [hsigns], hitems⟩, by simp [hsigns]⟩

/-- So is the literal of a list of texts. -/
theorem oneLine_textListLiteral (texts : List String) : OneLine (textListLiteral texts) :=
  not_mem_textListLiteral (by simp) texts

/-- So is the literal of a dictionary of texts. -/
theorem oneLine_dictLiteral (entries : List (String × String)) :
    OneLine (literal (.dict (entries.map fun entry => (entry.1, .str entry.2)))) := by
  rw [literal, oneLine_append, oneLine_append, oneLine_intercalate (by decide)]
  refine ⟨⟨by decide, ?_⟩, by decide⟩
  induction entries with
  | nil => simp [entryLiterals]
  | cons entry rest ih =>
    rw [List.map_cons, entryLiterals, List.forall_mem_cons, oneLine_append, oneLine_append, literal]
    exact ⟨⟨⟨oneLine_stringLiteral _, by decide⟩, oneLine_stringLiteral _⟩, ih⟩

/-- A word is one line. -/
theorem IsWord.oneLine {s : String} (h : IsWord s.toList) : OneLine s := h.newline_not_mem

/-- So is a number. -/
theorem oneLine_toString (n : Nat) : OneLine (toString n) := fun hmem =>
  absurd (isNameChar_of_mem_toString hmem) (by decide +kernel)

end Script

/-! ## Lines of chunks -/

namespace Chunk

open Script

/-- The line that reads a file is one line exactly if the name in front is. -/
theorem oneLine_readLine_iff (name path : String) : OneLine (readLine name path) ↔ OneLine name := by
  rw [readLine, oneLine_append, oneLine_append, oneLine_append]
  exact ⟨fun h => h.1.1.1, fun h => ⟨⟨⟨h, by decide⟩, oneLine_pathLiteral path⟩, by decide⟩⟩

/-- A line that gets a name is one line still, if the name is. -/
theorem newline_not_mem_changeLine {name : String} (hname : OneLine name) (number : Nat)
    {lines : List (List Char)} (hlines : ∀ line ∈ lines, '\n' ∉ line) :
    ∀ line ∈ changeLine number (assignLine name) lines, '\n' ∉ line := by
  intro line hline
  unfold changeLine at hline
  split at hline
  · exact hlines line hline
  · obtain ⟨i, hi, rfl⟩ := List.mem_iff_getElem.mp hline
    rw [List.getElem_modify]
    rw [List.length_modify] at hi
    split
    · have hold := hlines _ (List.getElem_mem hi)
      unfold assignLine
      simp only [List.mem_append, not_or]
      exact ⟨hname, by decide, fun hmem => hold (mem_of_mem_trimChars hmem)⟩
    · exact hlines _ (List.getElem_mem hi)

/-- The lines of a script that was run stay lines, also the one that gets a name. -/
theorem oneLine_of_mem_transformationLines {c : Chunk}
    (hcreated : ∀ name, (c.fact? "created_dataframe_name").bind Value.asText? = some name → OneLine name) :
    ∀ line ∈ c.transformationLines, OneLine line := by
  have hlines : ∀ line ∈ linesOf (trimEnd ((c.textParam? "edited_completion").getD "").toList),
      '\n' ∉ line := fun line hline => newline_not_mem_of_mem_linesOf hline
  intro line hline
  unfold transformationLines at hline
  obtain ⟨cs, hcs, rfl⟩ := List.mem_map.mp hline
  rw [oneLine_ofList]
  split at hcs
  case h_1 name number hname _ => exact newline_not_mem_changeLine (hcreated name hname) _ hlines cs hcs
  case h_2 => exact hlines cs hcs

/-- The lines of a chunk are lines, if the names of dataframes in them have no line feeds. -/
theorem oneLine_of_mem_lines {c : Chunk} (hsheet : ∀ name, c.sheetName? = some name → OneLine name)
    (hpost : ∀ name ∈ c.post.names, OneLine name)
    (hcreated : c.content = .transformation → ∀ name,
      (c.fact? "created_dataframe_name").bind Value.asText? = some name → OneLine name) :
    ∀ line ∈ c.lines, OneLine line := by
  have hnew : ∀ name ∈ c.newNames, OneLine name := fun name hname =>
    hpost name (List.mem_filter.mp hname).1
  intro line hline
  unfold lines at hline
  split at hline
  case h_1 hcontent => exact oneLine_of_mem_transformationLines (hcreated hcontent) line hline
  case h_2 =>
    -- paths are quoted, so only the names of the new dataframes matter
    obtain ⟨i, hi⟩ := List.mem_iff_getElem?.mp hline
    obtain ⟨path, name, -, hname, rfl⟩ := List.getElem?_zipWith_eq_some.mp hi
    exact (oneLine_readLine_iff name path).mpr (hnew name (List.mem_of_getElem? hname))
  case h_3 =>
    unfold newColumnLines at hline
    split at hline
    case h_1 name f header hfound _ =>
      obtain rfl := List.mem_singleton.mp hline
      have hname := hsheet name (by rw [sheetName?, hfound, Option.map_some])
      simp only [oneLine_append]
      exact ⟨⟨⟨⟨⟨hname, by decide⟩, oneLine_toString _⟩, by decide⟩, oneLine_stringLiteral _⟩, by decide⟩
    case h_2 => cases hline
  case h_4 mapping _ =>
    unfold renamingLines at hline
    split at hline
    case h_1 name hname =>
      split at hline
      · cases hline
      · obtain rfl := List.mem_singleton.mp hline
        simp only [oneLine_append]
        exact ⟨⟨⟨hsheet name hname, by decide⟩, oneLine_dictLiteral mapping⟩, by decide⟩
    case h_2 => cases hline
  case h_5 headers _ =>
    unfold deletionLines at hline
    split at hline
    case h_1 name hname =>
      split at hline
      · cases hline
      · obtain rfl := List.mem_singleton.mp hline
        simp only [oneLine_append]
        exact ⟨⟨⟨hsheet name hname, by decide⟩, oneLine_textListLiteral headers⟩, by decide⟩
    case h_2 => cases hline
  case h_6 =>
    unfold copyLines at hline
    split at hline
    case h_1 name copy hname hcopy =>
      obtain rfl := List.mem_singleton.mp hline
      simp only [oneLine_append]
      exact ⟨⟨⟨hnew copy (List.mem_of_head? hcopy), by decide⟩, hsheet name hname⟩, by decide⟩
    case h_2 => cases hline

/-! ## Comments -/

/-- The texts of its parameters that the comment of a chunk shows as they are. -/
def shownTexts (c : Chunk) : List String :=
  match c.content with
  | .transformation => []
  | .fileImport => textsParam c.params "file_names"
  | .newColumn => [(c.textParam? "column_header").getD ""]
  | .renaming mapping => mapping.flatMap fun entry => [entry.1, entry.2]
  | .deletion headers => headers
  | .copy => []

/-- A comment is on one line exactly if each of the texts that it shows is. -/
theorem oneLine_comment_iff {c : Chunk} (hsheet : ∀ name, c.sheetName? = some name → OneLine name) :
    OneLine c.comment ↔ ∀ text ∈ c.shownTexts, OneLine text := by
  have hname : OneLine (c.sheetName?.getD "") := by
    cases hsheetName : c.sheetName? with
    | none => exact (by decide : OneLine "")
    | some name => exact hsheet name hsheetName
  have hcomma : OneLine ", " := by decide
  unfold comment shownTexts
  match c.content with
  | .transformation =>
    simp only [oneLine_intercalate (show OneLine " " by decide), List.not_mem_nil, false_imp_iff,
      implies_true, iff_true]
    exact fun word hword => oneLine_of_mem_words hword
  | .fileImport =>
    simp only [oneLine_append, oneLine_intercalate hcomma]
    exact and_iff_right (by decide)
  | .newColumn =>
    simp only [oneLine_append, List.forall_mem_singleton]
    exact ⟨fun h => h.1.1.2, fun h => ⟨⟨⟨by decide, h⟩, by decide⟩, hname⟩⟩
  | .renaming mapping =>
    simp only [oneLine_append, oneLine_intercalate hcomma, List.forall_mem_map, List.forall_mem_flatMap,
      List.forall_mem_cons, List.not_mem_nil, false_imp_iff, implies_true, and_true]
    exact ⟨fun h entry hentry => ⟨(h.1.1.2 entry hentry).1.1, (h.1.1.2 entry hentry).2⟩,
      fun h => ⟨⟨⟨by decide, fun entry hentry => ⟨⟨(h entry hentry).1, by decide⟩,
        (h entry hentry).2⟩⟩, by decide⟩, hname⟩⟩
  | .deletion headers =>
    simp only [oneLine_append, oneLine_intercalate hcomma]
    exact and_iff_right (by decide)
  | .copy =>
    simp only [oneLine_append, List.not_mem_nil, false_imp_iff, implies_true, iff_true]
    exact ⟨by decide, hname⟩

end Chunk

end TableScript
