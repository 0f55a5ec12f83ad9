import TableScript.Csv.Reader
import TableScript.Csv.Writer
import Mathlib.Data.List.Basic

/-!
# Records written and read

The text of records is read as these records (`fields_records_textOf`): a field that stands as it
is has no comma, quote or line break in it, and one in quotes has its quotes doubled. Between a
blank line, which is no record, and the record of one empty field stands a pair of quotes.

What the scanner has read is told without the places that it counts (`Scanner.At`).
-/

namespace TableScript.Text

/-! ## Encoded texts -/

/-- The encoding of a character stands for it, whatever follows. -/
theorem leadingChar?_encode (c : Char) (rest : List UInt8) :
    leadingChar? (String.utf8EncodeChar c ++ rest) = some c := by
  have hlength : (String.utf8EncodeChar c).length ≤ 4 := by
    rw [String.length_utf8EncodeChar]
    exact Char.utf8Size_le_four c
  rw [leadingChar?, List.take_append, List.take_of_length_le hlength, List.toByteArray_append]
  exact ByteArray.utf8DecodeChar?_utf8EncodeChar_append

/-- The units of bytes do not depend on what stands before them. -/
theorem utf8UnitsAfter_append (bytes rest : List UInt8) :
    utf8UnitsAfter bytes.length (bytes ++ rest) = utf8Units rest := by
  induction bytes with
  | nil => rfl
  | cons b bytes ih => exact ih

/-- Characters are the units of their own bytes. -/
theorem utf8Units_encode (cs : List Char) :
    utf8Units (cs.flatMap String.utf8EncodeChar) = cs.map Utf8Unit.char := by
  induction cs with
  | nil => rfl
  | cons c cs ih =>
    have hleading := leadingChar?_encode c (cs.flatMap String.utf8EncodeChar)
    have hlength := String.length_utf8EncodeChar c
    rw [List.flatMap_cons, List.map_cons, ← ih]
    generalize String.utf8EncodeChar c = bytes at hleading hlength ⊢
    cases bytes with
    | nil => exact absurd hlength (Nat.ne_of_lt (Char.utf8Size_pos c))
    | cons b bytes =>
      have hskip : c.utf8Size - 1 = bytes.length := by
        rw [← hlength]
        rfl
      rw [List.cons_append] at hleading ⊢
      rw [utf8Units, utf8UnitsAfter, hleading]
      dsimp only
      rw [hskip, utf8UnitsAfter_append]

/-- Units that are characters have a text. -/
theorem charsOfUnits_map (cs : List Char) (offset : Nat) :
    charsOfUnits offset (cs.map .char) = .ok cs := by
  induction cs generalizing offset with
  | nil => rfl
  | cons c cs ih =>
    rw [List.map_cons, charsOfUnits, ih]
    rfl

/-- The encoding of a text is decoded as that text. -/
theorem decodeUtf8_encode (cs : List Char) :
    decodeUtf8 (cs.flatMap String.utf8EncodeChar) = .ok (String.ofList cs) := by
  rw [decodeUtf8, utf8Units_encode, charsOfUnits_map]
  rfl

end TableScript.Text

namespace TableScript.Csv

open TableScript.Text

/-! ## What the scanner has read -/

/-- The units of characters. -/
def unitsOf (cs : List Char) : List Utf8Unit := cs.map .char

/-- The scanner is in that mode with the begun field, last unit first, the fields before it, last
one first, and the fields of the records before, last record first. -/
def Scanner.At (s : Scanner) (mode : Mode) (field : List Utf8Unit) (fields : List (List Utf8Unit))
    (records : List (List (List Utf8Unit))) : Prop :=
  ∃ read place line byte, s = ⟨mode, field, fields, read, place, line, byte⟩ ∧
    read.map Record.fields = records

/-- Nothing of a field has been read yet. -/
def Mode.Begins (mode : Mode) : Prop := mode = .recordStart ∨ mode = .fieldStart

/-- A field can end here. -/
def Mode.Ends (mode : Mode) : Prop := mode = .fieldStart ∨ mode = .plain ∨ mode = .quoteSeen

/-- Fields of a record are joined by commas. -/
theorem joinFields_cons (field next : List Char) (rest : List (List Char)) :
    joinFields (field :: next :: rest) = fieldText field ++ ',' :: joinFields (next :: rest) := rfl

/-- Only one empty field makes a blank line. -/
theorem joinFields_eq_nil {field : List Char} {rest : List (List Char)}
    (h : joinFields (field :: rest) = []) : field = [] ∧ rest = [] := by
  cases rest with
  | nil =>
    have hfield : fieldText field = [] := h
    unfold fieldText at hfield
    split at hfield
    · cases hfield
    · exact ⟨hfield, rfl⟩
  | cons next rest =>
    rw [joinFields_cons, List.append_eq_nil_iff] at h
    cases h.2

namespace Scanner

/-- A character that needs no quotes is taken as it is inside a field without them. -/
theorem stepPlain_char (s : Scanner) {c : Char} (h : needsQuotes c = false) :
    s.stepPlain (.char c) = s.addUnit .plain (.char c) := by
  unfold stepPlain
  split <;> simp_all [needsQuotes]

/-- So is one at the beginning of a field, which then has none. -/
theorem stepFieldStart_char (s : Scanner) {c : Char} (h : needsQuotes c = false) :
    s.stepFieldStart (.char c) = s.addUnit .plain (.char c) := by
  rw [← stepPlain_char s h]
  unfold stepFieldStart
  split <;> simp_all [needsQuotes]

/-- The scanner after more characters. -/
def run (s : Scanner) (cs : List Char) : Scanner := (unitsOf cs).foldl step s

/-- The scanner takes one character after the other. -/
theorem run_cons (s : Scanner) (c : Char) (cs : List Char) :
    s.run (c :: cs) = (s.step (.char c)).run cs :=
  rfl

/-- Characters are scanned piece by piece. -/
theorem run_append (s : Scanner) (cs ds : List Char) : s.run (cs ++ ds) = (s.run cs).run ds := by
  rw [run, unitsOf, List.map_append, List.foldl_append]
  rfl

namespace At

variable {s : Scanner} {mode : Mode} {field : List Utf8Unit} {fields : List (List Utf8Unit)}
  {records : List (List (List Utf8Unit))}

/-- A character that stands as it is begins a field or goes on with it. -/
theorem plain (h : s.At mode field fields records) (hmode : mode.Begins ∨ mode = .plain) {c : Char}
    (hc : needsQuotes c = false) :
    (s.step (.char c)).At .plain (.char c :: field) fields records := by
  obtain ⟨read, place, line, byte, rfl, rfl⟩ := h
  obtain ⟨t, ht⟩ : ∃ t, t = advance ⟨mode, field, fields, read, place, line, byte⟩ (.char c) :=
    ⟨_, rfl⟩
  have hstep : step ⟨mode, field, fields, read, place, line, byte⟩ (.char c) =
      t.addUnit .plain (.char c) := by
    rw [ht]
    rcases hmode with (rfl | rfl) | rfl
    · unfold step
      dsimp only [advance]
      split
      case h_1 heq =>
        cases heq
        cases hc
      case h_2 heq =>
        cases heq
        cases hc
      case h_3 => exact stepFieldStart_char _ hc
    · exact stepFieldStart_char _ hc
    · exact stepPlain_char _ hc
  rw [hstep, ht]
  exact ⟨_, _, _, _, rfl, rfl⟩

/-- A quote where a field begins opens it. -/
theorem opening (h : s.At mode field fields records) (hmode : mode.Begins) :
    (s.step (.char '"')).At .quoted field fields records := by
  obtain ⟨read, place, line, byte, rfl, rfl⟩ := h
  rcases hmode with rfl | rfl <;> exact ⟨_, _, _, _, rfl, rfl⟩

/-- A character between quotes. -/
theorem quoted (h : s.At .quoted field fields records) {c : Char} (hc : c ≠ '"') :
    (s.step (.char c)).At .quoted (.char c :: field) fields records := by
  obtain ⟨read, place, line, byte, rfl, rfl⟩ := h
  unfold step
  dsimp only [advance]
  split
  case h_1 heq =>
    cases heq
    exact absurd rfl hc
  case h_2 => exact ⟨_, _, _, _, rfl, rfl⟩

/-- A quote in a quoted field closes it, as far as can be told. -/
theorem closing (h : s.At .quoted field fields records) :
    (s.step (.char '"')).At .quoteSeen field fields records := by
  obtain ⟨read, place, line, byte, rfl, rfl⟩ := h
  exact ⟨_, _, _, _, rfl, rfl⟩

/-- A second quote after it stands for one in the field. -/
theorem doubled (h : s.At .quoteSeen field fields records) :
    (s.step (.char '"')).At .quoted (.char '"' :: field) fields records := by
  obtain ⟨read, place, line, byte, rfl, rfl⟩ := h
  exact ⟨_, _, _, _, rfl, rfl⟩

/-- A comma ends a field. -/
theorem comma (h : s.At mode field fields records) (hmode : mode.Begins ∨ mode.Ends) :
    (s.step (.char ',')).At .fieldStart [] (field.reverse :: fields) records := by
  obtain ⟨read, place, line, byte, rfl, rfl⟩ := h
  rcases hmode with (rfl | rfl) | (rfl | rfl | rfl) <;> exact ⟨_, _, _, _, rfl, rfl⟩

/-- A line feed ends a record. -/
theorem newline (h : s.At mode field fields records) (hmode : mode.Ends) :
    (s.step (.char '\n')).At .recordStart [] [] ((field.reverse :: fields).reverse :: records) := by
  obtain ⟨read, place, line, byte, rfl, rfl⟩ := h
  rcases hmode with rfl | rfl | rfl <;> exact ⟨_, _, _, _, rfl, rfl⟩

/-! ## Fields and records -/

/-- Characters that need no quotes are taken into the field. -/
theorem run_plain {cs : List Char} (hcs : ∀ c ∈ cs, needsQuotes c = false)
    (h : s.At .plain field fields records) :
    (s.run cs).At .plain ((unitsOf cs).reverse ++ field) fields records := by
  induction cs generalizing s field with
  | nil => exact h
  | cons c cs ih =>
    have hnext := h.plain (.inr rfl) (hcs c List.mem_cons_self)
    have hrest := ih (fun d hd => hcs d (List.mem_cons_of_mem c hd)) hnext
    rw [run_cons]
    simpa [unitsOf] using hrest

/-- Doubled quotes and all else inside quotes are taken into the field as they were. -/
theorem run_quoted (cs : List Char) (h : s.At .quoted field fields records) :
    (s.run (doubleQuotes cs)).At .quoted ((unitsOf cs).reverse ++ field) fields records := by
  induction cs generalizing s field with
  | nil => exact h
  | cons c cs ih =>
    have hunits :
        (unitsOf (c :: cs)).reverse ++ field = (unitsOf cs).reverse ++ .char c :: field := by
      simp [unitsOf]
    rw [hunits]
    by_cases hc : c = '"'
    · subst hc
      exact ih h.closing.doubled
    · have htext : doubleQuotes (c :: cs) = c :: doubleQuotes cs := if_neg hc
      rw [htext, run_cons]
      exact ih (h.quoted hc)

/-- A field is read as it was written; only the empty one leaves no trace. -/
theorem run_fieldText (h : s.At mode [] fields records) (hmode : mode.Begins) (cs : List Char) :
    ∃ mode', (s.run (fieldText cs)).At mode' (unitsOf cs).reverse fields records ∧
      (mode'.Ends ∨ mode' = mode ∧ fieldText cs = []) := by
  unfold fieldText
  split
  case isTrue =>
    refine ⟨.quoteSeen, ?_, .inl (.inr (.inr rfl))⟩
    have hinside := run_quoted cs (h.opening hmode)
    rw [List.append_nil] at hinside
    rw [run_cons, run_append]
    exact hinside.closing
  case isFalse hquotes =>
    have hplain : ∀ c ∈ cs, needsQuotes c = false := by simpa using hquotes
    cases cs with
    | nil => exact ⟨mode, h, .inr ⟨rfl, rfl⟩⟩
    | cons c cs =>
      refine ⟨.plain, ?_, .inl (.inr (.inl rfl))⟩
      have hfirst := h.plain (.inl hmode) (hplain c List.mem_cons_self)
      have hrest := run_plain (fun d hd => hplain d (List.mem_cons_of_mem c hd)) hfirst
      rw [run_cons]
      simpa [unitsOf] using hrest

/-- The fields of a record are scanned one by one, up to the end of the last. -/
theorem run_joinFields (h : s.At mode [] fields records) (hmode : mode.Begins) (cs : List Char)
    (rest : List (List Char)) : ∃ mode' field' fields',
      (s.run (joinFields (cs :: rest))).At mode' field' fields' records ∧
        (field'.reverse :: fields').reverse = fields.reverse ++ (cs :: rest).map unitsOf ∧
        (mode'.Ends ∨ mode' = mode ∧ joinFields (cs :: rest) = []) := by
  induction rest generalizing s mode fields cs with
  | nil =>
    obtain ⟨mode', hat, hend⟩ := h.run_fieldText hmode cs
    exact ⟨mode', _, _, hat, by simp, hend⟩
  | cons next rest ih =>
    obtain ⟨mode₁, hfirst, hend⟩ := h.run_fieldText hmode cs
    have hcomma := hfirst.comma (hend.elim .inr fun hsame => .inl (hsame.1 ▸ hmode))
    obtain ⟨mode', field', fields', hat, hfields, hend'⟩ := ih hcomma (.inr rfl) next
    refine ⟨mode', field', fields', ?_, ?_, .inl (hend'.elim id fun hsame => .inl hsame.1)⟩
    · rw [joinFields_cons, run_append, run_cons]
      exact hat
    · rw [hfields]
      simp

/-- A record is read as it was written, even that of one empty field. -/
theorem run_recordText (h : s.At .recordStart [] [] records) {row : List (List Char)}
    (hrow : row ≠ []) :
    (s.run (recordText row)).At .recordStart [] [] (row.map unitsOf :: records) := by
  obtain ⟨cs, rest, rfl⟩ := List.exists_cons_of_ne_nil hrow
  obtain ⟨mode, field, fields, hat, hfields, hend⟩ := h.run_joinFields (.inl rfl) cs rest
  unfold recordText
  split
  case h_1 hnil =>
    obtain ⟨rfl, rfl⟩ := joinFields_eq_nil hnil
    exact ((h.opening (.inl rfl)).closing.newline (.inr (.inr rfl)))
  case h_2 hne =>
    have hends : mode.Ends := hend.resolve_right fun hsame => hne hsame.2
    rw [run_append]
    rw [List.reverse_nil, List.nil_append] at hfields
    rw [← hfields]
    exact hat.newline hends

/-- Records are read as they were written. -/
theorem run_records (h : s.At .recordStart [] [] records) {rows : List (List String)}
    (hrows : ∀ row ∈ rows, row ≠ []) :
    (s.run (rows.flatMap fun row => recordText (row.map String.toList))).At .recordStart [] []
      ((rows.map (·.map (unitsOf ·.toList))).reverse ++ records) := by
  induction rows generalizing s records with
  | nil => exact h
  | cons row rows ih =>
    have hrow : row.map String.toList ≠ [] := by
      rw [ne_eq, List.map_eq_nil_iff]
      exact hrows row List.mem_cons_self
    have hrest := ih (h.run_recordText hrow) fun other hother =>
      hrows other (List.mem_cons_of_mem row hother)
    have hunits : (row.map String.toList).map unitsOf = row.map (unitsOf ·.toList) := List.map_map
    rw [hunits] at hrest
    rw [List.flatMap_cons, run_append, List.map_cons, List.reverse_cons, List.append_assoc]
    exact hrest

end At

end Scanner

/-- At the end of a record the scanner has all records. -/
theorem fields_finish {s : Scanner} {records : List (List (List Utf8Unit))}
    (h : s.At .recordStart [] [] records) : s.finish.map Record.fields = records.reverse := by
  obtain ⟨read, place, line, byte, rfl, rfl⟩ := h
  exact List.map_reverse

/-- Characters are scanned from the beginning, unless the first of them is a byte order mark. -/
theorem recordsOf_unitsOf {cs : List Char} (h : cs.head? ≠ some '\uFEFF') :
    recordsOf (unitsOf cs) = ((Scanner.initial 0).run cs).finish := by
  unfold recordsOf
  split
  case h_1 rest heq =>
    refine absurd ?_ h
    cases cs with
    | nil => cases heq
    | cons c cs =>
      rw [unitsOf, List.map_cons, List.cons.injEq, Utf8Unit.char.injEq] at heq
      rw [heq.1]
      rfl
  case h_2 => rfl

/-- The records of the text of records are these records. -/
theorem fields_records_textOf {rows : List (List String)} (hrows : ∀ row ∈ rows, row ≠ [])
    (hmark : (textOf rows).toList.head? ≠ some '\uFEFF') :
    (records (encodeUtf8 (textOf rows))).map Record.fields =
      rows.map (·.map (unitsOf ·.toList)) := by
  have hinitial : (Scanner.initial 0).At .recordStart [] [] [] := ⟨[], ⟨0, 1, 0⟩, 1, 0, rfl, rfl⟩
  have hread := hinitial.run_records hrows
  rw [List.append_nil] at hread
  have hunits : records (encodeUtf8 (textOf rows)) = recordsOf (unitsOf (textOf rows).toList) := by
    rw [records, encodeUtf8, utf8Units_encode]
    rfl
  rw [hunits, recordsOf_unitsOf hmark]
  unfold textOf
  rw [String.toList_ofList]
  exact (fields_finish hread).trans (List.reverse_reverse _)

/-- The first character of a field that is written is a quote or that of the field. -/
theorem head?_fieldText {field : List Char} (h : field.head? ≠ some '\uFEFF') :
    (fieldText field).head? ≠ some '\uFEFF' := by
  unfold fieldText
  split
  · rw [List.head?_cons]
    decide
  · exact h

/-- A text begins with a byte order mark only if its first field does. -/
theorem head?_textOf {field : String} {row : List String} {rows : List (List String)}
    (h : field.toList.head? ≠ some '\uFEFF') :
    (textOf ((field :: row) :: rows)).toList.head? ≠ some '\uFEFF' := by
  have hfield := head?_fieldText h
  have hjoin : (joinFields ((field :: row).map String.toList)).head? ≠ some '\uFEFF' := by
    cases row with
    | nil => exact hfield
    | cons next row =>
      rw [List.map_cons, List.map_cons, joinFields_cons, List.head?_append]
      cases hhead : (fieldText field.toList).head? with
      | none => simp
      | some c =>
        rw [hhead] at hfield
        exact hfield
  have hrecord : (recordText ((field :: row).map String.toList)).head? ≠ some '\uFEFF' := by
    unfold recordText
    split
    case h_1 => simp
    case h_2 hne =>
      rwa [List.head?_append_of_ne_nil _ hne]
  have hne : recordText ((field :: row).map String.toList) ≠ [] := by
    unfold recordText
    split <;> simp
  unfold textOf
  rwa [String.toList_ofList, List.flatMap_cons, List.head?_append_of_ne_nil _ hne]

end TableScript.Csv
