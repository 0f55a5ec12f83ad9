import TableScript.Proofs.CsvTexts
import TableScript.Proofs.Numerals
import TableScript.Proofs.Rectangles
import TableScript.Frame.Csv

/-!
# Frames written and read

A frame that was read from a CSV text is written as a text from which the same frame is read
(`ofCsv_toCsv`). Every cell that reading makes is read again from its own text (`cellOf_cellText`):
numbers because their texts are read as these numbers, all other texts because they are kept as they
are. The rest is that columns cut into rows and put together again are the columns.
-/

namespace TableScript.Frame

open TableScript.Text

/-! ## Cells -/

/-- Characters without blanks have none to be trimmed. -/
theorem trimChars_of_not_blank {cs : List Char} (h : ∀ c ∈ cs, isBlank c = false) :
    trimChars cs = cs := by
  have hkeep : ∀ ds : List Char, (∀ c ∈ ds, isBlank c = false) → ds.dropWhile isBlank = ds := by
    intro ds hds
    cases ds with
    | nil => rfl
    | cons c ds => exact List.dropWhile_cons_of_neg (by simp [hds c List.mem_cons_self])
  rw [trimChars, hkeep cs h, trimEnd, hkeep cs.reverse fun c hc => h c (List.mem_reverse.mp hc),
    List.reverse_reverse]

/-- Numbers have no blanks in them. -/
theorem trimChars_number {s : String} (h : Decimal.NumberText s) :
    trimChars s.toList = s.toList := by
  refine trimChars_of_not_blank fun c hc => ?_
  cases hblank : isBlank c with
  | false => rfl
  | true =>
    have hnone : Decimal.isNumberChar c = false :=
      Script.eq_false_of_isBlank hblank (by decide +kernel)
    rw [h c hc] at hnone
    cases hnone

/-- The text of a whole number is taken for that number. -/
theorem cellOf_decimalText (n : Int64) : cellOf (decimalText n) = .int n := by
  have hread := Decimal.readInt64?_decimalText n
  have htrim : trimChars (decimalText n).toList = (decimalText n).toList :=
    trimChars_number (Decimal.numberText_intText n.toInt)
  have hne : (decimalText n).toList.isEmpty = false := by
    cases hempty : (decimalText n).toList with
    | nil =>
      rw [hempty] at hread
      cases hread
    | cons => rfl
  unfold cellOf
  dsimp only
  rw [htrim, hne, hread]
  rfl

/-- The text of a finite number is taken for that number, not for a whole one. -/
theorem cellOf_floatText {x : Float} (hx : x.isFinite = true) :
    cellOf (Value.floatText x) = .float x := by
  have hread := Decimal.readFloat?_floatText hx
  have hwhole : Decimal.readInt64? (Value.floatText x).toList = none := by
    rw [Decimal.readInt64?, Decimal.readInt?_marked (Decimal.marked_floatText hx)]
    rfl
  have hne : (Value.floatText x).toList.isEmpty = false := by
    cases hempty : (Value.floatText x).toList with
    | nil =>
      rw [hempty] at hread
      cases hread
    | cons => rfl
  unfold cellOf
  dsimp only
  rw [trimChars_number (Decimal.numberText_floatText hx), hne, hwhole, hread]
  exact if_pos hx

/-- An empty field is a missing cell. -/
theorem cellOf_empty : cellOf "" = .null := rfl

/-- What is neither blank nor a number may be a truth value. -/
theorem cellOf_word {s : String} (htrim : trimChars s.toList = s.toList)
    (hne : s.toList.isEmpty = false) (hint : Decimal.readInt64? s.toList = none)
    (hfloat : (Decimal.readFloat? s.toList).isNone = true) :
    cellOf s = if s.toList = "True".toList || s.toList =
      "true".toList then .bool true else if s.toList = "False".toList || s.toList =
      "false".toList then .bool false else .str s := by
  unfold cellOf
  dsimp only
  rw [htrim, hne, hint, Option.isNone_iff_eq_none.mp hfloat]
  rfl

/-- A truth value is read from its text. -/
theorem cellOf_text_bool (b : Bool) : cellOf (cellText (.bool b)) = .bool b := by
  cases b with
  | true =>
    have hword : cellOf "True" = _ :=
      cellOf_word (by decide +kernel) (by decide) (by decide +kernel) (by decide +kernel)
    exact hword.trans (if_pos (by decide))
  | false =>
    have hword : cellOf "False" = _ :=
      cellOf_word (by decide +kernel) (by decide) (by decide +kernel) (by decide +kernel)
    exact hword.trans ((if_neg (by decide)).trans (if_pos (by decide)))

/-- What a text is taken for is taken for itself from its own text. -/
theorem cellOf_cellText (raw : String) : cellOf (cellText (cellOf raw)) = cellOf raw := by
  obtain ⟨v, hv⟩ : ∃ v, v = cellOf raw := ⟨_, rfl⟩
  have hkeep : v = .str raw → cellOf (cellText v) = v := by
    intro hstr
    rw [hstr] at hv ⊢
    exact hv.symm
  rw [← hv]
  unfold cellOf at hv
  dsimp only at hv
  split at hv
  · rw [hv]
    exact cellOf_empty
  · split at hv
    · rw [hv]
      exact cellOf_decimalText _
    · split at hv
      · split at hv
        case isTrue hfinite =>
          rw [hv]
          exact cellOf_floatText hfinite
        case isFalse => exact hkeep hv
      · split at hv
        · rw [hv]
          exact cellOf_text_bool true
        · split at hv
          · rw [hv]
            exact cellOf_text_bool false
          · exact hkeep hv

/-! ## Rows and columns -/

/-- The first cell as text is the text of the first cell, and both are empty without cells. -/
theorem cellText_headD (row : List Value) :
    (row.map cellText).headD "" = cellText (row.headD .null) := by
  cases row <;> rfl

/-- The first cells of the rows are the first column, and what is left of them are the rows of the
others. -/
theorem rowsOfColumns_cons {n : ℕ} {cells : List Value} (h : cells.length = n)
    (columns : List (List Value)) :
    (rowsOfColumns n (cells :: columns)).map (·.headD .null) = cells ∧
      (rowsOfColumns n (cells :: columns)).map List.tail = rowsOfColumns n columns := by
  induction n generalizing cells columns with
  | zero =>
    rw [List.length_eq_zero_iff] at h
    rw [h]
    exact ⟨rfl, rfl⟩
  | succ n ih =>
    obtain ⟨v, cells, rfl⟩ := List.exists_cons_of_length_eq_add_one h
    obtain ⟨hheads, htails⟩ := ih (Nat.succ.inj h) (columns.map List.tail)
    rw [rowsOfColumns, rowsOfColumns, List.map_cons, List.map_cons, List.map_cons, List.tail_cons]
    exact ⟨congrArg (v :: ·) hheads, congrArg (_ :: ·) htails⟩

/-- A row has a cell for every column. -/
theorem length_of_mem_rowsOfColumns {n : ℕ} {columns : List (List Value)} {row : List Value}
    (h : row ∈ rowsOfColumns n columns) : row.length = columns.length := by
  induction n generalizing columns with
  | zero => cases h
  | succ n ih =>
    rcases List.mem_cons.mp h with rfl | hrest
    · exact List.length_map _
    · rw [ih hrest, List.length_map]

/-- Columns that are cut into rows of texts are put together again, if each of their cells is taken
for itself from its text. -/
theorem columnsOfRows_rowsOfColumns {n : ℕ} {columns : List (String × List Value)}
    (hlength : ∀ column ∈ columns, column.2.length = n)
    (hcells : ∀ column ∈ columns, ∀ v ∈ column.2, cellOf (cellText v) = v) :
    columnsOfRows (columns.map (·.1)) ((rowsOfColumns n (columns.map (·.2))).map (·.map cellText)) =
      columns := by
  induction columns with
  | nil => rfl
  | cons column columns ih =>
    obtain ⟨header, cells⟩ := column
    obtain ⟨hheads, htails⟩ := rowsOfColumns_cons (hlength _ List.mem_cons_self) (columns.map (·.2))
    have hrest := ih (fun column h => hlength column (List.mem_cons_of_mem _ h))
      fun column h => hcells column (List.mem_cons_of_mem _ h)
    have hfirst : ((rowsOfColumns n (cells :: columns.map (·.2))).map (·.map cellText)).map
        (fun row => cellOf (row.headD "")) = cells := by
      calc ((rowsOfColumns n (cells :: columns.map (·.2))).map (·.map cellText)).map
            (fun row => cellOf (row.headD ""))
          = ((rowsOfColumns n (cells :: columns.map (·.2))).map (·.headD .null)).map
              (fun v => cellOf (cellText v)) := by
            simp only [List.map_map, Function.comp_def, cellText_headD]
        _ = cells.map (fun v => cellOf (cellText v)) := by rw [hheads]
        _ = cells := (List.map_congr_left (hcells _ List.mem_cons_self)).trans (List.map_id' cells)
    have hothers :
        ((rowsOfColumns n (cells :: columns.map (·.2))).map (·.map cellText)).map List.tail =
        (rowsOfColumns n (columns.map (·.2))).map (·.map cellText) := by
      rw [← htails]
      simp only [List.map_map, Function.comp_def, List.map_tail]
    rw [List.map_cons, List.map_cons, columnsOfRows, hfirst, hothers, hrest]

/-- Every cell of the columns of some rows is read from a text. -/
theorem mem_columnsOfRows {headers : List String} {rows : List (List String)}
    {column : String × List Value} (h : column ∈ columnsOfRows headers rows) :
    ∀ v ∈ column.2, ∃ raw, v = cellOf raw := by
  induction headers generalizing rows with
  | nil => cases h
  | cons header headers ih =>
    rcases List.mem_cons.mp h with rfl | hrest
    · intro v hv
      obtain ⟨row, -, rfl⟩ := List.mem_map.mp hv
      exact ⟨_, rfl⟩
    · exact ih hrest

/-- A new column is put at the end. -/
theorem columns_set {f g : Frame} {name : String} {cells : List Value}
    (hname : f.hasColumn name = false) (h : (f.set name cells).made = .ok g) :
    g.columns = f.columns ++ [(name, cells)] := by
  unfold set at h
  split at h
  · cases h
  · cases h
    exact Keyed.put_of_not_mem ((Keyed.has_eq_false_iff _ _).mp hname) cells

/-- A frame has the columns that were put in. -/
theorem columns_foldlM {columns : List (String × List Value)} {f g : Frame}
    (h : columns.foldlM (fun f (name, cells) =>
      if f.hasColumn name then .error (.duplicateColumn name) else (f.set name cells).made) f =
        (.ok g : Except FrameError Frame)) : g.columns = f.columns ++ columns := by
  induction columns generalizing f with
  | nil =>
    cases h
    exact (List.append_nil _).symm
  | cons column columns ih =>
    obtain ⟨name, cells⟩ := column
    rw [List.foldlM_cons] at h
    dsimp only at h
    split at h
    case isTrue => cases h
    case isFalse hname =>
      cases hset : (f.set name cells).made with
      | error e =>
        rw [hset] at h
        cases h
      | ok next =>
        rw [hset] at h
        rw [ih h, columns_set (by simpa using hname) hset, List.append_assoc]
        rfl

/-- A dataframe made of columns has these columns. -/
theorem columns_ofColumns {columns : List (String × List Value)} {f : Frame}
    (h : ofColumns columns = .ok f) : f.columns = columns :=
  columns_foldlM h

/-! ## Records -/

/-- Fields written as bytes are read as the texts they were. -/
theorem fieldTexts_unitsOf (place : Csv.Place) (texts : List String) (i : ℕ) :
    fieldTexts place i (texts.map (Csv.unitsOf ·.toList)) = .ok texts := by
  induction texts generalizing i with
  | nil => rfl
  | cons text texts ih =>
    have hbytes : (Csv.unitsOf text.toList).flatMap Utf8Unit.bytes =
        text.toList.flatMap String.utf8EncodeChar := by
      rw [Csv.unitsOf, List.flatMap_map]
      rfl
    rw [List.map_cons, fieldTexts, hbytes, decodeUtf8_encode, String.ofList_toList]
    dsimp only
    rw [ih]
    rfl

/-- So are rows of fields, if all are as wide as the first one. -/
theorem rowTexts_unitsOf {width : ℕ} {records : List Csv.Record} {rows : List (List String)}
    (h : records.map Csv.Record.fields = rows.map (·.map (Csv.unitsOf ·.toList)))
    (hwidth : ∀ row ∈ rows, row.length = width) : rowTexts width records = .ok rows := by
  induction rows generalizing records with
  | nil =>
    rw [List.map_nil, List.map_eq_nil_iff] at h
    rw [h]
    rfl
  | cons row rows ih =>
    obtain ⟨record, records, rfl, hrecord, hrecords⟩ := List.map_eq_cons_iff.mp h
    have hrow : recordTexts record = .ok row := by
      rw [recordTexts, hrecord, fieldTexts_unitsOf]
    have hlength : ¬ record.fields.length ≠ width := by
      rw [hrecord, List.length_map, hwidth row List.mem_cons_self]
      exact not_not_intro rfl
    rw [rowTexts, if_neg hlength, hrow]
    dsimp only
    rw [ih hrecords fun other hother => hwidth other (List.mem_cons_of_mem row hother)]
    rfl

/-- Records of such bytes make the dataframe of their texts, the first being the headers. -/
theorem ofRecords_unitsOf {records : List Csv.Record} {headers : List String}
    {rows : List (List String)}
    (h : records.map Csv.Record.fields = (headers :: rows).map (·.map (Csv.unitsOf ·.toList)))
    (hwidth : ∀ row ∈ rows, row.length = headers.length) :
    ofRecords records = ofColumns (columnsOfRows headers rows) := by
  obtain ⟨record, records, rfl, hrecord, hrecords⟩ := List.map_eq_cons_iff.mp h
  have hheaders : recordTexts record = .ok headers := by
    rw [recordTexts, hrecord, fieldTexts_unitsOf]
  rw [ofRecords, hheaders]
  dsimp only
  rw [rowTexts_unitsOf hrecords hwidth]

/-- The columns of a frame that is read are columns of what cells are taken for. -/
theorem columns_ofCsv {bytes : List UInt8} {f : Frame} (h : ofCsv bytes = .ok f)
    (hcolumns : f.columns ≠ []) :
    ofColumns f.columns = .ok f ∧ ∀ column ∈ f.columns, ∀ v ∈ column.2, ∃ raw, v = cellOf raw := by
  unfold ofCsv ofRecords at h
  split at h
  case h_1 =>
    cases h
    exact absurd rfl hcolumns
  case h_2 =>
    split at h
    case h_1 => cases h
    case h_2 headers _ =>
      split at h
      case h_1 => cases h
      case h_2 rows _ =>
        rw [columns_ofColumns h]
        exact ⟨h, fun column hmem => mem_columnsOfRows hmem⟩

/-! ## The round trip -/

/-- A frame that was read has a cell in every row of every column, and is read again from the text
it is written as, which therefore is also the text of what is read. A byte order mark at the
beginning of the first header would be lost. -/
theorem ofCsv_toCsv {bytes : List UInt8} {f : Frame} (h : ofCsv bytes = .ok f)
    (hcolumns : f.columns ≠ [])
    (hmark : ∀ header ∈ f.headers.head?, header.toList.head? ≠ some '\uFEFF') :
    f.Rectangular ∧ ofCsv (encodeUtf8 f.toCsv) = .ok f ∧ ∀ g, ofCsv (encodeUtf8 f.toCsv) = .ok g →
      g.toCsv = f.toCsv := by
  obtain ⟨hself, hraw⟩ := columns_ofCsv h hcolumns
  have hrectangular : f.Rectangular := rectangular_ofColumns f.columns f hself
  have hcells : ∀ column ∈ f.columns, ∀ v ∈ column.2, cellOf (cellText v) = v := by
    intro column hcolumn v hv
    obtain ⟨raw, rfl⟩ := hraw column hcolumn v hv
    exact cellOf_cellText raw
  -- the reader needs a first line that is not empty and begins with no byte order mark
  obtain ⟨⟨header, cells⟩, rest, hcons⟩ := List.exists_cons_of_ne_nil hcolumns
  have hheaders : f.headers = header :: Keyed.keys rest := by
    rw [headers, hcons]
    rfl
  obtain ⟨rows, hrows⟩ : ∃ rows, rows =
      (rowsOfColumns f.rows (f.columns.map (·.2))).map (·.map cellText) :=
    ⟨_, rfl⟩
  have htext : f.toCsv = Csv.textOf (f.headers :: rows) := by
    rw [hrows]
    rfl
  have hwidth : ∀ row ∈ rows, row.length = f.headers.length := by
    intro row hrow
    rw [hrows] at hrow
    obtain ⟨values, hvalues, rfl⟩ := List.mem_map.mp hrow
    rw [List.length_map, length_of_mem_rowsOfColumns hvalues, List.length_map, headers, Keyed.keys,
      List.length_map]
  have hnonempty : ∀ row ∈ f.headers :: rows, row ≠ [] := by
    intro row hrow
    have hlength : row.length = f.headers.length := by
      rcases List.mem_cons.mp hrow with rfl | hrow
      · rfl
      · exact hwidth row hrow
    rw [hheaders, List.length_cons] at hlength
    exact List.ne_nil_of_length_eq_add_one hlength
  have hbegin : (Csv.textOf (f.headers :: rows)).toList.head? ≠ some '\uFEFF' := by
    rw [hheaders] at hmark ⊢
    exact Csv.head?_textOf (hmark header rfl)
  have hread : ofCsv (encodeUtf8 f.toCsv) = .ok f := by
    rw [ofCsv, htext, ofRecords_unitsOf (Csv.fields_records_textOf hnonempty hbegin) hwidth, hrows]
    have hcolumnsBack := columnsOfRows_rowsOfColumns hrectangular hcells
    rw [headers, Keyed.keys, hcolumnsBack, hself]
  refine ⟨hrectangular, hread, fun g hg => ?_⟩
  rw [hread] at hg
  cases hg
  rfl

/-- A text with quoted fields, a number that is no whole one, a missing cell and a truth value. -/
def sample : List UInt8 := encodeUtf8 "id,\"a,b\"\r\n007,\"say \"\"hi\"\"\"\n\n1e3,\n-0.0,true"

/-- A dataframe with quotes, separators, a missing cell, a whole float and a negative zero. -/
theorem ofCsv_toCsv_sample : ∃ f, ofCsv sample = .ok f ∧ f.columns ≠ [] ∧
    (∀ header ∈ f.headers.head?, header.toList.head? ≠ some '\uFEFF') ∧
    f.toCsv = "id,\"a,b\"\n7,\"say \"\"hi\"\"\"\n1000.0,\n-0.0,True\n" ∧
    f.Rectangular ∧ ofCsv (encodeUtf8 f.toCsv) = .ok f := by
  have hread : (ofCsv sample).toOption.map (fun f => (f.headers, f.toCsv)) =
      some (["id", "a,b"], "id,\"a,b\"\n7,\"say \"\"hi\"\"\"\n1000.0,\n-0.0,True\n") := by
    decide +kernel
  cases h : ofCsv sample with
  | error e =>
    rw [h] at hread
    cases hread
  | ok f =>
    rw [h] at hread
    obtain ⟨hheaders, htext⟩ := Prod.mk.inj (Option.some.inj hread)
    have hcolumns : f.columns ≠ [] := by
      intro hnil
      rw [headers, hnil] at hheaders
      cases hheaders
    have hmark : ∀ header ∈ f.headers.head?, header.toList.head? ≠ some '\uFEFF' := by
      rw [hheaders]
      decide
    obtain ⟨hrectangular, hagain, -⟩ := ofCsv_toCsv h hcolumns hmark
    exact ⟨f, rfl, hcolumns, hmark, htext, hrectangular, hagain⟩

end TableScript.Frame
