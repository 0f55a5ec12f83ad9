import TableScript.Proofs.Renaming

/-!
# Edits that fail

An edit of a frame fails for one of four reasons, and `Edit.Refused` says when and with which error: the
cells do not fit the rows of the other columns, a new column is there already, a column is missing, or two
columns would get one name. The first three are found before anything is changed. Two columns with one name
are found on the way, when the columns have been taken out of the frame, and they are not put back: a
renaming that fails leaves the rows and no column (`failed_edit`).
-/

namespace TableScript.Frame

/-! ## Edits as data -/

/-- The error of an edit that fails. -/
def Edited.error? {α : Type} (edited : Edited α) : Option FrameError :=
  match edited.result with
  | .ok _ => none
  | .error e => some e

/-- The error of an edit that fails, and the frame that it leaves behind. -/
def Edited.outcome {α : Type} (edited : Edited α) : Option FrameError × Frame :=
  (edited.error?, edited.frame)

/-- The edits, with what they are carried out with. -/
inductive Edit where
  | set (name : String) (cells : List Value)
  | insert (position : Nat) (name : String) (cells : List Value)
  | drop (name : String)
  | rename (mapping : Keyed String)

namespace Edit

/-- The edit gives columns new names. -/
def isRenaming : Edit → Bool
  | rename _ => true
  | _ => false

/-- Carry out an edit. -/
def run (f : Frame) : Edit → Option FrameError × Frame
  | set name cells => (f.set name cells).outcome
  | insert position name cells => (f.insert position name cells).outcome
  | drop name => (f.drop name).outcome
  | rename mapping => (f.rename mapping).outcome

end Edit

/-! ## When edits fail -/

/-- So many cells under a header are not as many as the rows that other columns have. -/
def Misfit (f : Frame) (name : String) (length : Nat) : Prop :=
  length ≠ f.rows ∧ f.headers ≠ [] ∧ f.headers ≠ [name]

/-- The name is the new one of the first column whose new name an earlier column has got already. -/
def Collision (mapping : Keyed String) (headers : List String) (name : String) : Prop :=
  ∃ before header after, headers = before ++ header :: after ∧
    (before.map (renamed mapping)).Nodup ∧ name = renamed mapping header ∧
    name ∈ before.map (renamed mapping)

/-- The edit fails with the error. -/
def Edit.Refused (f : Frame) (e : FrameError) : Edit → Prop
  | set name cells => f.Misfit name cells.length ∧ e = .lengthMismatch name f.rows cells.length
  | insert _ name cells =>
    name ∈ f.headers ∧ e = .duplicateColumn name ∨
    name ∉ f.headers ∧ f.Misfit name cells.length ∧ e = .lengthMismatch name f.rows cells.length
  | drop name => name ∉ f.headers ∧ e = .columnNotFound name
  | rename mapping => ∃ name, Collision mapping f.headers name ∧ e = .duplicateColumn name

variable {f : Frame} {e : FrameError} {name : String} {mapping : Keyed String}

/-- A column is refused exactly if its length does not fit, and the error tells both lengths. -/
theorem mismatch?_eq_some_iff {length : Nat} : f.mismatch? name length = some e ↔
    f.Misfit name length ∧ e = .lengthMismatch name f.rows length := by
  have honly : (f.columns.length == 1 && f.hasColumn name) = true ↔ f.headers = [name] := by
    rw [Bool.and_eq_true, beq_iff_eq, hasColumn, Keyed.has_iff, headers]
    constructor
    · rintro ⟨hlength, hmem⟩
      obtain ⟨column, hcolumns⟩ := List.length_eq_one_iff.mp hlength
      rw [hcolumns] at hmem ⊢
      rw [List.mem_singleton.mp hmem]
      rfl
    · intro hkeys
      refine ⟨?_, hkeys ▸ List.mem_singleton_self name⟩
      have hlength := congrArg List.length hkeys
      simpa [Keyed.keys] using hlength
  have hempty : f.columns.isEmpty = true ↔ f.headers = [] := by
    rw [List.isEmpty_iff, headers, Keyed.keys, List.map_eq_nil_iff]
  unfold mismatch?
  split
  case isTrue h =>
    simp only [Bool.and_eq_true, Bool.not_eq_true', decide_eq_true_iff, ← Bool.not_eq_true, honly, hempty]
      at h
    constructor
    · intro he
      exact ⟨⟨h.1.2, h.1.1, h.2⟩, (Option.some.inj he).symm⟩
    · rintro ⟨-, rfl⟩
      rfl
  case isFalse h =>
    simp only [Bool.and_eq_true, Bool.not_eq_true', decide_eq_true_iff, ← Bool.not_eq_true, honly, hempty]
      at h
    constructor
    · intro he
      cases he
    · rintro ⟨⟨hlength, hnil, hsingle⟩, -⟩
      exact absurd ⟨⟨hnil, hlength⟩, hsingle⟩ h

/-- Columns are renamed one after the other up to the first whose new name is taken. -/
theorem renameAfter_eq_error_iff {done columns : Keyed (List Value)} (hdone : done.keys.Nodup) :
    renameAfter mapping done columns = .error e ↔ ∃ before header cells after,
      columns = before ++ (header, cells) :: after ∧
      (done ++ renamedColumns mapping before).keys.Nodup ∧
      renamed mapping header ∈ (done ++ renamedColumns mapping before).keys ∧
      e = .duplicateColumn (renamed mapping header) := by
  induction columns generalizing done with
  | nil => simp [renameAfter]
  | cons column rest ih =>
    obtain ⟨header, cells⟩ := column
    have hstep : renameAfter mapping done ((header, cells) :: rest) =
        if done.has (renamed mapping header) then .error (.duplicateColumn (renamed mapping header))
        else renameAfter mapping (done ++ [(renamed mapping header, cells)]) rest := rfl
    have hcons : ∀ before : Keyed (List Value),
        done ++ renamedColumns mapping ((header, cells) :: before) =
          done ++ [(renamed mapping header, cells)] ++ renamedColumns mapping before := by
      simp [renamedColumns]
    rw [hstep]
    by_cases htaken : renamed mapping header ∈ done.keys
    · rw [if_pos ((Keyed.has_iff _ _).mpr htaken)]
      constructor
      · intro h
        cases h
        exact ⟨[], header, cells, rest, rfl, by simpa [renamedColumns] using hdone,
          by simpa [renamedColumns] using htaken, rfl⟩
      · rintro ⟨before, other, cells', after, hsplit, hnodup, -, rfl⟩
        -- the collision cannot be a later one, since the names before it are distinct
        cases before with
        | nil =>
          obtain ⟨hheader, -⟩ := List.cons.inj hsplit
          cases hheader
          rfl
        | cons first before =>
          obtain ⟨rfl, -⟩ := List.cons.inj hsplit
          rw [hcons, Keyed.keys_append, Keyed.keys_append, List.append_assoc] at hnodup
          exact absurd rfl ((List.nodup_append.mp hnodup).2.2 _ htaken _ (by simp))
    · rw [if_neg (fun h => htaken ((Keyed.has_iff _ _).mp h)), ih (by
        rw [← Keyed.put_of_not_mem htaken cells]
        exact Keyed.nodup_keys_put hdone _ _)]
      constructor
      · rintro ⟨before, other, cells', after, rfl, hnodup, hmem, rfl⟩
        refine ⟨(header, cells) :: before, other, cells', after, rfl, ?_, ?_, rfl⟩
        · rwa [hcons]
        · rwa [hcons]
      · rintro ⟨before, other, cells', after, hsplit, hnodup, hmem, rfl⟩
        cases before with
        | nil =>
          obtain ⟨hheader, -⟩ := List.cons.inj hsplit
          cases hheader
          exact absurd (by simpa [renamedColumns] using hmem) htaken
        | cons first before =>
          obtain ⟨rfl, rfl⟩ := List.cons.inj hsplit
          rw [hcons] at hnodup hmem
          exact ⟨before, other, cells', after, rfl, hnodup, hmem, rfl⟩

/-- A renaming is refused exactly if two columns would get one name, and the error tells the first such
name. -/
theorem rename_error?_eq_some_iff : (f.rename mapping).error? = some e ↔
    ∃ name, Collision mapping f.headers name ∧ e = .duplicateColumn name := by
  have herror : (f.rename mapping).error? = some e ↔ renameAfter mapping [] f.columns = .error e := by
    unfold rename
    cases renameAfter mapping [] f.columns <;> simp [Edited.error?]
  rw [herror, renameAfter_eq_error_iff (show (Keyed.keys ([] : Keyed (List Value))).Nodup from List.nodup_nil)]
  simp only [List.nil_append, keys_renamedColumns]
  constructor
  · rintro ⟨before, header, cells, after, hcolumns, hnodup, hmem, rfl⟩
    refine ⟨renamed mapping header, ⟨before.keys, header, Keyed.keys after, ?_, hnodup, rfl, hmem⟩, rfl⟩
    rw [headers, hcolumns, Keyed.keys_append, Keyed.keys_cons]
  · rintro ⟨name, ⟨before, header, after, hheaders, hnodup, rfl, hmem⟩, rfl⟩
    obtain ⟨first, last, hcolumns, rfl, hlast⟩ := List.map_eq_append_iff.mp hheaders
    obtain ⟨⟨header', cells⟩, last, rfl, rfl, -⟩ := List.map_eq_cons_iff.mp hlast
    exact ⟨first, header', cells, last, hcolumns, hnodup, hmem, rfl⟩

/-- An edit fails for the reasons that are known. -/
theorem refused_iff (f : Frame) (edit : Edit) (e : FrameError) :
    (edit.run f).1 = some e ↔ edit.Refused f e := by
  cases edit with
  | set name cells =>
    have herror : (f.set name cells).error? = f.mismatch? name cells.length := by
      unfold set
      cases f.mismatch? name cells.length <;> rfl
    rw [Edit.run, Edited.outcome, herror, mismatch?_eq_some_iff]
    rfl
  | insert position name cells =>
    have herror : (f.insert position name cells).error? =
        if name ∈ f.headers then some (.duplicateColumn name) else f.mismatch? name cells.length := by
      unfold insert
      by_cases hmem : name ∈ f.headers
      · rw [if_pos hmem, hasColumn, (Keyed.has_iff _ _).mpr hmem]
        rfl
      · rw [if_neg hmem, hasColumn, (Keyed.has_eq_false_iff _ _).mpr hmem]
        cases f.mismatch? name cells.length <;> rfl
    rw [Edit.run, Edited.outcome, herror]
    by_cases hmem : name ∈ f.headers
    · simp [Edit.Refused, hmem, eq_comm]
    · rw [if_neg hmem, mismatch?_eq_some_iff]
      simp [Edit.Refused, hmem]
  | drop name =>
    have herror : (f.drop name).error? = some e ↔
        f.column? name = none ∧ e = .columnNotFound name := by
      unfold drop
      cases f.column? name <;> simp [Edited.error?, eq_comm]
    rw [Edit.run, Edited.outcome, herror, column?, Keyed.get?_eq_none_iff]
    rfl
  | rename mapping => exact rename_error?_eq_some_iff

/-! ## What failing edits leave -/

section Leaving

variable {position : Nat} {cells : List Value}

/-- A column that is refused leaves the dataframe as it was. -/
theorem frame_set_of_error (h : (f.set name cells).error? = some e) : (f.set name cells).frame = f := by
  revert h
  unfold set
  cases f.mismatch? name cells.length with
  | none =>
    intro h
    cases h
  | some => exact fun _ => rfl

/-- So does an insertion that is refused. -/
theorem frame_insert_of_error (h : (f.insert position name cells).error? = some e) :
    (f.insert position name cells).frame = f := by
  revert h
  unfold insert
  split
  case isTrue => exact fun _ => rfl
  case isFalse =>
    cases f.mismatch? name cells.length with
    | none =>
      intro h
      cases h
    | some => exact fun _ => rfl

/-- So does dropping a column that is not there. -/
theorem frame_drop_of_error (h : (f.drop name).error? = some e) : (f.drop name).frame = f := by
  revert h
  unfold drop
  cases f.column? name with
  | none => exact fun _ => rfl
  | some =>
    intro h
    cases h

/-- By the time that a renaming fails, the columns have been taken out. -/
theorem frame_rename_of_error (h : (f.rename mapping).error? = some e) :
    (f.rename mapping).frame = ⟨[], f.rows⟩ := by
  revert h
  unfold rename
  cases renameAfter mapping [] f.columns with
  | ok =>
    intro h
    cases h
  | error => exact fun _ => rfl

end Leaving

/-- An edit that fails does so for the known reasons, and leaves the frame as it was, unless it gives columns
new names: then the columns, of which there are some, are lost, and their rows stay. -/
theorem failed_edit (f : Frame) (edit : Edit) (e : FrameError) (h : (edit.run f).1 = some e) :
    edit.Refused f e ∧ (edit.run f).2 = (if edit.isRenaming then ⟨[], f.rows⟩ else f) ∧
      ((edit.run f).2 = f ↔ edit.isRenaming = false) := by
  have hrefused := (refused_iff f edit e).mp h
  have hleft : (edit.run f).2 = if edit.isRenaming then ⟨[], f.rows⟩ else f := by
    cases edit with
    | set name cells => exact frame_set_of_error h
    | insert position name cells => exact frame_insert_of_error h
    | drop name => exact frame_drop_of_error h
    | rename mapping => exact frame_rename_of_error h
  refine ⟨hrefused, hleft, ?_⟩
  rw [hleft]
  cases edit with
  | rename mapping =>
    -- a frame without columns has no two that collide
    obtain ⟨-, ⟨before, header, after, hheaders, -, -, -⟩, -⟩ := hrefused
    have hlost : (⟨[], f.rows⟩ : Frame) ≠ f := by
      intro hsame
      rw [← hsame] at hheaders
      simp [headers, Keyed.keys] at hheaders
    simpa [Edit.isRenaming] using hlost
  | _ => simp [Edit.isRenaming]

/-- Renaming `A` to `B` beside a column `B` fails, and both columns are gone. -/
theorem failed_edit_collision :
    let f : Frame := ⟨[("A", [.int 1]), ("B", [.int 2])], 1⟩
    let edit : Edit := .rename [("A", "B")]
    f.Rectangular ∧ (edit.run f).1 = some (.duplicateColumn "B") ∧ (edit.run f).2 = ⟨[], 1⟩ ∧
      (edit.run f).2 ≠ f := by
  intro f edit
  have hfails : (edit.run f).1 = some (.duplicateColumn "B") := by decide
  obtain ⟨-, hleft, hsame⟩ := failed_edit f edit _ hfails
  have hrectangular : f.Rectangular := by simp [f, Rectangular]
  exact ⟨hrectangular, hfails, hleft, fun h => Bool.noConfusion (hsame.mp h)⟩

end TableScript.Frame
