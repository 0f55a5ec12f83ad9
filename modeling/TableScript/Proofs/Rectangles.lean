import TableScript.Proofs.Keyed
import TableScript.Script.Run

/-!
# Rectangular dataframes

Every dataframe that a script can make of rectangular ones is rectangular: each of its columns has one
cell for every row. Putting in a column may change the number of rows, but only if no other column is left
to have the old number (`Frame.rectangular_set`, `Frame.rectangular_insert`); a dataframe without columns
is rectangular whatever its rows are.

What operations on operands make is said with `Yields`: what they give, if they give something, has a
property.
-/

namespace TableScript

/-! ## Results -/

/-- What the computation gives, if it gives something, has the property. -/
def Yields {ε α : Type} (P : α → Prop) (x : Except ε α) : Prop := ∀ a, x = .ok a → P a

section Yields

variable {ε α β : Type} {P : α → Prop} {Q : β → Prop} {x : Except ε α}

/-- A result that has the property yields it. -/
theorem yields_ok {a : α} (h : P a) : Yields P (.ok a : Except ε α) := by
  intro b hb
  cases hb
  exact h

/-- An error yields any property. -/
theorem yields_error (e : ε) : Yields P (.error e : Except ε α) := by
  intro a ha
  cases ha

/-- Everything yields what always holds. -/
theorem yields_true : Yields (fun _ => True) x := fun _ _ => trivial

/-- Two computations in sequence yield what the second one yields on each result of the first. -/
theorem yields_bind {f : α → Except ε β} (h : ∀ a, x = .ok a → Yields Q (f a)) :
    Yields Q (x >>= f) := by
  intro b hb
  cases hx : x with
  | error e =>
    rw [hx] at hb
    cases hb
  | ok a =>
    rw [hx] at hb
    exact h a hx b hb

/-- A function of a result yields what it has on each of them. -/
theorem yields_map {f : α → β} (h : ∀ a, x = .ok a → Q (f a)) : Yields Q (x.map f) := by
  intro b hb
  cases hx : x with
  | error e =>
    rw [hx] at hb
    cases hb
  | ok a =>
    rw [hx] at hb
    cases hb
    exact h a hx

/-- A choice yields what both sides do. -/
theorem yields_ite {c : Prop} [Decidable c] {x y : Except ε α} (hx : Yields P x) (hy : Yields P y) :
    Yields P (if c then x else y) := by
  split
  · exact hx
  · exact hy

/-- What every step keeps, the result of all steps has. -/
theorem yields_foldlM {step : α → β → Except ε α} (hstep : ∀ a b, P a → Yields P (step a b))
    (bs : List β) (a : α) (ha : P a) : Yields P (bs.foldlM step a) := by
  induction bs generalizing a with
  | nil => exact yields_ok ha
  | cons b rest ih =>
    rw [List.foldlM_cons]
    exact yields_bind fun next hnext => ih next (hstep a b ha next hnext)

end Yields

/-! ## Frames -/

namespace Frame

variable {f : Frame} {name : String} {cells : List Value}

/-- A dataframe without columns is rectangular. -/
theorem rectangular_empty : empty.Rectangular := List.forall_mem_nil _

/-- Cells fit if there are no columns, or as many cells as rows, or no other column. -/
theorem fits_of_mismatch? {length : Nat} (h : f.mismatch? name length = none) :
    f.columns = [] ∨ length = f.rows ∨ ∃ old, f.columns = [(name, old)] := by
  by_contra hnot
  obtain ⟨hnil, hlength, honly⟩ : f.columns ≠ [] ∧ length ≠ f.rows ∧ ∀ old, f.columns ≠ [(name, old)] := by
    simpa only [not_or, not_exists] using hnot
  have hsingle : (f.columns.length == 1 && f.hasColumn name) = false := by
    rw [Bool.and_eq_false_iff]
    cases hcolumns : f.columns with
    | nil => exact absurd hcolumns hnil
    | cons column rest =>
      cases rest with
      | cons => exact Or.inl rfl
      | nil =>
        right
        obtain ⟨header, old⟩ := column
        rw [hasColumn, hcolumns, Keyed.has_eq_false_iff]
        intro hmem
        obtain rfl : name = header := by simpa [Keyed.keys] using hmem
        exact honly old hcolumns
  have hfull : f.columns.isEmpty = false := by simpa using hnil
  unfold mismatch? at h
  simp [hfull, hlength, hsingle] at h

/-- A column that is put in leaves the frame rectangular, also where it changes the number of rows. -/
theorem rectangular_set (hf : f.Rectangular) (name : String) (cells : List Value) :
    Yields Rectangular (f.set name cells).made := by
  unfold set
  cases hmismatch : f.mismatch? name cells.length with
  | some e => exact yields_error e
  | none =>
    refine yields_ok fun column hcolumn => ?_
    have hmem : column ∈ f.columns.put name cells := hcolumn
    change column.2.length = cells.length
    rcases fits_of_mismatch? hmismatch with hnil | hlength | ⟨old, honly⟩
    · rw [hnil] at hmem
      rw [List.mem_singleton.mp hmem]
    · rcases Keyed.mem_of_mem_put hmem with rfl | hold
      · rfl
      · rw [hf column hold, hlength]
    · rw [honly, Keyed.put, if_pos rfl] at hmem
      rw [List.mem_singleton.mp hmem]

/-- Inserting a column keeps a dataframe rectangular. -/
theorem rectangular_insert (hf : f.Rectangular) (position : Nat) (name : String) (cells : List Value) :
    Yields Rectangular (f.insert position name cells).made := by
  unfold insert
  cases hhas : f.hasColumn name with
  | true => exact yields_error _
  | false =>
    simp only [Bool.false_eq_true, if_false]
    cases hmismatch : f.mismatch? name cells.length with
    | some e => exact yields_error e
    | none =>
      refine yields_ok fun column hcolumn => ?_
      have hmem : column ∈ f.columns.insertAt position name cells := hcolumn
      change column.2.length = cells.length
      rcases fits_of_mismatch? hmismatch with hnil | hlength | ⟨old, honly⟩
      · rw [hnil] at hmem
        have hsingle : Keyed.insertAt ([] : Keyed (List Value)) position name cells = [(name, cells)] := by
          cases position <;> rfl
        rw [hsingle] at hmem
        rw [List.mem_singleton.mp hmem]
      · rcases Keyed.mem_of_mem_insertAt hmem with rfl | hold
        · rfl
        · rw [hf column hold, hlength]
      · rw [hasColumn, Keyed.has_eq_false_iff, honly] at hhas
        exact absurd List.mem_cons_self hhas

/-- So does dropping one. -/
theorem rectangular_drop (hf : f.Rectangular) (name : String) :
    Yields Rectangular (f.drop name).made := by
  unfold drop
  split
  case h_1 => exact yields_error _
  case h_2 =>
    refine yields_ok fun column hcolumn => ?_
    exact hf column (Keyed.mem_of_mem_erase hcolumn)

/-- Renaming does not touch cells. -/
theorem mem_of_renameAfter {mapping : Keyed String} {done columns renamed : Keyed (List Value)}
    (h : renameAfter mapping done columns = .ok renamed) {column : String × List Value}
    (hcolumn : column ∈ renamed) :
    column ∈ done ∨ ∃ header, (header, column.2) ∈ columns := by
  induction columns generalizing done with
  | nil =>
    cases h
    exact Or.inl hcolumn
  | cons first rest ih =>
    obtain ⟨header, cells⟩ := first
    rw [renameAfter] at h
    split at h
    case isTrue => cases h
    case isFalse =>
      rcases ih h with hdone | ⟨other, hother⟩
      · rcases List.mem_append.mp hdone with hold | hnew
        · exact Or.inl hold
        · rw [List.mem_singleton.mp hnew]
          exact Or.inr ⟨header, List.mem_cons_self⟩
      · exact Or.inr ⟨other, List.mem_cons_of_mem _ hother⟩

/-- So does renaming columns. -/
theorem rectangular_rename (hf : f.Rectangular) (mapping : Keyed String) :
    Yields Rectangular (f.rename mapping).made := by
  unfold rename
  cases hrenamed : renameAfter mapping [] f.columns with
  | error e => exact yields_error e
  | ok columns =>
    refine yields_ok fun column hcolumn => ?_
    rcases mem_of_renameAfter hrenamed hcolumn with hnone | ⟨header, hheader⟩
    · cases hnone
    · have hlength := hf (header, column.2) hheader
      exact hlength

/-- A selected column is one of those selected before, or of the dataframe. -/
theorem mem_of_selectAfter {selected columns : Keyed (List Value)} {names : List String}
    (h : f.selectAfter selected names = .ok columns) {column : String × List Value}
    (hcolumn : column ∈ columns) : column ∈ selected ∨ column ∈ f.columns := by
  induction names generalizing selected with
  | nil =>
    cases h
    exact Or.inl hcolumn
  | cons name rest ih =>
    rw [selectAfter] at h
    split at h
    case h_2 => cases h
    case h_1 cells hcells =>
      rcases ih h with hmem | hmem
      · rcases Keyed.mem_of_mem_put hmem with rfl | hold
        · exact Or.inr (Keyed.mem_of_get? hcells)
        · exact Or.inl hold
      · exact Or.inr hmem

/-- Selecting columns keeps a dataframe rectangular. -/
theorem rectangular_select (hf : f.Rectangular) (names : List String) :
    Yields Rectangular (f.select names) := by
  refine yields_map fun columns hcolumns column hcolumn => ?_
  rcases mem_of_selectAfter hcolumns hcolumn with hnone | hold
  · cases hnone
  · exact hf column hold

/-- Of items as many as the mask marks are kept. -/
theorem length_keepMarked {α : Type} {items : List α} {mask : List Bool}
    (h : items.length = mask.length) : (keepMarked items mask).length = mask.count true := by
  induction items generalizing mask with
  | nil =>
    obtain rfl : mask = [] := List.length_eq_zero_iff.mp h.symm
    rfl
  | cons a rest ih =>
    cases mask with
    | nil => cases h
    | cons keep mask =>
      have hrest := ih (Nat.succ.inj h)
      cases keep <;> simp [keepMarked, hrest]

/-- Keeping some of the rows keeps a dataframe rectangular. -/
theorem rectangular_filterRows (hf : f.Rectangular) (mask : List Bool) :
    Yields Rectangular (f.filterRows mask) := by
  unfold filterRows
  split
  case isTrue => exact yields_error _
  case isFalse hlength =>
    refine yields_ok fun column hcolumn => ?_
    obtain ⟨old, hold, rfl⟩ := List.mem_map.mp hcolumn
    have hrows : mask.length = f.rows := by simpa using hlength
    exact length_keepMarked ((hf old hold).trans hrows.symm)

/-- So does keeping the first ones. -/
theorem rectangular_head (hf : f.Rectangular) (n : Nat) : (f.head n).Rectangular := by
  intro column hcolumn
  obtain ⟨old, hold, rfl⟩ := List.mem_map.mp hcolumn
  change (old.2.take (min n f.rows)).length = min n f.rows
  rw [List.length_take, hf old hold]
  omega

/-- A dataframe that is made of columns is rectangular. -/
theorem rectangular_ofColumns (columns : List (String × List Value)) :
    Yields Rectangular (ofColumns columns) := by
  refine yields_foldlM (fun f column hf => ?_) columns empty rectangular_empty
  dsimp only
  split
  case isTrue => exact yields_error _
  case isFalse => exact rectangular_set hf _ _

/-- So is one that is read from a file. -/
theorem rectangular_readCsv (files : Files) (path : String) :
    Yields Rectangular (readCsv files path) := by
  unfold readCsv
  split
  case h_1 bytes _ =>
    unfold ofCsv ofRecords
    split
    case h_1 => exact yields_ok rectangular_empty
    case h_2 =>
      split
      case h_1 => exact yields_error _
      case h_2 =>
        split
        case h_1 => exact yields_error _
        case h_2 => exact rectangular_ofColumns _
  case h_2 => exact yields_error _
  case h_3 => exact yields_error _

end Frame

/-! ## Workbooks and scopes -/

/-- All dataframes are rectangular. -/
def Workbook.Rectangular (book : Workbook) : Prop := ∀ entry ∈ book.frames, entry.2.Rectangular

namespace Script

/-- If the operand is a dataframe, it is rectangular. -/
def Operand.Rectangular : Operand → Prop
  | .frame f => f.Rectangular
  | _ => True

/-- All dataframes that the scope has are rectangular. -/
structure Scope.Rectangular (scope : Scope) : Prop where
  book : scope.book.Rectangular
  locals : ∀ entry ∈ scope.locals, entry.2.Rectangular

namespace Scope

variable {scope : Scope}

/-- A script begins with rectangular dataframes if the workbook has no others. -/
theorem rectangular_initial {book : Workbook} (h : book.Rectangular) : (initial book).Rectangular := by
  refine ⟨h, fun entry hentry => ?_⟩
  rw [List.mem_singleton.mp hentry]
  exact trivial

/-- Every dataframe of a rectangular scope is rectangular. -/
theorem Rectangular.frame (h : scope.Rectangular) {name : String} {f : Frame}
    (hf : scope.book.frame? name = some f) : f.Rectangular :=
  h.book (name, f) (Keyed.mem_of_get? hf)

/-- So is the one that an in-place call is made on. -/
theorem Rectangular.theFrame (h : scope.Rectangular) (name : String) :
    Yields Frame.Rectangular (scope.frame name) := by
  unfold Scope.frame
  split
  case h_1 f hf => exact yields_ok (h.frame hf)
  case h_2 => exact yields_error _

/-- So is what a name stands for. -/
theorem Rectangular.lookup (h : scope.Rectangular) (name : String) :
    Yields Operand.Rectangular (scope.lookup name) := by
  unfold Scope.lookup
  split
  case h_1 f hf => exact yields_ok (h.frame hf)
  case h_2 =>
    split
    case h_1 v hv => exact yields_ok (h.locals (name, v) (Keyed.mem_of_get? hv))
    case h_2 => exact yields_error _

/-- Putting a rectangular dataframe in its place keeps a scope rectangular. -/
theorem Rectangular.setFrame (h : scope.Rectangular) (name : String) {f : Frame} (hf : f.Rectangular) :
    (scope.setFrame name f).Rectangular := by
  refine ⟨fun entry hentry => ?_, h.locals⟩
  rcases Keyed.mem_of_mem_put hentry with rfl | hold
  · exact hf
  · exact h.book entry hold

/-- So does putting in a local. -/
theorem Rectangular.put (h : scope.Rectangular) (name : String) {v : Operand} (hv : v.Rectangular) :
    ({ scope with locals := scope.locals.put name v } : Scope).Rectangular := by
  refine ⟨h.book, fun entry hentry => ?_⟩
  rcases Keyed.mem_of_mem_put hentry with rfl | hold
  · exact hv
  · exact h.locals entry hold

/-- So does removing one. -/
theorem Rectangular.erase (h : scope.Rectangular) (name : String) :
    ({ scope with locals := scope.locals.erase name } : Scope).Rectangular :=
  ⟨h.book, fun entry hentry => h.locals entry (Keyed.mem_of_mem_erase hentry)⟩

/-- So does removing a dataframe. -/
theorem Rectangular.remove (h : scope.Rectangular) (name : String) :
    ({ scope with book := scope.book.remove name } : Scope).Rectangular :=
  ⟨fun entry hentry => h.book entry (Keyed.mem_of_mem_erase hentry), h.locals⟩

/-- So does binding a name. -/
theorem Rectangular.bind (h : scope.Rectangular) (name : String) {v : Operand} (hv : v.Rectangular) :
    (scope.bind name v).Rectangular := by
  cases v with
  | frame f => exact (h.setFrame name hv).erase name
  | scalar => exact (h.remove name).put name hv
  | series => exact (h.remove name).put name hv
  | module => exact (h.remove name).put name hv

/-- So does unbinding one. -/
theorem Rectangular.unbind (h : scope.Rectangular) (name : String) :
    Yields Scope.Rectangular (scope.unbind name) := by
  unfold Scope.unbind
  split
  · exact yields_ok (h.remove name)
  · split
    · exact yields_ok (h.erase name)
    · exact yields_error _

end Scope

/-! ## Operators -/

/-- What a function on numbers gives is rectangular, being no dataframe. -/
theorem rectangular_mapNumeric (f : Number → Value) (v : Operand) :
    Yields Operand.Rectangular (mapNumeric f v) := by
  unfold mapNumeric
  split
  · exact yields_map fun _ _ => trivial
  · exact yields_map fun _ _ => trivial
  · exact yields_error _

/-- So is what an operator before an operand gives. -/
theorem rectangular_unary (op : UnaryOp) (v : Operand) : Yields Operand.Rectangular (op.apply v) := by
  unfold UnaryOp.apply
  split
  · exact rectangular_mapNumeric _ _
  · exact yields_ok trivial
  · exact yields_error _
  · exact yields_map fun _ _ => trivial
  · exact yields_map fun _ _ => trivial
  · exact yields_error _

/-- So is what an operator between operands gives. -/
theorem rectangular_binary (op : BinaryOp) (a b : Operand) :
    Yields Operand.Rectangular (op.apply a b) := by
  unfold BinaryOp.apply
  split
  · exact yields_map fun _ _ => trivial
  · split
    · exact yields_error _
    · exact yields_map fun _ _ => trivial
  · exact yields_map fun _ _ => trivial
  · exact yields_map fun _ _ => trivial
  · exact yields_error _

/-- A frame operation carried into a script makes what it makes. -/
theorem rectangular_ofFrame {x : Except FrameError Frame} (h : Yields Frame.Rectangular x) :
    Yields Frame.Rectangular (ofFrame x) := by
  cases x with
  | ok f => exact yields_ok (h f rfl)
  | error e => exact yields_error _

/-- What stands in brackets after a rectangular dataframe picks a rectangular one. -/
theorem rectangular_subscript {a : Operand} (ha : a.Rectangular) (b : Operand) :
    Yields Operand.Rectangular (subscript a b) := by
  unfold subscript
  -- the cases are those of the operand and of what stands in the brackets
  split
  case h_1 =>
    split
    · exact yields_ok trivial
    · exact yields_error _
  case h_2 f items =>
    refine yields_bind fun labels _ => ?_
    split
    · exact yields_error _
    · split
      case h_1 selected hselected => exact yields_ok (Frame.rectangular_select ha _ selected hselected)
      case h_2 => exact yields_error _
  case h_3 f mask =>
    refine yields_bind fun mask _ => ?_
    split
    case h_1 kept hkept => exact yields_ok (Frame.rectangular_filterRows ha _ kept hkept)
    case h_2 => exact yields_error _
  case h_4 =>
    refine yields_bind fun mask _ => ?_
    split
    · exact yields_error _
    · exact yields_ok trivial
  case h_5 =>
    unfold cellAt
    split
    · exact yields_ok trivial
    · exact yields_error _
  case h_6 =>
    unfold itemAt
    dsimp only
    split
    · exact yields_ok trivial
    · exact yields_error _
  case h_7 =>
    split
    · exact yields_ok trivial
    · exact yields_error _
  case h_8 => exact yields_error _

/-- What an attribute gives is rectangular. -/
theorem rectangular_attributeOf (v : Operand) (name : String) :
    Yields Operand.Rectangular (attributeOf v name) := by
  unfold attributeOf
  split
  · refine yields_ite (yields_ok trivial) ?_
    refine yields_ite (yields_ok trivial) ?_
    exact yields_ite (yields_ok trivial) (yields_error _)
  · exact yields_ite (yields_ok trivial) (yields_error _)
  · exact yields_error _

/-! ## Methods and functions -/

section Methods

variable {f : Frame} (hf : f.Rectangular) (args : CallValues)

include hf

/-- The method `insert` keeps a dataframe rectangular. -/
theorem rectangular_insertColumn : Yields Frame.Rectangular (insertColumn f args) := by
  refine yields_bind fun position? _ => ?_
  split
  · exact yields_error _
  · split
    · exact yields_error _
    · refine yields_bind fun _ _ => yields_bind fun column _ => ?_
      refine yields_bind fun _ _ => yields_bind fun cells _ => ?_
      exact rectangular_ofFrame (Frame.rectangular_insert hf _ _ _)

/-- So does `rename`. -/
theorem rectangular_renameColumns : Yields Frame.Rectangular (renameColumns f args) := by
  unfold renameColumns
  split
  · exact yields_bind fun mapping _ => rectangular_ofFrame (Frame.rectangular_rename hf mapping)
  · exact yields_error _

omit hf in
/-- So does dropping columns one after the other. -/
theorem rectangular_dropAll (labels : List String) (f : Frame) (hf : f.Rectangular) :
    Yields Frame.Rectangular (dropAll f labels) := by
  induction labels generalizing f with
  | nil => exact yields_ok hf
  | cons label rest ih =>
    refine yields_bind fun g hg => ih g ?_
    exact rectangular_ofFrame (Frame.rectangular_drop hf label) g hg

/-- So does `drop`. -/
theorem rectangular_dropColumns : Yields Frame.Rectangular (dropColumns f args) :=
  yields_bind fun _ _ => yields_bind fun labels _ => rectangular_dropAll labels f hf

omit hf in
/-- Filling columns one after the other keeps a dataframe rectangular, since each keeps its length. -/
theorem rectangular_fillAll (fill : Value) (headers : List String) (f : Frame) (hf : f.Rectangular) :
    Yields Frame.Rectangular (fillAll fill f headers) := by
  induction headers generalizing f with
  | nil => exact yields_ok hf
  | cons header rest ih =>
    refine yields_bind fun g hg => ih g ?_
    exact rectangular_ofFrame (Frame.rectangular_set hf header _) g hg

/-- So does `fillna`. -/
theorem rectangular_fillFrame : Yields Frame.Rectangular (fillFrame f args) :=
  yields_bind fun _ _ => yields_bind fun fill _ => rectangular_fillAll fill f.headers f hf

/-- Every method that changes a dataframe keeps it rectangular. -/
theorem rectangular_changeFrame (method : String) :
    Yields Frame.Rectangular (changeFrame f method args) := by
  refine yields_ite (rectangular_insertColumn hf args) ?_
  refine yields_ite (rectangular_renameColumns hf args) ?_
  refine yields_ite (rectangular_dropColumns hf args) ?_
  refine yields_ite (yields_ok hf) ?_
  exact yields_ite (rectangular_fillFrame hf args) (yields_error _)

/-- What a method gives for a rectangular dataframe is rectangular. -/
theorem rectangular_frameMethod (method : String) :
    Yields Operand.Rectangular (frameMethod f method args) := by
  refine yields_ite (yields_ok hf) ?_
  refine yields_ite (yields_bind fun _ _ => yields_ok (Frame.rectangular_head hf _)) ?_
  refine yields_ite (yields_map fun g hg => ?_) (yields_error _)
  exact rectangular_changeFrame hf args method g hg

end Methods

/-- What a function of the library gives is rectangular. -/
theorem rectangular_moduleFunction (files : Files) (library function : String) (args : CallValues) :
    Yields Operand.Rectangular (moduleFunction files library function args) := by
  unfold moduleFunction
  split
  · refine yields_bind fun path? _ => ?_
    split
    · exact yields_error _
    · exact yields_map fun f hf => rectangular_ofFrame (Frame.rectangular_readCsv files _) f hf
  · split
    · refine yields_bind fun data? _ => ?_
      split
      · exact yields_ok Frame.rectangular_empty
      · exact yields_map fun f hf => rectangular_ofFrame (Frame.rectangular_ofColumns _) f hf
      · exact yields_error _
    · exact yields_error _

/-- So is what a method of a series gives. -/
theorem rectangular_seriesMethod (cells : List Value) (method : String) (args : CallValues) :
    Yields Operand.Rectangular (seriesMethod cells method args) := by
  refine yields_ite (yields_map fun _ _ => trivial) ?_
  refine yields_ite (yields_bind fun _ _ => yields_ok trivial) ?_
  refine yields_ite (yields_map fun _ _ => trivial) ?_
  refine yields_ite (yields_map fun _ _ => trivial) ?_
  refine yields_ite (yields_ok trivial) ?_
  refine yields_ite (yields_bind fun _ _ => yields_bind fun _ _ => yields_ok trivial) ?_
  refine yields_ite (rectangular_mapNumeric _ _) ?_
  refine yields_ite (yields_bind fun _ _ => yields_bind fun _ _ => yields_ok trivial) ?_
  refine yields_ite (yields_ok trivial) ?_
  exact yields_ite (yields_ok trivial) (yields_error _)

/-- So is what a method of a single value gives. -/
theorem rectangular_scalarMethod (v : Value) (method : String) (args : CallValues) :
    Yields Operand.Rectangular (scalarMethod v method args) := by
  unfold scalarMethod
  split
  · refine yields_ite (yields_ok trivial) ?_
    refine yields_ite (yields_ok trivial) ?_
    refine yields_ite (yields_ok trivial) ?_
    refine yields_ite ?_ (yields_error _)
    refine yields_bind fun _ _ => yields_bind fun _ _ => ?_
    dsimp only
    split
    · exact yields_ok trivial
    · exact yields_error _
  · exact yields_error _

/-- So is what rounding gives. -/
theorem rectangular_round (places : Option Int64) (v : Operand) :
    Yields Operand.Rectangular (roundOperand places v) := by
  unfold roundOperand
  split
  · exact yields_map fun _ _ => trivial
  · exact yields_map fun _ _ => trivial
  · exact yields_error _

/-- So is what a function called by its name gives. -/
theorem rectangular_callFunction (name : String) (args : CallValues) :
    Yields Operand.Rectangular (callFunction name args) := by
  refine yields_ite (yields_bind fun _ _ => yields_bind fun _ _ => yields_ok trivial) ?_
  refine yields_ite (yields_bind fun v _ => rectangular_mapNumeric _ v) ?_
  refine yields_ite (yields_bind fun places _ => yields_bind fun v _ => rectangular_round places v) ?_
  refine yields_ite (yields_bind fun _ _ => yields_bind fun _ _ => yields_ok trivial) ?_
  refine yields_ite (yields_bind fun _ _ => yields_bind fun v _ => ?int) ?_
  case int =>
    split
    · exact yields_ok trivial
    · exact yields_error _
  refine yields_ite (yields_bind fun _ _ => yields_bind fun v _ => ?float) ?_
  case float =>
    split
    · exact yields_ok trivial
    · exact yields_error _
  exact yields_ite (yields_ok trivial) (yields_error _)

/-- The dataframe of the workbook that a call changes was rectangular. -/
theorem Scope.Rectangular.changedFrame? {scope : Scope} (h : scope.Rectangular) (target : Expr)
    (method : String) (args : CallValues) :
    Yields (fun found? => ∀ found ∈ found?, found.2.Rectangular)
      (changedFrame? scope target method args) := by
  have hnone : ∀ found ∈ (none : Option (String × Frame)), found.2.Rectangular := by rintro found ⟨⟩
  unfold Script.changedFrame?
  split
  case h_1 s =>
    split
    case h_1 f hf =>
      refine yields_map fun changes _ => ?_
      split
      case isTrue =>
        rintro found ⟨⟩
        exact h.frame hf
      case isFalse => exact hnone
    case h_2 => exact yields_ok hnone
  case h_2 => exact yields_ok hnone

/-- A call on a rectangular operand gives a rectangular one. -/
theorem rectangular_callOn (files : Files) (method : String) (args : CallValues) {v : Operand}
    (hv : v.Rectangular) : Yields Operand.Rectangular (callOn files method args v) := by
  cases v with
  | frame f =>
    refine yields_bind fun changes _ => ?_
    split
    · exact yields_bind fun _ _ => yields_ok trivial
    · exact rectangular_frameMethod hv args method
  | series cells => exact rectangular_seriesMethod cells method args
  | module library => exact rectangular_moduleFunction files library method args
  | scalar v => exact rectangular_scalarMethod v method args

end Script

end TableScript
