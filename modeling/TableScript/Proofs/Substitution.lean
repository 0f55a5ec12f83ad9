import TableScript.Proofs.Running

/-!
# Other values in place of the library

A script can give the library of dataframes another name and call its functions; whatever else it does with
the library fails. So a script that can be carried out both with the library and with another value in its
place does the same to the dataframes (`Scope.afterLines_twins`), and that other value is all it needs of
the locals that were there before: any other name that it uses, it has bound itself.

The argument compares two runs that both succeed. What an expression gives in one is what it gives in the
other, or the library in one and anything in the other (`Operand.StandsIn`); operations on operands related
like that give operands related like that, since they fail on the library or do not look at it.
-/

namespace TableScript.Script

/-! ## Operands in place of others -/

/-- The second operand is the first, or the first is the library and the second any local. -/
inductive Operand.StandsIn : Operand → Operand → Prop
  | same (v : Operand) : StandsIn v v
  | library (name : String) {v : Operand} (h : ∀ f, v ≠ .frame f) : StandsIn (.module name) v

/-- Results are related whenever both evaluations succeed. -/
def Alike {α β : Type} (R : α → β → Prop) (x : Eval α) (y : Eval β) : Prop :=
  ∀ a b, x = .ok a → y = .ok b → R a b

section Alike

variable {α β γ δ : Type} {R : α → β → Prop} {S : γ → δ → Prop}

/-- An evaluation is alike to itself. -/
theorem alike_refl (x : Eval α) : Alike Eq x x := fun _ _ ha hb => Except.ok.inj (ha.symm.trans hb)

/-- Related results are alike. -/
theorem alike_ok {a : α} {b : β} (h : R a b) : Alike R (.ok a) (.ok b) := by
  rintro _ _ ⟨⟩ ⟨⟩
  exact h

/-- What fails is alike to anything. -/
theorem alike_of_error {x : Eval α} {y : Eval β} (h : ∃ e, x = .error e) : Alike R x y := by
  obtain ⟨e, rfl⟩ := h
  exact fun _ _ ha => absurd ha (by simp)

/-- Anything is alike to what fails. -/
theorem alike_of_error_right {x : Eval α} {y : Eval β} (h : ∃ e, y = .error e) : Alike R x y := by
  obtain ⟨e, rfl⟩ := h
  exact fun _ _ _ hb => absurd hb (by simp)

/-- Two evaluations in sequence are alike if the first ones are, and the second ones on related results. -/
theorem Alike.bind {x : Eval α} {y : Eval β} {f : α → Eval γ} {g : β → Eval δ} (h : Alike R x y)
    (hf : ∀ a b, R a b → Alike S (f a) (g b)) : Alike S (x >>= f) (y >>= g) := by
  intro c d hc hd
  obtain ⟨a, ha, hc⟩ := except_bind_eq_ok.mp hc
  obtain ⟨b, hb, hd⟩ := except_bind_eq_ok.mp hd
  exact hf a b (h a b ha hb) c d hc hd

/-- The same is done with equal results. -/
theorem Alike.bind_same {x y : Eval α} (h : Alike Eq x y) {f g : α → Eval γ}
    (hf : ∀ a, Alike Eq (f a) (g a)) : Alike Eq (x >>= f) (y >>= g) :=
  h.bind fun a _ heq => heq ▸ hf a

/-- A function of the same results gives the same. -/
theorem Alike.map_same {x y : Eval α} (h : Alike Eq x y) (f : α → γ) :
    Alike Eq (x.map f) (y.map f) := by
  intro c d hc hd
  cases x with
  | error e => cases hc
  | ok a =>
    cases y with
    | error e => cases hd
    | ok b =>
      obtain rfl : a = b := h a b rfl rfl
      exact Except.ok.inj (hc.symm.trans hd)

/-- The same branch is taken. -/
theorem alike_ite {c : Prop} [Decidable c] {x x' : Eval α} {y y' : Eval β} (ht : Alike R x y)
    (he : Alike R x' y') : Alike R (if c then x else x') (if c then y else y') := by
  split
  · exact ht
  · exact he

/-- The same operands stand in for each other. -/
theorem Alike.standsIn {x y : Eval Operand} (h : Alike Eq x y) : Alike Operand.StandsIn x y :=
  fun a b ha hb => h a b ha hb ▸ .same a

end Alike

namespace Operand.StandsIn

variable {α : Type} {a b v w : Operand}

/-- What fails on the library gives the same. -/
theorem alike {f : Operand → Eval α} (h : StandsIn v w) (hf : ∀ name, ∃ e, f (.module name) = .error e) :
    Alike Eq (f v) (f w) := by
  cases h with
  | same => exact alike_refl _
  | library name _ => exact alike_of_error (hf name)

/-- Neither the library nor what stands in for it is read as anything but a single value. -/
theorem toScalar (h : StandsIn v w) : Alike Eq v.toScalar w.toScalar := h.alike fun _ => ⟨_, rfl⟩

/-- As a label the same is read of both, if something is read of each. -/
theorem toLabel (h : StandsIn v w) : Alike Eq v.toLabel w.toLabel := h.alike fun _ => ⟨_, rfl⟩

/-- So it is as labels. -/
theorem toLabels (h : StandsIn v w) : Alike Eq v.toLabels w.toLabels := h.alike fun _ => ⟨_, rfl⟩

/-- So it is as cells. -/
theorem toCells (h : StandsIn v w) (rows : Nat) : Alike Eq (v.toCells rows) (w.toCells rows) :=
  h.alike fun _ => ⟨_, rfl⟩

/-- So it is as the value of an entry. -/
theorem entryValue (h : StandsIn v w) : Alike Eq (entryValue v) (Script.entryValue w) :=
  h.alike fun _ => ⟨_, rfl⟩

/-- An operator before an operand gives the same for both. -/
theorem unary (h : StandsIn v w) (op : UnaryOp) : Alike Eq (op.apply v) (op.apply w) :=
  h.alike fun _ => by cases op <;> exact ⟨_, rfl⟩

/-- An operator between operands gives the same for both. -/
theorem binary (ha : StandsIn a v) (hb : StandsIn b w) (op : BinaryOp) :
    Alike Eq (op.apply a b) (op.apply v w) := by
  cases ha with
  | same => exact hb.alike fun _ => by cases a <;> exact ⟨_, rfl⟩
  | library => exact alike_of_error (by cases b <;> exact ⟨_, rfl⟩)

/-- So does looking up a position or a label. -/
theorem subscript (ha : StandsIn a v) (hb : StandsIn b w) :
    Alike Eq (subscript a b) (Script.subscript v w) := by
  cases ha with
  | same =>
    refine hb.alike fun _ => ?_
    cases a with
    | scalar value => cases value <;> exact ⟨_, rfl⟩
    | _ => exact ⟨_, rfl⟩
  | library => exact alike_of_error (by cases b <;> exact ⟨_, rfl⟩)

/-- So does an attribute. -/
theorem attributeOf (h : StandsIn v w) (name : String) :
    Alike Eq (attributeOf v name) (Script.attributeOf w name) :=
  h.alike (f := (Script.attributeOf · name)) fun _ => ⟨_, rfl⟩

end Operand.StandsIn

/-! ## Calls -/

/-- Arguments given by name that stand in for others. -/
def KeywordsStandIn (named other : Keyed Operand) : Prop :=
  ∀ name, Option.Rel Operand.StandsIn (named.get? name) (other.get? name)

/-- Arguments given by name stand in for others after one more of each. -/
theorem KeywordsStandIn.put {named other : Keyed Operand} (h : KeywordsStandIn named other) (name : String)
    {v w : Operand} (hv : v.StandsIn w) : KeywordsStandIn (named.put name v) (other.put name w) := by
  intro key
  rw [Keyed.get?_put, Keyed.get?_put]
  split
  · exact .some hv
  · exact h key

/-- Arguments that stand in for others, each in its place and under its name. -/
structure CallValues.StandsIn (args other : CallValues) : Prop where
  positional : List.Forall₂ Operand.StandsIn args.positional other.positional
  keywords : KeywordsStandIn args.keywords other.keywords

namespace CallValues.StandsIn

variable {args other : CallValues} (h : args.StandsIn other)
include h

/-- What is found among the arguments stands in for what is found among the others. -/
theorem get? (i : Nat) (name : String) :
    Option.Rel Operand.StandsIn (args.get? i name) (other.get? i name) := by
  have hget : Option.Rel Operand.StandsIn args.positional[i]? other.positional[i]? := by
    have hpositional := h.positional
    generalize args.positional = first at hpositional
    generalize other.positional = second at hpositional
    induction hpositional generalizing i with
    | nil => exact .none
    | cons hfirst _ ih =>
      cases i with
      | zero => exact .some hfirst
      | succ i => exact ih i
  have hkeyword := h.keywords name
  unfold CallValues.get?
  revert hget
  cases args.positional[i]? <;> cases other.positional[i]? <;> intro hget
  · exact hkeyword
  · cases hget
  · cases hget
  · exact hget

/-- So does an argument that has to be there. -/
theorem required (i : Nat) (name : String) :
    Alike Operand.StandsIn (args.required i name) (other.required i name) := by
  have hget := h.get? i name
  unfold CallValues.required
  revert hget
  cases args.get? i name <;> cases other.get? i name <;> intro hget
  · exact alike_of_error ⟨_, rfl⟩
  · cases hget
  · cases hget
  · cases hget with
    | some hv => exact alike_ok hv

/-- As a single value the same argument is found. -/
theorem scalar? (i : Nat) (name : String) : Alike Eq (args.scalar? i name) (other.scalar? i name) := by
  have hget := h.get? i name
  unfold CallValues.scalar?
  revert hget
  cases args.get? i name <;> cases other.get? i name <;> intro hget
  · exact alike_refl _
  · cases hget
  · cases hget
  · cases hget with
    | some hv =>
      cases hv with
      | same => exact alike_refl _
      | library => exact alike_of_error ⟨_, rfl⟩

/-- As a whole number the same argument is found. -/
theorem int? (i : Nat) (name : String) : Alike Eq (args.int? i name) (other.int? i name) :=
  (h.scalar? i name).bind_same fun _ => alike_refl _

/-- As a flag the same argument is found. -/
theorem flag (name : String) : Alike Eq (args.flag name) (other.flag name) := by
  have hget := h.keywords name
  unfold CallValues.flag
  revert hget
  cases args.keywords.get? name <;> cases other.keywords.get? name <;> intro hget
  · exact alike_refl _
  · cases hget
  · cases hget
  · cases hget with
    | some hv =>
      cases hv with
      | same => exact alike_refl _
      | library => exact alike_of_error ⟨_, rfl⟩

/-- Both calls change their dataframe, or neither does. -/
theorem changesFrame (method : String) :
    Alike Eq (changesFrame method args) (Script.changesFrame method other) := by
  unfold Script.changesFrame
  split
  · exact alike_refl _
  · split
    · exact h.flag "inplace"
    · exact alike_refl _

/-- An argument that is read as something else than an operand. -/
theorem requiredAs {α : Type} {f : Operand → Eval α} (hf : ∀ name, ∃ e, f (.module name) = .error e)
    (i : Nat) (name : String) : Alike Eq (args.required i name >>= f) (other.required i name >>= f) :=
  (h.required i name).bind fun _ _ hv => hv.alike hf

/-- The method `insert` does the same with both. -/
theorem insertColumn (f : Frame) : Alike Eq (insertColumn f args) (Script.insertColumn f other) := by
  unfold Script.insertColumn
  refine (h.int? 0 "loc").bind_same fun position => ?_
  cases position with
  | none => exact alike_refl _
  | some position =>
    dsimp only
    split
    · exact alike_refl _
    · refine (h.required 1 "column").bind fun _ _ hcolumn => hcolumn.toLabel.bind_same fun column => ?_
      refine (h.required 2 "value").bind fun _ _ hvalue => (hvalue.toCells f.rows).bind_same fun cells => ?_
      exact alike_refl _

/-- So does `rename`. -/
theorem renameColumns (f : Frame) : Alike Eq (renameColumns f args) (Script.renameColumns f other) := by
  have hget := h.keywords "columns"
  unfold Script.renameColumns
  revert hget
  cases args.keywords.get? "columns" <;> cases other.keywords.get? "columns" <;> intro hget
  · exact alike_refl _
  · cases hget
  · cases hget
  · cases hget with
    | some hv =>
      cases hv with
      | same => exact alike_refl _
      | library => exact alike_of_error ⟨_, rfl⟩

/-- So does `drop`. -/
theorem dropColumns (f : Frame) : Alike Eq (dropColumns f args) (Script.dropColumns f other) := by
  have hlabels : Alike Operand.StandsIn (droppedLabels args) (droppedLabels other) := by
    have hcolumns := h.keywords "columns"
    have hget := h.get? 0 "labels"
    unfold droppedLabels
    revert hcolumns hget
    cases args.keywords.get? "columns" <;> cases other.keywords.get? "columns" <;> intro hcolumns hget
    · revert hget
      cases args.get? 0 "labels" <;> cases other.get? 0 "labels" <;> intro hget
      · exact alike_of_error ⟨_, rfl⟩
      · cases hget
      · cases hget
      · cases hget with
        | some hv =>
          refine (h.scalar? 1 "axis").bind fun axis _ heq => ?_
          subst heq
          split
          · split
            · exact alike_ok hv
            · exact alike_of_error ⟨_, rfl⟩
          · split
            · exact alike_ok hv
            · exact alike_of_error ⟨_, rfl⟩
          · exact alike_of_error ⟨_, rfl⟩
    · cases hcolumns
    · cases hcolumns
    · cases hcolumns with
      | some hv => exact alike_ok hv
  unfold Script.dropColumns
  exact hlabels.bind fun _ _ hv => hv.toLabels.bind_same fun _ => alike_refl _

/-- So does every method that changes a dataframe. -/
theorem changeFrame (f : Frame) (method : String) :
    Alike Eq (changeFrame f method args) (Script.changeFrame f method other) := by
  have hfill : Alike Eq (fillFrame f args) (fillFrame f other) :=
    (h.required 0 "value").bind fun _ _ hv => hv.toScalar.bind_same fun _ => alike_refl _
  exact alike_ite (h.insertColumn f) <| alike_ite (h.renameColumns f) <| alike_ite (h.dropColumns f) <|
    alike_ite (alike_refl _) <| alike_ite hfill <| alike_refl _

/-- So does every method of a dataframe. -/
theorem frameMethod (f : Frame) (method : String) :
    Alike Eq (frameMethod f method args) (Script.frameMethod f method other) := by
  refine alike_ite (alike_refl _) <| alike_ite ?_ <| alike_ite ?_ <| alike_refl _
  · exact (h.int? 0 "n").bind_same fun _ => alike_refl _
  · exact (h.changeFrame f method).map_same _

/-- Of the methods of a series only two have arguments. -/
theorem seriesMethod (cells : List Value) (method : String) :
    Alike Eq (seriesMethod cells method args) (Script.seriesMethod cells method other) := by
  have hrefl : ∀ {x : Eval Operand}, Alike Eq x x := alike_refl _
  refine alike_ite hrefl <| alike_ite hrefl <| alike_ite hrefl <| alike_ite hrefl <| alike_ite hrefl <|
    alike_ite ?fillna <| alike_ite hrefl <| alike_ite ?round <| alike_ite hrefl <| alike_ite hrefl hrefl
  case fillna => exact (h.required 0 "value").bind fun _ _ hv => hv.toScalar.bind_same fun _ => hrefl
  case round => exact (h.int? 0 "decimals").bind_same fun _ => hrefl

/-- So does every method of a single value. -/
theorem scalarMethod (v : Value) (method : String) :
    Alike Eq (scalarMethod v method args) (Script.scalarMethod v method other) := by
  have hrefl : ∀ {x : Eval Operand}, Alike Eq x x := alike_refl _
  cases v with
  | str s =>
    refine alike_ite hrefl <| alike_ite hrefl <| alike_ite hrefl <| alike_ite ?_ hrefl
    exact (h.scalar? 0 "old").bind_same fun _ => (h.scalar? 1 "new").bind_same fun _ => hrefl
  | _ => exact hrefl

/-- What a function of the library gives does not depend on the name of the library. -/
theorem moduleFunction (files : Files) (library library' function : String) :
    Alike Eq (moduleFunction files library function args)
      (Script.moduleFunction files library' function other) := by
  refine alike_ite ?_ <| alike_ite ?_ <| alike_of_error ⟨_, rfl⟩
  · exact (h.scalar? 0 "filepath_or_buffer").bind_same fun _ => alike_refl _
  · exact (h.scalar? 0 "data").bind_same fun _ => alike_refl _

/-- So does every function that is called by its name. -/
theorem callFunction (name : String) :
    Alike Eq (callFunction name args) (Script.callFunction name other) := by
  have hscalar : ∀ {α : Type} (key : String) (f : Value → Eval α),
      Alike Eq (args.required 0 key >>= fun v => v.toScalar >>= f)
        (other.required 0 key >>= fun v => v.toScalar >>= f) := fun key f =>
    (h.required 0 key).bind fun _ _ hv => hv.toScalar.bind_same fun _ => alike_refl _
  refine alike_ite ?len <| alike_ite ?abs <| alike_ite ?round <| alike_ite (hscalar "object" _) <|
    alike_ite (hscalar "x" _) <| alike_ite (hscalar "x" _) <| alike_ite (alike_refl _) (alike_refl _)
  case len =>
    exact (h.required 0 "obj").bind fun _ _ hv =>
      (hv.alike (f := lengthOf) fun _ => ⟨_, rfl⟩).bind_same fun _ => alike_refl _
  case abs => exact h.requiredAs (fun _ => ⟨_, rfl⟩) 0 "x"
  case round =>
    exact (h.int? 1 "ndigits").bind_same fun _ => h.requiredAs (fun _ => ⟨_, rfl⟩) 0 "number"

/-- A call on what stands in for something else. What the library has functions for, no other operand has
methods for. -/
theorem callOn {v w : Operand} (hv : v.StandsIn w) (files : Files) (method : String) :
    Alike Eq (callOn files method args v) (Script.callOn files method other w) := by
  cases hv with
  | same =>
    cases v with
    | frame f =>
      refine (h.changesFrame method).bind_same fun changes => ?_
      cases changes with
      | true => exact (h.changeFrame f method).bind_same fun _ => alike_refl _
      | false => exact h.frameMethod f method
    | series cells => exact h.seriesMethod cells method
    | module library => exact h.moduleFunction files library library method
    | scalar value => exact h.scalarMethod value method
  | library name hframe =>
    by_cases hfunction : method = "read_csv" ∨ method = "DataFrame"
    · cases w with
      | frame f => exact absurd rfl (hframe f)
      | module library => exact h.moduleFunction files name library method
      | series cells =>
        refine alike_of_error_right ?_
        rcases hfunction with rfl | rfl <;> exact ⟨_, rfl⟩
      | scalar value =>
        refine alike_of_error_right ?_
        rcases hfunction with rfl | rfl <;> cases value <;> exact ⟨_, rfl⟩
    · rw [not_or] at hfunction
      refine alike_of_error ⟨.unsupported (.moduleFunction name method), ?_⟩
      rw [Script.callOn, Script.moduleFunction, if_neg hfunction.1, if_neg hfunction.2]

end CallValues.StandsIn

/-! ## Two runs -/

/-- Locals of a run with the library, of one with other values in its place, and of one that has of the
latter only those that the first run knows. -/
structure Matched (first second bare : Keyed Operand) : Prop where
  tidy : first.keys.Nodup
  tidySecond : second.keys.Nodup
  tidyBare : bare.keys.Nodup
  standsIn : ∀ name v, first.get? name = some v →
    bare.get? name = second.get? name ∧ ∀ w, second.get? name = some w → v.StandsIn w

section Matched

variable {first second bare : Keyed Operand}

/-- Locals stay matched when a name gets values of which one stands in for the other. -/
theorem Matched.put (h : Matched first second bare) (name : String) {v w : Operand} (hv : v.StandsIn w) :
    Matched (first.put name v) (second.put name w) (bare.put name w) := by
  refine ⟨Keyed.nodup_keys_put h.tidy name v, Keyed.nodup_keys_put h.tidySecond name w,
    Keyed.nodup_keys_put h.tidyBare name w, fun other u hu => ?_⟩
  by_cases heq : name = other
  · subst heq
    rw [Keyed.get?_put_self] at hu ⊢
    rw [Keyed.get?_put_self]
    cases hu
    exact ⟨rfl, fun x hx => by cases hx; exact hv⟩
  · rw [Keyed.get?_put_of_ne _ _ heq] at hu ⊢
    rw [Keyed.get?_put_of_ne _ _ heq]
    exact h.standsIn other u hu

/-- Locals stay matched when a name is removed. -/
theorem Matched.erase (h : Matched first second bare) (name : String) :
    Matched (first.erase name) (second.erase name) (bare.erase name) := by
  refine ⟨Keyed.nodup_keys_erase h.tidy name, Keyed.nodup_keys_erase h.tidySecond name,
    Keyed.nodup_keys_erase h.tidyBare name, fun other u hu => ?_⟩
  have hne : name ≠ other := by
    rintro rfl
    exact absurd (hu.symm.trans (Keyed.get?_erase_self h.tidy name)) (by simp)
  rw [Keyed.get?_erase_of_ne _ hne] at hu ⊢
  rw [Keyed.get?_erase_of_ne _ hne]
  exact h.standsIn other u hu

end Matched

/-- Scopes with the same dataframes and matched locals. -/
structure Twins (first second bare : Scope) : Prop where
  book : second.book = first.book
  bookBare : bare.book = first.book
  locals : Matched first.locals second.locals bare.locals

namespace Twins

variable {first second bare : Scope} (h : Twins first second bare)
include h

/-- Twins stay twins when a dataframe is put in its place. -/
theorem setFrame (name : String) (f : Frame) :
    Twins (first.setFrame name f) (second.setFrame name f) (bare.setFrame name f) :=
  ⟨congrArg (Workbook.insert · name f) h.book, congrArg (Workbook.insert · name f) h.bookBare, h.locals⟩

/-- Twins stay twins when a name is bound to values of which one stands in for the other. -/
theorem bind (name : String) {v w : Operand} (hv : v.StandsIn w) :
    Twins (first.bind name v) (second.bind name w) (bare.bind name w) := by
  have hlocal : Twins ⟨first.book.remove name, first.locals.put name v⟩
      ⟨second.book.remove name, second.locals.put name w⟩
      ⟨bare.book.remove name, bare.locals.put name w⟩ :=
    ⟨congrArg (Workbook.remove · name) h.book, congrArg (Workbook.remove · name) h.bookBare,
      h.locals.put name hv⟩
  cases hv with
  | same =>
    cases v with
    | frame f =>
      exact ⟨congrArg (Workbook.insert · name f) h.book, congrArg (Workbook.insert · name f) h.bookBare,
        h.locals.erase name⟩
    | _ => exact hlocal
  | library _ hframe =>
    cases w with
    | frame f => exact absurd rfl (hframe f)
    | _ => exact hlocal

/-- A name that stands for something in both runs stands for the same without the other locals. -/
theorem lookup {name : String} {v w : Operand} (hv : first.lookup name = .ok v)
    (hw : second.lookup name = .ok w) : v.StandsIn w ∧ bare.lookup name = .ok w := by
  unfold Scope.lookup at hv hw ⊢
  rw [h.book] at hw
  rw [h.bookBare]
  cases hframe : first.book.frame? name with
  | some f =>
    rw [hframe] at hv hw
    cases hv
    cases hw
    exact ⟨.same _, rfl⟩
  | none =>
    rw [hframe] at hv hw
    cases hlocal : first.locals.get? name with
    | none => simp [hlocal] at hv
    | some u =>
      obtain ⟨hbare, hstands⟩ := h.locals.standsIn name u hlocal
      cases hlocal' : second.locals.get? name with
      | none => simp [hlocal'] at hw
      | some x =>
        simp only [hlocal, hlocal', Except.ok.injEq] at hv hw
        subst hv hw
        simp only [hbare, hlocal', and_true]
        exact hstands x hlocal'

/-- A name that is removed in both runs can be removed without the other locals. -/
theorem unbind {name : String} {after after' : Scope} (hfirst : first.unbind name = .ok after)
    (hsecond : second.unbind name = .ok after') :
    ∃ bare', bare.unbind name = .ok bare' ∧ Twins after after' bare' := by
  unfold Scope.unbind at hfirst hsecond ⊢
  rw [h.book] at hsecond
  rw [h.bookBare]
  by_cases hframe : first.book.has name = true
  · rw [if_pos hframe] at hfirst hsecond ⊢
    cases hfirst
    cases hsecond
    exact ⟨_, rfl, rfl, rfl, h.locals⟩
  · rw [if_neg hframe] at hfirst hsecond ⊢
    split at hfirst
    case isFalse => cases hfirst
    case isTrue hlocal =>
      split at hsecond
      case isFalse => cases hsecond
      case isTrue hlocal' =>
        cases hfirst
        cases hsecond
        obtain ⟨v, hv⟩ := Option.isSome_iff_exists.mp hlocal
        have hbare : bare.locals.has name = true := by
          rw [Keyed.has, (h.locals.standsIn name v hv).1]
          exact hlocal'
        exact ⟨_, if_pos hbare, rfl, rfl, h.locals.erase name⟩

end Twins

/-- Steps of two runs that, if both succeed, lead from twins to twins with related results, the second also
without the other locals. -/
def Paired {α β : Type} (R : α → β → Prop) (m : Run α) (n : Run β) : Prop :=
  ∀ first second bare, Twins first second bare → ∀ a b after after',
    m first = .ok (a, after) → n second = .ok (b, after') →
      R a b ∧ ∃ bare', n bare = .ok (b, bare') ∧ Twins after after' bare'

section Paired

variable {α β γ δ : Type} {R : α → β → Prop} {S : γ → δ → Prop}

/-- Related results are paired. -/
theorem paired_pure {a : α} {b : β} (h : R a b) : Paired R (pure a : Run α) (pure b) := by
  intro first second bare htwins a' b' after after' ha hb
  cases ha
  cases hb
  exact ⟨h, bare, rfl, htwins⟩

/-- Two steps in sequence are paired if the first ones are, and the second ones on related results. -/
theorem Paired.bind {m : Run α} {n : Run β} {f : α → Run γ} {g : β → Run δ} (h : Paired R m n)
    (hf : ∀ a b, R a b → Paired S (f a) (g b)) : Paired S (m >>= f) (n >>= g) := by
  intro first second bare htwins c d after after' hc hd
  obtain ⟨a, between, hm, hc⟩ := run_bind_eq_ok.mp hc
  obtain ⟨b, between', hn, hd⟩ := run_bind_eq_ok.mp hd
  obtain ⟨hab, bare', hbare, htwins'⟩ := h first second bare htwins a b between between' hm hn
  obtain ⟨hcd, bare'', hbare', htwins''⟩ := hf a b hab between between' bare' htwins' c d after after' hc hd
  exact ⟨hcd, bare'', run_bind_eq_ok.mpr ⟨b, bare', hbare, hbare'⟩, htwins''⟩

/-- Two steps in sequence are paired if the first ones give the same, and the second ones are paired on it.
-/
theorem Paired.bind_same {m n : Run α} {f g : α → Run γ} {S : γ → γ → Prop} (h : Paired Eq m n)
    (hf : ∀ a, Paired S (f a) (g a)) : Paired S (m >>= f) (n >>= g) := h.bind fun a _ heq => heq ▸ hf a

/-- A step that reads the scope gives in the second run what it gives without the other locals. -/
theorem paired_read {f : Scope → Eval α} {g : Scope → Eval β}
    (h : ∀ first second bare, Twins first second bare → ∀ a b, f first = .ok a → g second = .ok b →
      R a b ∧ g bare = .ok b) : Paired R (do f (← get)) (do g (← get)) := by
  intro first second bare htwins a b after after' ha hb
  rw [run_get_bind] at ha hb
  obtain ⟨ha, rfl⟩ := run_lift_eq_ok.mp ha
  obtain ⟨hb, rfl⟩ := run_lift_eq_ok.mp hb
  obtain ⟨hab, hbare⟩ := h _ _ bare htwins a b ha hb
  refine ⟨hab, bare, ?_, htwins⟩
  rw [run_get_bind]
  exact run_lift_eq_ok.mpr ⟨hbare, rfl⟩

/-- What reads the scope alike goes on alike. -/
theorem Paired.read_bind {f g : Scope → Eval γ} {k : γ → Run α} {l : γ → Run β}
    (h : Paired Eq (do f (← get) : Run γ) (do g (← get))) (hk : ∀ c, Paired R (k c) (l c)) :
    Paired R (do
      let c ← f (← get)
      k c) (do
      let c ← g (← get)
      l c) := by
  simpa only [bind_assoc] using Paired.bind h fun c d heq => heq ▸ hk c

/-- Evaluations that are alike are paired. -/
theorem paired_lift {x : Eval α} {y : Eval β} (h : Alike R x y) :
    Paired R (liftM x : Run α) (liftM y) := by
  intro first second bare htwins a b after after' ha hb
  obtain ⟨hx, rfl⟩ := run_lift_eq_ok.mp ha
  obtain ⟨hy, rfl⟩ := run_lift_eq_ok.mp hb
  exact ⟨h a b hx hy, bare, run_lift_eq_ok.mpr ⟨hy, rfl⟩, htwins⟩

/-- What fails is paired with anything. -/
theorem paired_of_error {x : Eval α} {n : Run β} (h : ∃ e, x = .error e) :
    Paired R (liftM x : Run α) n := by
  obtain ⟨e, rfl⟩ := h
  intro first second bare htwins a b after after' ha
  cases ha

/-- Changes that keep twins are paired. -/
theorem paired_modify {f g : Scope → Scope}
    (h : ∀ first second bare, Twins first second bare → Twins (f first) (g second) (g bare)) :
    Paired Eq (modify f : Run Unit) (modify g) := by
  intro first second bare htwins a b after after' ha hb
  rw [run_modify] at ha hb
  cases ha
  cases hb
  exact ⟨rfl, g bare, run_modify _ _, h first second bare htwins⟩

/-- A call of a method, with arguments that stand in for others. -/
theorem paired_method (files : Files) (target : Expr) (method : String) {args other : CallValues}
    (hargs : args.StandsIn other) (htarget : Paired Operand.StandsIn (eval files target) (eval files target)) :
    Paired Operand.StandsIn (methodCall files target method args) (methodCall files target method other) := by
  have hchanged : Paired Eq (do changedFrame? (← get) target method args : Run _)
      (do changedFrame? (← get) target method other) := by
    refine paired_read fun first second bare htwins a b ha hb => ?_
    have hbook : ∀ scope : Scope, scope.book = first.book →
        changedFrame? scope target method other = changedFrame? first target method other := by
      intro scope hscope
      unfold changedFrame?
      rw [hscope]
    rw [hbook second htwins.book] at hb
    rw [hbook bare htwins.bookBare]
    refine ⟨?_, hb⟩
    have halike : Alike Eq (changedFrame? first target method args)
        (changedFrame? first target method other) := by
      unfold changedFrame?
      split
      · split
        · exact (hargs.changesFrame method).map_same _
        · exact alike_refl _
      · exact alike_refl _
    exact halike a b ha hb
  unfold methodCall
  refine hchanged.read_bind fun changed? => ?_
  cases changed? with
  | some entry =>
    refine (paired_lift (hargs.changeFrame entry.2 method)).bind_same fun changed => ?_
    refine (paired_modify fun _ _ _ htwins => htwins.setFrame entry.1 changed).bind_same fun _ => ?_
    exact paired_pure (.same _)
  | none =>
    exact htarget.bind fun v w hv => paired_lift (hargs.callOn hv files method).standsIn

/-- Expressions are paired with themselves, and so are the lists of expressions in them. -/
theorem paired_all (files : Files) :
    (∀ e, Paired Operand.StandsIn (eval files e) (eval files e)) ∧
      (∀ done named, ∀ other, KeywordsStandIn done other →
        Paired KeywordsStandIn (evalKeywords files done named) (evalKeywords files other named)) ∧
      (∀ es, Paired (List.Forall₂ Operand.StandsIn) (evalAll files es) (evalAll files es)) ∧
      (∀ done entries, Paired Eq (evalEntries files done entries) (evalEntries files done entries)) ∧
      ∀ es, Paired Eq (evalItems files es) (evalItems files es) := by
  -- keywords are gathered in an accumulator, so for them the other accumulator is general
  refine eval.mutual_induct (fun e => Paired Operand.StandsIn (eval files e) (eval files e))
    (fun done named => ∀ other, KeywordsStandIn done other →
      Paired KeywordsStandIn (evalKeywords files done named) (evalKeywords files other named))
    (fun es => Paired (List.Forall₂ Operand.StandsIn) (evalAll files es) (evalAll files es))
    (fun done entries => Paired Eq (evalEntries files done entries) (evalEntries files done entries))
    (fun es => Paired Eq (evalItems files es) (evalItems files es)) ?literal ?name ?list ?dict ?unary ?and
    ?or ?binary ?index ?member ?method ?function ?call ?noArgs ?args ?noItems ?items ?noEntries ?entries
    ?noKeywords ?keywords
  case literal =>
    intro v
    rw [eval]
    exact paired_pure (.same _)
  case name =>
    intro s
    rw [eval]
    exact paired_read fun _ _ _ htwins _ _ ha hb => htwins.lookup ha hb
  case list =>
    intro items ih
    rw [eval]
    exact ih.bind_same fun _ => paired_pure (.same _)
  case dict =>
    intro entries ih
    rw [eval]
    exact ih.bind_same fun _ => paired_pure (.same _)
  case unary =>
    intro op operand ih
    rw [eval]
    exact ih.bind fun _ _ hv => paired_lift (hv.unary op).standsIn
  case and =>
    intro left right ihLeft ihRight
    rw [eval]
    refine ihLeft.bind fun v w hv => ?_
    cases hv with
    | same =>
      split
      · split
        · exact ihRight
        · exact paired_pure (.same _)
      · exact paired_lift (alike_refl _).standsIn
    -- a library has no truth value, so the left operand alone ends the evaluation
    | library => exact paired_of_error ⟨_, rfl⟩
  case or =>
    intro left right ihLeft ihRight
    rw [eval]
    refine ihLeft.bind fun v w hv => ?_
    cases hv with
    | same =>
      split
      · split
        · exact paired_pure (.same _)
        · exact ihRight
      · exact paired_lift (alike_refl _).standsIn
    | library => exact paired_of_error ⟨_, rfl⟩
  case binary =>
    intro op left right hand hor ihLeft ihRight
    rw [eval]
    · exact ihLeft.bind fun _ _ ha => ihRight.bind fun _ _ hb => paired_lift (ha.binary hb op).standsIn
    · exact hand
    · exact hor
  case index =>
    intro target position ihTarget ihPosition
    rw [eval]
    exact ihTarget.bind fun _ _ ha => ihPosition.bind fun _ _ hb => paired_lift (ha.subscript hb).standsIn
  case member =>
    intro target name ih
    rw [eval]
    exact ih.bind fun _ _ hv => paired_lift (hv.attributeOf name).standsIn
  case method =>
    intro target method arguments keywords ihArguments ihKeywords ihTarget
    rw [eval]
    exact ihArguments.bind fun _ _ hpositional => (ihKeywords [] fun _ => .none).bind fun _ _ hkeywords =>
      -- the target is evaluated after the arguments, if the call does not change a dataframe
      paired_method files target method ⟨hpositional, hkeywords⟩ ihTarget
  case function =>
    intro s arguments keywords ihArguments ihKeywords
    rw [eval]
    exact ihArguments.bind fun _ _ hpositional => (ihKeywords [] fun _ => .none).bind fun _ _ hkeywords =>
      paired_lift (CallValues.StandsIn.callFunction ⟨hpositional, hkeywords⟩ s).standsIn
  case call =>
    intro function arguments keywords hmember hname ihArguments ihKeywords
    rw [eval]
    · exact ihArguments.bind fun _ _ _ => (ihKeywords [] fun _ => .none).bind fun _ _ _ =>
        paired_lift (alike_refl _).standsIn
    · exact hmember
    · exact hname
  case noArgs =>
    rw [evalAll]
    exact paired_pure .nil
  case args =>
    intro e rest ihFirst ihRest
    rw [evalAll]
    exact ihFirst.bind fun _ _ hv => ihRest.bind fun _ _ hvs => paired_pure (.cons hv hvs)
  case noItems =>
    rw [evalItems]
    exact paired_pure rfl
  case items =>
    intro e rest ihFirst ihRest
    rw [evalItems]
    exact ihFirst.bind fun _ _ hv => (paired_lift hv.toScalar).bind_same fun _ => ihRest.bind_same fun _ =>
      paired_pure rfl
  case noEntries =>
    intro done
    rw [evalEntries]
    exact paired_pure rfl
  case entries =>
    intro done key e rest ihKey ihValue ihRest
    rw [evalEntries]
    exact ihKey.bind fun _ _ hkey => (paired_lift hkey.toLabel).bind_same fun label =>
      ihValue.bind fun _ _ hv => (paired_lift hv.entryValue).bind_same fun v => ihRest label v
  case noKeywords =>
    intro done other hother
    rw [evalKeywords]
    exact paired_pure hother
  case keywords =>
    intro done name e rest ihFirst ihRest other hother
    rw [evalKeywords]
    exact ihFirst.bind fun v w hv => ihRest v (other.put name w) (hother.put name hv)

/-- Evaluating an expression is paired with evaluating it. -/
theorem paired_eval (files : Files) (e : Expr) : Paired Operand.StandsIn (eval files e) (eval files e) :=
  (paired_all files).1 e

/-! ## Statements and lines -/

/-- So is finding the dataframe of an in-place call. -/
theorem paired_frame (name : String) :
    Paired Eq (do (← get).frame name : Run Frame) (do (← get).frame name) := by
  refine paired_read fun first second bare htwins a b ha hb => ?_
  have hframe : ∀ scope : Scope, scope.book = first.book → scope.frame name = first.frame name := by
    intro scope hscope
    unfold Scope.frame
    rw [hscope]
  rw [hframe second htwins.book] at hb
  rw [hframe bare htwins.bookBare]
  exact ⟨Except.ok.inj (ha.symm.trans hb), hb⟩

/-- A dataframe that is there is replaced alike. -/
theorem paired_replace {n : String} {x y : Frame → Run Frame} (h : ∀ f, Paired Eq (x f) (y f)) :
    Paired Eq
      (do
        let f ← (← get).frame n
        let changed ← x f
        modify (·.setFrame n changed) : Run Unit)
      (do
        let f ← (← get).frame n
        let changed ← y f
        modify (·.setFrame n changed)) := by
  have hrest : ∀ f, Paired Eq (do modify (·.setFrame n (← x f)) : Run Unit)
      (do modify (·.setFrame n (← y f))) := fun f =>
    (h f).bind_same fun changed => paired_modify fun _ _ _ htwins => htwins.setFrame n changed
  simpa only [bind_assoc] using (paired_frame n).bind_same hrest

/-- Operands that stand in for each other are assigned alike. -/
theorem paired_assign (files : Files) {v w : Operand} (hv : v.StandsIn w) (target : Target) :
    Paired Eq (assign files v target) (assign files w target) := by
  cases target with
  | name s => exact paired_modify fun _ _ _ htwins => htwins.bind s hv
  | column name label =>
    rw [assign, assign]
    refine (paired_eval files label).bind fun _ _ hlabel => (paired_lift hlabel.toLabel).bind_same fun label => ?_
    have hchange : ∀ f : Frame, Paired Eq
        (do ofFrame (f.set label (← v.toCells f.rows)).made : Run Frame)
        (do ofFrame (f.set label (← w.toCells f.rows)).made) := fun f =>
      (paired_lift (hv.toCells f.rows)).bind_same fun _ => paired_lift (alike_refl _)
    simpa only [bind_assoc] using paired_replace (n := name) hchange

/-- So is deleting. -/
theorem paired_delete (files : Files) (target : Target) :
    Paired Eq (delete files target) (delete files target) := by
  cases target with
  | name s =>
    intro first second bare htwins a b after after' ha hb
    rw [delete, run_get_bind] at ha hb ⊢
    obtain ⟨next, between, hlift, hset⟩ := run_bind_eq_ok.mp ha
    obtain ⟨hunbind, rfl⟩ := run_lift_eq_ok.mp hlift
    cases hset
    obtain ⟨next', between', hlift', hset'⟩ := run_bind_eq_ok.mp hb
    obtain ⟨hunbind', rfl⟩ := run_lift_eq_ok.mp hlift'
    cases hset'
    obtain ⟨bare', hbare, htwins'⟩ := htwins.unbind hunbind hunbind'
    refine ⟨rfl, bare', ?_, htwins'⟩
    exact run_bind_eq_ok.mpr ⟨bare', bare, run_lift_eq_ok.mpr ⟨hbare, rfl⟩, rfl⟩
  | column name label =>
    rw [delete]
    refine (paired_eval files label).bind fun _ _ hlabel => (paired_lift hlabel.toLabel).bind_same fun label => ?_
    exact paired_replace fun f => paired_lift (alike_refl _)

/-- A statement that can be carried out in both runs. -/
theorem paired_exec (files : Files) (s : Statement) :
    Paired (fun _ _ => True) (exec files s) (exec files s) := by
  cases s with
  | load library shortName =>
    intro first second bare htwins a b after after' ha hb
    by_cases hlibrary : library = "pandas"
    · subst hlibrary
      cases ha
      cases hb
      exact ⟨trivial, _, rfl, htwins.book, htwins.bookBare, htwins.locals.put shortName (.same _)⟩
    · rw [exec, if_pos hlibrary] at ha
      cases ha
  | assign target e =>
    exact (paired_eval files e).bind fun _ _ hv => (paired_assign files hv target).bind_same fun _ =>
      paired_pure trivial
  | delete target => exact (paired_delete files target).bind_same fun _ => paired_pure trivial
  | expr e => exact (paired_eval files e).bind fun _ _ _ => paired_pure trivial

end Paired

section Lines

variable {files : Files} {first second bare scope after after' : Scope}

/-- A line that can be carried out in both runs does the same to the dataframes, and it can be carried out
without the other locals of the second. -/
theorem Scope.afterLine_twins {line : List Char} (htwins : Twins first second bare)
    (h : first.afterLine files line = some after) (h' : second.afterLine files line = some after') :
    ∃ bare', bare.afterLine files line = some bare' ∧ Twins after after' bare' := by
  rcases afterLine_eq_some_iff.mp h with ⟨hnone, rfl⟩ | ⟨s, v, hsome, hexec⟩
  · rw [afterLine_of_none hnone] at h' ⊢
    cases h'
    exact ⟨bare, rfl, htwins⟩
  · rcases afterLine_eq_some_iff.mp h' with ⟨hnone, -⟩ | ⟨s', v', hsome', hexec'⟩
    · cases hsome.symm.trans hnone
    · cases hsome.symm.trans hsome'
      obtain ⟨-, bare', hbare, htwins'⟩ :=
        paired_exec files s first second bare htwins v v' after after' hexec hexec'
      exact ⟨bare', afterLine_of_some hsome hbare, htwins'⟩

/-- Lines that can be carried out in both runs do the same to the dataframes, and they can be carried out
without the other locals of the second. -/
theorem Scope.afterLines_twins {lines : List (List Char)} (htwins : Twins first second bare)
    (h : first.afterLines files lines = some after) (h' : second.afterLines files lines = some after') :
    ∃ bare', bare.afterLines files lines = some bare' ∧ Twins after after' bare' := by
  induction lines generalizing first second bare with
  | nil =>
    cases h
    cases h'
    exact ⟨bare, rfl, htwins⟩
  | cons line rest ih =>
    rw [afterLines_cons, Option.bind_eq_some_iff] at h h'
    obtain ⟨next, hnext, hrest⟩ := h
    obtain ⟨next', hnext', hrest'⟩ := h'
    obtain ⟨between, hbetween, htwins'⟩ := afterLine_twins htwins hnext hnext'
    obtain ⟨bare', hbare, hlast⟩ := ih htwins' hrest hrest'
    exact ⟨bare', by rw [afterLines_cons, hbetween, Option.bind_some, hbare], hlast⟩

/-! ## Locals -/

/-- No local is a dataframe. -/
def Scope.Apart (scope : Scope) : Prop := ∀ entry ∈ scope.locals, ∀ f, entry.2 ≠ .frame f

/-- At the beginning of a script no local is a dataframe. -/
theorem Scope.apart_initial (book : Workbook) : (Scope.initial book).Apart := by
  intro entry hentry f
  obtain rfl := List.mem_singleton.mp hentry
  simp

/-- No local is a dataframe after one more that is none. -/
theorem Scope.Apart.put (h : scope.Apart) (book : Workbook) (name : String) {v : Operand}
    (hv : ∀ f, v ≠ .frame f) : Scope.Apart ⟨book, scope.locals.put name v⟩ := by
  intro entry hentry
  rcases Keyed.mem_of_mem_put hentry with rfl | hold
  · exact hv
  · exact h entry hold

/-- Nor after one less. -/
theorem Scope.Apart.erase (h : scope.Apart) (book : Workbook) (name : String) :
    Scope.Apart ⟨book, scope.locals.erase name⟩ := fun entry hentry =>
  h entry (Keyed.mem_of_mem_erase hentry)

/-- Nor after a name is bound. -/
theorem Scope.Apart.bind (h : scope.Apart) (name : String) (v : Operand) : (scope.bind name v).Apart := by
  cases v with
  | frame f => exact h.erase _ name
  | _ => exact h.put _ name (by simp)

/-- Statements make no dataframe a local. -/
theorem Scope.Apart.exec {s : Statement} {v : Option Operand} (h : scope.Apart)
    (hexec : exec files s scope = .ok (v, after)) : after.Apart := by
  have hsteady : ∀ {α : Type} {m : Run α} {scope after : Scope} {a : α}, Steady m →
      m scope = .ok (a, after) → scope.Apart → after.Apart := by
    intro α m scope after a hm hok hscope
    rw [Scope.Apart, (hm scope a after hok).1]
    exact hscope
  cases executed_of_exec hexec with
  | load shortName hafter =>
    subst hafter
    exact h.put _ shortName (by simp)
  | @bind name e value between heval hafter =>
    subst hafter
    exact Scope.Apart.bind (hsteady (steady_eval files e) heval h) name value
  | @setColumn name label e value between heval hassign =>
    have hbetween := hsteady (steady_eval files e) heval h
    exact hsteady (steady_assign_column files value name label) hassign hbetween
  | @unbind name hunbind =>
    unfold Scope.unbind at hunbind
    split at hunbind
    · cases hunbind
      exact h
    · split at hunbind
      · cases hunbind
        exact h.erase _ name
      · cases hunbind
  | @dropColumn name label hdelete => exact hsteady (steady_delete_column files name label) hdelete h
  | @expr e value heval => exact hsteady (steady_eval files e) heval h

/-- Lines make no dataframe a local. -/
theorem Scope.Apart.afterLines {lines : List (List Char)} (h : scope.Apart)
    (hlines : scope.afterLines files lines = some after) : after.Apart := by
  induction lines generalizing scope with
  | nil =>
    cases hlines
    exact h
  | cons line rest ih =>
    rw [afterLines_cons, Option.bind_eq_some_iff] at hlines
    obtain ⟨next, hnext, hrest⟩ := hlines
    refine ih ?_ hrest
    rcases afterLine_eq_some_iff.mp hnext with ⟨-, rfl⟩ | ⟨s, v, -, hexec⟩
    · exact h
    · exact h.exec hexec

/-- The dataframes of a scope, and of its locals that which has the name of the library. -/
def Scope.libraryOnly (scope : Scope) : Scope :=
  ⟨scope.book, match scope.locals.get? "pd" with
    | some v => [("pd", v)]
    | none => []⟩

/-- Of the locals only that with the name of the library is left. -/
theorem Scope.get?_libraryOnly (scope : Scope) (name : String) : scope.libraryOnly.locals.get? name =
    if name = "pd" then scope.locals.get? "pd" else none := by
  unfold libraryOnly
  cases scope.locals.get? "pd" with
  | none => simp [Keyed.get?]
  | some v => simp [Keyed.get?, eq_comm]

/-- A scope has all that is left of it with only one of its locals. -/
theorem Scope.extends_libraryOnly (scope : Scope) : scope.Extends scope.libraryOnly := by
  refine ⟨rfl, fun name v hv => ?_⟩
  rw [get?_libraryOnly] at hv
  split at hv
  case isTrue heq => exact heq ▸ hv
  case isFalse => cases hv

/-- It is bound once. -/
theorem Scope.tidy_libraryOnly (scope : Scope) : scope.libraryOnly.Tidy := by
  unfold Tidy libraryOnly
  cases scope.locals.get? "pd" <;> simp

/-- A scope as the twin of the one that runs begin with. -/
theorem Scope.twins_initial (htidy : scope.Tidy) (hapart : scope.Apart) :
    Twins (.initial scope.book) scope scope.libraryOnly := by
  refine ⟨rfl, rfl, tidy_initial scope.book, htidy, tidy_libraryOnly scope, fun name v hv => ?_⟩
  obtain ⟨rfl, rfl⟩ : name = "pd" ∧ v = .module "pandas" := by
    have hmem := Keyed.mem_of_get? hv
    simpa [Scope.initial] using hmem
  refine ⟨by rw [get?_libraryOnly, if_pos rfl], fun w hw => ?_⟩
  exact .library "pandas" fun f => hapart ("pd", w) (Keyed.mem_of_get? hw) f

end Lines

end TableScript.Script
