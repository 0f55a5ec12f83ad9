import TableScript.Proofs.Checked
import TableScript.Proofs.Folding

/-!
# Scripts never fault

Whatever a script does with rectangular dataframes, no operation it gets to has a fault: the run that
checks is the run that does not, step by step and thus as a whole. The two are compared in the same
induction that shows that dataframes stay rectangular, for some operations have no fault only because
their operand is.

A script gives rectangular dataframes then, whose rows can be written, or an error in one of its lines
(`run_safe`).
-/

namespace TableScript.Script

/-- In a rectangular scope the step that checks has no fault and does what the other does, and if that
gives something, it has the property and the scope stays rectangular. -/
def Safe {α : Type} (P : α → Prop) (checked : Checked.Run α) (m : Run α) : Prop :=
  ∀ scope : Scope, scope.Rectangular → ExceptT.run (checked scope) = some (m scope) ∧
    Yields (fun after => P after.1 ∧ after.2.Rectangular) (m scope)

/-! ## Steps -/

section Steps

variable {α β : Type} {P : α → Prop} {Q : β → Prop}

/-- A result that has the property is safe. -/
theorem safe_pure {a : α} (ha : P a) : Safe P (pure a) (pure a) :=
  fun _ hscope => ⟨rfl, yields_ok ⟨ha, hscope⟩⟩

/-- Two safe steps in sequence are safe, the second one on every result of the first that has the property.
-/
theorem safe_bind {checked : Checked.Run α} {m : Run α} {next : α → Checked.Run β} {rest : α → Run β}
    (h : Safe P checked m) (hnext : ∀ a, P a → Safe Q (next a) (rest a)) :
    Safe Q (checked >>= next) (m >>= rest) := by
  intro scope hscope
  obtain ⟨hsame, hyields⟩ := h scope hscope
  have hrun : ExceptT.run ((checked >>= next) scope) = ExceptT.run (checked scope) >>=
      ExceptT.bindCont fun (after : α × Scope) => next after.1 after.2 := rfl
  have hplain : (m >>= rest) scope = m scope >>= fun after => rest after.1 after.2 := rfl
  rw [hrun, hsame, hplain]
  cases hm : m scope with
  | error e => exact ⟨rfl, yields_error e⟩
  | ok after =>
    obtain ⟨hgood, hafter⟩ := hyields after hm
    exact hnext after.1 hgood after.2 hafter

/-- A choice between safe steps is safe. -/
theorem safe_ite {c : Prop} [Decidable c] {checked₁ checked₂ : Checked.Run α} {m₁ m₂ : Run α}
    (h₁ : Safe P checked₁ m₁) (h₂ : Safe P checked₂ m₂) :
    Safe P (if c then checked₁ else checked₂) (if c then m₁ else m₂) := by
  split
  · exact h₁
  · exact h₂

/-- A computation that has no part in the scope is safe if its results have the property. -/
theorem safe_eval {x : Eval α} (h : Yields P x) : Safe P (liftM x) (liftM x) := by
  intro scope hscope
  cases x with
  | error e => exact ⟨rfl, yields_error e⟩
  | ok a => exact ⟨rfl, yields_ok ⟨h a rfl, hscope⟩⟩

/-- It stays safe when it is checked, if the check finds nothing. -/
theorem safe_checked {c : Checked α} {x : Eval α} (heq : c = liftM x) (h : Yields P x) :
    Safe P (liftM c) (liftM x) := by
  subst heq
  exact safe_eval h

/-- An error is safe. -/
theorem safe_throw (e : StatementError) : Safe P (throw e) (throw e) :=
  fun _ _ => ⟨rfl, yields_error e⟩

/-- Asking for the scope is safe. -/
theorem safe_get : Safe Scope.Rectangular get get := fun _ hscope => ⟨rfl, yields_ok ⟨hscope, hscope⟩⟩

/-- Putting a rectangular scope in its place is safe. -/
theorem safe_set {scope : Scope} (h : scope.Rectangular) :
    Safe (fun _ => True) (set scope) (set scope) := fun _ _ => ⟨rfl, yields_ok ⟨trivial, h⟩⟩

/-- So is changing the scope, if it stays rectangular. -/
theorem safe_modify {f : Scope → Scope} (h : ∀ scope : Scope, scope.Rectangular → (f scope).Rectangular) :
    Safe (fun _ => True) (modify f) (modify f) :=
  fun scope hscope => ⟨rfl, yields_ok ⟨trivial, h scope hscope⟩⟩

end Steps

/-! ## Expressions -/

/-- A call that changes the dataframe of a name, or does not. -/
theorem safe_method (files : Files) (target : Expr) (method : String) (args : CallValues)
    {checked : Checked.Run Operand} {m : Run Operand} (h : Safe Operand.Rectangular checked m) :
    Safe Operand.Rectangular
      (do
        match ← changedFrame? (← get) target method args with
        | some (name, f) =>
          let changed ← changeFrame f method args
          modify (·.setFrame name changed)
          return .scalar .null
        | none =>
          let v ← checked
          Checked.callOn files method args v)
      (do
        match ← changedFrame? (← get) target method args with
        | some (name, f) =>
          let changed ← changeFrame f method args
          modify (·.setFrame name changed)
          return .scalar .null
        | none =>
          let v ← m
          callOn files method args v) := by
  refine safe_bind safe_get fun scope hscope => ?_
  refine safe_bind (safe_eval (hscope.changedFrame? target method args)) fun found? hfound => ?_
  cases found? with
  | some found =>
    refine safe_bind (safe_eval (rectangular_changeFrame (hfound _ rfl) args method)) fun changed hchanged => ?_
    refine safe_bind (safe_modify fun scope hscope => hscope.setFrame _ hchanged) fun _ _ => ?_
    exact safe_pure trivial
  | none =>
    refine safe_bind h fun v hv => ?_
    exact safe_checked (Checked.callOn_eq files method args hv) (rectangular_callOn files method args hv)

/-- Expressions are safe and give rectangular operands, and the lists of expressions in them are safe. -/
theorem safe_all (files : Files) :
    (∀ e, Safe Operand.Rectangular (Checked.eval files e) (eval files e)) ∧
      (∀ done named, Safe (fun _ => True) (Checked.evalKeywords files done named)
        (evalKeywords files done named)) ∧
      (∀ es, Safe (fun _ => True) (Checked.evalAll files es) (evalAll files es)) ∧
      (∀ done entries, Safe (fun _ => True) (Checked.evalEntries files done entries)
        (evalEntries files done entries)) ∧
      ∀ es, Safe (fun _ => True) (Checked.evalItems files es) (evalItems files es) := by
  -- the checked evaluation follows the same recursion, so one induction goes through both
  refine eval.mutual_induct
    (fun e => Safe Operand.Rectangular (Checked.eval files e) (eval files e))
    (fun done named => Safe (fun _ => True) (Checked.evalKeywords files done named)
      (evalKeywords files done named))
    (fun es => Safe (fun _ => True) (Checked.evalAll files es) (evalAll files es))
    (fun done entries => Safe (fun _ => True) (Checked.evalEntries files done entries)
      (evalEntries files done entries))
    (fun es => Safe (fun _ => True) (Checked.evalItems files es) (evalItems files es))
    ?literal ?name ?list ?dict ?unary ?and ?or ?binary ?index ?member ?method ?function ?call ?noArgs
    ?args ?noItems ?items ?noEntries ?entries ?noKeywords ?keywords
  case literal =>
    intro v
    rw [Checked.eval, eval]
    exact safe_pure trivial
  case name =>
    intro s
    rw [Checked.eval, eval]
    exact safe_bind safe_get fun scope hscope => safe_eval (hscope.lookup s)
  case list =>
    intro items ih
    rw [Checked.eval, eval]
    exact safe_bind ih fun _ _ => safe_pure trivial
  case dict =>
    intro entries ih
    rw [Checked.eval, eval]
    exact safe_bind ih fun _ _ => safe_pure trivial
  case unary =>
    intro op operand ih
    rw [Checked.eval, eval]
    exact safe_bind ih fun v _ => safe_eval (rectangular_unary op v)
  case and =>
    intro left right ihLeft ihRight
    rw [Checked.eval, eval]
    refine safe_bind ihLeft fun v _ => ?_
    cases v with
    | scalar v => exact safe_ite ihRight (safe_pure trivial)
    | _ => exact safe_eval (yields_error _)
  case or =>
    intro left right ihLeft ihRight
    rw [Checked.eval, eval]
    refine safe_bind ihLeft fun v _ => ?_
    cases v with
    | scalar v => exact safe_ite (safe_pure trivial) ihRight
    | _ => exact safe_eval (yields_error _)
  case binary =>
    intro op left right hand hor ihLeft ihRight
    rw [Checked.eval, eval]
    · refine safe_bind ihLeft fun a _ => safe_bind ihRight fun b _ => ?_
      -- an operator is one of the places where the checked evaluation looks before it acts
      exact safe_checked (Checked.binary_eq op a b) (rectangular_binary op a b)
    all_goals assumption
  case index =>
    intro target position ihTarget ihPosition
    rw [Checked.eval, eval]
    refine safe_bind ihTarget fun a ha => safe_bind ihPosition fun b _ => ?_
    exact safe_checked (Checked.subscript_eq a b) (rectangular_subscript ha b)
  case member =>
    intro target name ih
    rw [Checked.eval, eval]
    exact safe_bind ih fun v _ => safe_eval (rectangular_attributeOf v name)
  case method =>
    intro target method arguments keywords ihArguments ihKeywords ihTarget
    rw [Checked.eval, eval]
    exact safe_bind ihArguments fun positional _ => safe_bind ihKeywords fun named _ =>
      safe_method files target method ⟨positional, named⟩ ihTarget
  case function =>
    intro s arguments keywords ihArguments ihKeywords
    rw [Checked.eval, eval]
    exact safe_bind ihArguments fun positional _ => safe_bind ihKeywords fun named _ =>
      safe_eval (rectangular_callFunction s ⟨positional, named⟩)
  case call =>
    intro function arguments keywords hmember hname ihArguments ihKeywords
    rw [Checked.eval, eval]
    · exact safe_bind ihArguments fun _ _ => safe_bind ihKeywords fun _ _ => safe_eval (yields_error _)
    all_goals assumption
  case noArgs =>
    rw [Checked.evalAll, evalAll]
    exact safe_pure trivial
  case args =>
    intro e rest ihFirst ihRest
    rw [Checked.evalAll, evalAll]
    exact safe_bind ihFirst fun _ _ => safe_bind ihRest fun _ _ => safe_pure trivial
  case noItems =>
    rw [Checked.evalItems, evalItems]
    exact safe_pure trivial
  case items =>
    intro e rest ihFirst ihRest
    rw [Checked.evalItems, evalItems]
    refine safe_bind ihFirst fun _ _ => safe_bind (safe_eval yields_true) fun _ _ => ?_
    exact safe_bind ihRest fun _ _ => safe_pure trivial
  case noEntries =>
    intro done
    rw [Checked.evalEntries, evalEntries]
    exact safe_pure trivial
  case entries =>
    intro done key e rest ihKey ihValue ihRest
    rw [Checked.evalEntries, evalEntries]
    refine safe_bind ihKey fun _ _ => safe_bind (safe_eval yields_true) fun label _ => ?_
    exact safe_bind ihValue fun _ _ => safe_bind (safe_eval yields_true) fun v _ => ihRest label v
  case noKeywords =>
    intro done
    rw [Checked.evalKeywords, evalKeywords]
    exact safe_pure trivial
  case keywords =>
    intro done name e rest ihFirst ihRest
    rw [Checked.evalKeywords, evalKeywords]
    exact safe_bind ihFirst fun v _ => ihRest v

/-- Evaluating an expression is safe. -/
theorem safe_expr (files : Files) (e : Expr) :
    Safe Operand.Rectangular (Checked.eval files e) (eval files e) := (safe_all files).1 e

/-! ## Statements -/

/-- Assigning is safe. -/
theorem safe_assign (files : Files) {v : Operand} (hv : v.Rectangular) (target : Target) :
    Safe (fun _ => True) (Checked.assign files v target) (assign files v target) := by
  cases target with
  | name s => exact safe_modify fun scope hscope => hscope.bind s hv
  | column name label =>
    refine safe_bind (safe_expr files label) fun _ _ => safe_bind (safe_eval yields_true) fun label _ => ?_
    refine safe_bind safe_get fun scope hscope => ?_
    have hframe : Yields Frame.Rectangular (scope.frame name) := hscope.theFrame name
    refine safe_bind (safe_eval hframe) fun f hf => safe_bind (safe_eval yields_true) fun cells _ => ?_
    refine safe_bind (safe_eval (rectangular_ofFrame (Frame.rectangular_set hf label cells)))
      fun changed hchanged => ?_
    exact safe_modify fun scope hscope => hscope.setFrame name hchanged

/-- Deleting is safe. -/
theorem safe_delete (files : Files) (target : Target) :
    Safe (fun _ => True) (Checked.delete files target) (delete files target) := by
  cases target with
  | name s =>
    refine safe_bind safe_get fun scope hscope => ?_
    exact safe_bind (safe_eval (hscope.unbind s)) fun after hafter => safe_set hafter
  | column name label =>
    refine safe_bind (safe_expr files label) fun _ _ => safe_bind (safe_eval yields_true) fun label _ => ?_
    refine safe_bind safe_get fun scope hscope => ?_
    refine safe_bind (safe_eval (hscope.theFrame name)) fun f hf => ?_
    refine safe_bind (safe_eval (rectangular_ofFrame (Frame.rectangular_drop hf label)))
      fun changed hchanged => ?_
    exact safe_modify fun scope hscope => hscope.setFrame name hchanged

/-- The value of a statement that is an expression is rectangular. -/
theorem safe_exec (files : Files) (st : Statement) :
    Safe (fun v? : Option Operand => ∀ v ∈ v?, v.Rectangular) (Checked.exec files st) (exec files st) := by
  have hnone : ∀ v ∈ (none : Option Operand), v.Rectangular := by rintro v ⟨⟩
  cases st with
  | load library shortName =>
    have hput : ∀ scope : Scope, scope.Rectangular →
        ({ scope with locals := scope.locals.put shortName (.module library) } : Scope).Rectangular :=
      fun scope hscope => hscope.put shortName trivial
    rw [Checked.exec, exec]
    refine safe_ite ?_ ?_
    · exact safe_bind (safe_throw (P := fun _ => True) _) fun _ _ =>
        safe_bind (safe_modify hput) fun _ _ => safe_pure hnone
    · exact safe_bind (safe_modify hput) fun _ _ => safe_pure hnone
  | assign target e =>
    refine safe_bind (safe_expr files e) fun v hv => ?_
    exact safe_bind (safe_assign files hv target) fun _ _ => safe_pure hnone
  | delete target => exact safe_bind (safe_delete files target) fun _ _ => safe_pure hnone
  | expr e =>
    refine safe_bind (safe_expr files e) fun v hv => safe_pure ?_
    rintro w ⟨⟩
    exact hv

/-! ## Scripts -/

/-- All dataframes that lines can get to are rectangular. -/
structure Progress.Rectangular (progress : Progress) : Prop where
  scope : progress.scope.Rectangular
  last : ∀ last ∈ progress.last, last.value.Rectangular

/-- Lines whose numbers are at least `first` and less than `stop` are carried out without a fault: to a
rectangular end, or to an error in one of them. -/
structure SafeLines (first stop : Nat) (checked : Option (Except ScriptError Progress))
    (result : Except ScriptError Progress) : Prop where
  same : checked = some result
  rectangular : Yields Progress.Rectangular result
  line : ∀ e, result = .error e → first ≤ e.line ∧ e.line < stop

/-- Coming to a rectangular end is safe. -/
theorem safeLines_ok {first stop : Nat} {progress : Progress} (h : progress.Rectangular) :
    SafeLines first stop (some (.ok progress)) (.ok progress) :=
  ⟨rfl, yields_ok h, fun _ he => (by cases he)⟩

/-- So is an error in the line itself. -/
theorem safeLines_error {number : Nat} (e : StatementError) :
    SafeLines number (number + 1) (some (.error ⟨number, e⟩)) (.error ⟨number, e⟩) := by
  refine ⟨rfl, yields_error _, ?_⟩
  rintro _ ⟨⟩
  exact ⟨Nat.le_refl _, Nat.lt_succ_self _⟩

/-- A line is carried out without a fault. -/
theorem safeLines_runLine (files : Files) (number : Nat) {progress : Progress}
    (h : progress.Rectangular) (line : List Char) :
    SafeLines number (number + 1) (Checked.runLine files number progress line)
      (runLine files number progress line) := by
  unfold Checked.runLine runLine
  cases lineStatement? line with
  | error e => exact safeLines_error _
  | ok st? =>
    cases st? with
    | none => exact safeLines_ok h
    | some st =>
      obtain ⟨hsame, hyields⟩ := safe_exec files st progress.scope h.scope
      have hrun : (Checked.exec files st).run progress.scope = some ((exec files st).run progress.scope) :=
        hsame
      have hresult : (exec files st).run progress.scope = exec files st progress.scope := rfl
      simp only [hrun, hresult]
      cases hexec : exec files st progress.scope with
      | error e => exact safeLines_error e
      | ok after =>
        obtain ⟨v?, scope⟩ := after
        obtain ⟨hvalue, hscope⟩ := hyields _ hexec
        cases v? with
        | none => exact safeLines_ok ⟨hscope, by rintro last ⟨⟩⟩
        | some v =>
          refine safeLines_ok ⟨hscope, ?_⟩
          rintro last ⟨⟩
          exact hvalue v rfl

/-- So are lines, each of which begins where the one before came to. -/
theorem safeLines_runLines (files : Files) (lines : List (List Char)) (number : Nat) {progress : Progress}
    (h : progress.Rectangular) :
    SafeLines number (number + lines.length) (Checked.runLines files number progress lines)
      (runLines files number progress lines) := by
  induction lines generalizing number progress with
  | nil => exact safeLines_ok h
  | cons line rest ih =>
    obtain ⟨hsame, hyields, hline⟩ := safeLines_runLine files number h line
    rw [Checked.runLines, runLines, hsame]
    cases hrun : runLine files number progress line with
    | error e =>
      refine ⟨rfl, yields_error e, ?_⟩
      rintro _ ⟨⟩
      have hnumber := hline e hrun
      rw [List.length_cons]
      omega
    | ok next =>
      obtain ⟨hsame, hyields, hline⟩ := ih (number + 1) (hyields next hrun)
      refine ⟨hsame, hyields, fun e he => ?_⟩
      have hnumber := hline e he
      rw [List.length_cons]
      omega

/-- The dataframes that a script leaves: those of the workbook, and the value it ended with if that is
one. -/
inductive Outcome.Leaves (outcome : Outcome) : Frame → Prop
  | inBook {name : String} {f : Frame} (mem : (name, f) ∈ outcome.book.frames) : outcome.Leaves f
  | last {last : LastExpression} {f : Frame} (mem : outcome.last = some last) (value : last.value = .frame f) :
    outcome.Leaves f

/-- The script runs without a fault, and what it gives is a rectangular outcome that can be written, or an
error in one of its lines. -/
structure RunsSafely (files : Files) (book : Workbook) (source : String) : Prop where
  reading : ∀ line ∈ Text.linesOf source.toList, FoldsWithin line
  running : Checked.run files book source = some (run files book source)
  rectangular : ∀ outcome, run files book source = .ok outcome → ∀ f, outcome.Leaves f → f.Rectangular
  writing : ∀ outcome, run files book source = .ok outcome → ∀ f, outcome.Leaves f →
    Checked.toCsv f = some f.toCsv
  line : ∀ e, run files book source = .error e →
    1 ≤ e.line ∧ e.line ≤ (Text.linesOf source.toList).length

/-- No script has a fault on a workbook of rectangular dataframes. -/
theorem run_safe (files : Files) {book : Workbook} (h : book.Rectangular) (source : String) :
    RunsSafely files book source := by
  have hinitial : Progress.Rectangular ⟨.initial book, none⟩ :=
    ⟨Scope.rectangular_initial h, by rintro last ⟨⟩⟩
  obtain ⟨hsame, hyields, hline⟩ :=
    safeLines_runLines files (Text.linesOf source.toList) 1 hinitial
  have hrectangular : Yields (fun outcome : Outcome => ∀ f, outcome.Leaves f → f.Rectangular)
      (run files book source) := by
    refine yields_map fun progress hprogress f hf => ?_
    obtain ⟨hscope, hlast⟩ := hyields progress hprogress
    cases hf with
    | inBook hmem => exact hscope.book _ hmem
    | last hmem hvalue =>
      have hgood := hlast _ hmem
      rw [hvalue] at hgood
      exact hgood
  refine ⟨fun line _ => foldsWithin line, ?_, hrectangular, fun outcome houtcome f hf => ?_, fun e he => ?_⟩
  · rw [Checked.run, hsame]
    rfl
  · exact Checked.toCsv_eq (hrectangular outcome houtcome f hf)
  · unfold run runFrom at he
    cases hresult : runLines files 1 ⟨.initial book, none⟩ (Text.linesOf source.toList) with
    | ok progress =>
      rw [hresult] at he
      cases he
    | error e' =>
      rw [hresult] at he
      cases he
      have hnumber := hline e hresult
      omega

/-- Remainders, an index from the end, and more rows asked for than there are. -/
theorem run_safe_first_rows :
    let book : Workbook := ⟨[("df", ⟨[("A", [.int 7, .int Int64.minValue])], 2⟩)]⟩
    let source := "df['B'] = df['A'] % -4\ndf['C'] = [1, 2][-1]\ndf[df['B'] > -2].head(9)"
    book.Rectangular ∧ RunsSafely default book source ∧
      (run default book source).toOption.map (fun outcome =>
        (outcome.book.frames.map (·.2.headers), outcome.last.map (·.value.kind))) =
        some ([["A", "B", "C"]], some "DataFrame") := by
  intro book source
  have hbook : book.Rectangular := by
    simp [book, Workbook.Rectangular, Frame.Rectangular]
  exact ⟨hbook, run_safe default hbook source, by decide +kernel⟩

end TableScript.Script
