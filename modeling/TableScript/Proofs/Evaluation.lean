import TableScript.Script.Run

/-!
# What holds of every evaluation

Expressions are evaluated in steps: an operand is given, an operation on operands fails or not, a name is
looked up, a method is called. A property that each of these steps has, and that two steps one after the
other have if both have it, is one that every expression has (`EvalClosed.eval`). The induction over
expressions is made once for all such properties, in `EvalClosed.all`.

Of these steps only the call of a method changes anything, and only the dataframe whose name it is called
on. So a property may also depend on the names that methods are called on in the expression
(`Expr.targets`).
-/

namespace TableScript.Script

/-! ## Names that methods are called on -/

/-- The name that a function is a method of. -/
def Expr.calledOn : Expr → List String
  | .member (.name s) _ => [s]
  | _ => []

mutual

/-- The names that methods are called on in an expression. A call like that can change the dataframe of
that name in its place; nothing else in an expression can. -/
def Expr.targets : Expr → List String
  | .literal _ => []
  | .name _ => []
  | .list items => allTargets items
  | .dict entries => entryTargets entries
  | .unary _ operand => operand.targets
  | .binary _ left right => left.targets ++ right.targets
  | .index target position => target.targets ++ position.targets
  | .member target _ => target.targets
  | .call function arguments keywords =>
    function.calledOn ++ function.targets ++ allTargets arguments ++ keywordTargets keywords

/-- The names that methods are called on in expressions. -/
def allTargets : List Expr → List String
  | [] => []
  | e :: rest => e.targets ++ allTargets rest

/-- The names that methods are called on in entries of a dictionary. -/
def entryTargets : List (Expr × Expr) → List String
  | [] => []
  | (key, e) :: rest => key.targets ++ e.targets ++ entryTargets rest

/-- The names that methods are called on in arguments given by name. -/
def keywordTargets : List (String × Expr) → List String
  | [] => []
  | (_, e) :: rest => e.targets ++ keywordTargets rest

end

/-! ## Properties of steps -/

/-- The call of a method, once its arguments have been evaluated. -/
def methodCall (files : Files) (target : Expr) (method : String) (args : CallValues) : Run Operand := do
  match ← changedFrame? (← get) target method args with
  | some (name, f) =>
    let changed ← changeFrame f method args
    modify (·.setFrame name changed)
    return .scalar .null
  | none =>
    let v ← eval files target
    callOn files method args v

/-- The property holds of the steps that evaluations are made of, and is kept when steps are put one after
the other. Methods are called on the names only. -/
structure EvalClosed (files : Files) (names : List String) (P : {α : Type} → Run α → Prop) : Prop where
  pure {α : Type} (a : α) : P (pure a : Run α)
  lift {α : Type} (x : Eval α) : P (liftM x : Run α)
  bind {α β : Type} {m : Run α} {f : α → Run β} (hm : P m) (hf : ∀ a, P (f a)) : P (m >>= f)
  lookup (name : String) : P (do (← get).lookup name)
  method (target : Expr) (method : String) (args : CallValues)
    (hname : ∀ s, target = .name s → s ∈ names) (h : P (eval files target)) :
    P (methodCall files target method args)

namespace EvalClosed

variable {files : Files} {names : List String} {P : {α : Type} → Run α → Prop}

/-- What holds of the steps holds of expressions, and of the lists of expressions in them. -/
theorem all (h : EvalClosed files names P) :
    (∀ e, e.targets ⊆ names → P (Script.eval files e)) ∧
      (∀ done named, keywordTargets named ⊆ names → P (evalKeywords files done named)) ∧
      (∀ es, allTargets es ⊆ names → P (evalAll files es)) ∧
      (∀ done entries, entryTargets entries ⊆ names → P (evalEntries files done entries)) ∧
      ∀ es, allTargets es ⊆ names → P (evalItems files es) := by
  -- the induction is that of evaluation, so the cases are the ways in which it goes on
  refine eval.mutual_induct (fun e => e.targets ⊆ names → P (Script.eval files e))
    (fun done named => keywordTargets named ⊆ names → P (evalKeywords files done named))
    (fun es => allTargets es ⊆ names → P (evalAll files es))
    (fun done entries => entryTargets entries ⊆ names → P (evalEntries files done entries))
    (fun es => allTargets es ⊆ names → P (evalItems files es)) ?literal ?name ?list ?dict ?unary ?and ?or
    ?binary ?index ?member ?method ?function ?call ?noArgs ?args ?noItems ?items ?noEntries ?entries
    ?noKeywords ?keywords
  case literal =>
    intro v _
    rw [Script.eval]
    exact h.pure _
  case name =>
    intro s _
    rw [Script.eval]
    exact h.lookup s
  case list =>
    intro items ih htargets
    rw [Expr.targets] at htargets
    rw [Script.eval]
    exact h.bind (ih htargets) fun _ => h.pure _
  case dict =>
    intro entries ih htargets
    rw [Expr.targets] at htargets
    rw [Script.eval]
    exact h.bind (ih htargets) fun _ => h.pure _
  case unary =>
    intro op operand ih htargets
    rw [Expr.targets] at htargets
    rw [Script.eval]
    exact h.bind (ih htargets) fun v => h.lift _
  case and =>
    intro left right ihLeft ihRight htargets
    rw [Expr.targets, List.append_subset] at htargets
    rw [Script.eval]
    refine h.bind (ihLeft htargets.1) fun v => ?_
    split
    · split
      · exact ihRight htargets.2
      · exact h.pure _
    · exact h.lift _
  case or =>
    intro left right ihLeft ihRight htargets
    rw [Expr.targets, List.append_subset] at htargets
    rw [Script.eval]
    refine h.bind (ihLeft htargets.1) fun v => ?_
    split
    · split
      · exact h.pure _
      · exact ihRight htargets.2
    · exact h.lift _
  case binary =>
    intro op left right hand hor ihLeft ihRight htargets
    rw [Expr.targets, List.append_subset] at htargets
    rw [Script.eval]
    · exact h.bind (ihLeft htargets.1) fun a => h.bind (ihRight htargets.2) fun b => h.lift _
    · exact hand
    · exact hor
  case index =>
    intro target position ihTarget ihPosition htargets
    rw [Expr.targets, List.append_subset] at htargets
    rw [Script.eval]
    exact h.bind (ihTarget htargets.1) fun a => h.bind (ihPosition htargets.2) fun b => h.lift _
  case member =>
    intro target name ih htargets
    rw [Expr.targets] at htargets
    rw [Script.eval]
    exact h.bind (ih htargets) fun v => h.lift _
  case method =>
    intro target method arguments keywords ihArguments ihKeywords ihTarget htargets
    simp only [Expr.targets, List.append_subset] at htargets
    obtain ⟨⟨⟨hname, htarget⟩, harguments⟩, hkeywords⟩ := htargets
    rw [Script.eval]
    refine h.bind (ihArguments harguments) fun positional => h.bind (ihKeywords hkeywords) fun named => ?_
    -- only here does evaluation change a dataframe, and its name is a target of the expression
    refine h.method target method ⟨positional, named⟩ ?_ (ihTarget htarget)
    rintro s rfl
    exact hname List.mem_cons_self
  case function =>
    intro s arguments keywords ihArguments ihKeywords htargets
    simp only [Expr.targets, List.append_subset] at htargets
    rw [Script.eval]
    exact h.bind (ihArguments htargets.1.2) fun positional => h.bind (ihKeywords htargets.2) fun named =>
      h.lift _
  case call =>
    intro function arguments keywords hmember hname ihArguments ihKeywords htargets
    rw [Expr.targets, List.append_subset, List.append_subset] at htargets
    rw [Script.eval]
    · exact h.bind (ihArguments htargets.1.2) fun _ => h.bind (ihKeywords htargets.2) fun _ => h.lift _
    · exact hmember
    · exact hname
  case noArgs =>
    intro _
    rw [evalAll]
    exact h.pure _
  case args =>
    intro e rest ihFirst ihRest htargets
    rw [allTargets, List.append_subset] at htargets
    rw [evalAll]
    exact h.bind (ihFirst htargets.1) fun _ => h.bind (ihRest htargets.2) fun _ => h.pure _
  case noItems =>
    intro _
    rw [evalItems]
    exact h.pure _
  case items =>
    intro e rest ihFirst ihRest htargets
    rw [allTargets, List.append_subset] at htargets
    rw [evalItems]
    exact h.bind (ihFirst htargets.1) fun _ => h.bind (h.lift _) fun _ =>
      h.bind (ihRest htargets.2) fun _ => h.pure _
  case noEntries =>
    intro done _
    rw [evalEntries]
    exact h.pure _
  case entries =>
    intro done key e rest ihKey ihValue ihRest htargets
    rw [entryTargets, List.append_subset, List.append_subset] at htargets
    rw [evalEntries]
    exact h.bind (ihKey htargets.1.1) fun _ => h.bind (h.lift _) fun label =>
      h.bind (ihValue htargets.1.2) fun _ => h.bind (h.lift _) fun v => ihRest label v htargets.2
  case noKeywords =>
    intro done _
    rw [evalKeywords]
    exact h.pure _
  case keywords =>
    intro done name e rest ihFirst ihRest htargets
    rw [keywordTargets, List.append_subset] at htargets
    rw [evalKeywords]
    exact h.bind (ihFirst htargets.1) fun v => ihRest v htargets.2

/-- What is closed under the pieces of evaluation holds of evaluating an expression, by induction on it. -/
theorem eval {e : Expr} (h : EvalClosed files e.targets P) : P (Script.eval files e) :=
  h.all.1 e (List.Subset.refl _)

end EvalClosed

end TableScript.Script
