import TableScript.Proofs.InPlace

/-!
# Runs with more locals

Lines can be carried out where earlier lines have left locals of their own. That makes no difference to them
but one: where they would stop because a name is unknown, the name may be one of those locals
(`run_weakened`). As long as a run goes on, the run with more locals has the same dataframes and gives the same
values, and it fails where the other fails, with the same error.

Expressions see locals by looking names up, and nothing else in them depends on the locals (`weakens_eval`).
Statements put a name into the locals or take it out whatever other names are there, so no name comes to be
a local of the one run only that was not one from the start (`onlyIn_of_exec`).
-/

namespace TableScript.Script

variable {α β : Type} {files : Files} {scope after more wide : Scope} {name : String}

/-! ## Steps that fail -/

/-- A sequence fails if its first computation does, or the second one where the first has come to. -/
theorem run_bind_eq_error {m : Run α} {f : α → Run β} {e : StatementError} :
    (m >>= f) scope = .error e ↔
      m scope = .error e ∨ ∃ a between, m scope = .ok (a, between) ∧ f a between = .error e := by
  constructor
  · intro h
    cases hm : m scope with
    | error e' =>
      rw [run_bind_of_error hm] at h
      cases h
      exact Or.inl rfl
    | ok p =>
      obtain ⟨a, between⟩ := p
      rw [run_bind_of_ok hm] at h
      exact Or.inr ⟨a, between, rfl, h⟩
  · rintro (h | ⟨a, between, hm, hf⟩)
    · exact run_bind_of_error h
    · rw [run_bind_of_ok hm]
      exact hf

/-- A computation that has no part in the scope fails by itself. -/
theorem run_lift_eq_error {x : Eval α} {e : StatementError} :
    (liftM x : Run α) scope = .error e ↔ x = .error e := by
  constructor
  · intro h
    cases x with
    | error e' =>
      cases h
      rfl
    | ok a => cases h
  · exact run_lift_of_error

/-- The name is one of the locals, but not one of the others. -/
def OnlyIn (more locals : Keyed Operand) (name : String) : Prop := name ∈ more.keys ∧ name ∉ locals.keys

/-- A step that fails does so with more locals too, unless it has missed the name of one of them. -/
def FailsAlike (m : Run α) : Prop :=
  ∀ scope e, m scope = .error e → ∀ more, Covers more scope.locals →
    m ⟨scope.book, more⟩ = .error e ∨ ∃ name, OnlyIn more scope.locals name ∧ e = .unknownName name

/-- What never fails does not fail otherwise. -/
theorem failsAlike_of_ok {m : Run α} (h : ∀ scope, ∃ a after, m scope = .ok (a, after)) :
    FailsAlike m := by
  intro scope e herror
  obtain ⟨a, after, hok⟩ := h scope
  cases hok.symm.trans herror

/-- It fails with more locals just so. -/
theorem failsAlike_lift (x : Eval α) : FailsAlike (liftM x : Run α) := by
  intro scope e h more _
  exact Or.inl (run_lift_of_error (run_lift_eq_error.mp h))

/-- The second step is taken in scopes with the same dataframes, since the first one is steady. -/
theorem failsAlike_bind {m : Run α} {f : α → Run β} (hsteady : Steady m) (hm : FailsAlike m)
    (hf : ∀ a, FailsAlike (f a)) : FailsAlike (m >>= f) := by
  intro scope e h more hcovers
  rcases run_bind_eq_error.mp h with hfirst | ⟨a, between, hfirst, hsecond⟩
  · exact (hm scope e hfirst more hcovers).imp_left run_bind_of_error
  · obtain ⟨hlocals, -, hmore⟩ := hsteady scope a between hfirst
    rw [← hlocals] at hcovers ⊢
    rw [run_bind_of_ok (hmore more (hlocals ▸ hcovers))]
    exact hf a between e hsecond more hcovers

/-- Nor does a step that never fails make a difference after one that is not steady. -/
theorem failsAlike_bind_of_ok {m : Run α} {f : α → Run β} (hm : FailsAlike m)
    (hf : ∀ a scope, ∃ b after, f a scope = .ok (b, after)) : FailsAlike (m >>= f) := by
  intro scope e h more hcovers
  rcases run_bind_eq_error.mp h with hfirst | ⟨a, between, -, hsecond⟩
  · exact (hm scope e hfirst more hcovers).imp_left run_bind_of_error
  · obtain ⟨b, after, hok⟩ := hf a between
    cases hok.symm.trans hsecond

/-- Looking a name up fails with more locals too, unless it is the name of one of them. -/
theorem failsAlike_lookup (name : String) : FailsAlike (do (← get).lookup name) := by
  intro scope e h more hcovers
  rw [run_get_bind, run_lift_eq_error] at h
  rw [run_get_bind, run_lift_eq_error]
  unfold Scope.lookup at h ⊢
  simp only
  cases hframe : scope.book.frame? name with
  | some f =>
    rw [hframe] at h
    cases h
  | none =>
    cases hlocal : scope.locals.get? name with
    | some v => simp [hframe, hlocal] at h
    | none =>
      simp only [hframe, hlocal, Except.error.injEq] at h
      subst h
      cases hmore : more.get? name with
      | none => exact Or.inl rfl
      | some v =>
        exact Or.inr ⟨name, ⟨Keyed.mem_keys_of_mem (Keyed.mem_of_get? hmore),
          (Keyed.get?_eq_none_iff _ _).mp hlocal⟩, rfl⟩

/-! ## Expressions -/

/-- With more locals the step gives the same, and fails alike. -/
structure Weakens (m : Run α) : Prop where
  steady : Steady m
  fails : FailsAlike m

/-- A computation that has no part in the scope does the same with more locals. -/
theorem weakens_lift (x : Eval α) : Weakens (liftM x : Run α) := ⟨steady_lift x, failsAlike_lift x⟩

/-- Two computations in sequence do so if both do. -/
theorem weakens_bind {m : Run α} {f : α → Run β} (hm : Weakens m) (hf : ∀ a, Weakens (f a)) :
    Weakens (m >>= f) :=
  ⟨steady_bind hm.steady fun a => (hf a).steady,
    failsAlike_bind hm.steady hm.fails fun a => (hf a).fails⟩

/-- Which dataframe a call changes is decided by the workbook alone. -/
theorem failsAlike_method (target : Expr) (method : String) (args : CallValues)
    (htarget : Weakens (eval files target)) : FailsAlike (methodCall files target method args) := by
  unfold methodCall
  intro scope e h more hcovers
  rw [run_get_bind] at h ⊢
  rcases run_bind_eq_error.mp h with hlift | ⟨changed?, between, hlift, hrest⟩
  · exact Or.inl (run_bind_of_error (run_lift_of_error (run_lift_eq_error.mp hlift)))
  · obtain ⟨hchanged, rfl⟩ := run_lift_eq_ok.mp hlift
    rw [run_lift_bind_of_ok (show changedFrame? ⟨between.book, more⟩ target method args = _ from hchanged)]
    cases changed? with
    | none =>
      exact (weakens_bind htarget fun v => weakens_lift (callOn files method args v)).fails
        between e hrest more hcovers
    | some entry =>
      refine failsAlike_bind (steady_lift _) (failsAlike_lift _) (fun changed => ?_)
        between e hrest more hcovers
      exact failsAlike_of_ok fun scope => ⟨.scalar .null, _, rfl⟩

/-- Weakening is closed under the pieces of evaluation. -/
theorem weakens_closed (files : Files) (names : List String) : EvalClosed files names Weakens where
  pure a := ⟨steady_pure a, failsAlike_of_ok fun scope => ⟨a, scope, rfl⟩⟩
  lift := weakens_lift
  bind := weakens_bind
  lookup name := ⟨steady_lookup name, failsAlike_lookup name⟩
  method target method args _ h :=
    ⟨steady_method files target method args h.steady, failsAlike_method target method args h⟩

/-- Evaluating an expression does the same with more locals. -/
theorem weakens_eval (files : Files) (e : Expr) : Weakens (eval files e) := (weakens_closed files _).eval

/-! ## Statements -/

/-- The dataframe that is replaced is there in both scopes or in neither. -/
theorem failsAlike_replace (name : String) {change : Frame → Run Frame} (hchange : ∀ f, Weakens (change f)) :
    FailsAlike (do
      let f ← (← get).frame name
      let changed ← change f
      modify (·.setFrame name changed)) := by
  intro scope e h more hcovers
  rw [run_get_bind] at h ⊢
  rcases run_bind_eq_error.mp h with hlift | ⟨f, between, hlift, hrest⟩
  · exact Or.inl (run_bind_of_error (run_lift_of_error (run_lift_eq_error.mp hlift)))
  · obtain ⟨hframe, rfl⟩ := run_lift_eq_ok.mp hlift
    rw [run_lift_bind_of_ok (show Scope.frame ⟨between.book, more⟩ name = _ from hframe)]
    refine failsAlike_bind (hchange f).steady (hchange f).fails (fun changed => ?_)
      between e hrest more hcovers
    exact failsAlike_of_ok fun scope => ⟨(), _, rfl⟩

/-- So does setting a column. -/
theorem weakens_assign_column (files : Files) (v : Operand) (name : String) (label : Expr) :
    Weakens (assign files v (.column name label)) := by
  refine ⟨steady_assign_column files v name label, ?_⟩
  rw [assign]
  refine failsAlike_bind (steady_eval files label) (weakens_eval files label).fails fun a => ?_
  refine failsAlike_bind (steady_lift _) (failsAlike_lift _) fun header => ?_
  have hchange : ∀ f : Frame, Weakens (do
      let cells ← v.toCells f.rows
      ofFrame (f.set header cells).made : Run Frame) :=
    fun f => weakens_bind (weakens_lift _) fun cells => weakens_lift _
  simpa only [bind_assoc] using failsAlike_replace name hchange

/-- So does deleting one. -/
theorem weakens_delete_column (files : Files) (name : String) (label : Expr) :
    Weakens (delete files (.column name label)) := by
  refine ⟨steady_delete_column files name label, ?_⟩
  rw [delete]
  refine failsAlike_bind (steady_eval files label) (weakens_eval files label).fails fun a => ?_
  refine failsAlike_bind (steady_lift _) (failsAlike_lift _) fun header => ?_
  exact failsAlike_replace name fun f => weakens_lift _

/-- A name that cannot be removed is neither a dataframe nor a local. -/
theorem failsAlike_delete_name (files : Files) (name : String) :
    FailsAlike (delete files (.name name)) := by
  intro scope e h more hcovers
  rw [delete, run_get_bind] at h ⊢
  rcases run_bind_eq_error.mp h with hlift | ⟨next, between, -, hset⟩
  · rw [run_lift_eq_error] at hlift
    unfold Scope.unbind at hlift
    split at hlift
    case isTrue => cases hlift
    case isFalse hframe =>
      split at hlift
      case isTrue => cases hlift
      case isFalse hlocal =>
        cases hlift
        by_cases hmore : more.has name = true
        · exact Or.inr ⟨name, ⟨(Keyed.has_iff _ _).mp hmore, fun hmem =>
            hlocal ((Keyed.has_iff _ _).mpr hmem)⟩, rfl⟩
        · refine Or.inl (run_bind_of_error (run_lift_of_error ?_))
          rw [Scope.unbind, if_neg hframe, if_neg hmore]
  · cases hset

/-- A statement that fails does so with more locals too, unless it has missed the name of one of them. -/
theorem failsAlike_exec (files : Files) (s : Statement) : FailsAlike (exec files s) := by
  have hreturn : ∀ (v : Option Operand) (scope : Scope),
      ∃ b after, (pure v : Run (Option Operand)) scope = .ok (b, after) := fun v scope => ⟨v, scope, rfl⟩
  cases s with
  | load library short =>
    by_cases hlibrary : library = "pandas"
    · subst hlibrary
      exact failsAlike_of_ok fun scope => ⟨none, _, rfl⟩
    · intro scope e h more _
      rw [exec, if_pos hlibrary] at h ⊢
      exact Or.inl h
  | assign target value =>
    refine failsAlike_bind (steady_eval files value) (weakens_eval files value).fails fun v => ?_
    refine failsAlike_bind_of_ok ?_ fun _ scope => hreturn none scope
    cases target with
    | name name => exact failsAlike_of_ok fun scope => ⟨(), _, rfl⟩
    | column name label => exact (weakens_assign_column files v name label).fails
  | delete target =>
    refine failsAlike_bind_of_ok ?_ fun _ scope => hreturn none scope
    cases target with
    | name name => exact failsAlike_delete_name files name
    | column name label => exact (weakens_delete_column files name label).fails
  | expr e => exact failsAlike_bind_of_ok (weakens_eval files e).fails fun v scope => hreturn (some v) scope

/-- A name that only the scope with more locals has as a local after a statement is one that only this
scope had before. -/
theorem onlyIn_of_exec {s : Statement} {v v' : Option Operand}
    (h : exec files s scope = .ok (v, after)) (h' : exec files s more = .ok (v', wide))
    (hmore : more.Extends scope) (htidy : more.Tidy) (hname : OnlyIn wide.locals after.locals name) :
    OnlyIn more.locals scope.locals name := by
  by_cases hsettled : s.settledName? = some name
  · -- the statement treats the name alike in both scopes
    cases executed_of_exec h with
    | load other hafter =>
      obtain rfl : other = name := Option.some.inj hsettled
      subst hafter
      exact absurd ((Keyed.mem_keys_put _ _ _ _).mpr (Or.inl rfl)) hname.2
    | @bind other e value between heval hafter =>
      obtain rfl : other = name := Option.some.inj hsettled
      cases executed_of_exec h' with
      | @bind _ _ value' between' heval' hwide =>
        have hsame := (steady_eval files e).extends heval hmore
        obtain ⟨rfl, rfl⟩ := Prod.mk.inj (Except.ok.inj (hsame.symm.trans heval'))
        subst hafter hwide
        cases value with
        | frame f => exact absurd hname.1 (Keyed.not_mem_keys_erase htidy other)
        | scalar _ | series _ | module _ =>
          exact absurd ((Keyed.mem_keys_put _ _ _ _).mpr (Or.inl rfl)) hname.2
    | @unbind other hunbind =>
      obtain rfl : other = name := Option.some.inj hsettled
      cases executed_of_exec h' with
      | unbind hunbind' =>
        unfold Scope.unbind at hunbind hunbind'
        rw [hmore.book] at hunbind'
        split at hunbind'
        case isTrue hframe =>
          rw [if_pos hframe] at hunbind
          cases hunbind
          cases hunbind'
          exact hname
        case isFalse =>
          split at hunbind'
          case isFalse => cases hunbind'
          case isTrue =>
            cases hunbind'
            exact absurd hname.1 (Keyed.not_mem_keys_erase htidy other)
    | setColumn => cases hsettled
    | dropColumn => cases hsettled
    | expr => cases hsettled
  · -- the statement settles another name, or none, and keeps this one in both scopes
    have hlocals := Keyed.mem_keys_congr (exec_keeps h hsettled).locals
    have hwide := Keyed.mem_keys_congr (exec_keeps h' hsettled).locals
    exact ⟨hwide.mp hname.1, fun hmem => hname.2 (hlocals.mpr hmem)⟩

/-! ## Runs -/

/-- A run with more locals has come to the same: the dataframes and the last expression are the same, and the
names that are locals of this run only are among the given ones. -/
structure Progress.Widens (extra : String → Prop) (wide progress : Progress) : Prop where
  scope : wide.scope.Extends progress.scope
  tidyWide : wide.scope.Tidy
  tidy : progress.scope.Tidy
  last : wide.last = progress.last
  only : ∀ name, OnlyIn wide.scope.locals progress.scope.locals name → extra name

/-- What a run comes to, and what a run with more locals comes to. If the first stops because it misses one of
the extra names, the second can come to anything. -/
inductive Weakened (extra : String → Prop) :
    Except ScriptError Progress → Except ScriptError Progress → Prop
  | reached {progress wide : Progress} (h : wide.Widens extra progress) :
    Weakened extra (.ok progress) (.ok wide)
  | failed (e : ScriptError) : Weakened extra (.error e) (.error e)
  | missed {name : String} (line : Nat) (h : extra name) (result : Except ScriptError Progress) :
    Weakened extra (.error ⟨line, .unknownName name⟩) result

variable {extra : String → Prop} {progress reached : Progress}

/-- A line does the same with more locals, or misses the name of one of them. -/
theorem Progress.Widens.runLine (h : reached.Widens extra progress) (files : Files) (number : Nat)
    (line : List Char) :
    Weakened extra (runLine files number progress line) (runLine files number reached line) := by
  unfold Script.runLine
  cases lineStatement? line with
  | error e => exact .failed _
  | ok s? =>
    cases s? with
    | none => exact .reached h
    | some s =>
      have hbook : reached.scope = ⟨progress.scope.book, reached.scope.locals⟩ := by rw [← h.scope.book]
      simp only [StateT.run]
      cases hexec : exec files s progress.scope with
      | error e =>
        rcases failsAlike_exec files s _ e hexec _ h.scope.locals with hsame | ⟨name, honly, rfl⟩
        · rw [hbook, hsame]
          exact .failed _
        · exact .missed number (h.only name honly) _
      | ok p =>
        obtain ⟨v, after⟩ := p
        obtain ⟨after', hexec', hextends, htidy', htidy⟩ :=
          exec_extends hexec h.scope h.tidyWide h.tidy
        have honly : ∀ name, OnlyIn after'.locals after.locals name → extra name := fun name hname =>
          h.only name (onlyIn_of_exec hexec hexec' h.scope h.tidyWide hname)
        rw [hexec']
        cases v with
        | none => exact .reached (.mk hextends htidy' htidy rfl honly)
        | some v => exact .reached (.mk hextends htidy' htidy rfl honly)

/-- So do lines, each of which begins where the one before came to. -/
theorem Progress.Widens.runLines (h : reached.Widens extra progress) (files : Files) (number : Nat)
    (lines : List (List Char)) :
    Weakened extra (runLines files number progress lines) (runLines files number reached lines) := by
  induction lines generalizing number progress reached with
  | nil => exact .reached h
  | cons line rest ih =>
    have hline := h.runLine files number line
    rw [Script.runLines, Script.runLines]
    generalize Script.runLine files number progress line = first at hline
    generalize Script.runLine files number reached line = second at hline
    cases hline with
    | reached hnext => exact ih hnext (number + 1)
    | failed e => exact .failed e
    | missed line hextra => exact .missed line hextra _

/-- A script that runs with some locals runs with more of them too, and comes to the same dataframes and the
same last expression; its locals at the end are those of the first run and maybe more. If it fails, it fails
with more locals in the same line with the same error, unless it was the name of one of them that it did not
find. -/
theorem run_weakened (files : Files) (book : Workbook) {locals more : Keyed Operand}
    (hlocals : locals.keys.Nodup) (hmore : more.keys.Nodup) (hcovers : Covers more locals)
    (source : String) :
    (∀ progress, runFrom files ⟨book, locals⟩ source = .ok progress →
      ∃ wide, runFrom files ⟨book, more⟩ source = .ok wide ∧ wide.scope.book = progress.scope.book ∧
        wide.last = progress.last ∧ Covers wide.scope.locals progress.scope.locals) ∧
    ∀ e, runFrom files ⟨book, locals⟩ source = .error e →
      runFrom files ⟨book, more⟩ source = .error e ∨
        ∃ name, name ∈ more.keys ∧ name ∉ locals.keys ∧ e.cause = .unknownName name := by
  have hstart : Progress.Widens (OnlyIn more locals) ⟨⟨book, more⟩, none⟩ ⟨⟨book, locals⟩, none⟩ :=
    ⟨⟨rfl, hcovers⟩, hmore, hlocals, rfl, fun _ => id⟩
  have hruns := hstart.runLines files 1 (Text.linesOf source.toList)
  unfold runFrom
  generalize runLines files 1 ⟨⟨book, locals⟩, none⟩ (Text.linesOf source.toList) = first at hruns
  generalize runLines files 1 ⟨⟨book, more⟩, none⟩ (Text.linesOf source.toList) = second at hruns
  cases hruns with
  | @reached progress wide h =>
    refine ⟨fun _ hok => ?_, nofun⟩
    cases hok
    exact ⟨wide, rfl, h.scope.book, h.last, h.scope.locals⟩
  | failed e =>
    exact ⟨nofun, fun _ he => Or.inl he⟩
  | @missed name line h =>
    refine ⟨nofun, fun _ he => ?_⟩
    cases he
    exact Or.inr ⟨name, h.1, h.2, rfl⟩

/-- A script that binds the names of some of the locals it does not know runs beside them. One that looks a
removed name up runs only where an earlier script has left that name to the library. -/
theorem run_weakened_beside_leftovers :
    let book : Workbook := ⟨[("df", ⟨[("A", [.int 1])], 1⟩)]⟩
    let locals : Keyed Operand := [("pd", .module "pandas")]
    let more : Keyed Operand := [("x", .scalar (.int 7)), ("pd", .module "pandas"), ("df", .module "pandas"),
      ("old", .series [.null])]
    let source := "x = df['A']\nold = df.copy()\nold['B'] = x\ndel df\nold['B']"
    let missing := "del df\ndf"
    (locals.keys.Nodup ∧ more.keys.Nodup ∧ Covers more locals) ∧
    (∃ progress wide, runFrom default ⟨book, locals⟩ source = .ok progress ∧
      runFrom default ⟨book, more⟩ source = .ok wide ∧
      (progress.scope.book.names, progress.scope.locals.keys) = (["old"], ["pd", "x"]) ∧
      wide.scope.book = progress.scope.book ∧ wide.last = progress.last ∧
      Covers wide.scope.locals progress.scope.locals) ∧
    ∃ e name wide, runFrom default ⟨book, locals⟩ missing = .error e ∧ e.cause = .unknownName name ∧
      name ∈ more.keys ∧ name ∉ locals.keys ∧ runFrom default ⟨book, more⟩ missing = .ok wide := by
  intro book locals more source missing
  have hlocals : locals.keys.Nodup := by decide
  have hmore : more.keys.Nodup := by decide
  have hcovers : Covers more locals := by
    intro name v hv
    obtain ⟨rfl, rfl⟩ : name = "pd" ∧ v = .module "pandas" := by
      simpa [locals] using Keyed.mem_of_get? hv
    rfl
  have hruns : ∃ progress ∈ (runFrom default ⟨book, locals⟩ source).toOption,
      (progress.scope.book.names, progress.scope.locals.keys) = (["old"], ["pd", "x"]) := by
    decide +kernel
  have hmisses : (runFrom default ⟨book, locals⟩ missing).toOption.isNone ∧
      (runFrom default ⟨book, more⟩ missing).toOption.isSome := by
    decide +kernel
  refine ⟨⟨hlocals, hmore, hcovers⟩, ?_, ?_⟩
  · obtain ⟨hok, -⟩ := run_weakened default book hlocals hmore hcovers source
    obtain ⟨progress, hrun, hnames⟩ := hruns
    replace hrun := except_eq_ok_of_mem hrun
    obtain ⟨wide, hwide, hbook, hlast, hextends⟩ := hok progress hrun
    exact ⟨progress, wide, hrun, hwide, hnames, hbook, hlast, hextends⟩
  · obtain ⟨-, herror⟩ := run_weakened default book hlocals hmore hcovers missing
    obtain ⟨hnone, hsome⟩ := hmisses
    cases hrun : runFrom default ⟨book, locals⟩ missing with
    | ok progress => simp [hrun, Except.toOption] at hnone
    | error e =>
      cases hwide : runFrom default ⟨book, more⟩ missing with
      | error e' => simp [hwide, Except.toOption] at hsome
      | ok wide =>
        rcases herror e hrun with hsame | ⟨name, hmem, hnot, hcause⟩
        · cases hwide.symm.trans hsame
        · exact ⟨e, name, wide, rfl, hcause, hmem, hnot, rfl⟩

end TableScript.Script
