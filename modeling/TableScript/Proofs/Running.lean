import TableScript.Proofs.Evaluation
import TableScript.Proofs.Keyed
import TableScript.Proofs.Lexing
import TableScript.Proofs.Parsing
import TableScript.Script.Run

/-!
# What lines make of a scope

A run reports line numbers and the last expression, but what lines do to the scope depends on neither:
`Scope.afterLines` says what they make of it, and it can be composed line by line. `run_ok_iff` and
`exists_capture` say what a run is in its terms.

Two facts carry everything about scripts put one after the other.

* Expressions keep the locals and the names of dataframes, and the only names that they see are those
  they find; so with more locals they give the same (`steady_eval`).
* Therefore lines that can be carried out in some scope do the same to the dataframes in any scope that
  has more locals (`Scope.afterLines_extends`).
-/

namespace TableScript.Script

/-! ## Steps of a run -/

variable {α β : Type}

/-- Two computations in sequence give what the second one gives on the result of the first, in its scope. -/
theorem run_bind_eq_ok {m : Run α} {f : α → Run β} {scope after : Scope} {b : β} :
    (m >>= f) scope = .ok (b, after) ↔
      ∃ a between, m scope = .ok (a, between) ∧ f a between = .ok (b, after) := by
  change (m scope >>= fun p => f p.1 p.2) = _ ↔ _
  cases m scope with
  | error e => simp [bind, Except.bind]
  | ok p =>
    constructor
    · exact fun h => ⟨p.1, p.2, rfl, h⟩
    · rintro ⟨a, between, hp, h⟩
      cases hp
      exact h

/-- A computation that has no part in the scope leaves it as it is. -/
theorem run_lift_eq_ok {x : Eval α} {scope after : Scope} {a : α} :
    (liftM x : Run α) scope = .ok (a, after) ↔ x = .ok a ∧ after = scope := by
  cases x with
  | error e =>
    constructor
    · intro h
      cases h
    · rintro ⟨h, -⟩
      cases h
  | ok b =>
    change Except.ok (b, scope) = _ ↔ _
    constructor
    · intro h
      cases h
      exact ⟨rfl, rfl⟩
    · rintro ⟨h, rfl⟩
      cases h
      rfl

/-- A sequence goes on where its first computation has come to. -/
theorem run_bind_of_ok {m : Run α} {f : α → Run β} {scope between : Scope} {a : α}
    (h : m scope = .ok (a, between)) : (m >>= f) scope = f a between := by
  change (m scope >>= fun p => f p.1 p.2) = _
  rw [h]
  rfl

/-- A sequence fails if its first computation does. -/
theorem run_bind_of_error {m : Run α} {f : α → Run β} {scope : Scope} {e : StatementError}
    (h : m scope = .error e) : (m >>= f) scope = .error e := by
  change (m scope >>= fun p => f p.1 p.2) = _
  rw [h]
  rfl

/-- A computation that has no part in the scope fails with its own error. -/
theorem run_lift_of_error {x : Eval α} {scope : Scope} {e : StatementError}
    (h : x = .error e) : (liftM x : Run α) scope = .error e := by
  rw [h]
  rfl

/-- A sequence goes on with the result of such a computation, in the same scope. -/
theorem run_lift_bind_of_ok {x : Eval α} {f : α → Run β} {scope : Scope} {a : α}
    (h : x = .ok a) : (liftM x >>= f) scope = f a scope :=
  run_bind_of_ok (run_lift_eq_ok.mpr ⟨h, rfl⟩)

/-- A result leaves the scope as it is. -/
theorem run_pure (a : α) (scope : Scope) : (pure a : Run α) scope = .ok (a, scope) := rfl

/-- Asking for the scope gives it. -/
theorem run_get_bind (f : Scope → Run α) (scope : Scope) : (get >>= f : Run α) scope = f scope scope :=
  rfl

/-- Changing the scope changes it. -/
theorem run_modify (f : Scope → Scope) (scope : Scope) :
    (modify f : Run Unit) scope = .ok ((), f scope) := rfl

/-! ## Names -/

/-- The locals have everything that other locals have. -/
def Covers (more locals : Keyed Operand) : Prop :=
  ∀ name v, locals.get? name = some v → more.get? name = some v

/-- Locals cover themselves. -/
theorem Covers.refl (locals : Keyed Operand) : Covers locals locals := fun _ _ h => h

/-- Locals that cover others go on to cover them when both get the same one. -/
theorem Covers.put {more locals : Keyed Operand} (h : Covers more locals) (name : String) (v : Operand) :
    Covers (more.put name v) (locals.put name v) := by
  intro other w hw
  rw [Keyed.get?_put] at hw ⊢
  split
  case isTrue heq => rwa [if_pos heq] at hw
  case isFalse hne =>
    rw [if_neg hne] at hw
    exact h other w hw

/-- They go on to cover them when both lose the same one. -/
theorem Covers.erase {more locals : Keyed Operand} (h : Covers more locals) (hlocals : locals.keys.Nodup)
    (name : String) : Covers (more.erase name) (locals.erase name) := by
  intro other v hv
  have hne : name ≠ other := by
    rintro rfl
    exact absurd (hv.symm.trans (Keyed.get?_erase_self hlocals name)) (by simp)
  rw [Keyed.get?_erase_of_ne _ hne] at hv ⊢
  exact h other v hv

/-- More locals do not change what a name stands for that stands for something. -/
theorem lookup_covers {book : Workbook} {locals more : Keyed Operand} {name : String} {v : Operand}
    (hcovers : Covers more locals) (h : Scope.lookup ⟨book, locals⟩ name = .ok v) :
    Scope.lookup ⟨book, more⟩ name = .ok v := by
  unfold Scope.lookup at h ⊢
  simp only at h ⊢
  cases hframe : book.frame? name with
  | some f => rw [hframe] at h; exact h
  | none =>
    rw [hframe] at h
    cases hlocal : locals.get? name with
    | none => simp [hlocal] at h
    | some w =>
      simp only [hlocal] at h
      simp only [hcovers name w hlocal, h]

/-- A dataframe that is found has its name among the names. -/
theorem frame?_mem {book : Workbook} {name : String} {f : Frame} (h : book.frame? name = some f) :
    name ∈ book.names := by
  by_contra hnot
  rw [Workbook.names, ← Keyed.get?_eq_none_iff] at hnot
  rw [Workbook.frame?, hnot] at h
  cases h

/-- Changing a dataframe in its place keeps the names. -/
theorem names_insert_of_frame? {book : Workbook} {name : String} {old : Frame}
    (h : book.frame? name = some old) (f : Frame) : (book.insert name f).names = book.names :=
  Keyed.keys_put_of_mem (frame?_mem h) f

/-! ## Expressions -/

/-- The step keeps the locals and the names of dataframes, and gives the same with more locals. -/
def Steady (m : Run α) : Prop :=
  ∀ scope a after, m scope = .ok (a, after) →
    after.locals = scope.locals ∧ after.book.names = scope.book.names ∧
      ∀ more, Covers more scope.locals → m ⟨scope.book, more⟩ = .ok (a, ⟨after.book, more⟩)

/-- A result keeps the locals and the names of the dataframes. -/
theorem steady_pure (a : α) : Steady (pure a : Run α) := by
  intro scope b after h
  rw [run_pure] at h
  cases h
  exact ⟨rfl, rfl, fun _ _ => rfl⟩

/-- So does a computation that has no part in the scope. -/
theorem steady_lift (x : Eval α) : Steady (liftM x : Run α) := by
  intro scope a after h
  obtain ⟨hx, rfl⟩ := run_lift_eq_ok.mp h
  exact ⟨rfl, rfl, fun _ _ => run_lift_eq_ok.mpr ⟨hx, rfl⟩⟩

/-- So do two computations in sequence that both do. -/
theorem steady_bind {m : Run α} {f : α → Run β} (hm : Steady m) (hf : ∀ a, Steady (f a)) :
    Steady (m >>= f) := by
  intro scope b after h
  obtain ⟨a, between, hfirst, hsecond⟩ := run_bind_eq_ok.mp h
  obtain ⟨hlocals₁, hnames₁, hmore₁⟩ := hm scope a between hfirst
  obtain ⟨hlocals₂, hnames₂, hmore₂⟩ := hf a between b after hsecond
  refine ⟨hlocals₂.trans hlocals₁, hnames₂.trans hnames₁, fun more hcovers => ?_⟩
  exact run_bind_eq_ok.mpr ⟨a, ⟨between.book, more⟩, hmore₁ more hcovers,
    hmore₂ more (hlocals₁ ▸ hcovers)⟩

/-- So does looking a name up. -/
theorem steady_lookup (name : String) : Steady (do (← get).lookup name) := by
  intro scope v after h
  rw [run_get_bind] at h
  obtain ⟨hlookup, rfl⟩ := run_lift_eq_ok.mp h
  refine ⟨rfl, rfl, fun more hcovers => ?_⟩
  rw [run_get_bind]
  exact run_lift_eq_ok.mpr ⟨lookup_covers hcovers hlookup, rfl⟩

/-- A call changes no dataframe but that of the name it is called on. -/
theorem changedFrame?_eq_some {scope : Scope} {target : Expr} {method : String} {args : CallValues}
    {name : String} {f : Frame} (h : changedFrame? scope target method args = .ok (some (name, f))) :
    target = .name name ∧ scope.book.frame? name = some f := by
  unfold changedFrame? at h
  split at h
  · split at h
    case h_1 s g hg =>
      cases hc : changesFrame method args with
      | error e => simp [hc, Except.map] at h
      | ok changes =>
        cases changes with
        | false => simp [hc, Except.map] at h
        | true =>
          simp only [hc, Except.map, if_true, Except.ok.injEq, Option.some.injEq, Prod.mk.injEq] at h
          obtain ⟨rfl, rfl⟩ := h
          exact ⟨rfl, hg⟩
    case h_2 => cases h
  · cases h

/-- The call of a method replaces the dataframe that it changes, or else is made on an operand. -/
theorem methodCall_eq_ok_iff {files : Files} {target : Expr} {method : String} {args : CallValues}
    {scope after : Scope} {a : Operand} : methodCall files target method args scope = .ok (a, after) ↔
      (∃ name f changed, changedFrame? scope target method args = .ok (some (name, f)) ∧
        changeFrame f method args = .ok changed ∧ a = .scalar .null ∧ after = scope.setFrame name changed) ∨
      changedFrame? scope target method args = .ok none ∧
        (eval files target >>= fun v => (callOn files method args v : Run Operand)) scope = .ok (a, after) := by
  unfold methodCall
  rw [run_get_bind, run_bind_eq_ok]
  constructor
  · rintro ⟨changed?, between, hlift, h⟩
    obtain ⟨hchanged, rfl⟩ := run_lift_eq_ok.mp hlift
    cases changed? with
    | none => exact Or.inr ⟨hchanged, h⟩
    | some entry =>
      obtain ⟨name, f⟩ := entry
      obtain ⟨changed, middle, hlift, hrest⟩ := run_bind_eq_ok.mp h
      obtain ⟨hchange, rfl⟩ := run_lift_eq_ok.mp hlift
      obtain ⟨_, last, hmodify, hreturn⟩ := run_bind_eq_ok.mp hrest
      rw [run_modify] at hmodify
      cases hmodify
      rw [run_pure] at hreturn
      cases hreturn
      exact Or.inl ⟨name, f, changed, hchanged, hchange, rfl, rfl⟩
  · rintro (⟨name, f, changed, hchanged, hchange, rfl, rfl⟩ | ⟨hchanged, h⟩)
    · refine ⟨some (name, f), _, run_lift_eq_ok.mpr ⟨hchanged, rfl⟩, ?_⟩
      refine run_bind_eq_ok.mpr ⟨changed, _, run_lift_eq_ok.mpr ⟨hchange, rfl⟩, ?_⟩
      exact run_bind_eq_ok.mpr ⟨(), _, run_modify _ _, run_pure _ _⟩
    · exact ⟨none, _, run_lift_eq_ok.mpr ⟨hchanged, rfl⟩, h⟩

/-- The call of a method, changing a dataframe in its place or not. -/
theorem steady_method (files : Files) (target : Expr) (method : String) (args : CallValues)
    (htarget : Steady (eval files target)) : Steady (methodCall files target method args) := by
  intro scope a after h
  -- which dataframe is changed is decided by the workbook alone
  have hsame : ∀ more, changedFrame? ⟨scope.book, more⟩ target method args =
      changedFrame? scope target method args := fun _ => rfl
  rcases methodCall_eq_ok_iff.mp h with ⟨name, f, changed, hchanged, hchange, rfl, rfl⟩ | ⟨hchanged, hcall⟩
  · obtain ⟨rfl, hframe⟩ := changedFrame?_eq_some hchanged
    refine ⟨rfl, names_insert_of_frame? hframe changed, fun more _ => ?_⟩
    exact methodCall_eq_ok_iff.mpr (Or.inl ⟨name, f, changed, (hsame more).trans hchanged, hchange, rfl, rfl⟩)
  · obtain ⟨hlocals, hnames, hmore⟩ :=
      steady_bind htarget (fun v => steady_lift (callOn files method args v)) scope a after hcall
    refine ⟨hlocals, hnames, fun more hcovers => ?_⟩
    exact methodCall_eq_ok_iff.mpr (Or.inr ⟨(hsame more).trans hchanged, hmore more hcovers⟩)

/-- Keeping locals and names is closed under the pieces of evaluation. -/
theorem steady_closed (files : Files) (names : List String) : EvalClosed files names Steady where
  pure := steady_pure
  lift := steady_lift
  bind := steady_bind
  lookup := steady_lookup
  method target method args _ h := steady_method files target method args h

/-- Evaluating an expression keeps the locals and the names of the dataframes. -/
theorem steady_eval (files : Files) (e : Expr) : Steady (eval files e) := (steady_closed files _).eval

/-! ## Statements -/

/-- Every local is bound once. -/
def Scope.Tidy (scope : Scope) : Prop := scope.locals.keys.Nodup

/-- At the beginning of a script each local is bound once. -/
theorem Scope.tidy_initial (book : Workbook) : (Scope.initial book).Tidy := by
  simp [Scope.Tidy, Scope.initial]

/-- The same dataframes, and all the locals. -/
structure Scope.Extends (more scope : Scope) : Prop where
  book : more.book = scope.book
  locals : Covers more.locals scope.locals

/-- A steady step does the same in a scope with more locals. -/
theorem Steady.extends {m : Run α} (hm : Steady m) {scope after more : Scope} {a : α}
    (h : m scope = .ok (a, after)) (hmore : more.Extends scope) :
    m more = .ok (a, ⟨after.book, more.locals⟩) := by
  obtain ⟨book, locals⟩ := more
  obtain ⟨rfl, hcovers⟩ := hmore
  exact (hm scope a after h).2.2 locals hcovers

/-- The dataframe of an in-place call is the one of that name. -/
theorem Scope.frame_eq_ok_iff {scope : Scope} {name : String} {f : Frame} :
    scope.frame name = .ok f ↔ scope.book.frame? name = some f := by
  unfold Scope.frame
  cases scope.book.frame? name <;> simp

/-- A dataframe that is there is replaced by what is made of it. -/
theorem replace_eq_ok_iff {n : String} {change : Frame → Run Frame} {scope after : Scope} {u : Unit} :
    (do
      let f ← (← get).frame n
      let changed ← change f
      modify (·.setFrame n changed) : Run Unit) scope = .ok (u, after) ↔
    ∃ f changed middle, scope.book.frame? n = some f ∧ change f scope = .ok (changed, middle) ∧
      after = middle.setFrame n changed := by
  rw [run_get_bind, run_bind_eq_ok]
  constructor
  · rintro ⟨f, between, hlift, hrest⟩
    obtain ⟨hframe, rfl⟩ := run_lift_eq_ok.mp hlift
    obtain ⟨changed, middle, hchanged, hmodify⟩ := run_bind_eq_ok.mp hrest
    rw [run_modify] at hmodify
    cases hmodify
    exact ⟨f, changed, middle, Scope.frame_eq_ok_iff.mp hframe, hchanged, rfl⟩
  · rintro ⟨f, changed, middle, hframe, hchanged, rfl⟩
    refine ⟨f, _, run_lift_eq_ok.mpr ⟨Scope.frame_eq_ok_iff.mpr hframe, rfl⟩, ?_⟩
    exact run_bind_eq_ok.mpr ⟨changed, _, hchanged, run_modify _ _⟩

/-- A dataframe that is there is replaced by what a steady step makes of it. -/
theorem steady_replace {n : String} {change : Frame → Run Frame} (hchange : ∀ f, Steady (change f)) :
    Steady (do
      let f ← (← get).frame n
      let changed ← change f
      modify (·.setFrame n changed)) := by
  intro scope a after h
  obtain ⟨f, changed, middle, hframe, hchanged, rfl⟩ := replace_eq_ok_iff.mp h
  obtain ⟨hlocals, hnames, hmore⟩ := hchange f _ _ _ hchanged
  have hmem : n ∈ middle.book.names := hnames ▸ frame?_mem hframe
  refine ⟨hlocals, (Keyed.keys_put_of_mem hmem changed).trans hnames, fun more hcovers => ?_⟩
  exact replace_eq_ok_iff.mpr ⟨f, changed, _, hframe, hmore more hcovers, rfl⟩

/-- Setting a column is steady. -/
theorem steady_assign_column (files : Files) (v : Operand) (name : String) (label : Expr) :
    Steady (assign files v (.column name label)) := by
  rw [assign]
  refine steady_bind (steady_eval files label) fun a => steady_bind (steady_lift _) fun label => ?_
  have hchange : ∀ f : Frame, Steady (do
      let cells ← v.toCells f.rows
      ofFrame (f.set label cells).made : Run Frame) :=
    fun f => steady_bind (steady_lift _) fun cells => steady_lift _
  simpa only [bind_assoc] using steady_replace (n := name) hchange

/-- Removing a column is steady. -/
theorem steady_delete_column (files : Files) (name : String) (label : Expr) :
    Steady (delete files (.column name label)) := by
  rw [delete]
  refine steady_bind (steady_eval files label) fun a => steady_bind (steady_lift _) fun label => ?_
  exact steady_replace fun f => steady_lift _

/-- Names are bound alike in a scope with more locals. -/
theorem Scope.Extends.bind {more scope : Scope} (h : more.Extends scope) (hmore : more.Tidy)
    (hscope : scope.Tidy) (name : String) (v : Operand) :
    (more.bind name v).Extends (scope.bind name v) ∧ (more.bind name v).Tidy ∧
      (scope.bind name v).Tidy := by
  cases v with
  | frame f =>
    exact ⟨⟨congrArg (Workbook.insert · name f) h.book, h.locals.erase hscope name⟩,
      Keyed.nodup_keys_erase hmore name, Keyed.nodup_keys_erase hscope name⟩
  | scalar _ | series _ | module _ =>
    exact ⟨⟨congrArg (Workbook.remove · name) h.book, h.locals.put name _⟩,
      Keyed.nodup_keys_put hmore name _, Keyed.nodup_keys_put hscope name _⟩

/-- Names are removed alike in a scope with more locals. -/
theorem Scope.Extends.unbind {more scope after : Scope} (h : more.Extends scope) (hmore : more.Tidy)
    (hscope : scope.Tidy) {name : String} (hafter : scope.unbind name = .ok after) :
    ∃ after', more.unbind name = .ok after' ∧ after'.Extends after ∧ after'.Tidy ∧ after.Tidy := by
  unfold Scope.unbind at hafter ⊢
  rw [h.book]
  split at hafter
  case isTrue hframe =>
    cases hafter
    exact ⟨_, if_pos hframe, ⟨rfl, h.locals⟩, hmore, hscope⟩
  case isFalse hframe =>
    split at hafter
    case isFalse => cases hafter
    case isTrue hlocal =>
      cases hafter
      have hlocal' : more.locals.has name = true := by
        obtain ⟨v, hv⟩ := Option.isSome_iff_exists.mp hlocal
        exact Option.isSome_iff_exists.mpr ⟨v, h.locals name v hv⟩
      exact ⟨⟨scope.book, more.locals.erase name⟩, by rw [if_neg hframe, if_pos hlocal'],
        ⟨rfl, h.locals.erase hscope name⟩, Keyed.nodup_keys_erase hmore name,
        Keyed.nodup_keys_erase hscope name⟩

/-- What a statement that can be carried out does: it binds a name, removes one, or does what its expressions
and the change of a column do. -/
inductive Executed (files : Files) (scope after : Scope) : Statement → Option Operand → Prop
  | load (name : String) (hafter : after = ⟨scope.book, scope.locals.put name (.module "pandas")⟩) :
    Executed files scope after (.load "pandas" name) none
  | bind {name : String} {e : Expr} {v : Operand} {between : Scope}
    (heval : eval files e scope = .ok (v, between)) (hafter : after = between.bind name v) :
    Executed files scope after (.assign (.name name) e) none
  | setColumn {name : String} {label e : Expr} {v : Operand} {between : Scope}
    (heval : eval files e scope = .ok (v, between))
    (hassign : assign files v (.column name label) between = .ok ((), after)) :
    Executed files scope after (.assign (.column name label) e) none
  | unbind {name : String} (hunbind : scope.unbind name = .ok after) :
    Executed files scope after (.delete (.name name)) none
  | dropColumn {name : String} {label : Expr}
    (hdelete : delete files (.column name label) scope = .ok ((), after)) :
    Executed files scope after (.delete (.column name label)) none
  | expr {e : Expr} {v : Operand} (heval : eval files e scope = .ok (v, after)) :
    Executed files scope after (.expr e) (some v)

/-- What a statement does is one of the ways to carry it out. -/
theorem executed_of_exec {files : Files} {s : Statement} {scope after : Scope} {v : Option Operand}
    (h : exec files s scope = .ok (v, after)) : Executed files scope after s v := by
  cases s with
  | load library name =>
    by_cases hlibrary : library = "pandas"
    · subst hlibrary
      cases h
      exact .load name rfl
    · rw [exec, if_pos hlibrary] at h
      cases h
  | assign target e =>
    obtain ⟨value, between, heval, hrest⟩ := run_bind_eq_ok.mp h
    obtain ⟨_, last, hassign, hreturn⟩ := run_bind_eq_ok.mp hrest
    cases hreturn
    cases target with
    | name name =>
      cases hassign
      exact .bind heval rfl
    | column name label => exact .setColumn heval hassign
  | delete target =>
    obtain ⟨_, last, hdelete, hreturn⟩ := run_bind_eq_ok.mp h
    cases hreturn
    cases target with
    | name name =>
      rw [delete, run_get_bind] at hdelete
      obtain ⟨next, between, hlift, hset⟩ := run_bind_eq_ok.mp hdelete
      obtain ⟨hunbind, rfl⟩ := run_lift_eq_ok.mp hlift
      cases hset
      exact .unbind hunbind
    | column name label => exact .dropColumn hdelete
  | expr e =>
    obtain ⟨value, between, heval, hreturn⟩ := run_bind_eq_ok.mp h
    cases hreturn
    exact .expr heval

/-- A statement does what the way to carry it out says. -/
theorem exec_of_executed {files : Files} {s : Statement} {scope after : Scope} {v : Option Operand}
    (h : Executed files scope after s v) : exec files s scope = .ok (v, after) := by
  cases h with
  | load name hafter =>
    subst hafter
    rfl
  | bind heval hafter =>
    subst hafter
    exact run_bind_eq_ok.mpr ⟨_, _, heval, rfl⟩
  | setColumn heval hassign =>
    exact run_bind_eq_ok.mpr ⟨_, _, heval, run_bind_eq_ok.mpr ⟨(), after, hassign, rfl⟩⟩
  | unbind hunbind =>
    refine run_bind_eq_ok.mpr ⟨(), after, ?_, rfl⟩
    rw [delete, run_get_bind]
    exact run_bind_eq_ok.mpr ⟨after, scope, run_lift_eq_ok.mpr ⟨hunbind, rfl⟩, rfl⟩
  | dropColumn hdelete => exact run_bind_eq_ok.mpr ⟨(), after, hdelete, rfl⟩
  | expr heval => exact run_bind_eq_ok.mpr ⟨_, after, heval, rfl⟩

/-- What a steady step needs of a statement. -/
theorem Steady.exec_extends {m : Run α} (hm : Steady m) {scope after more : Scope} {a : α}
    (h : m scope = .ok (a, after)) (hmore : more.Extends scope) (htidy : more.Tidy)
    (hscope : scope.Tidy) :
    ∃ after', m more = .ok (a, after') ∧ after'.Extends after ∧ after'.Tidy ∧ after.Tidy := by
  have hlocals := (hm scope a after h).1
  refine ⟨_, hm.extends h hmore, ⟨rfl, hlocals ▸ hmore.locals⟩, htidy, ?_⟩
  rw [Scope.Tidy, hlocals]
  exact hscope

/-- A statement that can be carried out does the same in a scope with more locals. -/
theorem exec_extends {files : Files} {s : Statement} {scope after more : Scope} {v : Option Operand}
    (h : exec files s scope = .ok (v, after)) (hmore : more.Extends scope) (htidy : more.Tidy)
    (hscope : scope.Tidy) :
    ∃ after', exec files s more = .ok (v, after') ∧ after'.Extends after ∧ after'.Tidy ∧
      after.Tidy := by
  cases executed_of_exec h with
  | load name hafter =>
    subst hafter
    exact ⟨_, exec_of_executed (.load name rfl), ⟨hmore.book, hmore.locals.put name _⟩,
      Keyed.nodup_keys_put htidy name _, Keyed.nodup_keys_put hscope name _⟩
  | @bind name e value between heval hafter =>
    subst hafter
    obtain ⟨between', heval', hmore', htidy', hbetween⟩ :=
      (steady_eval files e).exec_extends heval hmore htidy hscope
    exact ⟨_, exec_of_executed (.bind heval' rfl), hmore'.bind htidy' hbetween name value⟩
  | @setColumn name label e value between heval hassign =>
    obtain ⟨between', heval', hmore', htidy', hbetween⟩ :=
      (steady_eval files e).exec_extends heval hmore htidy hscope
    obtain ⟨after', hassign', hext⟩ :=
      (steady_assign_column files value name label).exec_extends hassign hmore' htidy' hbetween
    exact ⟨after', exec_of_executed (.setColumn heval' hassign'), hext⟩
  | unbind hunbind =>
    obtain ⟨after', hunbind', hext⟩ := hmore.unbind htidy hscope hunbind
    exact ⟨after', exec_of_executed (.unbind hunbind'), hext⟩
  | @dropColumn name label hdelete =>
    obtain ⟨after', hdelete', hext⟩ :=
      (steady_delete_column files name label).exec_extends hdelete hmore htidy hscope
    exact ⟨after', exec_of_executed (.dropColumn hdelete'), hext⟩
  | @expr e value heval =>
    obtain ⟨after', heval', hext⟩ := (steady_eval files e).exec_extends heval hmore htidy hscope
    exact ⟨after', exec_of_executed (.expr heval'), hext⟩

/-- The library of dataframes is bound to its name. -/
def Scope.HasLibrary (scope : Scope) : Prop := scope.locals.get? "pd" = some (.module "pandas")

/-- At the beginning of a script the library is there. -/
theorem Scope.hasLibrary_initial (book : Workbook) : (Scope.initial book).HasLibrary := rfl

/-- What binding a name does to the names of dataframes and to the library. -/
theorem Scope.bind_names (scope : Scope) (name : String) (v : Operand) :
    (∀ other ∈ (scope.bind name v).book.names, other ∈ scope.book.names ∨ other = name) ∧
      (scope.book.names.Nodup → (scope.bind name v).book.names.Nodup) ∧
      (name ≠ "pd" → scope.HasLibrary → (scope.bind name v).HasLibrary) := by
  cases v with
  | frame f =>
    refine ⟨fun other hother => ?_, fun hnodup => Keyed.nodup_keys_put hnodup name f,
      fun hne hlib => ?_⟩
    · exact ((Keyed.mem_keys_put scope.book.frames name other f).mp hother).symm
    · exact (Keyed.get?_erase_of_ne scope.locals hne).trans hlib
  | scalar _ | series _ | module _ =>
    refine ⟨fun other hother => Or.inl (Keyed.mem_keys_erase hother),
      fun hnodup => Keyed.nodup_keys_erase hnodup name, fun hne hlib => ?_⟩
    exact (Keyed.get?_put_of_ne scope.locals _ hne).trans hlib

/-- What removing a name does to the names of dataframes and to the library. -/
theorem Scope.unbind_names {scope after : Scope} {name : String} (h : scope.unbind name = .ok after) :
    (∀ other ∈ after.book.names, other ∈ scope.book.names) ∧
      (scope.book.names.Nodup → after.book.names.Nodup) ∧
      (name ≠ "pd" → scope.HasLibrary → after.HasLibrary) := by
  unfold Scope.unbind at h
  split at h
  case isTrue =>
    cases h
    exact ⟨fun other hother => Keyed.mem_keys_erase hother,
      fun hnodup => Keyed.nodup_keys_erase hnodup name, fun _ hlib => hlib⟩
  case isFalse =>
    split at h
    case isFalse => cases h
    case isTrue =>
      cases h
      exact ⟨fun _ hother => hother, id,
        fun hne hlib => (Keyed.get?_erase_of_ne scope.locals hne).trans hlib⟩

/-- What is steady keeps the names of the dataframes, and the library. -/
theorem Steady.names {α : Type} {m : Run α} {scope after : Scope} {a : α} (hm : Steady m)
    (h : m scope = .ok (a, after)) :
    after.book.names = scope.book.names ∧ (scope.HasLibrary → after.HasLibrary) := by
  obtain ⟨hlocals, hnames, -⟩ := hm scope a after h
  exact ⟨hnames, fun hlib => by rw [Scope.HasLibrary, hlocals]; exact hlib⟩

/-- What a statement does to the names of dataframes and to the library. New names are those that it
binds, and the library stays unless its name is bound or removed. -/
theorem exec_names {files : Files} {s : Statement} {scope after : Scope} {v : Option Operand}
    (h : exec files s scope = .ok (v, after)) :
    (∀ name ∈ after.book.names, name ∈ scope.book.names ∨ s.boundName? = some name) ∧
      (scope.book.names.Nodup → after.book.names.Nodup) ∧
      (s.boundName? ≠ some "pd" → scope.HasLibrary → after.HasLibrary) := by
  cases executed_of_exec h with
  | load shortName hafter =>
    subst hafter
    -- an import may bind the library's own name, but then to the library
    refine ⟨fun _ hname => Or.inl hname, id, fun _ hlib => ?_⟩
    change (scope.locals.put shortName _).get? "pd" = _
    rw [Keyed.get?_put]
    split
    · rfl
    · exact hlib
  | @bind name e value between heval hafter =>
    subst hafter
    obtain ⟨hnames, hlib⟩ := (steady_eval files e).names heval
    obtain ⟨hbound, hnodup, hkeep⟩ := between.bind_names name value
    refine ⟨fun other hother => ?_, fun h => hnodup (hnames ▸ h), fun hne h => ?_⟩
    · exact (hbound other hother).imp (hnames ▸ ·) fun heq => congrArg some heq.symm
    · exact hkeep (fun heq => hne (congrArg some heq)) (hlib h)
  | @setColumn name label e value between heval hassign =>
    obtain ⟨hnames, hlib⟩ := (steady_eval files e).names heval
    obtain ⟨hnames', hlib'⟩ := (steady_assign_column files value name label).names hassign
    rw [hnames', hnames]
    exact ⟨fun _ hname => Or.inl hname, id, fun _ h => hlib' (hlib h)⟩
  | unbind hunbind =>
    obtain ⟨hbound, hnodup, hkeep⟩ := Scope.unbind_names hunbind
    exact ⟨fun name hname => Or.inl (hbound name hname), hnodup,
      fun hne => hkeep fun heq => hne (congrArg some heq)⟩
  | @dropColumn name label hdelete =>
    obtain ⟨hnames, hlib⟩ := (steady_delete_column files name label).names hdelete
    rw [hnames]
    exact ⟨fun _ hname => Or.inl hname, id, fun _ h => hlib h⟩
  | @expr e value heval =>
    obtain ⟨hnames, hlib⟩ := (steady_eval files e).names heval
    rw [hnames]
    exact ⟨fun _ hname => Or.inl hname, id, fun _ h => hlib h⟩

/-! ## Lines -/

/-- What a line makes of a scope, if it can be carried out. -/
def Scope.afterLine (files : Files) (scope : Scope) (line : List Char) : Option Scope :=
  match lineStatement? line with
  | .error _ => none
  | .ok none => some scope
  | .ok (some s) =>
    match exec files s scope with
    | .ok (_, after) => some after
    | .error _ => none

/-- What lines make of a scope, if all of them can be carried out. -/
def Scope.afterLines (files : Files) (scope : Scope) (lines : List (List Char)) : Option Scope :=
  lines.foldlM (Scope.afterLine files) scope

section Lines

variable {files : Files} {scope after : Scope} {line : List Char} {lines : List (List Char)}

/-- No lines leave the scope as it is. -/
@[simp] theorem Scope.afterLines_nil : scope.afterLines files [] = some scope := rfl

/-- Lines are carried out one after the other. -/
theorem Scope.afterLines_cons : scope.afterLines files (line :: lines) =
    (scope.afterLine files line).bind fun next => next.afterLines files lines := List.foldlM_cons

/-- Lines can be carried out in two parts. -/
theorem Scope.afterLines_append (first second : List (List Char)) :
    scope.afterLines files (first ++ second) =
      (scope.afterLines files first).bind fun next => next.afterLines files second :=
  List.foldlM_append

/-- One line is carried out as that line. -/
theorem Scope.afterLines_singleton : scope.afterLines files [line] = scope.afterLine files line := by
  rw [afterLines_cons]
  cases scope.afterLine files line <;> rfl

/-- A line without a statement changes nothing. -/
theorem Scope.afterLine_of_none (h : lineStatement? line = .ok none) :
    scope.afterLine files line = some scope := by
  rw [afterLine, h]

/-- A line with a statement is carried out as the statement. -/
theorem Scope.afterLine_of_some {s : Statement} {v : Option Operand}
    (h : lineStatement? line = .ok (some s)) (hexec : exec files s scope = .ok (v, after)) :
    scope.afterLine files line = some after := by
  rw [afterLine, h]
  simp only [hexec]

/-- What a line does is what its statement does, if it has any. -/
theorem Scope.afterLine_eq_some_iff : scope.afterLine files line = some after ↔
    (lineStatement? line = .ok none ∧ after = scope) ∨
      ∃ s v, lineStatement? line = .ok (some s) ∧ exec files s scope = .ok (v, after) := by
  unfold afterLine
  cases hline : lineStatement? line with
  | error e => simp
  | ok s? =>
    cases s? with
    | none => simp [eq_comm]
    | some s =>
      cases hexec : exec files s scope with
      | error e => simp [hexec]
      | ok p => simp [hexec, eq_comm, Prod.ext_iff]

/-- Lines without statements change nothing. -/
theorem Scope.afterLines_of_none (h : ∀ line ∈ lines, lineStatement? line = .ok none) :
    scope.afterLines files lines = some scope := by
  induction lines with
  | nil => rfl
  | cons line rest ih =>
    rw [afterLines_cons, afterLine_of_none (h line (by simp)), Option.bind_some,
      ih fun l hl => h l (by simp [hl])]

/-- Lines that can be carried out can be read. -/
theorem Scope.lineStatement?_of_afterLines (h : scope.afterLines files lines = some after) :
    ∀ line ∈ lines, ∃ s?, lineStatement? line = .ok s? := by
  induction lines generalizing scope with
  | nil => simp
  | cons line rest ih =>
    rw [afterLines_cons, Option.bind_eq_some_iff] at h
    obtain ⟨next, hnext, hrest⟩ := h
    refine List.forall_mem_cons.mpr ⟨?_, ih hrest⟩
    rcases afterLine_eq_some_iff.mp hnext with ⟨hnone, -⟩ | ⟨s, v, hsome, -⟩
    · exact ⟨none, hnone⟩
    · exact ⟨some s, hsome⟩

/-- Lines with the same statements do the same. -/
theorem Scope.afterLines_congr {f g : α → List Char} (items : List α)
    (h : ∀ a ∈ items, ∀ s?, lineStatement? (f a) = .ok s? → lineStatement? (g a) = .ok s?)
    {scope after : Scope} (hafter : scope.afterLines files (items.map f) = some after) :
    scope.afterLines files (items.map g) = some after := by
  induction items generalizing scope with
  | nil => exact hafter
  | cons a rest ih =>
    rw [List.map_cons, afterLines_cons, Option.bind_eq_some_iff] at hafter ⊢
    obtain ⟨next, hnext, hrest⟩ := hafter
    refine ⟨next, ?_, ih (fun b hb => h b (by simp [hb])) hrest⟩
    rcases afterLine_eq_some_iff.mp hnext with ⟨hnone, rfl⟩ | ⟨s, v, hsome, hexec⟩
    · exact afterLine_of_none (h a (by simp) _ hnone)
    · exact afterLine_of_some (h a (by simp) _ hsome) hexec

/-- A line that can be carried out does the same in a scope with more locals. -/
theorem Scope.afterLine_extends {more : Scope} (h : scope.afterLine files line = some after)
    (hmore : more.Extends scope) (htidy : more.Tidy) (hscope : scope.Tidy) :
    ∃ after', more.afterLine files line = some after' ∧ after'.Extends after ∧ after'.Tidy ∧
      after.Tidy := by
  rcases afterLine_eq_some_iff.mp h with ⟨hnone, rfl⟩ | ⟨s, v, hsome, hexec⟩
  · exact ⟨more, afterLine_of_none hnone, hmore, htidy, hscope⟩
  · obtain ⟨after', hexec', hext⟩ := exec_extends hexec hmore htidy hscope
    exact ⟨after', afterLine_of_some hsome hexec', hext⟩

/-- Lines that can be carried out do the same in a scope with more locals. -/
theorem Scope.afterLines_extends {more : Scope} (h : scope.afterLines files lines = some after)
    (hmore : more.Extends scope) (htidy : more.Tidy) (hscope : scope.Tidy) :
    ∃ after', more.afterLines files lines = some after' ∧ after'.Extends after ∧ after'.Tidy ∧
      after.Tidy := by
  induction lines generalizing scope more with
  | nil =>
    cases h
    exact ⟨more, rfl, hmore, htidy, hscope⟩
  | cons line rest ih =>
    rw [afterLines_cons, Option.bind_eq_some_iff] at h
    obtain ⟨next, hnext, hrest⟩ := h
    obtain ⟨next', hnext', hext, htidy', hscope'⟩ := afterLine_extends hnext hmore htidy hscope
    obtain ⟨after', hrest', hafter⟩ := ih hrest hext htidy' hscope'
    exact ⟨after', by rw [afterLines_cons, hnext', Option.bind_some, hrest'], hafter⟩

/-- What lines do to the names of dataframes and to the library. New names are bound by a line. -/
theorem Scope.afterLines_names (h : scope.afterLines files lines = some after) :
    (∀ name ∈ after.book.names, name ∈ scope.book.names ∨
      ∃ line ∈ lines, ∃ s, lineStatement? line = .ok (some s) ∧ s.boundName? = some name) ∧
      (scope.book.names.Nodup → after.book.names.Nodup) ∧
      ((∀ line ∈ lines, ∀ s, lineStatement? line = .ok (some s) → s.boundName? ≠ some "pd") →
        scope.HasLibrary → after.HasLibrary) := by
  induction lines generalizing scope with
  | nil =>
    cases h
    exact ⟨fun _ hname => Or.inl hname, id, fun _ => id⟩
  | cons line rest ih =>
    rw [afterLines_cons, Option.bind_eq_some_iff] at h
    obtain ⟨next, hnext, hrest⟩ := h
    obtain ⟨hnames, hnodup, hlib⟩ := ih hrest
    have hlift : ∀ {name}, (∃ line ∈ rest, ∃ s, lineStatement? line = .ok (some s) ∧
        s.boundName? = some name) → ∃ l ∈ line :: rest, ∃ s, lineStatement? l = .ok (some s) ∧
        s.boundName? = some name := fun ⟨l, hl, hs⟩ => ⟨l, List.mem_cons_of_mem _ hl, hs⟩
    rcases afterLine_eq_some_iff.mp hnext with ⟨hnone, rfl⟩ | ⟨s, v, hsome, hexec⟩
    · exact ⟨fun name hname => (hnames name hname).imp_right hlift, hnodup,
        fun hfree => hlib fun l hl => hfree l (List.mem_cons_of_mem _ hl)⟩
    · obtain ⟨hnames', hnodup', hlib'⟩ := exec_names hexec
      refine ⟨fun name hname => ?_, fun h => hnodup (hnodup' h), fun hfree h => ?_⟩
      · rcases hnames name hname with hold | hnew
        · exact (hnames' name hold).imp_right fun hs => ⟨line, by simp, s, hsome, hs⟩
        · exact Or.inr (hlift hnew)
      · exact hlib (fun l hl => hfree l (List.mem_cons_of_mem _ hl))
          (hlib' (hfree line (by simp) s hsome) h)

/-! ## Blanks at the end of a line -/

/-- A line of blanks has no statement. -/
theorem lineStatement?_of_blank {line : List Char} {s? : Option Statement}
    (hblank : ∀ c ∈ line, Text.isBlank c = true) (h : lineStatement? line = .ok s?) : s? = none := by
  obtain ⟨ts, hts, ⟨-, rfl⟩ | ⟨hne, -⟩⟩ := lineStatement?_ok_iff.mp h
  · rfl
  · exact absurd (tokens_blanks hblank hts) hne

/-- A line keeps its statement when it loses blanks at its end. -/
theorem lineStatement?_of_append_blanks {line blanks : List Char} {s? : Option Statement}
    (hblank : ∀ c ∈ blanks, Text.isBlank c = true) (h : lineStatement? (line ++ blanks) = .ok s?) :
    lineStatement? line = .ok s? := by
  obtain ⟨ts, hts, hrest⟩ := lineStatement?_ok_iff.mp h
  exact lineStatement?_ok_iff.mpr ⟨ts, tokens_of_append_blanks hblank line hts, hrest⟩

/-- A line keeps its statement when it loses a carriage return at its end. -/
theorem lineStatement?_dropReturn {line : List Char} {s? : Option Statement}
    (h : lineStatement? line = .ok s?) : lineStatement? (Text.dropReturn line) = .ok s? := by
  obtain ⟨ts, hts, hrest⟩ := lineStatement?_ok_iff.mp h
  exact lineStatement?_ok_iff.mpr ⟨ts, tokens_dropReturn hts, hrest⟩

/-! ## Scripts made of lines -/

/-- The script of lines, each of which is ended by a line feed. -/
def scriptOf (lines : List String) : String := String.join (lines.map (· ++ "\n"))

/-- A line of a script as a run has it. -/
def scriptLine (line : String) : List Char := Text.dropReturn line.toList

/-- The text of a script has every line with a line feed behind it. -/
theorem toList_scriptOf (lines : List String) :
    (scriptOf lines).toList = (lines.map String.toList).flatMap (· ++ ['\n']) := by
  rw [scriptOf, String.toList_join, List.flatMap_map, List.flatMap_map]
  exact List.flatMap_congr fun line _ => String.toList_append

/-- A run takes a script apart into the lines it was made of exactly if they are single lines. -/
theorem linesOf_scriptOf_iff {lines : List String} :
    Text.linesOf (scriptOf lines).toList = lines.map scriptLine ↔ ∀ line ∈ lines, '\n' ∉ line.toList := by
  have hjoined := Text.linesOf_joined_iff (lines.map String.toList)
  rw [List.map_map, List.forall_mem_map] at hjoined
  rw [toList_scriptOf]
  exact hjoined

/-- Lines of a script are read without the return at their end. -/
theorem map_scriptLine_ofList (lines : List (List Char)) :
    (lines.map String.ofList).map scriptLine = lines.map Text.dropReturn := by
  rw [List.map_map]
  exact List.map_congr_left fun line _ => by rw [Function.comp_apply, scriptLine, String.toList_ofList]

/-- A line that does not end with a carriage return is left as it is. -/
theorem scriptLine_append (s : String) {t : String} (ht : t.toList ≠ [])
    (hlast : t.toList.getLast? ≠ some '\r') : scriptLine (s ++ t) = (s ++ t).toList := by
  rw [scriptLine, Text.dropReturn, if_neg]
  rw [String.toList_append, List.getLast?_append_of_ne_nil _ ht]
  exact hlast

/-! ## Runs -/

/-- A run takes a line exactly if the line can be carried out. -/
theorem runLine_iff (number : Nat) (last : Option LastExpression) :
    (∃ last', runLine files number ⟨scope, last⟩ line = .ok ⟨after, last'⟩) ↔
      scope.afterLine files line = some after := by
  unfold runLine Scope.afterLine
  cases hline : lineStatement? line with
  | error e => simp
  | ok s? =>
    cases s? with
    | none => simp
    | some s =>
      cases hexec : exec files s scope with
      | error e => simp [StateT.run, hexec]
      | ok p =>
        obtain ⟨v?, next⟩ := p
        cases v? <;> simp [StateT.run, hexec]

/-- A run takes lines exactly if they can be carried out. -/
theorem runLines_iff (number : Nat) (last : Option LastExpression) :
    (∃ last', runLines files number ⟨scope, last⟩ lines = .ok ⟨after, last'⟩) ↔
      scope.afterLines files lines = some after := by
  induction lines generalizing number scope last with
  | nil => simp [runLines]
  | cons line rest ih =>
    rw [Scope.afterLines_cons, Option.bind_eq_some_iff]
    constructor
    · rintro ⟨last', h⟩
      rw [runLines] at h
      split at h
      case h_1 => cases h
      case h_2 next hnext =>
        exact ⟨next.scope, (runLine_iff _ _).mp ⟨next.last, hnext⟩, (ih _ _).mp ⟨last', h⟩⟩
    · rintro ⟨next, hnext, hrest⟩
      obtain ⟨last₁, hline⟩ := (runLine_iff number last).mpr hnext
      obtain ⟨last₂, hlines⟩ := (ih (number + 1) last₁).mpr hrest
      exact ⟨last₂, by rw [runLines, hline]; exact hlines⟩

/-- What a run gives is what its lines come to. -/
theorem run_eq_ok_iff {book : Workbook} {source : String} {outcome : Outcome} :
    run files book source = .ok outcome ↔ ∃ progress,
      runLines files 1 ⟨.initial book, none⟩ (Text.linesOf source.toList) = .ok progress ∧
        outcome = ⟨progress.scope.book, progress.last⟩ := by
  unfold run runFrom
  cases runLines files 1 ⟨.initial book, none⟩ (Text.linesOf source.toList) with
  | error e => simp [Except.map]
  | ok progress => simp [Except.map, eq_comm]

/-- A run of a script succeeds exactly if its lines can be carried out. -/
theorem run_ok_iff {book result : Workbook} {source : String} :
    (∃ outcome, run files book source = .ok outcome ∧ outcome.book = result) ↔
      ∃ after, (Scope.initial book).afterLines files (Text.linesOf source.toList) = some after ∧
        after.book = result := by
  constructor
  · rintro ⟨outcome, h, rfl⟩
    obtain ⟨progress, hlines, rfl⟩ := run_eq_ok_iff.mp h
    exact ⟨progress.scope, (runLines_iff _ _).mp ⟨progress.last, hlines⟩, rfl⟩
  · rintro ⟨after, h, rfl⟩
    obtain ⟨last, hlines⟩ := (runLines_iff 1 none).mpr h
    exact ⟨⟨after.book, last⟩, run_eq_ok_iff.mpr ⟨_, hlines, rfl⟩, rfl⟩

/-- The expression that a run ends with stands in some line, and no line after it has a statement. -/
theorem exists_capture {number : Nat} {last? : Option LastExpression} {last : LastExpression}
    (h : runLines files number ⟨scope, last?⟩ lines = .ok ⟨after, some last⟩) :
    (last? = some last ∧ (∀ line ∈ lines, lineStatement? line = .ok none)) ∨
      ∃ front line back before e, lines = front ++ line :: back ∧
        last.line = number + front.length ∧ last.isName = e.isName ∧
        scope.afterLines files front = some before ∧ lineStatement? line = .ok (some (.expr e)) ∧
        eval files e before = .ok (last.value, after) ∧
        ∀ line ∈ back, lineStatement? line = .ok none := by
  induction lines generalizing number scope last? with
  | nil =>
    cases h
    exact Or.inl ⟨rfl, by simp⟩
  | cons line rest ih =>
    rw [runLines] at h
    split at h
    case h_1 => cases h
    case h_2 next hnext =>
      obtain ⟨nextScope, nextLast⟩ := next
      rcases ih h with ⟨rfl, hnone⟩ | ⟨front, l, back, before, e, rfl, hline, hname, hfront, hl⟩
      · -- the last expression was there after this line: it came with it, or was there before
        have hafter : nextScope = after := by
          have hlines := (runLines_iff _ _).mp ⟨_, h⟩
          rw [Scope.afterLines_of_none hnone] at hlines
          exact Option.some.inj hlines
        unfold runLine at hnext
        split at hnext
        case h_1 => cases hnext
        case h_2 hstatement =>
          cases hnext
          refine Or.inl ⟨rfl, fun l hl => ?_⟩
          rcases List.mem_cons.mp hl with rfl | hl
          · exact hstatement
          · exact hnone l hl
        case h_3 s hstatement =>
          split at hnext
          case h_1 => cases hnext
          case h_2 => cases hnext
          case h_3 v reached hexec =>
            cases hnext
            cases executed_of_exec hexec with
            | @expr e v heval =>
              exact Or.inr ⟨[], line, rest, scope, e, rfl, rfl, rfl, rfl, hstatement, hafter ▸ heval, hnone⟩
      · -- the last expression stands further on, and this line is one more before it
        refine Or.inr ⟨line :: front, l, back, before, e, rfl, ?_, hname, ?_, hl⟩
        · rw [hline, List.length_cons]
          omega
        · rw [Scope.afterLines_cons, (runLine_iff _ _).mp ⟨_, hnext⟩, Option.bind_some, hfront]

end Lines

end TableScript.Script
