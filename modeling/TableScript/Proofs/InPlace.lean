import TableScript.Proofs.Running
import Mathlib.Logic.Relation

/-!
# What keeps a name

Apart from the statements that bind or remove a name, the only things that can happen to what it stands for
are changes of a dataframe in its place: by a method that is called on the name, or by setting or dropping a
column of it. `Scope.Keeps` says that of two scopes and a name, and it says which steps may have made such
changes: where none did, the dataframe is the same.

Expressions keep every name, and change in their place only the dataframes of their targets
(`confined_eval`). Therefore a statement keeps every name that it does not settle (`exec_keeps`), and so do
lines (`Scope.afterLines_keeps`).
-/

namespace TableScript

/-! ## Changed dataframes -/

/-- One change of a dataframe in its place: by a method, or by a column that is set or dropped. -/
inductive Frame.InPlace (f g : Frame) : Prop
  | method (method : String) (args : Script.CallValues) (h : Script.changeFrame f method args = .ok g)
  | setColumn (header : String) (cells : List Value) (h : (f.set header cells).made = .ok g)
  | dropColumn (header : String) (h : (f.drop header).made = .ok g)

/-- The second dataframe is made from the first by changes in its place, of which there are none unless they
are allowed. -/
def Frame.Changes (allowed : Prop) : Frame → Frame → Prop :=
  Relation.ReflTransGen fun f g => allowed ∧ f.InPlace g

/-- Changes that are allowed stay so when more are. -/
theorem Frame.Changes.mono {allowed more : Prop} (h : allowed → more) {f g : Frame}
    (hfg : f.Changes allowed g) : f.Changes more g :=
  Relation.ReflTransGen.mono (fun _ _ => And.imp_left h) f g hfg

/-- One change in its place is allowed if any is. -/
theorem Frame.changes_single {allowed : Prop} {f g : Frame} (hallowed : allowed) (h : f.InPlace g) :
    f.Changes allowed g := .single ⟨hallowed, h⟩

namespace Script

/-! ## Kept names -/

/-- The name stands for the same, or for a dataframe that was changed in its place if that is allowed. -/
structure Scope.Keeps (allowed : Prop) (name : String) (scope after : Scope) : Prop where
  frame : Option.Rel (Frame.Changes allowed) (scope.book.frame? name) (after.book.frame? name)
  locals : after.locals.get? name = scope.locals.get? name

namespace Scope.Keeps

variable {allowed more : Prop} {name : String} {scope between after : Scope}

/-- A name that is bound to the same in both places is kept. -/
theorem of_eq (hframe : after.book.frame? name = scope.book.frame? name)
    (hlocals : after.locals.get? name = scope.locals.get? name) : Keeps allowed name scope after := by
  refine ⟨?_, hlocals⟩
  rw [hframe]
  cases scope.book.frame? name with
  | none => exact .none
  | some f => exact .some .refl

/-- A scope keeps its own names. -/
theorem refl : Keeps allowed name scope scope := of_eq rfl rfl

/-- Names that are kept twice in turn are kept. -/
theorem trans (h : Keeps allowed name scope between) (h' : Keeps allowed name between after) :
    Keeps allowed name scope after := by
  obtain ⟨hframe, hlocals⟩ := h
  obtain ⟨hframe', hlocals'⟩ := h'
  refine ⟨?_, hlocals'.trans hlocals⟩
  generalize scope.book.frame? name = first at hframe
  generalize between.book.frame? name = second at hframe hframe'
  generalize after.book.frame? name = third at hframe'
  cases hframe with
  | none => exact hframe'
  | some hfirst =>
    cases hframe' with
    | some hsecond => exact .some (hfirst.trans hsecond)

/-- Names that are kept stay so when more changes are allowed. -/
theorem mono (h : allowed → more) (hkeeps : Keeps allowed name scope after) :
    Keeps more name scope after := by
  obtain ⟨hframe, hlocals⟩ := hkeeps
  refine ⟨?_, hlocals⟩
  generalize scope.book.frame? name = first at hframe
  generalize after.book.frame? name = second at hframe
  cases hframe with
  | none => exact .none
  | some hchanges => exact .some (hchanges.mono h)

/-- A name that stands for no dataframe goes on to stand for what it stands for. -/
theorem lookup_eq (h : Keeps allowed name scope after) (hfree : scope.book.frame? name = none) :
    after.lookup name = scope.lookup name := by
  obtain ⟨hframe, hlocals⟩ := h
  rw [hfree] at hframe
  generalize hafter : after.book.frame? name = second at hframe
  cases hframe
  simp only [lookup, hfree, hafter, hlocals]

/-- A name that stands for a dataframe goes on to stand for it, changed in its place if that is allowed. -/
theorem lookup_frame (h : Keeps allowed name scope after) {f : Frame}
    (hf : scope.book.frame? name = some f) :
    ∃ g, after.lookup name = .ok (.frame g) ∧ f.Changes allowed g := by
  have hframe := h.frame
  rw [hf] at hframe
  generalize hafter : after.book.frame? name = second at hframe
  cases hframe with
  | @some _ g hchanges => exact ⟨g, by rw [lookup, hafter], hchanges⟩

end Scope.Keeps

/-- Putting a changed dataframe into its place keeps all names. -/
theorem Scope.keeps_setFrame {allowed : Prop} {name other : String} {scope : Scope} {f g : Frame}
    (hallowed : name = other → allowed) (hf : scope.book.frame? name = some f) (h : f.InPlace g) :
    Keeps allowed other scope (scope.setFrame name g) := by
  by_cases hname : name = other
  · subst hname
    refine ⟨?_, rfl⟩
    have hput : (scope.setFrame name g).book.frame? name = some g :=
      Keyed.get?_put_self scope.book.frames name g
    rw [hf, hput]
    exact .some (Frame.changes_single (hallowed rfl) h)
  · exact .of_eq (Keyed.get?_put_of_ne scope.book.frames g hname) rfl

/-! ## Steps -/

/-- The step keeps all names, and changes in their place only dataframes under the given ones. -/
def Confined (names : List String) {α : Type} (m : Run α) : Prop :=
  ∀ scope a after, m scope = .ok (a, after) → ∀ name, Scope.Keeps (name ∈ names) name scope after

section Steps

variable {α β : Type} {names : List String}

/-- What changes only dataframes of some names changes only those of more names. -/
theorem Confined.mono {more : List String} (h : names ⊆ more) {m : Run α} (hm : Confined names m) :
    Confined more m := fun scope a after hok name => (hm scope a after hok name).mono fun hname => h hname

/-- A result changes nothing. -/
theorem confined_pure (a : α) : Confined names (pure a : Run α) := by
  intro scope b after h name
  rw [run_pure] at h
  cases h
  exact .refl

/-- Neither does a computation that has no part in the scope. -/
theorem confined_lift (x : Eval α) : Confined names (liftM x : Run α) := by
  intro scope a after h name
  obtain ⟨-, rfl⟩ := run_lift_eq_ok.mp h
  exact .refl

/-- Two computations in sequence change only what each of them may. -/
theorem confined_bind {m : Run α} {f : α → Run β} (hm : Confined names m) (hf : ∀ a, Confined names (f a)) :
    Confined names (m >>= f) := by
  intro scope b after h name
  obtain ⟨a, between, hfirst, hsecond⟩ := run_bind_eq_ok.mp h
  exact (hm scope a between hfirst name).trans (hf a between b after hsecond name)

/-- Looking a name up changes nothing. -/
theorem confined_lookup (name : String) : Confined names (do (← get).lookup name) := by
  intro scope v after h other
  rw [run_get_bind] at h
  obtain ⟨-, rfl⟩ := run_lift_eq_ok.mp h
  exact .refl

/-- The call of a method changes at most the dataframe of the name it is called on. -/
theorem confined_method (files : Files) (target : Expr) (method : String) (args : CallValues)
    (hname : ∀ s, target = .name s → s ∈ names) (htarget : Confined names (eval files target)) :
    Confined names (methodCall files target method args) := by
  intro scope a after h other
  rcases methodCall_eq_ok_iff.mp h with ⟨name, f, changed, hchanged, hchange, -, rfl⟩ | ⟨-, hcall⟩
  · obtain ⟨rfl, hf⟩ := changedFrame?_eq_some hchanged
    exact Scope.keeps_setFrame (fun heq => heq ▸ hname name rfl) hf (.method method args hchange)
  · exact confined_bind htarget (fun v => confined_lift (callOn files method args v)) _ a after hcall other

/-- Changing only dataframes of some names is closed under the pieces of evaluation. -/
theorem confined_closed (files : Files) (names : List String) :
    EvalClosed files names (Confined names) where
  pure := confined_pure
  lift := confined_lift
  bind := confined_bind
  lookup := confined_lookup
  method target method args hname h := confined_method files target method args hname h

/-- Evaluating an expression changes only dataframes that it calls methods on. -/
theorem confined_eval (files : Files) (e : Expr) : Confined e.targets (eval files e) :=
  (confined_closed files _).eval

/-- A dataframe that is there is replaced by what is made of it. -/
theorem confined_replace {name : String} (hname : name ∈ names) {change : Frame → Run Frame}
    (hchange : ∀ f scope g after, change f scope = .ok (g, after) → after = scope ∧ f.InPlace g) :
    Confined names (do
      let f ← (← get).frame name
      let changed ← change f
      modify (·.setFrame name changed)) := by
  intro scope a after h other
  obtain ⟨f, changed, middle, hf, hchanged, rfl⟩ := replace_eq_ok_iff.mp h
  obtain ⟨rfl, hinPlace⟩ := hchange f _ _ _ hchanged
  exact Scope.keeps_setFrame (fun heq => heq ▸ hname) hf hinPlace

/-- Only what can be made is taken for a frame. -/
theorem ofFrame_eq_ok {x : Except FrameError α} {a : α} : ofFrame x = .ok a ↔ x = .ok a := by
  cases x <;> simp [ofFrame]

/-- Setting a column changes only the dataframe, and what the label does. -/
theorem confined_assign_column (files : Files) (v : Operand) (name : String) (label : Expr) :
    Confined (name :: label.targets) (assign files v (.column name label)) := by
  rw [assign]
  refine confined_bind ((confined_eval files label).mono (List.subset_cons_self _ _)) fun a =>
    confined_bind (confined_lift _) fun header => ?_
  have hchange : ∀ (f : Frame) (scope : Scope) (g : Frame) (after : Scope), (do
      let cells ← v.toCells f.rows
      ofFrame (f.set header cells).made : Run Frame) scope = .ok (g, after) →
      after = scope ∧ f.InPlace g := by
    intro f scope g after h
    obtain ⟨cells, between, hlift, hset⟩ := run_bind_eq_ok.mp h
    obtain ⟨-, rfl⟩ := run_lift_eq_ok.mp hlift
    obtain ⟨hmade, rfl⟩ := run_lift_eq_ok.mp hset
    exact ⟨rfl, .setColumn header cells (ofFrame_eq_ok.mp hmade)⟩
  simpa only [bind_assoc] using confined_replace (List.mem_cons_self (a := name)) hchange

/-- So does deleting one. -/
theorem confined_delete_column (files : Files) (name : String) (label : Expr) :
    Confined (name :: label.targets) (delete files (.column name label)) := by
  rw [delete]
  refine confined_bind ((confined_eval files label).mono (List.subset_cons_self _ _)) fun a =>
    confined_bind (confined_lift _) fun header => ?_
  refine confined_replace List.mem_cons_self fun f scope g after h => ?_
  obtain ⟨hdrop, rfl⟩ := run_lift_eq_ok.mp h
  exact ⟨rfl, .dropColumn header (ofFrame_eq_ok.mp hdrop)⟩

end Steps

/-! ## Statements -/

/-- The name that a statement binds, removes, or gives to the library: it settles what the name stands
for. -/
def Statement.settledName? : Statement → Option String
  | .load _ name => some name
  | s => s.boundName?

/-- The names whose dataframes a statement may change in their place. -/
def Statement.targets : Statement → List String
  | .load _ _ => []
  | .assign (.name _) e => e.targets
  | .assign (.column name label) e => name :: (label.targets ++ e.targets)
  | .delete (.name _) => []
  | .delete (.column name label) => name :: label.targets
  | .expr e => e.targets

variable {files : Files} {scope after : Scope} {name : String}

/-- Binding another name keeps this one. -/
theorem Scope.keeps_bind {allowed : Prop} {other : String} (hne : other ≠ name) (v : Operand) :
    Keeps allowed name scope (scope.bind other v) := by
  cases v with
  | frame f =>
    exact .of_eq (Keyed.get?_put_of_ne scope.book.frames f hne) (Keyed.get?_erase_of_ne scope.locals hne)
  | scalar _ | series _ | module _ =>
    exact .of_eq (Keyed.get?_erase_of_ne scope.book.frames hne) (Keyed.get?_put_of_ne scope.locals _ hne)

/-- Removing another name keeps this one. -/
theorem Scope.keeps_unbind {allowed : Prop} {other : String} (hne : other ≠ name)
    (h : scope.unbind other = .ok after) : Keeps allowed name scope after := by
  unfold Scope.unbind at h
  split at h
  · cases h
    exact .of_eq (Keyed.get?_erase_of_ne scope.book.frames hne) rfl
  · split at h
    · cases h
      exact .of_eq rfl (Keyed.get?_erase_of_ne scope.locals hne)
    · cases h

/-- A statement keeps the names that it does not settle. -/
theorem exec_keeps {s : Statement} {v : Option Operand} (h : exec files s scope = .ok (v, after))
    (hname : s.settledName? ≠ some name) : Scope.Keeps (name ∈ s.targets) name scope after := by
  cases executed_of_exec h with
  | load other hafter =>
    subst hafter
    exact .of_eq rfl (Keyed.get?_put_of_ne scope.locals _ fun heq => hname (congrArg some heq))
  | @bind other e value between heval hafter =>
    subst hafter
    have hne : other ≠ name := fun heq => hname (congrArg some heq)
    exact (confined_eval files e scope value between heval name).trans (Scope.keeps_bind hne value)
  | @setColumn other label e value between heval hassign =>
    have heval' := confined_eval files e scope value between heval name
    have hassign' := confined_assign_column files value other label between () after hassign name
    refine (heval'.mono fun hmem => ?_).trans (hassign'.mono fun hmem => ?_)
    · exact List.mem_cons_of_mem _ (List.mem_append_right _ hmem)
    · exact (List.mem_cons.mp hmem).elim (fun heq => heq ▸ List.mem_cons_self) fun hmem =>
        List.mem_cons_of_mem _ (List.mem_append_left _ hmem)
  | unbind hunbind => exact Scope.keeps_unbind (fun heq => hname (congrArg some heq)) hunbind
  | @dropColumn other label hdelete =>
    exact confined_delete_column files other label scope () after hdelete name
  | @expr e value heval => exact confined_eval files e scope value after heval name

/-- Lines keep the names that none of them settles. -/
theorem Scope.afterLines_keeps {lines : List (List Char)} (h : scope.afterLines files lines = some after)
    (hfree : ∀ line ∈ lines, ∀ s, lineStatement? line = .ok (some s) → s.settledName? ≠ some name) :
    Keeps (∃ line ∈ lines, ∃ s, lineStatement? line = .ok (some s) ∧ name ∈ s.targets) name scope
      after := by
  induction lines generalizing scope with
  | nil =>
    cases h
    exact .refl
  | cons line rest ih =>
    rw [afterLines_cons, Option.bind_eq_some_iff] at h
    obtain ⟨next, hnext, hrest⟩ := h
    obtain ⟨hline, hfree⟩ := List.forall_mem_cons.mp hfree
    have hkeeps : Keeps (∃ l ∈ line :: rest, ∃ s, lineStatement? l = .ok (some s) ∧ name ∈ s.targets)
        name next after :=
      (ih hrest hfree).mono fun ⟨l, hl, hs⟩ => ⟨l, List.mem_cons_of_mem line hl, hs⟩
    refine Keeps.trans ?_ hkeeps
    rcases afterLine_eq_some_iff.mp hnext with ⟨-, rfl⟩ | ⟨s, v, hsome, hexec⟩
    · exact .refl
    · exact (exec_keeps hexec (hline s hsome)).mono fun hmem => ⟨line, List.mem_cons_self, s, hsome, hmem⟩

end Script

end TableScript
