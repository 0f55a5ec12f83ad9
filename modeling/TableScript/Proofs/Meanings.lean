import TableScript.Proofs.InPlace
import TableScript.Proofs.Substitution

/-!
# One meaning for every name

Dataframes and locals are kept apart, and a name is looked up among the dataframes first. So a name must not
be bound in both places: the local would not be seen, and it would come up again when the dataframe is
removed. Assignments and removals see to that, but giving the library a name does not (`OneMeaning` of a
scope fails after it, if the name is that of a dataframe).

`oneMeaning_iff` says that nothing else goes wrong. As long as no line gives the library the name of a
dataframe, no name is bound twice, and the statement that settled a name last decides what looking it up
gives. Where a line does, looking up the name still gives the dataframe, and after its removal the library.
That no local is a dataframe holds in any case.

A statement that settles a name gives it its meaning (`settles_of_exec`), and the lines after it that do not
settle it again keep that (`Scope.afterLines_keeps`). For the first of these no name may be bound twice, which
every statement keeps but the one (`Scope.Separate.exec`).
-/

namespace TableScript.Script

variable {files : Files} {book : Workbook} {scope before between after : Scope} {name : String}

/-! ## Names that are bound once -/

/-- No name is bound both to a dataframe and to a local. -/
def Scope.Separate (scope : Scope) : Prop := ∀ name ∈ scope.locals.keys, name ∉ scope.book.names

/-- At the beginning of a script names are bound once, if no dataframe has the name of the library. -/
theorem Scope.separate_initial (hpd : "pd" ∉ book.names) : (Scope.initial book).Separate := by
  intro name hname
  obtain rfl : name = "pd" := List.mem_singleton.mp hname
  exact hpd

/-- What is kept in a scope is kept under distinct names, and no local is a dataframe. -/
structure Scope.Orderly (scope : Scope) : Prop where
  names : scope.book.names.Nodup
  tidy : scope.Tidy
  apart : scope.Apart

/-- At the beginning of a script the bindings are in order. -/
theorem Scope.orderly_initial (hnames : book.names.Nodup) : (Scope.initial book).Orderly :=
  ⟨hnames, tidy_initial book, apart_initial book⟩

/-- Lines keep them in order. -/
theorem Scope.Orderly.afterLines (h : scope.Orderly) {lines : List (List Char)}
    (hlines : scope.afterLines files lines = some after) : after.Orderly := by
  obtain ⟨-, -, -, -, htidy⟩ :=
    afterLines_extends hlines ⟨rfl, Covers.refl scope.locals⟩ h.tidy h.tidy
  exact ⟨(afterLines_names hlines).2.1 h.names, htidy, h.apart.afterLines hlines⟩

/-- So does evaluating an expression. -/
theorem Scope.Orderly.eval (h : scope.Orderly) {e : Expr} {v : Operand}
    (heval : eval files e scope = .ok (v, after)) : after.Orderly := by
  obtain ⟨hlocals, hnames, -⟩ := steady_eval files e scope v after heval
  refine ⟨hnames ▸ h.names, ?_, ?_⟩
  · rw [Tidy, hlocals]
    exact h.tidy
  · rw [Apart, hlocals]
    exact h.apart

/-- Steps that keep the names in both places keep them separate. -/
theorem Scope.Separate.of_steady (h : scope.Separate) {α : Type} {m : Run α} {a : α} (hm : Steady m)
    (hok : m scope = .ok (a, after)) : after.Separate := by
  obtain ⟨hlocals, hnames, -⟩ := hm scope a after hok
  rw [Separate, hlocals, hnames]
  exact h

/-- Binding a name removes it from the other place. -/
theorem Scope.Separate.bind (h : scope.Separate) (horderly : scope.Orderly) (name : String) (v : Operand) :
    (scope.bind name v).Separate := by
  cases v with
  | frame f =>
    intro other hother hmem
    rcases (Keyed.mem_keys_put scope.book.frames name other f).mp hmem with rfl | hmem
    · exact Keyed.not_mem_keys_erase horderly.tidy other hother
    · exact h other (Keyed.mem_keys_erase hother) hmem
  | scalar _ | series _ | module _ =>
    intro other hother hmem
    rcases (Keyed.mem_keys_put scope.locals name other _).mp hother with rfl | hother
    · exact Keyed.not_mem_keys_erase horderly.names other hmem
    · exact h other hother (Keyed.mem_keys_erase hmem)

/-- A removed name is left in neither place. -/
theorem Scope.Separate.unbind (h : scope.Separate) (hunbind : scope.unbind name = .ok after) :
    after.Separate := by
  unfold Scope.unbind at hunbind
  split at hunbind
  · cases hunbind
    exact fun other hother hmem => h other hother (Keyed.mem_keys_erase hmem)
  · split at hunbind
    · cases hunbind
      exact fun other hother => h other (Keyed.mem_keys_erase hother)
    · cases hunbind

/-- A statement keeps names separate unless it gives the library the name of a dataframe. -/
theorem Scope.Separate.exec {s : Statement} {v : Option Operand} (h : scope.Separate)
    (horderly : scope.Orderly) (hexec : exec files s scope = .ok (v, after))
    (hload : ∀ library name, s = .load library name → name ∉ scope.book.names) : after.Separate := by
  cases executed_of_exec hexec with
  | load name hafter =>
    subst hafter
    intro other hother
    rcases (Keyed.mem_keys_put scope.locals name other _).mp hother with rfl | hother
    · exact hload _ _ rfl
    · exact h other hother
  | @bind name e value between heval hafter =>
    subst hafter
    exact (h.of_steady (steady_eval files e) heval).bind (horderly.eval heval) name value
  | @setColumn name label e value between heval hassign =>
    exact (h.of_steady (steady_eval files e) heval).of_steady
      (steady_assign_column files value name label) hassign
  | unbind hunbind => exact h.unbind hunbind
  | @dropColumn name label hdelete => exact h.of_steady (steady_delete_column files name label) hdelete
  | @expr e value heval => exact h.of_steady (steady_eval files e) heval

/-! ## What a name stands for -/

/-- The name stands for nothing: looking it up, removing it or changing a dataframe of that name fails. -/
structure Scope.Unknown (files : Files) (scope : Scope) (name : String) : Prop where
  lookup : scope.lookup name = .error (.unknownName name)
  evaluate : eval files (.name name) scope = .error (.unknownName name)
  change : scope.frame name = .error (.unknownName name)
  delete : exec files (.delete (.name name)) scope = .error (.unknownName name)

/-- A name that cannot be looked up stands for nothing. -/
theorem Scope.unknown_of_lookup (h : scope.lookup name = .error (.unknownName name)) :
    scope.Unknown files name := by
  have hlookup := h
  unfold Scope.lookup at h
  split at h
  case h_1 => cases h
  case h_2 hframe =>
    split at h
    case h_1 => cases h
    case h_2 hlocal =>
      have hunbind : scope.unbind name = .error (.unknownName name) := by
        rw [Scope.unbind, if_neg, if_neg]
        · rw [Keyed.has, hlocal]
          exact Bool.false_ne_true
        · rw [Workbook.has, Keyed.has, show scope.book.frames.get? name = none from hframe]
          exact Bool.false_ne_true
      refine ⟨hlookup, ?_, by rw [Scope.frame, hframe], ?_⟩
      · rw [Script.eval, run_get_bind]
        exact run_lift_of_error hlookup
      · rw [exec, Script.delete]
        refine run_bind_of_error ?_
        rw [run_get_bind]
        exact run_bind_of_error (run_lift_of_error hunbind)

/-- What looking a name up gives, by the statement that settled the name last: the library, the value that
was assigned, or nothing if the name was removed. A dataframe may have been changed in its place since then,
if lines after the statement can have done that. The statement was carried out in the scope `before`. -/
inductive Settles (files : Files) (before : Scope) (changed : Prop) (name : String) (scope : Scope) :
    Statement → Prop
  | load {library : String} (h : scope.lookup name = .ok (.module library)) :
    Settles files before changed name scope (.load library name)
  | value {e : Expr} {v : Operand} {between : Scope} (heval : eval files e before = .ok (v, between))
    (hvalue : ∀ f, v ≠ .frame f) (h : scope.lookup name = .ok v) :
    Settles files before changed name scope (.assign (.name name) e)
  | frame {e : Expr} {f g : Frame} {between : Scope} (heval : eval files e before = .ok (.frame f, between))
    (h : scope.lookup name = .ok (.frame g)) (hchanges : f.Changes changed g) :
    Settles files before changed name scope (.assign (.name name) e)
  | delete (h : scope.Unknown files name) : Settles files before changed name scope (.delete (.name name))

/-- What a local stands for is found under its name, unless there is a dataframe of that name. -/
theorem lookup_of_local {v : Operand} (hfree : scope.book.frame? name = none)
    (hlocal : scope.locals.get? name = some v) : scope.lookup name = .ok v := by
  simp only [Scope.lookup, hfree, hlocal]

/-- A local is the name of no dataframe, as long as names are bound once. -/
theorem frame?_eq_none_of_separate (h : scope.Separate) {v : Operand}
    (hlocal : scope.locals.get? name = some v) : scope.book.frame? name = none :=
  (Keyed.get?_eq_none_iff _ _).mpr (h name (Keyed.mem_keys_of_mem (Keyed.mem_of_get? hlocal)))

/-- A name that was removed while it was bound once stands for nothing. -/
theorem lookup_of_unbind (h : scope.Separate) (horderly : scope.Orderly)
    (hunbind : scope.unbind name = .ok after) :
    after.book.frame? name = none ∧ after.lookup name = .error (.unknownName name) := by
  have hlookup : after.book.frame? name = none → after.locals.get? name = none →
      after.book.frame? name = none ∧ after.lookup name = .error (.unknownName name) :=
    fun hframe hlocal => ⟨hframe, by simp only [Scope.lookup, hframe, hlocal]⟩
  unfold Scope.unbind at hunbind
  split at hunbind
  case isTrue hhas =>
    cases hunbind
    refine hlookup (Keyed.get?_erase_self horderly.names name) ?_
    exact (Keyed.get?_eq_none_iff _ _).mpr fun hmem => h name hmem ((Keyed.has_iff _ _).mp hhas)
  case isFalse hhas =>
    split at hunbind
    case isFalse => cases hunbind
    case isTrue =>
      cases hunbind
      refine hlookup ((Keyed.get?_eq_none_iff _ _).mpr ?_) (Keyed.get?_erase_self horderly.tidy name)
      exact (Keyed.has_eq_false_iff _ _).mp (Bool.not_eq_true _ ▸ hhas)

/-- The statement that settles a name decides what looking it up gives, as long as the name is kept and no
name is bound twice after the statement. -/
theorem settles_of_exec {s : Statement} {v : Option Operand} {changed : Prop} (horderly : before.Orderly)
    (hbefore : before.Separate) (hexec : exec files s before = .ok (v, between)) (hbetween : between.Separate)
    (hname : s.settledName? = some name) (hkeeps : Scope.Keeps changed name between scope) :
    Settles files before changed name scope s := by
  cases executed_of_exec hexec with
  | load other hafter =>
    obtain rfl : other = name := Option.some.inj hname
    subst hafter
    have hlocal := Keyed.get?_put_self before.locals other (.module "pandas")
    -- the import leaves a dataframe of the name, if there is one: `hbetween` excludes it
    have hfree := frame?_eq_none_of_separate hbetween hlocal
    exact .load ((hkeeps.lookup_eq hfree).trans (lookup_of_local hfree hlocal))
  | @bind other e value middle heval hafter =>
    obtain rfl : other = name := Option.some.inj hname
    subst hafter
    -- values that are no dataframe become locals, and the dataframe of the name goes
    have hlocal : ∀ w, (∀ f, w ≠ .frame f) → middle.bind other w =
        ⟨middle.book.remove other, middle.locals.put other w⟩ → value = w →
        Settles files before changed other scope (.assign (.name other) e) := by
      rintro w hvalue hbind rfl
      have hfree : (middle.bind other value).book.frame? other = none := by
        rw [hbind]
        exact Keyed.get?_erase_self (horderly.eval heval).names other
      refine .value heval hvalue ((hkeeps.lookup_eq hfree).trans (lookup_of_local hfree ?_))
      rw [hbind]
      exact Keyed.get?_put_self middle.locals other value
    cases value with
    | frame f =>
      obtain ⟨g, hlookup, hchanges⟩ := hkeeps.lookup_frame (Keyed.get?_put_self middle.book.frames other f)
      exact .frame heval hlookup hchanges
    | scalar w => exact hlocal _ (by simp) rfl rfl
    | series w => exact hlocal _ (by simp) rfl rfl
    | module w => exact hlocal _ (by simp) rfl rfl
  | setColumn => cases hname
  | @unbind other hunbind =>
    obtain rfl : other = name := Option.some.inj hname
    obtain ⟨hfree, hlookup⟩ := lookup_of_unbind hbefore horderly hunbind
    exact .delete (Scope.unknown_of_lookup ((hkeeps.lookup_eq hfree).trans hlookup))
  | dropColumn => cases hname
  | expr => cases hname

/-! ## Scripts -/

/-- Every name has one meaning in the scope that is reached after the lines. -/
structure OneMeaning (files : Files) (book : Workbook) (lines : List (List Char)) (scope : Scope) : Prop where
  separate : scope.Separate
  apart : scope.Apart
  /-- The statement that settled a name last decides what the name stands for. -/
  settled {early late : List (List Char)} {line : List Char} {s : Statement} {before : Scope} {name : String}
    (split : lines = early ++ line :: late)
    (reached : (Scope.initial book).afterLines files early = some before)
    (statement : lineStatement? line = .ok (some s)) (settles : s.settledName? = some name)
    (last : ∀ l ∈ late, ∀ t, lineStatement? l = .ok (some t) → t.settledName? ≠ some name) :
    Settles files before (∃ l ∈ late, ∃ t, lineStatement? l = .ok (some t) ∧ name ∈ t.targets) name scope s

/-- Wherever a run of the script comes to, every name has one meaning. -/
def KeepsMeanings (files : Files) (book : Workbook) (source : String) : Prop :=
  ∀ front back scope, Text.linesOf source.toList = front ++ back →
    (Scope.initial book).afterLines files front = some scope → OneMeaning files book front scope

/-- The library that the statement gives a name to. -/
def Statement.library? : Statement → Option String
  | .load library _ => some library
  | _ => none

/-- A run of the script comes to a line that gives the library the name of a dataframe, and carries it
out. -/
def HidesLibrary (files : Files) (book : Workbook) (source : String) (name : String) (f : Frame)
    (before after : Scope) : Prop :=
  ∃ front line back library, Text.linesOf source.toList = front ++ line :: back ∧
    (Scope.initial book).afterLines files front = some before ∧
    lineStatement? line = .ok (some (.load library name)) ∧ before.afterLine files line = some after ∧
    before.book.frame? name = some f

/-- Lines that never give the library the name of a dataframe keep names separate. -/
theorem Scope.Separate.afterLines {lines : List (List Char)} (h : scope.Separate) (horderly : scope.Orderly)
    (hlines : scope.afterLines files lines = some after)
    (hload : ∀ early line late reached library name, lines = early ++ line :: late →
      scope.afterLines files early = some reached → lineStatement? line = .ok (some (.load library name)) →
      (∃ next, reached.afterLine files line = some next) → name ∉ reached.book.names) : after.Separate := by
  induction lines generalizing scope with
  | nil =>
    cases hlines
    exact h
  | cons line rest ih =>
    rw [afterLines_cons, Option.bind_eq_some_iff] at hlines
    obtain ⟨next, hnext, hrest⟩ := hlines
    have horderly' : next.Orderly := horderly.afterLines (afterLines_singleton.trans hnext)
    have hseparate : next.Separate := by
      rcases afterLine_eq_some_iff.mp hnext with ⟨-, rfl⟩ | ⟨s, v, hsome, hexec⟩
      · exact h
      · refine h.exec horderly hexec fun library name heq => ?_
        subst heq
        exact hload [] line rest scope library name rfl rfl hsome ⟨next, hnext⟩
    refine ih hseparate horderly' hrest fun early l late reached library name heq hreached => ?_
    refine hload (line :: early) l late reached library name (by rw [heq, List.cons_append]) ?_
    rw [afterLines_cons, hnext, Option.bind_some, hreached]

/-- A line that gives the library a name puts it among the locals and does nothing else. -/
theorem afterLine_load {line : List Char} {library : String}
    (hline : lineStatement? line = .ok (some (.load library name)))
    (hafter : before.afterLine files line = some after) :
    after = ⟨before.book, before.locals.put name (.module library)⟩ := by
  rcases Scope.afterLine_eq_some_iff.mp hafter with ⟨hnone, -⟩ | ⟨s, v, hsome, hexec⟩
  · cases hnone.symm.trans hline
  · cases hsome.symm.trans hline
    cases executed_of_exec hexec with
    | load _ hload => exact hload

section Hiding

variable {source : String} {f : Frame}

/-- After a line that gives the library the name of a dataframe, that name is bound twice. -/
theorem HidesLibrary.not_keepsMeanings (h : HidesLibrary files book source name f before after) :
    ¬ KeepsMeanings files book source := by
  intro hkeeps
  obtain ⟨front, line, back, library, hlines, hbefore, hline, hafter, hf⟩ := h
  have hreached : (Scope.initial book).afterLines files (front ++ [line]) = some after := by
    rw [Scope.afterLines_append, hbefore, Option.bind_some, Scope.afterLines_singleton, hafter]
  have hseparate := (hkeeps (front ++ [line]) back after (by rw [hlines]; simp) hreached).separate
  rw [afterLine_load hline hafter] at hseparate
  exact hseparate name ((Keyed.mem_keys_put _ _ _ _).mpr (Or.inl rfl)) (frame?_mem hf)

/-- The library is found under its new name only when the dataframe of that name is removed. -/
theorem HidesLibrary.lookup (h : HidesLibrary files book source name f before after)
    (hnames : book.names.Nodup) : after.lookup name = .ok (.frame f) ∧
      ∃ next, after.unbind name = .ok next ∧ next.lookup name = .ok (.module "pandas") := by
  obtain ⟨front, line, back, library, -, hbefore, hline, hafter, hf⟩ := h
  have hnodup := ((Scope.orderly_initial hnames).afterLines hbefore).names
  rcases Scope.afterLine_eq_some_iff.mp hafter with ⟨hnone, -⟩ | ⟨t, v, hsome, hexec⟩
  · cases hnone.symm.trans hline
  · cases hsome.symm.trans hline
    cases executed_of_exec hexec with
    | load _ hload =>
      subst hload
      refine ⟨by simp only [Scope.lookup, hf], ⟨before.book.remove name, _⟩, if_pos ?_, ?_⟩
      · exact (Keyed.has_iff _ _).mpr (frame?_mem hf)
      · exact lookup_of_local (Keyed.get?_erase_self hnodup name) (Keyed.get?_put_self before.locals name _)

variable (hnames : book.names.Nodup) (hpd : "pd" ∉ book.names)
  (hfresh : ∀ name f before after, ¬ HidesLibrary files book source name f before after)
include hnames hpd hfresh

/-- Names are separate wherever a run comes to, if no line gives the library the name of a dataframe. -/
theorem separate_of_not_hidden {front back : List (List Char)}
    (hlines : Text.linesOf source.toList = front ++ back)
    (hscope : (Scope.initial book).afterLines files front = some scope) : scope.Separate := by
  have horderly := Scope.orderly_initial hnames
  refine (Scope.separate_initial hpd).afterLines horderly hscope ?_
  rintro first line late middle library name hfront hmiddle hline ⟨next, hnext⟩ hmem
  obtain ⟨⟨_, f⟩, hentry, rfl⟩ := List.mem_map.mp hmem
  refine hfresh _ f middle next ⟨first, line, late ++ back, library, ?_, hmiddle, hline, hnext, ?_⟩
  · rw [hlines, hfront]
    simp
  · exact Keyed.get?_of_mem (horderly.afterLines hmiddle).names hentry

/-- A script that gives the library the name of no dataframe keeps the meanings of all names. -/
theorem keepsMeanings_of_not_hidden : KeepsMeanings files book source := by
  intro front back scope hlines hscope
  have horderly := Scope.orderly_initial hnames
  refine ⟨separate_of_not_hidden hnames hpd hfresh hlines hscope,
    (Scope.apart_initial book).afterLines hscope, ?_⟩
  intro early late line s before name hsplit hbefore hline hname hlast
  rw [hsplit, Scope.afterLines_append, hbefore, Option.bind_some, Scope.afterLines_cons,
    Option.bind_eq_some_iff] at hscope
  obtain ⟨between, hbetween, hlate⟩ := hscope
  rcases Scope.afterLine_eq_some_iff.mp hbetween with ⟨hnone, -⟩ | ⟨t, v, hsome, hexec⟩
  · cases hnone.symm.trans hline
  · cases hsome.symm.trans hline
    have hearly : Text.linesOf source.toList = early ++ line :: (late ++ back) := by
      rw [hlines, hsplit]
      simp
    have hpast : Text.linesOf source.toList = (early ++ [line]) ++ (late ++ back) := by
      rw [hearly]
      simp
    have hreached : (Scope.initial book).afterLines files (early ++ [line]) = some between := by
      rw [Scope.afterLines_append, hbefore, Option.bind_some, Scope.afterLines_singleton, hbetween]
    exact settles_of_exec (horderly.afterLines hbefore)
      (separate_of_not_hidden hnames hpd hfresh hearly hbefore) hexec
      (separate_of_not_hidden hnames hpd hfresh hpast hreached) hname (Scope.afterLines_keeps hlate hlast)

end Hiding

/-- Every name has one meaning after every line of a script, exactly if no line gives the library the name of
a dataframe. A line that does leaves the name bound twice: looking it up gives the dataframe, and when that
is removed, the library. No local is a dataframe in any case. -/
theorem oneMeaning_iff (files : Files) {book : Workbook} (hnames : book.names.Nodup)
    (hpd : "pd" ∉ book.names) (source : String) :
    (KeepsMeanings files book source ↔
      ∀ name f before after, ¬ HidesLibrary files book source name f before after) ∧
    (∀ name f before after, HidesLibrary files book source name f before after →
      after.lookup name = .ok (.frame f) ∧
        ∃ next, after.unbind name = .ok next ∧ next.lookup name = .ok (.module "pandas")) ∧
    ∀ front back scope, Text.linesOf source.toList = front ++ back →
      (Scope.initial book).afterLines files front = some scope → scope.Apart := by
  refine ⟨⟨?_, keepsMeanings_of_not_hidden hnames hpd⟩, ?_, ?_⟩
  · intro hkeeps name f before after hhides
    exact hhides.not_keepsMeanings hkeeps
  · intro name f before after hhides
    exact hhides.lookup hnames
  · intro front back scope _ hscope
    exact (Scope.apart_initial book).afterLines hscope

/-- A script that gives the library the name of a dataframe and removes it finds the library under the removed
name. Another that gives it a new name, and then the name to a dataframe, keeps to one meaning. -/
theorem not_oneMeaning_of_hidden_library :
    let f : Frame := ⟨[("A", [.int 1])], 1⟩
    let book : Workbook := ⟨[("df", f)]⟩
    let taken := "import pandas as df\ndel df\ndf"
    let fresh := "import pandas as np\nnp = df\nnp['B'] = 2\ndel np"
    (book.names.Nodup ∧ "pd" ∉ book.names) ∧ ¬ KeepsMeanings default book taken ∧
    (∃ before after next, HidesLibrary default book taken "df" f before after ∧
      after.lookup "df" = .ok (.frame f) ∧ after.unbind "df" = .ok next ∧
      next.lookup "df" = .ok (.module "pandas")) ∧
    KeepsMeanings default book fresh := by
  intro f book taken fresh
  have hnames : book.names.Nodup := by decide
  have hpd : "pd" ∉ book.names := by decide
  have hhides : HidesLibrary default book taken "df" f (.initial book)
      ⟨book, (Scope.initial book).locals.put "df" (.module "pandas")⟩ :=
    ⟨[], "import pandas as df".toList, ["del df".toList, "df".toList], "pandas", by decide, rfl, rfl, rfl,
      rfl⟩
  obtain ⟨hiff, hhidden, -⟩ := oneMeaning_iff default hnames hpd taken
  obtain ⟨hlookup, next, hunbind, hnext⟩ := hhidden "df" f _ _ hhides
  refine ⟨⟨hnames, hpd⟩, fun hkeeps => hiff.mp hkeeps "df" f _ _ hhides,
    ⟨_, _, next, hhides, hlookup, hunbind, hnext⟩, (oneMeaning_iff default hnames hpd fresh).1.mpr ?_⟩
  -- only the first line gives the library a name, and no dataframe has that name then
  rintro name g before after ⟨front, line, back, library, hlines, hbefore, hline, -, hg⟩
  have hfresh : Text.linesOf fresh.toList = ["import pandas as np".toList, "np = df".toList,
      "np['B'] = 2".toList, "del np".toList] := by decide
  have hothers : ∀ l ∈ ["np = df".toList, "np['B'] = 2".toList, "del np".toList],
      (lineStatement? l).toOption.join.bind Statement.library? = none := by
    decide +kernel
  rw [hfresh] at hlines
  cases front with
  | nil =>
    obtain ⟨rfl, -⟩ := List.cons.inj hlines
    obtain rfl : Scope.initial book = before := Option.some.inj hbefore
    cases hline
    cases hg
  | cons first front =>
    obtain ⟨-, hrest⟩ := List.cons.inj hlines
    have hnone := hothers line (by rw [hrest]; simp)
    rw [hline] at hnone
    cases hnone

end TableScript.Script
