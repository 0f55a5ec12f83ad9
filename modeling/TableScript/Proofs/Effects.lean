import TableScript.Proofs.Running
import TableScript.Proofs.Emitted

/-!
# What generated lines do

Every generated line is read as one statement, and the statement does to the scope what its step does to
the workbook: it binds a name to the dataframe in a file or to a copy, or it changes a dataframe in its
place. The lemmas of the last section say so line by line, in the terms of the frame operation that the
step applies.
-/

namespace TableScript.Script

/-! ## Literals -/

section Literals

variable (files : Files) (scope : Scope)

/-- A literal is its value, and leaves the scope as it is. -/
@[simp] theorem eval_literal (v : Value) :
    eval files (.literal v) scope = .ok (.scalar v, scope) := by
  rw [eval]
  rfl

/-- A name that stands for something is that, and leaves the scope as it is. -/
theorem eval_name {name : String} {v : Operand} (h : scope.lookup name = .ok v) :
    eval files (.name name) scope = .ok (v, scope) := by
  rw [eval, run_get_bind]
  exact run_lift_eq_ok.mpr ⟨h, rfl⟩

/-- Literals are their values, one after the other. -/
theorem evalAll_literals (vs : List Value) :
    evalAll files (vs.map .literal) scope = .ok (vs.map .scalar, scope) := by
  induction vs with
  | nil => rw [List.map_nil, evalAll]; rfl
  | cons v rest ih =>
    rw [List.map_cons, evalAll, run_bind_of_ok (eval_literal files scope v), run_bind_of_ok ih]
    rfl

/-- A list is the list of what its items are. -/
theorem eval_items {α : Type} {f : α → Expr} {g : α → Value} {items : List α}
    (h : ∀ a ∈ items, eval files (f a) scope = .ok (.scalar (g a), scope)) :
    eval files (.list (items.map f)) scope = .ok (.scalar (.list (items.map g)), scope) := by
  have hitems : evalItems files (items.map f) scope = .ok (items.map g, scope) := by
    induction items with
    | nil => rw [List.map_nil, evalItems]; rfl
    | cons a rest ih =>
      rw [List.map_cons, evalItems, run_bind_of_ok (h a List.mem_cons_self),
        run_lift_bind_of_ok (show (Operand.scalar (g a)).toScalar = .ok (g a) from rfl),
        run_bind_of_ok (ih fun b hb => h b (List.mem_cons_of_mem a hb))]
      rfl
  rw [eval, run_bind_of_ok hitems]
  rfl

/-- Entries are put in one after the other. -/
theorem evalEntries_map {α : Type} {f : α → Expr} {g : α → Value} {entries : List (String × α)}
    (h : ∀ entry ∈ entries, eval files (f entry.2) scope = .ok (.scalar (g entry.2), scope))
    (done : Keyed Value) :
    evalEntries files done (entries.map fun entry => (.literal (.str entry.1), f entry.2)) scope =
      .ok ((entries.map fun entry => (entry.1, g entry.2)).foldl
        (fun kept entry => kept.put entry.1 entry.2) done, scope) := by
  induction entries generalizing done with
  | nil => rw [List.map_nil, evalEntries]; rfl
  | cons entry rest ih =>
    rw [List.map_cons, evalEntries, run_bind_of_ok (eval_literal files scope _),
      run_lift_bind_of_ok (show (Operand.scalar (.str entry.1)).toLabel = .ok entry.1 from rfl),
      run_bind_of_ok (h entry List.mem_cons_self),
      run_lift_bind_of_ok (show entryValue (.scalar (g entry.2)) = .ok (g entry.2) from rfl),
      ih fun e he => h e (List.mem_cons_of_mem entry he), List.map_cons, List.foldl_cons]

/-- A dictionary with distinct keys is the dictionary of what is under them, in the same order. -/
theorem eval_entries {α : Type} {f : α → Expr} {g : α → Value} {entries : Keyed α}
    (distinct : entries.keys.Nodup)
    (h : ∀ entry ∈ entries, eval files (f entry.2) scope = .ok (.scalar (g entry.2), scope)) :
    eval files (.dict (entries.map fun entry => (.literal (.str entry.1), f entry.2))) scope =
      .ok (.scalar (.dict (entries.map fun entry => (entry.1, g entry.2))), scope) := by
  have hkeys : Keyed.keys (entries.map fun entry => (entry.1, g entry.2)) = entries.keys := by
    rw [Keyed.keys, Keyed.keys, List.map_map]
    rfl
  have hput := Keyed.foldl_put_of_nodup (entries.map fun entry => (entry.1, g entry.2)) []
    (by rw [List.nil_append, hkeys]; exact distinct)
  rw [eval, run_bind_of_ok (evalEntries_map files scope h []), hput, List.nil_append]
  rfl

end Literals

/-! ## Calls -/

section Calls

variable {files : Files} {scope : Scope} {name method : String} {arguments : List Expr}
  {keywords : List (String × Expr)} {positional : List Operand} {named : Keyed Operand} {f : Frame}
  (hpositional : evalAll files arguments scope = .ok (positional, scope))
  (hnamed : evalKeywords files [] keywords scope = .ok (named, scope))
include hpositional hnamed

/-- A line that calls a changing method of a dataframe puts the changed one in its place. -/
theorem exec_change (hframe : scope.book.frame? name = some f)
    (hchanges : changesFrame method ⟨positional, named⟩ = .ok true) :
    exec files (.expr (.call (.member (.name name) method) arguments keywords)) scope =
      (changeFrame f method ⟨positional, named⟩).map fun changed =>
        (some (.scalar .null), scope.setFrame name changed) := by
  have hfound : changedFrame? scope (.name name) method ⟨positional, named⟩ = .ok (some (name, f)) := by
    simp only [changedFrame?, hframe, hchanges, Except.map, if_true]
  have heval : eval files (.call (.member (.name name) method) arguments keywords) scope =
      (changeFrame f method ⟨positional, named⟩).map fun changed =>
        (.scalar .null, scope.setFrame name changed) := by
    rw [eval, run_bind_of_ok hpositional, run_bind_of_ok hnamed, run_get_bind,
      run_lift_bind_of_ok hfound]
    dsimp only
    cases hchange : changeFrame f method ⟨positional, named⟩ with
    | ok changed =>
      rw [run_lift_bind_of_ok rfl, run_bind_of_ok (run_modify _ _)]
      rfl
    | error e => exact run_bind_of_error (run_lift_of_error rfl)
  rw [exec]
  cases hchange : changeFrame f method ⟨positional, named⟩ with
  | ok changed =>
    rw [hchange] at heval
    rw [run_bind_of_ok heval]
    rfl
  | error e =>
    rw [hchange] at heval
    exact run_bind_of_error heval

/-- A line that calls a changing method of a dataframe can be carried out exactly if the change can. -/
theorem afterLine_change {line : List Char}
    (hline : lineStatement? line =
      .ok (some (.expr (.call (.member (.name name) method) arguments keywords))))
    (hframe : scope.book.frame? name = some f)
    (hchanges : changesFrame method ⟨positional, named⟩ = .ok true) :
    scope.afterLine files line =
      (changeFrame f method ⟨positional, named⟩).toOption.map (scope.setFrame name) := by
  rw [Scope.afterLine, hline]
  simp only [exec_change hpositional hnamed hframe hchanges]
  cases changeFrame f method ⟨positional, named⟩ <;> rfl

/-- A line that gives a name to what a method makes, without a change of the workbook by the call. -/
theorem exec_binding {object : String} {v w : Operand} (hobject : scope.lookup object = .ok v)
    (hkeeps : changedFrame? scope (.name object) method ⟨positional, named⟩ = .ok none)
    (hcall : callOn files method ⟨positional, named⟩ v = .ok w) :
    exec files (.assign (.name name) (.call (.member (.name object) method) arguments keywords)) scope =
      .ok (none, scope.bind name w) := by
  have heval : eval files (.call (.member (.name object) method) arguments keywords) scope =
      .ok (w, scope) := by
    rw [eval, run_bind_of_ok hpositional, run_bind_of_ok hnamed, run_get_bind,
      run_lift_bind_of_ok hkeeps]
    dsimp only
    rw [run_bind_of_ok (eval_name files scope hobject)]
    exact run_lift_eq_ok.mpr ⟨hcall, rfl⟩
  rw [exec, run_bind_of_ok heval]
  rfl

end Calls

/-- No arguments given by name leave those before them. -/
theorem evalKeywords_nil (files : Files) (scope : Scope) (done : Keyed Operand) :
    evalKeywords files done [] scope = .ok (done, scope) := by
  rw [evalKeywords]
  rfl

/-- An argument given by name is put after those before it. -/
theorem evalKeywords_cons {files : Files} {scope : Scope} {done : Keyed Operand} {name : String}
    {e : Expr} {v : Operand} (h : eval files e scope = .ok (v, scope)) (rest : List (String × Expr)) :
    evalKeywords files done ((name, e) :: rest) scope =
      evalKeywords files (done.put name v) rest scope := by
  rw [evalKeywords, run_bind_of_ok h]

/-- A list of texts is what it was made from. -/
theorem asTexts?_ofTexts (texts : List String) : (Value.ofTexts texts).asTexts? = some texts := by
  change (texts.map Value.str).mapM Value.asText? = some texts
  induction texts with
  | nil => rfl
  | cons s rest ih => rw [List.map_cons, List.mapM_cons, ih]; rfl

/-- A list of texts is a list of labels. -/
theorem toLabels_ofTexts (texts : List String) :
    (Operand.scalar (.ofTexts texts)).toLabels = .ok texts := by
  have htexts := asTexts?_ofTexts texts
  unfold Value.ofTexts at htexts ⊢
  simp only [Operand.toLabels, htexts]

/-! ## Lines -/

section Lines

variable {files : Files} {scope : Scope} {name : String} {f : Frame}

/-- A dataframe is found under its name. -/
theorem lookup_of_frame? (h : scope.book.frame? name = some f) :
    scope.lookup name = .ok (.frame f) := by
  rw [Scope.lookup, h]

/-- The line that reads a file binds its name to the dataframe in the file. -/
theorem afterLine_readLine (hword : IsWord name.toList) (hname : name ∉ leadingWords) {path : String}
    {library : String} (hlookup : scope.lookup "pd" = .ok (.module library))
    (hfree : "pd" ∉ scope.book.names) (hread : Frame.readCsv files path = .ok f) :
    scope.afterLine files (Chunk.readLine name path).toList = some (scope.bind name (.frame f)) := by
  refine Scope.afterLine_of_some (v := none) (lineStatement?_readLine hword hname path) ?_
  have hkeeps : changedFrame? scope (.name "pd") "read_csv" ⟨[.scalar (.str path)], []⟩ = .ok none := by
    have hnone : scope.book.frame? "pd" = none := (Keyed.get?_eq_none_iff _ _).mpr hfree
    simp only [changedFrame?, hnone]
  refine exec_binding (evalAll_literals files scope [.str path]) (evalKeywords_nil files scope [])
    hlookup hkeeps ?_
  simp [callOn, moduleFunction, CallValues.scalar?, CallValues.get?, Value.asText?, hread, ofFrame, bind,
    Except.bind, Except.map]

/-- Only the library can read files. -/
theorem callOn_read_csv_error {v : Operand} (hv : ∀ library, v ≠ .module library) (args : CallValues) :
    ∃ e, callOn files "read_csv" args v = .error e := by
  cases v with
  | module library => exact absurd rfl (hv library)
  | frame f => exact ⟨_, rfl⟩
  | series cells => exact ⟨_, rfl⟩
  | scalar value => cases value <;> exact ⟨_, rfl⟩

/-- The line that reads a file fails where its name for the library means something else. -/
theorem afterLine_readLine_eq_none (hword : IsWord name.toList) (hname : name ∉ leadingWords)
    (path : String) (hlookup : ∀ library, scope.lookup "pd" ≠ .ok (.module library)) :
    scope.afterLine files (Chunk.readLine name path).toList = none := by
  have hkeeps : changedFrame? scope (.name "pd") "read_csv" ⟨[.scalar (.str path)], []⟩ = .ok none := by
    have hchanges : changesFrame "read_csv" ⟨[.scalar (.str path)], []⟩ = .ok false := by
      simp [changesFrame]
    cases hframe : scope.book.frame? "pd" <;>
      simp only [changedFrame?, hframe, hchanges, Except.map, Bool.false_eq_true, if_false]
  have hpositional : evalAll files [.literal (.str path)] scope = .ok ([.scalar (.str path)], scope) :=
    evalAll_literals files scope [.str path]
  have heval : ∃ e, eval files (.call (.member (.name "pd") "read_csv") [.literal (.str path)] [])
      scope = .error e := by
    rw [eval, run_bind_of_ok hpositional, run_bind_of_ok (evalKeywords_nil files scope []),
      run_get_bind, run_lift_bind_of_ok hkeeps]
    dsimp only
    cases hpd : scope.lookup "pd" with
    | error e =>
      refine ⟨e, run_bind_of_error ?_⟩
      rw [eval, run_get_bind]
      exact run_lift_of_error hpd
    | ok v =>
      obtain ⟨e, he⟩ := callOn_read_csv_error (fun library heq => hlookup library (heq ▸ hpd))
        ⟨[.scalar (.str path)], []⟩
      rw [run_bind_of_ok (eval_name files scope hpd)]
      exact ⟨e, run_lift_of_error he⟩
  obtain ⟨e, he⟩ := heval
  have hexec : exec files (.assign (.name name)
      (.call (.member (.name "pd") "read_csv") [.literal (.str path)] [])) scope = .error e := by
    rw [exec]
    exact run_bind_of_error he
  rw [Scope.afterLine, lineStatement?_readLine hword hname path]
  simp only [hexec]

/-- The line that copies a dataframe binds its name to the dataframe. -/
theorem afterLine_copyLine {copy : String} (hcopyWord : IsWord copy.toList)
    (hcopy : copy ∉ leadingWords) (hword : IsWord name.toList)
    (hname : name ∉ ["not", "True", "False", "None"]) (hframe : scope.book.frame? name = some f) :
    scope.afterLine files (copy ++ " = " ++ name ++ ".copy(deep=True)").toList =
      some (scope.bind copy (.frame f)) := by
  refine Scope.afterLine_of_some (v := none) (lineStatement?_copyLine hcopyWord hcopy hword hname) ?_
  have hnamed : evalKeywords files [] [("deep", .literal (.bool true))] scope =
      .ok ([("deep", .scalar (.bool true))], scope) := by
    rw [evalKeywords_cons (eval_literal files scope _), evalKeywords_nil]
    rfl
  have hchanges : changesFrame "copy" ⟨[], [("deep", .scalar (.bool true))]⟩ = .ok false := by
    simp [changesFrame]
  refine exec_binding (evalAll_literals files scope []) hnamed (lookup_of_frame? hframe) ?_ ?_
  · rw [List.map_nil]
    simp only [changedFrame?, hframe, hchanges, Except.map, Bool.false_eq_true, if_false]
  · rw [List.map_nil, callOn, hchanges]
    rfl

/-- The line that inserts a column of zeros. -/
theorem afterLine_insertLine (hword : IsWord name.toList) (hname : name ∉ leadingWords)
    {position : Nat} (hposition : position < 2 ^ 63) (hbound : position ≤ f.columns.length)
    {header : String} (hframe : scope.book.frame? name = some f) {changed : Frame}
    (hchange : (f.insert position header (List.replicate f.rows (Value.int 0))).made = .ok changed) :
    scope.afterLine files (name ++ ".insert(" ++ toString position ++ ", " ++ stringLiteral header
      ++ ", 0)").toList = some (scope.setFrame name changed) := by
  have hint : (Int64.ofInt position).toInt = position :=
    Int64.toInt_ofInt_of_le (by omega) (by omega)
  have hnot : ¬ (f.columns.length < position) := by omega
  have hneg : ¬ ((position : Int) < 0) := by omega
  rw [afterLine_change (evalAll_literals files scope [.int (Int64.ofInt position), .str header, .int 0])
    (evalKeywords_nil files scope []) (lineStatement?_insertLine hword hname hposition header) hframe
    (by simp [changesFrame])]
  simp only [changeFrame, if_true, insertColumn, CallValues.int?, CallValues.scalar?, CallValues.get?,
    CallValues.required, Operand.toLabel, Operand.toCells, List.map_cons, List.map_nil,
    List.getElem?_cons_zero, List.getElem?_cons_succ, bind, Except.bind, pure, Except.pure, hint,
    Int.toNat_natCast, Int.ofNat_lt, hchange, hnot, hneg, decide_false, Bool.or_self,
    Bool.false_eq_true, if_false, ofFrame, Except.toOption, Option.map_some]

/-- A dictionary of texts is a mapping of headers. -/
theorem newNames_texts (mapping : List (String × String)) :
    newNames (mapping.map fun entry => (entry.1, Value.str entry.2)) = .ok mapping := by
  induction mapping with
  | nil => rfl
  | cons entry rest ih => rw [List.map_cons, newNames, ih]; rfl

/-- The line that renames columns can be carried out exactly if the renaming can. -/
theorem afterLine_renameLine (hword : IsWord name.toList) (hname : name ∉ leadingWords)
    {mapping : Keyed String} (hne : mapping ≠ []) (distinct : mapping.keys.Nodup)
    (hframe : scope.book.frame? name = some f) :
    scope.afterLine files (name ++ ".rename(columns=" ++
      literal (.dict (mapping.map fun entry => (entry.1, .str entry.2))) ++ ", inplace=True)").toList =
      (f.rename mapping).made.toOption.map (scope.setFrame name) := by
  have hnamed : evalKeywords files [] [("columns", .dict (mapping.map fun entry =>
      (.literal (.str entry.1), .literal (.str entry.2)))), ("inplace", .literal (.bool true))] scope =
      .ok ([("columns", .scalar (.dict (mapping.map fun entry => (entry.1, .str entry.2)))),
        ("inplace", .scalar (.bool true))], scope) := by
    have hdict := eval_entries files scope (f := fun new => .literal (.str new)) (g := .str) distinct
      fun entry _ => eval_literal files scope (.str entry.2)
    rw [evalKeywords_cons hdict, evalKeywords_cons (eval_literal files scope _), evalKeywords_nil]
    rfl
  rw [afterLine_change (evalAll_literals files scope []) hnamed
    (lineStatement?_renameLine hword hname hne) hframe
    (by simp [changesFrame, CallValues.flag, Keyed.get?, truthy])]
  simp only [changeFrame, renameColumns, Keyed.get?, newNames_texts, bind, Except.bind, if_true,
    if_false, String.reduceEq]
  cases (f.rename mapping).made <;> rfl

/-- The line that drops columns. -/
theorem afterLine_dropLine (hword : IsWord name.toList) (hname : name ∉ leadingWords)
    {headers : List String} (hframe : scope.book.frame? name = some f) {changed : Frame}
    (hchange : dropAll f headers = .ok changed) :
    scope.afterLine files (name ++ ".drop(" ++ textListLiteral headers
      ++ ", axis=1, inplace=True)").toList = some (scope.setFrame name changed) := by
  have hpositional : evalAll files [.list (headers.map fun header => .literal (.str header))] scope =
      .ok ([.scalar (.ofTexts headers)], scope) := by
    have hlist := eval_items files scope (f := fun header => .literal (.str header)) (g := .str)
      fun header (_ : header ∈ headers) => eval_literal files scope (.str header)
    rw [evalAll, run_bind_of_ok hlist, evalAll]
    rfl
  have hnamed : evalKeywords files [] [("axis", .literal (.int 1)),
      ("inplace", .literal (.bool true))] scope =
      .ok ([("axis", .scalar (.int 1)), ("inplace", .scalar (.bool true))], scope) := by
    rw [evalKeywords_cons (eval_literal files scope _),
      evalKeywords_cons (eval_literal files scope _), evalKeywords_nil]
    rfl
  have hlabels : droppedLabels ⟨[.scalar (.ofTexts headers)],
      [("axis", .scalar (.int 1)), ("inplace", .scalar (.bool true))]⟩ =
      .ok (.scalar (.ofTexts headers)) := rfl
  rw [afterLine_change hpositional hnamed (lineStatement?_dropLine hword hname headers) hframe
    (by simp [changesFrame, CallValues.flag, Keyed.get?, truthy])]
  simp only [changeFrame, dropColumns, hlabels, toLabels_ofTexts, bind, Except.bind]
  simp [hchange, Except.toOption]

end Lines

end TableScript.Script
