import TableScript.Proofs.Transitions

/-!
# The names that steps give

A dataframe that an import or a copy brings in gets a name of its own, and everything that the workbook
held stays where it was (`generated_names_are_fresh`). The name can be used in every script: it is one
name to the reader of lines, it is none of the words of the language, and whatever expression is written
after it is assigned to it.

That the search for a name ends is a matter of counting (`Workbook.freshName_spec`), and that it ends with
a usable name one of characters (`asciiWord_usableName`). An import goes through its files in order, so each
name is searched for among the names of the dataframes before it, those of the same import included
(`importAll_eq_ok_iff`).
-/

namespace TableScript

open Script Step

/-- The name can be given to anything in a script. -/
structure Assignable (name : String) : Prop where
  token : tokens name.toList = .ok [.name name]
  unreserved : name ∉ reservedNames
  /-- The name, an equals sign and any expression are read as an assignment to the name. -/
  assigned {text : String} {ts : List Token} {e : Expr} (htokens : tokens text.toList = .ok ts)
    (hexpression : expression ts = .ok (e, [])) :
    lineStatement? (name ++ " = " ++ text).toList = .ok (some (.assign (.name name) e))

/-- A word that is not taken by the language can be given to anything. -/
theorem assignable_of_plain {name : String} (h : Plain name) (hfree : name ∉ reservedNames) :
    Assignable name where
  token := h.token
  unreserved := hfree
  assigned {text ts e} htokens hexpression := by
    rw [String.toList_append, String.toList_append, List.append_assoc]
    exact lineStatement?_binding h.leads htokens hexpression

/-! ## Imports -/

/-- Dataframes that were read from files, each under the first free name for its file among the names of
those before it. -/
structure Arrivals (files : Files) (w : Workbook) (paths : List String) (entries : Keyed Frame) : Prop
    extends Chunk.Imported files w paths entries where
  named (i : Nat) (hi : i < paths.length) : entries.keys[i]? =
    some (Workbook.freshName ⟨w.frames ++ entries.take i⟩ (importName paths[i]))

variable {files : Files} {w post : Workbook} {paths : List String} {entries : Keyed Frame}

/-- The names that an import gives. -/
theorem named_of_importAll (h : importAll files w paths = .ok ⟨w.frames ++ entries⟩) (i : Nat)
    (hi : i < paths.length) : entries.keys[i]? =
      some (Workbook.freshName ⟨w.frames ++ entries.take i⟩ (importName paths[i])) := by
  induction paths generalizing w entries i with
  | nil => cases hi
  | cons path rest ih =>
    obtain ⟨f, -, hrest⟩ := Chunk.importAll_cons_eq_ok_iff.mp h
    obtain ⟨later, -, hlater⟩ := Chunk.imported_of_importAll hrest
    -- the first of the new dataframes is the one that was read first
    obtain rfl : entries = (w.freshName (importName path), f) :: later := by
      have hframes := congrArg Workbook.frames hlater
      rwa [List.append_assoc, List.append_cancel_left_eq, List.singleton_append] at hframes
    rw [hlater] at hrest
    cases i with
    | zero => simp
    | succ i =>
      have hnamed := ih hrest i (Nat.lt_of_succ_lt_succ hi)
      rwa [List.append_assoc, List.singleton_append] at hnamed

/-- Files that were read one after the other under such names are an import. -/
theorem importAll_of_named
    (hread : List.Forall₂ (fun path entry => Frame.readCsv files path = .ok entry.2) paths entries)
    (hnamed : ∀ i (hi : i < paths.length), entries.keys[i]? =
      some (Workbook.freshName ⟨w.frames ++ entries.take i⟩ (importName paths[i]))) :
    importAll files w paths = .ok ⟨w.frames ++ entries⟩ := by
  induction hread generalizing w with
  | nil => rw [List.append_nil, importAll]
  | @cons path entry paths entries hfirst _ ih =>
    obtain ⟨name, f⟩ := entry
    have hname : name = w.freshName (importName path) := by
      simpa using hnamed 0 (Nat.zero_lt_succ _)
    subst hname
    refine Chunk.importAll_cons_eq_ok_iff.mpr ⟨f, hfirst, ?_⟩
    rw [ih fun i hi => ?_, List.append_assoc, List.singleton_append]
    rw [List.append_assoc, List.singleton_append]
    exact hnamed (i + 1) (Nat.succ_lt_succ hi)

/-- Importing files is putting their dataframes at the end under such names. -/
theorem importAll_eq_ok_iff : importAll files w paths = .ok post ↔
    ∃ entries, Arrivals files w paths entries ∧ post = ⟨w.frames ++ entries⟩ := by
  constructor
  · intro h
    obtain ⟨entries, himported, rfl⟩ := Chunk.imported_of_importAll h
    exact ⟨entries, ⟨himported, named_of_importAll h⟩, rfl⟩
  · rintro ⟨entries, harrivals, rfl⟩
    exact importAll_of_named harrivals.read harrivals.named

/-! ## Steps -/

/-- An import appends a dataframe for each file, under the names of its arrivals. -/
theorem importFiles_eq_ok_iff {params : Params} {performed : Performed} :
    importFiles files w params = .ok performed ↔ ∃ paths entries,
      requireTexts params "file_names" = .ok paths ∧ Arrivals files w paths entries ∧
      performed = ⟨⟨w.frames ++ entries⟩, none⟩ := by
  constructor
  · intro h
    obtain ⟨paths, hpaths, h⟩ := except_bind_eq_ok.mp h
    obtain ⟨post, himport, h⟩ := except_bind_eq_ok.mp h
    obtain ⟨entries, harrivals, rfl⟩ := importAll_eq_ok_iff.mp himport
    cases h
    exact ⟨paths, entries, hpaths, harrivals, rfl⟩
  · rintro ⟨paths, entries, hpaths, harrivals, rfl⟩
    have himport := importAll_eq_ok_iff.mpr ⟨entries, harrivals, rfl⟩
    exact except_bind_eq_ok.mpr ⟨paths, hpaths, except_bind_eq_ok.mpr ⟨_, himport, rfl⟩⟩

/-- A duplicate is appended under a fresh name. -/
theorem duplicate_eq_ok_iff {params : Params} {performed : Performed} :
    duplicate w params = .ok performed ↔ ∃ sheet, requireSheet w params = .ok sheet ∧
      performed = ⟨⟨w.frames ++ [(w.freshName (sheet.name ++ "_copy"), sheet.frame)]⟩, none⟩ := by
  constructor
  · intro h
    obtain ⟨sheet, hsheet, h⟩ := except_bind_eq_ok.mp h
    rw [w.insert_freshName] at h
    cases h
    exact ⟨sheet, hsheet, rfl⟩
  · rintro ⟨sheet, hsheet, rfl⟩
    rw [← w.insert_freshName]
    exact except_bind_eq_ok.mpr ⟨sheet, hsheet, rfl⟩

/-- The names that steps make from texts are free and usable, the search for a free name gives the first
of its candidates, and the steps that use it leave the dataframes that there are and put theirs after
them, in order. -/
theorem generated_names_are_fresh (files : Files) (w : Workbook) (raw : String) (params : Params)
    (performed : Performed) :
    usableName (usableName raw) = usableName raw ∧
    w.freshName (usableName raw) ∉ w.names ∧ Assignable (w.freshName (usableName raw)) ∧
    (∀ base, w.FirstFree base (w.freshName base)) ∧
    (StepKind.simpleImport.perform files w params = .ok performed ↔ ∃ paths entries,
      requireTexts params "file_names" = .ok paths ∧ Arrivals files w paths entries ∧
      performed = ⟨⟨w.frames ++ entries⟩, none⟩) ∧
    (StepKind.dataframeDuplicate.perform files w params = .ok performed ↔ ∃ sheet,
      requireSheet w params = .ok sheet ∧
      performed = ⟨⟨w.frames ++ [(w.freshName (sheet.name ++ "_copy"), sheet.frame)]⟩, none⟩) := by
  obtain ⟨hword, hfree⟩ := asciiWord_usableName raw
  have hassignable : Assignable (w.freshName (usableName raw)) :=
    assignable_of_plain (w.plain_freshName (plain_usableName raw)) (w.freshName_not_mem_reservedNames hfree)
  exact ⟨usableName_eq_self hword hfree, w.freshName_not_mem _, hassignable, w.freshName_spec,
    importFiles_eq_ok_iff, duplicate_eq_ok_iff⟩

/-- Numbers that are taken are left out, and a word of the language is no name. -/
example : (⟨[("sales", default), ("sales_1", default), ("sales_3", default)]⟩ : Workbook).freshName "sales" =
      "sales_2" ∧ usableName "2024 sales" = "df_2024_sales" ∧ usableName "pd" = "pd_df" := by decide

end TableScript
