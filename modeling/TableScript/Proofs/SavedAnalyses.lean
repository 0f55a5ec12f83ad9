import TableScript.CommandLine.Execution
import TableScript.Proofs.CsvTexts
import TableScript.Proofs.Replaying
import TableScript.Proofs.SavedFiles

/-!
# Saved analyses

Code that is carried out can be saved as an analysis, and analyses are loaded from files. The format of a
file is chosen twice: by the writer, from the extension of the path or else from the configuration, and by
the reader, from the extension alone. The bytes are always read as they were written (`Files.read_save`), so
the analysis comes back wherever the two formats are the same. They are, except where the configuration
decides and names another format than YAML (`format_eq_readingFormat_iff`); a file that is saved there is
read as what it is not (`load_of_runExec`).
-/

namespace TableScript

/-- The text that was saved is the one that is read. -/
theorem Text.decodeUtf8_encodeUtf8 (s : String) : decodeUtf8 (encodeUtf8 s) = .ok s := by
  rw [encodeUtf8, decodeUtf8_encode, String.ofList_toList]

namespace CommandLine

/-! ## Commands that succeed -/

/-- Carried out on a console, it succeeds with a result and leaves the other console. -/
def Performs {α : Type} (x : Running α) (before : Console) (a : α) (after : Console) : Prop :=
  (x.run.run before).run = (.ok a, after)

section Inversion

variable {α β : Type} {before after : Console}

/-- A result is performed where it stands. -/
theorem performs_pure_iff {a b : α} : Performs (pure a) before b after ↔ a = b ∧ before = after := by
  change (Except.ok a, before) = (Except.ok b, after) ↔ _
  rw [Prod.mk.injEq, Except.ok.injEq]

/-- Two commands in sequence run one after the other, up to a failure. -/
theorem run_bind (x : Running α) (f : α → Running β) (before : Console) :
    ((x >>= f).run.run before).run = match (x.run.run before).run with
      | (.ok a, between) => ((f a).run.run between).run
      | (.error report, between) => (.error report, between) := by
  rw [ExceptT.run_bind, StateT.run_bind, Id.run_bind]
  rcases (x.run.run before).run with ⟨report | a, between⟩ <;> rfl

/-- Two commands in sequence are performed exactly if the first is, and the second from where that came to.
-/
theorem performs_bind_iff {x : Running α} {f : α → Running β} {b : β} :
    Performs (x >>= f) before b after ↔
      ∃ a between, Performs x before a between ∧ Performs (f a) between b after := by
  unfold Performs
  rw [run_bind]
  rcases (x.run.run before).run with ⟨report | a, between⟩
  · simp
  · simp only [Prod.mk.injEq, Except.ok.injEq]
    constructor
    · intro h
      exact ⟨a, between, ⟨rfl, rfl⟩, h⟩
    · rintro ⟨_, _, ⟨rfl, rfl⟩, h⟩
      exact h

/-- Asking for the console gives it. -/
theorem performs_get_iff {console : Console} :
    Performs get before console after ↔ before = console ∧ before = after := by
  change (Except.ok before, before) = (Except.ok console, after) ↔ _
  rw [Prod.mk.injEq, Except.ok.injEq]

/-- Changing the console changes it. -/
theorem performs_modify_iff {f : Console → Console} {u : Unit} :
    Performs (modify f) before u after ↔ f before = after := by
  change (Except.ok (), f before) = (Except.ok u, after) ↔ _
  simp

/-- An outcome that is expected fails with its report, and leaves the console as it is. -/
theorem run_expecting {ε : Type} (report : ε → Report) (outcome : Except ε α) (console : Console) :
    ((expecting report outcome).run.run console).run = (outcome.mapError report, console) := by
  cases outcome <;> rfl

/-- It is performed exactly if the outcome is a success. -/
theorem performs_expecting_iff {ε : Type} {report : ε → Report} {outcome : Except ε α} {a : α} :
    Performs (expecting report outcome) before a after ↔ outcome = .ok a ∧ before = after := by
  rw [Performs, run_expecting]
  cases outcome <;> simp [Except.mapError]

end Inversion

section Effects

variable {before after : Console} {u : Unit}

/-- Printing a line puts it after those printed before. -/
theorem performs_printLine_iff {line : String} : Performs (printLine line) before u after ↔
    { before with printed := before.printed ++ (line ++ "\n") } = after :=
  performs_modify_iff

/-- Saving a file is performed exactly if the file can be saved. -/
theorem performs_saveFile_iff {context path : String} {bytes : List UInt8} :
    Performs (saveFile context path bytes) before u after ↔
      ∃ files, before.files.save path bytes = .ok files ∧ { before with files } = after := by
  simp only [saveFile, performs_bind_iff, performs_get_iff, performs_expecting_iff, performs_modify_iff]
  constructor
  · rintro ⟨_, _, ⟨rfl, rfl⟩, files, _, ⟨hsave, rfl⟩, rfl⟩
    exact ⟨files, hsave, rfl⟩
  · rintro ⟨files, hsave, rfl⟩
    exact ⟨before, before, ⟨rfl, rfl⟩, files, before, ⟨hsave, rfl⟩, rfl⟩

/-- A failure is not performed. -/
theorem not_performs_fail {α : Type} {message : String} {a : α} :
    ¬ Performs (fail message) before a after := by
  intro h
  cases h

/-- The code that an argument means is only read. -/
theorem console_of_codeOf {argument code : String} (h : Performs (codeOf argument) before code after) :
    before = after := by
  unfold codeOf at h
  split at h
  case h_1 =>
    simp only [performs_bind_iff, performs_get_iff, performs_expecting_iff] at h
    obtain ⟨_, _, ⟨rfl, rfl⟩, bytes, _, ⟨-, rfl⟩, h⟩ := h
    split at h
    case h_1 => exact (performs_pure_iff.mp h).2
    case h_2 => cases h
  case h_2 => exact (performs_pure_iff.mp h).2

/-- Data is only read. -/
theorem console_of_loadInputs {book : Workbook} {sources : List (String × String)} {arguments : List String}
    {inputs : Workbook × List (String × String)}
    (h : Performs (loadInputs book sources arguments) before inputs after) : before = after := by
  induction arguments generalizing book sources with
  | nil => exact (performs_pure_iff.mp h).2
  | cons argument rest ih =>
    simp only [loadInputs, performs_bind_iff, performs_get_iff] at h
    obtain ⟨_, _, ⟨rfl, rfl⟩, h⟩ := h
    split at h
    case isTrue =>
      obtain ⟨_, _, hfail, -⟩ := performs_bind_iff.mp h
      exact absurd hfail not_performs_fail
    case isFalse =>
      simp only [performs_bind_iff, performs_expecting_iff] at h
      obtain ⟨frame, _, ⟨-, rfl⟩, h⟩ := h
      exact ih h

end Effects

end CommandLine

/-! ## The log as an analysis -/

/-- Applying a step puts it at the end of the analysis. -/
theorem Pipeline.toAnalysis_of_apply {files : Files} {p q : Pipeline} {kind : Step.StepKind} {params : Params}
    {record : StepRecord} (h : p.apply files kind.typeName params = (.ok record, q)) (name : String) :
    q.toAnalysis name =
      ⟨name, (p.toAnalysis name).steps ++ [⟨kind.typeName, kind.version, params⟩]⟩ := by
  obtain ⟨found, hfound, happlied, rfl⟩ := apply_eq_ok_iff.mp h
  obtain ⟨performed, -, rfl⟩ := runStep_eq_ok_iff.mp happlied
  rw [Step.StepKind.typeName_injective (Registry.typeName_of_find? hfound)]
  simp [toAnalysis, append, savedStep, StepRecord.ofPerformed]

namespace CommandLine

/-! ## Carrying out and saving code -/

/-- What carrying out code as one step gets as parameters. -/
def codeParams (prompt code : String) : Params :=
  [("user_input", .str prompt), ("edited_completion", .str code)]

/-- The code that an argument means is carried out as one step on data: what the step recorded, and the
pipeline that has it as its only step. -/
def Executed (registry : Registry) (argument : String) (data : List String) (prompt : String)
    (console : Console) (code : String) (record : StepRecord) (p : Pipeline) : Prop :=
  Performs (codeOf argument) console code console ∧ ∃ book sources,
    Performs (loadInputs Workbook.empty [] data) console (book, sources) console ∧
    Pipeline.apply console.files ((Pipeline.new registry book).withSources sources)
      Step.StepKind.aiTransformation.typeName (codeParams prompt code) = (.ok record, p)

/-- An analysis is saved under a path, as a text of the format that is chosen for it. -/
structure SavedAs (config : Config) (path : String) (analysis : Analysis) (format : AnalysisFormat)
    (text : String) (files saved : Files) : Prop where
  chosen : AnalysisFormat.ofName? (savingFormat config path) = some format
  written : analysis.text? format = some text
  saved : files.save path (Text.encodeUtf8 text) = .ok saved

section Saving

variable {registry : Registry} {config : Config} {v : Verbosity} {argument path prompt code text : String}
  {data : List String} {outDir : Option String} {before after console : Console} {u : Unit} {p : Pipeline}
  {record : StepRecord} {analysis : Analysis} {format : AnalysisFormat} {files saved : Files}

/-- The analysis of an executed script is its one step. -/
theorem Executed.toAnalysis (h : Executed registry argument data prompt console code record p) (name : String) :
    p.toAnalysis name = ⟨name, [⟨Step.StepKind.aiTransformation.typeName,
      Step.StepKind.aiTransformation.version, codeParams prompt code⟩]⟩ := by
  obtain ⟨-, book, sources, -, happly⟩ := h
  exact Pipeline.toAnalysis_of_apply happly name

/-- An analysis is written exactly if the name is that of a format and it has a text in it. -/
theorem writeAs_eq_ok_iff {name : String} : analysis.writeAs name = .ok text ↔
    ∃ format, AnalysisFormat.ofName? name = some format ∧ analysis.text? format = some text := by
  unfold Analysis.writeAs Analysis.formatOf
  cases AnalysisFormat.ofName? name with
  | none => simp [Except.bind]
  | some format =>
    simp only [Except.bind, Analysis.write, Option.some.injEq, exists_eq_left']
    cases analysis.text? format <;> simp

/-- Saving an analysis is performed exactly if it is saved in the format that the path or the configuration
says. -/
theorem performs_saveAnalysis_iff : Performs (saveAnalysis config p path) before u after ↔
    ∃ format text saved, SavedAs config path (p.toAnalysis (savedName path)) format text before.files saved ∧
      { before with files := saved } = after := by
  simp only [saveAnalysis, performs_bind_iff, performs_expecting_iff, performs_saveFile_iff, writeAs_eq_ok_iff]
  constructor
  · rintro ⟨text, _, ⟨⟨format, hformat, htext⟩, rfl⟩, saved, hsave, rfl⟩
    exact ⟨format, text, saved, ⟨hformat, htext, hsave⟩, rfl⟩
  · rintro ⟨format, text, saved, ⟨hformat, htext, hsave⟩, rfl⟩
    exact ⟨text, before, ⟨⟨format, hformat, htext⟩, rfl⟩, saved, hsave, rfl⟩

/-- Code that is carried out and saved succeeds stage by stage. -/
theorem performs_runExec_iff :
    Performs (runExec registry config v argument data prompt (some path) outDir) before u after ↔
      ∃ code record p format text saved, Executed registry argument data prompt before code record p ∧
        SavedAs config path (p.toAnalysis (savedName path)) format text before.files saved ∧
        Performs (saveOutputs v outDir p.book)
          ⟨saved, before.printed ++ ((stepReport record p).sorted.pretty ++ "\n")⟩ u after := by
  simp only [runExec, performs_bind_iff, performs_get_iff, performs_expecting_iff, performs_printLine_iff,
    performs_saveAnalysis_iff]
  constructor
  · rintro ⟨code, _, hcode, ⟨book, sources⟩, _, hinputs, h⟩
    obtain rfl := console_of_codeOf hcode
    obtain rfl := console_of_loadInputs hinputs
    obtain ⟨_, _, ⟨rfl, rfl⟩, record, _, ⟨happly, rfl⟩, _, _, rfl, _, _, hsaved, houtputs⟩ := h
    obtain ⟨format, text, saved, hsaved, rfl⟩ := hsaved
    have hexecuted : Executed registry argument data prompt before code record _ :=
      ⟨hcode, book, sources, hinputs, Prod.ext happly rfl⟩
    exact ⟨code, record, _, format, text, saved, hexecuted, hsaved, houtputs⟩
  · rintro ⟨code, record, p, format, text, saved, ⟨hcode, book, sources, hinputs, happly⟩, hsaved, houtputs⟩
    obtain rfl : (Pipeline.apply before.files ((Pipeline.new registry book).withSources sources)
        Step.StepKind.aiTransformation.typeName (codeParams prompt code)).2 = p := congrArg Prod.snd happly
    exact ⟨code, before, hcode, (book, sources), before, hinputs, before, before, ⟨rfl, rfl⟩, record, before,
      ⟨congrArg Prod.fst happly, rfl⟩, (), _, rfl, (), _, ⟨format, text, saved, hsaved, rfl⟩, houtputs⟩

end Saving

/-! ## The two choices of a format -/

/-- The name of a format is understood as that format. -/
@[simp] theorem ofName?_name (format : AnalysisFormat) : AnalysisFormat.ofName? format.name = some format := by
  cases format <;> decide

/-- Two names are understood as YAML. -/
theorem ofName?_eq_yaml_iff {name : String} :
    AnalysisFormat.ofName? name = some .yaml ↔ name = "yaml" ∨ name = "yml" := by
  constructor
  · intro h
    unfold AnalysisFormat.ofName? at h
    split at h
    case isTrue => cases h
    case isFalse =>
      split at h
      case isTrue hname => simpa using hname
      case isFalse => split at h <;> cases h
  · rintro (rfl | rfl) <;> decide

/-- Writer and reader choose the same format, unless it is left to the configuration and this one names another
than YAML. -/
theorem format_eq_readingFormat_iff {config : Config} {path : String} {format : AnalysisFormat}
    (h : AnalysisFormat.ofName? (savingFormat config path) = some format) :
    format = Analysis.readingFormat (some path) ↔
      (AnalysisFormat.ofPath? path).isSome ∨ config.analysisFormat ∈ [none, some "yaml", some "yml"] := by
  unfold savingFormat at h
  unfold Analysis.readingFormat
  rw [Option.bind_some]
  cases hpath : AnalysisFormat.ofPath? path with
  | some known =>
    rw [hpath, ofName?_name] at h
    cases h
    simp
  | none =>
    rw [hpath] at h
    cases hconfig : config.analysisFormat with
    | none =>
      rw [hconfig] at h
      cases (ofName?_name .yaml).symm.trans h
      simp
    | some name =>
      rw [hconfig, Option.getD_some] at h
      rw [← Option.some.injEq, ← h, Option.getD_none, ofName?_eq_yaml_iff]
      simp

/-! ## Loading what was saved -/

/-- Texts of the analysis in the format say the analysis again. -/
def RoundTrips (analysis : Analysis) (format : AnalysisFormat) : Prop :=
  ∀ text, analysis.text? format = some text → Analysis.ofText? text format = some analysis

/-- What comes of loading a file whose text says an analysis, or none. -/
def loaded (path : String) : Option Analysis → Except Report Analysis
  | some analysis => .ok analysis
  | none => .error (.within ("Failed to parse analysis '" ++ path ++ "'") AnalysisError.unreadable.message [])

/-- Bytes of a text are read as an analysis exactly if the text is one. -/
theorem read_encodeUtf8 (text : String) (format : AnalysisFormat) :
    Analysis.read format (Text.encodeUtf8 text) = match Analysis.ofText? text format with
      | some analysis => .ok analysis
      | none => .error .unreadable := by
  cases htext : Analysis.ofText? text format <;> simp [Analysis.read, Text.decodeUtf8_encodeUtf8, htext]

/-- A file is loaded as what its text says in the format that its extension names. -/
theorem run_loadAnalysis {console : Console} {path text : String}
    (h : console.files.read path = .ok (Text.encodeUtf8 text)) :
    ((loadAnalysis path).run.run console).run =
      (loaded path (Analysis.ofText? text (Analysis.readingFormat (some path))), console) := by
  have hget : ((get : Running Console).run.run console).run = (.ok console, console) := rfl
  rw [loadAnalysis, run_bind, hget]
  dsimp only
  rw [run_bind, run_expecting, h]
  simp only [Except.mapError, run_expecting, read_encodeUtf8]
  cases Analysis.ofText? text (Analysis.readingFormat (some path)) <;> rfl

/-! ## An assignment under a path without an extension -/

/-- A path that is one name. -/
theorem splitPath_a : Files.splitPath "a" = ["a"] := by
  -- the splitting is by well-founded recursion: at the only character, and at the end
  rw [Files.splitPath, String.splitOn]
  unfold String.splitOnAux
  unfold String.splitOnAux
  decide +kernel

/-- Its name says nothing about a format. -/
theorem ofPath?_a : AnalysisFormat.ofPath? "a" = none := by
  rw [AnalysisFormat.ofPath?, Files.extension?, Files.lastName?, Files.pathNames, splitPath_a]
  decide +kernel

/-- It is saved under its own name. -/
theorem savedName_a : savedName "a" = "a" := by
  rw [savedName, Files.stem?, Files.lastName?, Files.pathNames, splitPath_a]
  decide +kernel

/-- An assignment, as an analysis. -/
def assignment : Analysis := ⟨"a", [⟨"ai_transformation", 1, codeParams "exec" "x = 1"⟩]⟩

/-- The assignment in TOML. -/
def assignmentToml : String :=
  "name = \"a\"\n\n[[steps]]\nstep_type = \"ai_transformation\"\nstep_version = 1\n\n[steps.params]\n" ++
    "user_input = \"exec\"\nedited_completion = \"x = 1\"\n"

/-- The assignment in YAML. -/
def assignmentYaml : String :=
  "name: a\nsteps:\n- step_type: ai_transformation\n  step_version: 1\n  params:\n" ++
    "    user_input: exec\n    edited_completion: x = 1\n"

/-- An analysis is that of the assignment. -/
def isAssignment : Analysis → Bool
  | ⟨name, [⟨stepType, version, [(first, .str prompt), (second, .str code)]⟩]⟩ =>
    (name, stepType, version) == ("a", "ai_transformation", 1) &&
      [(first, prompt), (second, code)] == [("user_input", "exec"), ("edited_completion", "x = 1")]
  | _ => false

/-- An analysis that passes the test is the assignment. -/
theorem eq_assignment {analysis : Analysis} (h : isAssignment analysis = true) : analysis = assignment := by
  unfold isAssignment at h
  split at h
  case h_1 =>
    simp only [Bool.and_eq_true, beq_iff_eq, Prod.mk.injEq, List.cons.injEq, and_true] at h
    obtain ⟨⟨rfl, rfl, rfl⟩, ⟨rfl, rfl⟩, rfl, rfl⟩ := h
    rfl
  case h_2 => cases h

set_option maxRecDepth 5000 in
/-- The text that was saved is read back. -/
theorem ofText?_assignmentYaml : Analysis.ofText? assignmentYaml .yaml = some assignment := by
  have hread : (Analysis.ofText? assignmentYaml .yaml).any isAssignment = true := by decide +kernel
  obtain ⟨analysis, htext, hassignment⟩ := (Option.any_eq_true _ _).mp hread
  rw [htext, eq_assignment hassignment]

/-- Carrying out an assignment and saving it succeeds, in whatever format it can be written. -/
theorem exists_performs_assignment {config : Config} {format : AnalysisFormat} {text : String}
    (hchosen : AnalysisFormat.ofName? (savingFormat config "a") = some format)
    (hwritten : assignment.text? format = some text) :
    ∃ after,
      Performs (runExec .standard config ⟨true⟩ "x = 1" [] "exec" (some "a") none) ⟨[], ""⟩ () after := by
  let p := (Pipeline.new .standard Workbook.empty).withSources []
  obtain ⟨record, hrecord, -⟩ : ∃ record ∈ (p.apply [] Step.StepKind.aiTransformation.typeName
      (codeParams "exec" "x = 1")).1.toOption, record.kind = .aiTransformation := by decide +kernel
  have hexecuted : Executed .standard "x = 1" [] "exec" ⟨[], ""⟩ "x = 1" record (p.append record) :=
    ⟨rfl, Workbook.empty, [], rfl, Pipeline.apply_eq_of_mem hrecord⟩
  have hsave : Files.save [] "a" (Text.encodeUtf8 text) = .ok [("a", .file (Text.encodeUtf8 text))] := by
    have hsize : "a".utf8ByteSize = 1 := by decide +kernel
    simp [Files.save, Files.node?, splitPath_a, Files.settle, Files.walk, hsize, Keyed.get?, Files.putAt,
      Keyed.put]
  have hsaved : SavedAs config "a" ((p.append record).toAnalysis (savedName "a")) format text []
      [("a", .file (Text.encodeUtf8 text))] := by
    rw [hexecuted.toAnalysis, savedName_a]
    exact ⟨hchosen, hwritten, hsave⟩
  exact ⟨_, performs_runExec_iff.mpr ⟨_, record, _, format, text, _, hexecuted, hsaved, rfl⟩⟩

/-! ## What is loaded -/

/-- Code that is carried out and saved under a path leaves a file there that is read as it was written. It is
loaded as what its text says in the format of the reader, which is the format of the writer except where the
configuration decides and names another than YAML. Where the formats are the same, and the analysis comes
back from its text in this format, the analysis of the code is loaded. -/
theorem load_of_runExec (registry : Registry) (config : Config) (v : Verbosity) (argument : String)
    (data : List String) (prompt path : String) (outDir : Option String) (before after : Console)
    (h : Performs (runExec registry config v argument data prompt (some path) outDir) before () after) :
    ∃ code record p format text saved, Executed registry argument data prompt before code record p ∧
      SavedAs config path (p.toAnalysis (savedName path)) format text before.files saved ∧
      saved.read path = .ok (Text.encodeUtf8 text) ∧ (outDir = none → after.files = saved) ∧
      (format = Analysis.readingFormat (some path) ↔
        (AnalysisFormat.ofPath? path).isSome ∨ config.analysisFormat ∈ [none, some "yaml", some "yml"]) ∧
      ∀ console : Console, console.files.read path = .ok (Text.encodeUtf8 text) →
        ((loadAnalysis path).run.run console).run =
          (loaded path (Analysis.ofText? text (Analysis.readingFormat (some path))), console) ∧
        (format = Analysis.readingFormat (some path) → RoundTrips (p.toAnalysis (savedName path)) format →
          Performs (loadAnalysis path) console (p.toAnalysis (savedName path)) console) := by
  obtain ⟨code, record, p, format, text, saved, hexecuted, hsaved, houtputs⟩ := performs_runExec_iff.mp h
  refine ⟨code, record, p, format, text, saved, hexecuted, hsaved, Files.read_save hsaved.saved, ?_,
    format_eq_readingFormat_iff hsaved.chosen, ?_⟩
  · rintro rfl
    obtain ⟨-, rfl⟩ := performs_pure_iff.mp houtputs
    rfl
  · intro console hread
    refine ⟨run_loadAnalysis hread, ?_⟩
    intro hformat htrips
    have hload := run_loadAnalysis hread
    rw [← hformat, htrips text hsaved.written] at hload
    exact hload

/-- With TOML in the configuration, the assignment is saved under `a` and cannot be loaded from there. With
nothing in the configuration it is loaded again. -/
theorem load_of_runExec_assignment :
    let exec := fun name =>
      runExec .standard ⟨false, false, none, name⟩ ⟨true⟩ "x = 1" [] "exec" (some "a") none
    (∃ after, Performs (exec (some "toml")) ⟨[], ""⟩ () after ∧ ((loadAnalysis "a").run.run after).run =
      (.error ⟨"Failed to parse analysis 'a'", ["failed to parse analysis: "]⟩, after)) ∧
    ∃ after, Performs (exec none) ⟨[], ""⟩ () after ∧ Performs (loadAnalysis "a") after assignment after := by
  intro exec
  have hreading : Analysis.readingFormat (some "a") = .yaml := by
    rw [Analysis.readingFormat, Option.bind_some, ofPath?_a]
    rfl
  -- for either setting: what was saved, and what loading it gives
  have hexec : ∀ (name : Option String) {format : AnalysisFormat} {text : String},
      AnalysisFormat.ofName? (savingFormat ⟨false, false, none, name⟩ "a") = some format →
      assignment.text? format = some text →
      ∃ after, Performs (exec name) ⟨[], ""⟩ () after ∧
        ((loadAnalysis "a").run.run after).run = (loaded "a" (Analysis.ofText? text .yaml), after) ∧
        (format = .yaml → RoundTrips assignment format → Performs (loadAnalysis "a") after assignment after) := by
    intro name format text hchosen hwritten
    obtain ⟨after, hafter⟩ := exists_performs_assignment hchosen hwritten
    obtain ⟨code, record, p, format', text', saved, hexecuted, hsaved, hread, hfiles, -, hload⟩ :=
      load_of_runExec .standard _ _ _ _ _ _ _ _ _ hafter
    obtain ⟨hcode, -⟩ := performs_pure_iff.mp hexecuted.1
    have hlog : p.toAnalysis (savedName "a") = assignment := by
      rw [hexecuted.toAnalysis, savedName_a, ← hcode]
      rfl
    rw [hlog] at hsaved hload
    cases hsaved.chosen.symm.trans hchosen
    cases hsaved.written.symm.trans hwritten
    rw [← hfiles rfl] at hread
    rw [hreading] at hload
    exact ⟨after, hafter, hload after hread⟩
  constructor
  · have hwritten : assignment.text? .toml = some assignmentToml := by decide +kernel
    obtain ⟨after, hafter, hload, -⟩ := hexec (some "toml") (by rw [savingFormat, ofPath?_a]; rfl) hwritten
    have hnone : (Analysis.ofText? assignmentToml .yaml).isNone = true := by decide +kernel
    exact ⟨after, hafter, by rw [hload, Option.isNone_iff_eq_none.mp hnone]; rfl⟩
  · have hwritten : assignment.text? .yaml = some assignmentYaml := by decide +kernel
    obtain ⟨after, hafter, -, hload⟩ := hexec none (by rw [savingFormat, ofPath?_a]; rfl) hwritten
    refine ⟨after, hafter, hload rfl ?_⟩
    intro text htext
    obtain rfl := Option.some.inj (hwritten.symm.trans htext)
    exact ofText?_assignmentYaml

end CommandLine

end TableScript
