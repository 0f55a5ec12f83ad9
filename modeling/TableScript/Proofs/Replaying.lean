import TableScript.Proofs.Logs

/-!
# Carrying out steps again

A step of a log is carried out again by the performer that the registry has for it, on the workbook that
the steps before it have left (`StepRecord.redo`). A replay succeeds exactly if all steps can be carried
out again one after the other, and it fails at the first that cannot (`replayFrom_eq_ok_iff`,
`replayFrom_eq_error_iff`).

What an operation can do to a pipeline is said once (`Pipeline.Moves`), and what holds whatever is done
to it is read off from that: its records are a log and its chunks those of the log
(`Pipeline.Reachable.kept`), a record's kind is the one that the registry has under its name, and its
step, carried out again on the workbook before it, gives this very record (`Pipeline.Reachable.genuine`).
-/

namespace TableScript

open Step

/-! ## The registry -/

/-- Kinds of steps have different names. -/
theorem Step.StepKind.typeName_injective : Function.Injective StepKind.typeName := by
  intro a b h
  cases a <;> cases b <;> first | rfl | exact absurd h (by decide)

/-- What the registry has under a name has that name. -/
theorem Registry.typeName_of_find? {registry : Registry} {typeName : String} {kind : StepKind}
    (h : registry.find? typeName = some kind) : kind.typeName = typeName := by
  have hfound := List.find?_some h
  exact of_decide_eq_true hfound

/-! ## One step -/

/-- Carry out a step of a log again, on some workbook. -/
def StepRecord.redo (files : Files) (registry : Registry) (book : Workbook) (record : StepRecord) :
    Except PipelineError StepRecord :=
  match registry.find? record.kind.typeName with
  | none => .error (.unknownStepType record.kind.typeName)
  | some kind => runStep files kind record.id book record.params

/-- The registry has the record's kind. -/
def StepRecord.Known (registry : Registry) (record : StepRecord) : Prop :=
  registry.find? record.kind.typeName = some record.kind

/-- Carried out again where it was carried out, the step gives the record again. -/
def StepRecord.Genuine (files : Files) (registry : Registry) (record : StepRecord) : Prop :=
  record.redo files registry record.prev = .ok record

section Step

variable {files : Files} {registry : Registry} {kind : StepKind} {id : String} {book : Workbook}
  {params : Params} {record fresh : StepRecord}

/-- The record of a step has the workbook that it gives. -/
@[simp] theorem StepRecord.ofPerformed_post (kind : StepKind) (id : String) (prev : Workbook)
    (params : Params) (performed : Performed) :
    (StepRecord.ofPerformed kind id prev params performed).post = performed.book := rfl

/-- A step can be carried out exactly if its kind can, and the record tells what came of it. -/
theorem runStep_eq_ok_iff : runStep files kind id book params = .ok record ↔
    ∃ performed, kind.perform files book params = .ok performed ∧
      record = .ofPerformed kind id book params performed := by
  unfold runStep
  cases kind.perform files book params with
  | error e => simp
  | ok performed => simp [eq_comm]

/-- A step fails exactly if its kind does, and the error tells the kind, the parameters and the cause. -/
theorem runStep_eq_error_iff {e : PipelineError} : runStep files kind id book params = .error e ↔
    ∃ cause, kind.perform files book params = .error cause ∧ e = .execution kind params cause := by
  unfold runStep
  cases kind.perform files book params with
  | error cause => simp [eq_comm]
  | ok performed => simp

/-- The record of a step that was carried out is that of one on the workbook before. -/
theorem performs_of_runStep (h : runStep files kind id book params = .ok record) :
    record.Performs files book := by
  obtain ⟨performed, hperformed, rfl⟩ := runStep_eq_ok_iff.mp h
  exact ⟨rfl, hperformed⟩

/-- A step of a known kind is carried out by that kind. -/
theorem StepRecord.Known.redo_eq (h : record.Known registry) :
    record.redo files registry book = runStep files record.kind record.id book record.params := by
  unfold redo
  rw [h]

/-- A step that is carried out again is of the same kind, under the same name, with the same
parameters. -/
theorem StepRecord.redo_eq_ok_iff : record.redo files registry book = .ok fresh ↔
    record.Known registry ∧ ∃ performed, record.kind.perform files book record.params = .ok performed ∧
      fresh = .ofPerformed record.kind record.id book record.params performed := by
  constructor
  · intro h
    have hknown : record.Known registry := by
      unfold redo at h
      split at h
      case h_1 => cases h
      case h_2 kind hkind => rw [Known, hkind, StepKind.typeName_injective (Registry.typeName_of_find? hkind)]
    rw [hknown.redo_eq] at h
    exact ⟨hknown, runStep_eq_ok_iff.mp h⟩
  · rintro ⟨hknown, hperformed⟩
    rw [hknown.redo_eq]
    exact runStep_eq_ok_iff.mpr hperformed

/-- A step that was carried out by a kind of the registry gives a genuine record. -/
theorem StepRecord.genuine_of_runStep {typeName : String} (hkind : registry.find? typeName = some kind)
    (h : runStep files kind id book params = .ok record) : record.Genuine files registry := by
  obtain ⟨performed, hperformed, rfl⟩ := runStep_eq_ok_iff.mp h
  obtain rfl := Registry.typeName_of_find? hkind
  exact redo_eq_ok_iff.mpr ⟨hkind, performed, hperformed, rfl⟩

/-- A genuine record is of a kind that the registry has. -/
theorem StepRecord.Genuine.known (h : record.Genuine files registry) : record.Known registry :=
  (redo_eq_ok_iff.mp h).1

/-- Carrying a genuine record's step out gives the workbook after it, and its facts. -/
theorem StepRecord.Genuine.performed (h : record.Genuine files registry) :
    record.kind.perform files record.prev record.params = .ok ⟨record.post, record.data⟩ := by
  obtain ⟨-, performed, hperformed, heq⟩ := redo_eq_ok_iff.mp h
  rw [hperformed, congrArg StepRecord.post heq, congrArg StepRecord.data heq]
  rfl

end Step

/-! ## Many steps -/

/-- The steps of records are carried out one after the other from one workbook to another, each by the
kind that the registry has under its name, and give fresh records under the same names. -/
inductive Redone (files : Files) (registry : Registry) :
    Workbook → List StepRecord → List StepRecord → Workbook → Prop
  | nil {start : Workbook} : Redone files registry start [] [] start
  | cons {start stop : Workbook} {record : StepRecord} {performed : Performed}
      {rest fresh : List StepRecord} (known : record.Known registry)
      (head : record.kind.perform files start record.params = .ok performed)
      (tail : Redone files registry performed.book rest fresh stop) :
      Redone files registry start (record :: rest)
        (.ofPerformed record.kind record.id start record.params performed :: fresh) stop

section Steps

variable {files : Files} {registry : Registry} {start mid stop : Workbook} {record first : StepRecord}
  {records others rest fresh fresh' : List StepRecord}

/-- A step that is redone and steps redone after it are steps redone. -/
theorem Redone.of_redo (hhead : record.redo files registry start = .ok first)
    (htail : Redone files registry first.post rest fresh stop) :
    Redone files registry start (record :: rest) (first :: fresh) stop := by
  obtain ⟨hknown, performed, hperformed, rfl⟩ := StepRecord.redo_eq_ok_iff.mp hhead
  exact .cons hknown hperformed htail

/-- Steps redone in two parts are steps redone. -/
theorem Redone.append (h : Redone files registry start records fresh mid)
    (hothers : Redone files registry mid others fresh' stop) :
    Redone files registry start (records ++ others) (fresh ++ fresh') stop := by
  induction h with
  | nil => exact hothers
  | cons hknown hhead _ ih => exact .cons hknown hhead (ih hothers)

/-- Fresh records are genuine. -/
theorem Redone.genuine (h : Redone files registry start records fresh stop) :
    ∀ record ∈ fresh, record.Genuine files registry := by
  induction h with
  | nil => exact List.forall_mem_nil _
  | cons hknown hhead _ ih =>
    exact List.forall_mem_cons.mpr
      ⟨StepRecord.redo_eq_ok_iff.mpr ⟨hknown, _, hhead, rfl⟩, ih⟩

/-- Fresh records are a log. -/
theorem Redone.logged (h : Redone files registry start records fresh stop) :
    Logged files start fresh stop := by
  induction h with
  | nil => exact .nil
  | cons _ hhead _ ih => exact .cons ⟨rfl, hhead⟩ ih

/-- Steps keep their names. -/
theorem Redone.ids_eq (h : Redone files registry start records fresh stop) :
    fresh.map (·.id) = records.map (·.id) := by
  induction h with
  | nil => rfl
  | cons _ _ _ ih =>
    rw [List.map_cons, List.map_cons, ih]
    rfl

/-- Genuine records of a log are what carrying out its steps again gives. -/
theorem Logged.redone (h : Logged files start records stop)
    (hgenuine : ∀ record ∈ records, record.Genuine files registry) :
    Redone files registry start records records stop := by
  induction h with
  | nil => exact .nil
  | snoc _ hlast ih =>
    obtain ⟨hbefore, hrecord⟩ := List.forall_mem_append.mp hgenuine
    have hagain := hrecord _ List.mem_cons_self
    rw [StepRecord.Genuine, hlast.prev] at hagain
    exact (ih hbefore).append (.of_redo hagain .nil)

end Steps

/-! ## Replays -/

namespace Pipeline

section Replay

variable {files : Files} {registry : Registry} {index : Nat} {start : Workbook} {record : StepRecord}
  {records rest fresh : List StepRecord} {e : PipelineError}

/-- A replay redoes the first step, and replays the others from where that leads. -/
theorem replayFrom_cons (files : Files) (registry : Registry) (index : Nat) (start : Workbook)
    (record : StepRecord) (rest : List StepRecord) :
    replayFrom files registry index start (record :: rest) =
      match record.redo files registry start with
      | .error e => .error (.replay index e)
      | .ok first =>
        match replayFrom files registry (index + 1) first.post rest with
        | .error e => .error e
        | .ok others => .ok (first :: others) := by
  rw [replayFrom, StepRecord.redo]
  cases registry.find? record.kind.typeName with
  | none => rfl
  | some kind => rfl

/-- A replay succeeds exactly if all steps can be carried out again, and it gives their records. -/
theorem replayFrom_eq_ok_iff : replayFrom files registry index start records = .ok fresh ↔
    ∃ stop, Redone files registry start records fresh stop := by
  induction records generalizing index start fresh with
  | nil =>
    constructor
    · intro h
      cases h
      exact ⟨start, .nil⟩
    · rintro ⟨stop, h⟩
      cases h
      rfl
  | cons record rest ih =>
    rw [replayFrom_cons]
    constructor
    · intro h
      split at h
      case h_1 => cases h
      case h_2 first hfirst =>
        split at h
        case h_1 => cases h
        case h_2 others hothers =>
          cases h
          obtain ⟨stop, hstop⟩ := ih.mp hothers
          exact ⟨stop, .of_redo hfirst hstop⟩
    · rintro ⟨stop, h⟩
      cases h with
      | cons hknown hhead htail =>
        have hrest := (@ih (index + 1) _ _).mpr ⟨stop, htail⟩
        have hredo := StepRecord.redo_eq_ok_iff.mpr ⟨hknown, _, hhead, rfl⟩
        simp only [hredo, StepRecord.ofPerformed_post, hrest]

/-- A replay fails exactly if some step cannot be carried out again where those before it lead, and it
names that step and its error. -/
theorem replayFrom_eq_error_iff : replayFrom files registry index start records = .error e ↔
    ∃ before record after fresh stop cause, records = before ++ record :: after ∧
      Redone files registry start before fresh stop ∧ record.redo files registry stop = .error cause ∧
      e = .replay (index + before.length) cause := by
  induction records generalizing index start e with
  | nil => simp [replayFrom]
  | cons record rest ih =>
    rw [replayFrom_cons]
    constructor
    · intro h
      split at h
      case h_1 cause hcause =>
        cases h
        exact ⟨[], record, rest, [], start, cause, rfl, .nil, hcause, rfl⟩
      case h_2 first hfirst =>
        split at h
        case h_2 => cases h
        case h_1 hrest =>
          cases h
          obtain ⟨before, failing, after, fresh, stop, cause, rfl, hbefore, hcause, rfl⟩ := ih.mp hrest
          refine ⟨record :: before, failing, after, first :: fresh, stop, cause, rfl,
            .of_redo hfirst hbefore, hcause, ?_⟩
          rw [List.length_cons, Nat.add_right_comm, Nat.add_assoc]
    · rintro ⟨before, failing, after, fresh, stop, cause, hrecords, hbefore, hcause, rfl⟩
      cases hbefore with
      | nil =>
        cases hrecords
        rw [hcause]
        rfl
      | cons hknown hhead htail =>
        cases hrecords
        have hrest := (@ih (index + 1) _ _).mpr ⟨_, _, _, _, _, _, rfl, htail, hcause, rfl⟩
        have hredo := StepRecord.redo_eq_ok_iff.mpr ⟨hknown, _, hhead, rfl⟩
        simp only [hredo, StepRecord.ofPerformed_post, hrest]
        rw [List.length_cons, Nat.add_right_comm, Nat.add_assoc]

end Replay

end Pipeline

/-! ## Operations that succeed and that fail -/

namespace Pipeline

section Operations

variable {files : Files} {p q : Pipeline} {e : PipelineError} {typeName : String} {params : Params}
  {record : StepRecord}

/-- A step can be applied exactly if the registry has its kind and the kind can carry it out. -/
theorem apply_eq_ok_iff : p.apply files typeName params = (.ok record, q) ↔
    ∃ kind, p.registry.find? typeName = some kind ∧
      runStep files kind (stepId p.nextId) p.book params = .ok record ∧ q = p.append record := by
  constructor
  · intro h
    unfold apply at h
    split at h
    case h_1 => cases h
    case h_2 kind hkind =>
      split at h
      case h_1 => cases h
      case h_2 made hmade =>
        cases h
        exact ⟨kind, hkind, hmade, rfl⟩
  · rintro ⟨kind, hkind, hrecord, rfl⟩
    unfold apply
    simp only [hkind, hrecord]

/-- An apply that fails leaves the pipeline as it was. -/
theorem eq_of_apply_error (h : p.apply files typeName params = (.error e, q)) : q = p := by
  unfold apply at h
  split at h
  case h_1 =>
    cases h
    rfl
  case h_2 =>
    split at h
    case h_1 =>
      cases h
      rfl
    case h_2 => cases h

/-- A record that applying a step gives is put into the log. -/
theorem apply_eq_of_mem (h : record ∈ (p.apply files typeName params).1.toOption) :
    p.apply files typeName params = (.ok record, p.append record) := by
  have hresult : p.apply files typeName params = (.ok record, (p.apply files typeName params).2) :=
    Prod.ext (Script.except_eq_ok_of_mem h) rfl
  obtain ⟨-, -, -, hq⟩ := apply_eq_ok_iff.mp hresult
  rw [hresult, hq]

/-- A replay fails exactly if carrying out the records again does, and leaves the pipeline as it was. -/
theorem replay_eq_error_iff : p.replay files = (.error e, q) ↔
    replayFrom files p.registry 0 p.initial p.records = .error e ∧ q = p := by
  unfold replay
  cases replayFrom files p.registry 0 p.initial p.records with
  | error cause => simp [eq_comm]
  | ok fresh => simp

/-- A replay succeeds exactly if the records can be carried out again, and the fresh ones take their place.
-/
theorem replay_eq_ok_iff : p.replay files = (.ok (), q) ↔
    ∃ fresh, replayFrom files p.registry 0 p.initial p.records = .ok fresh ∧ q = p.withRecords fresh := by
  unfold replay
  cases replayFrom files p.registry 0 p.initial p.records with
  | error cause => simp
  | ok fresh => simp [eq_comm]

/-- Another initial workbook fails as a replay from it does, and the old one is back then. -/
theorem setInitial_eq_error_iff {initial : Workbook} : p.setInitial files initial = (.error e, q) ↔
    replayFrom files p.registry 0 initial p.records = .error e ∧ q = p := by
  unfold setInitial
  constructor
  · intro h
    split at h
    case h_1 cause replayed hreplay =>
      obtain ⟨hcause, rfl⟩ := replay_eq_error_iff.mp hreplay
      cases h
      exact ⟨hcause, rfl⟩
    case h_2 => cases h
  · rintro ⟨hcause, rfl⟩
    rw [(replay_eq_error_iff (p := { q with initial })).mpr ⟨hcause, rfl⟩]

/-- Another initial workbook is taken exactly if the records can be carried out again from it. -/
theorem setInitial_eq_ok_iff {initial : Workbook} : p.setInitial files initial = (.ok (), q) ↔
    ∃ fresh, replayFrom files p.registry 0 initial p.records = .ok fresh ∧
      q = { p.withRecords fresh with initial, sources := [] } := by
  unfold setInitial
  constructor
  · intro h
    split at h
    case h_1 => cases h
    case h_2 replayed hreplay =>
      obtain ⟨fresh, hfresh, rfl⟩ := replay_eq_ok_iff.mp hreplay
      cases h
      exact ⟨fresh, hfresh, rfl⟩
  · rintro ⟨fresh, hfresh, rfl⟩
    rw [(replay_eq_ok_iff (p := { p with initial })).mpr ⟨fresh, hfresh, rfl⟩]
    rfl

end Operations

end Pipeline

/-! ## What an operation does -/

/-- All that an operation can do to a pipeline. -/
inductive Pipeline.Moves (files : Files) (p : Pipeline) : Pipeline → Prop
  | stay : p.Moves files p
  | append {typeName : String} {kind : StepKind} {params : Params} {record : StepRecord}
      (known : p.registry.find? typeName = some kind)
      (performed : runStep files kind (stepId p.nextId) p.book params = .ok record) :
      p.Moves files (p.append record)
  | dropLast : p.Moves files (p.withRecords p.records.dropLast)
  | clear : p.Moves files p.clear
  | replay {fresh : List StepRecord} {stop : Workbook}
      (redone : Redone files p.registry p.initial p.records fresh stop) :
      p.Moves files (p.withRecords fresh)
  | setInitial {initial : Workbook} {fresh : List StepRecord} {stop : Workbook}
      (redone : Redone files p.registry initial p.records fresh stop) :
      p.Moves files { p.withRecords fresh with initial, sources := [] }
  | withPolicy (policy : MergePolicy) : p.Moves files (p.withPolicy policy)
  | withSources (sources : List (String × String)) : p.Moves files (p.withSources sources)

namespace Pipeline

variable {files : Files} {p q : Pipeline}

/-- The workbook of a pipeline is that after the last record. -/
theorem book_eq (p : Pipeline) : p.book = (p.records.map (·.post)).getLast?.getD p.initial := by
  rw [book, List.getLast?_map]
  cases p.records.getLast? <;> rfl

/-- Every operation is one of the moves of a pipeline. -/
theorem moves_perform (files : Files) (p : Pipeline) (operation : Operation) :
    p.Moves files (operation.perform files p) := by
  cases operation with
  | apply typeName params =>
    change p.Moves files (p.apply files typeName params).2
    cases hresult : p.apply files typeName params with
    | mk result q =>
      cases result with
      | error e =>
        obtain rfl := eq_of_apply_error hresult
        -- a refused step leaves the pipeline as it was
        exact .stay
      | ok record =>
        obtain ⟨kind, hkind, hrecord, rfl⟩ := apply_eq_ok_iff.mp hresult
        exact .append hkind hrecord
  | undo =>
    change p.Moves files p.undo.2
    unfold undo
    split
    case h_1 => exact .stay
    case h_2 => exact .dropLast
  | clear => exact .clear
  | replay =>
    change p.Moves files (p.replay files).2
    cases hresult : p.replay files with
    | mk result q =>
      cases result with
      | error e =>
        obtain ⟨-, rfl⟩ := replay_eq_error_iff.mp hresult
        exact .stay
      | ok =>
        obtain ⟨fresh, hfresh, rfl⟩ := replay_eq_ok_iff.mp hresult
        obtain ⟨stop, hstop⟩ := replayFrom_eq_ok_iff.mp hfresh
        exact .replay hstop
  | setInitial initial =>
    change p.Moves files (p.setInitial files initial).2
    cases hresult : p.setInitial files initial with
    | mk result q =>
      cases result with
      | error e =>
        obtain ⟨-, rfl⟩ := setInitial_eq_error_iff.mp hresult
        exact .stay
      | ok =>
        obtain ⟨fresh, hfresh, rfl⟩ := setInitial_eq_ok_iff.mp hresult
        obtain ⟨stop, hstop⟩ := replayFrom_eq_ok_iff.mp hfresh
        exact .setInitial hstop
  | withPolicy policy => exact .withPolicy policy
  | withSources sources => exact .withSources sources

/-- What all operations keep holds of every pipeline that is reached. -/
theorem Reachable.induction {P : Pipeline → Prop} (hnew : ∀ registry initial, P (new registry initial))
    (hmove : ∀ p q, P p → p.Moves files q → P q) (h : p.Reachable files) : P p := by
  obtain ⟨registry, initial, operations, rfl⟩ := h
  suffices hafter : ∀ p, P p → P (p.after files operations) from hafter _ (hnew registry initial)
  induction operations with
  | nil => exact fun p hp => hp
  | cons operation rest ih => exact fun p hp => ih _ (hmove p _ hp (moves_perform files p operation))

/-- No move changes the registry. -/
theorem Moves.registry_eq (h : p.Moves files q) : q.registry = p.registry := by
  cases h <;> rfl

/-- An operation keeps the log a log. -/
theorem Moves.kept (h : p.Moves files q) (hp : p.Kept files) : q.Kept files := by
  cases h with
  | stay => exact hp
  | @append typeName kind params record _ hrecord =>
    refine kept_of_logged (.snoc hp.logged (performs_of_runStep hrecord)) ?_
    change pushChunk p.policy p.chunks record.chunk = _
    rw [hp.chunks, ← chunksOf_concat]
    rfl
  | dropLast =>
    obtain ⟨book, hbook⟩ := hp.logged.dropLast
    exact kept_of_logged hbook rfl
  | clear => exact kept_of_logged .nil rfl
  | replay hredone => exact kept_of_logged hredone.logged rfl
  | setInitial hredone => exact kept_of_logged hredone.logged rfl
  | withPolicy policy => exact kept_of_logged hp.logged rfl
  | withSources sources => exact kept_of_logged hp.logged hp.chunks

/-- A log that was reached is a log. -/
theorem Reachable.kept (h : p.Reachable files) : p.Kept files :=
  h.induction (kept_new files) fun _ _ hp hmove => hmove.kept hp

/-- What holds of the record of every step that a kind of the registry carries out is kept of all
records. -/
theorem Moves.forall_records {P : StepRecord → Prop} (h : p.Moves files q)
    (hstep : ∀ record, record.Genuine files p.registry → P record) (hp : ∀ record ∈ p.records, P record) :
    ∀ record ∈ q.records, P record := by
  cases h with
  | stay => exact hp
  | append hkind hrecord =>
    exact List.forall_mem_append.mpr
      ⟨hp, List.forall_mem_singleton.mpr (hstep _ (StepRecord.genuine_of_runStep hkind hrecord))⟩
  | dropLast => exact fun record hrecord => hp record (List.mem_of_mem_dropLast hrecord)
  | clear => exact List.forall_mem_nil _
  | replay hfresh => exact fun record hrecord => hstep record (hfresh.genuine record hrecord)
  | setInitial hfresh => exact fun record hrecord => hstep record (hfresh.genuine record hrecord)
  | withPolicy => exact hp
  | withSources => exact hp

/-- All records of a pipeline that was reached are genuine. -/
theorem Reachable.genuine (h : p.Reachable files) :
    ∀ record ∈ p.records, record.Genuine files p.registry := by
  refine h.induction (P := fun p => ∀ record ∈ p.records, record.Genuine files p.registry) ?_ ?_
  · exact fun _ _ => List.forall_mem_nil _
  · intro p q hp hmove
    rw [hmove.registry_eq]
    exact hmove.forall_records (fun _ h => h) hp

/-- The steps of a pipeline that was reached, carried out again, give its own log. -/
theorem Reachable.redone (h : p.Reachable files) :
    Redone files p.registry p.initial p.records p.records p.book := h.kept.logged.redone h.genuine

end Pipeline

end TableScript
