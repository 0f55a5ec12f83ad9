import TableScript.Proofs.JsonTexts
import TableScript.Proofs.Keyed
import TableScript.Session

/-!
# Sessions and their pipelines

What a session cache hands back after any calls (`served_pipeline`). Its fingerprints tell workbooks
apart but for cells that are no finite numbers, which look as if they were missing
(`fingerprint_eq_iff`); up to that, a pipeline is handed back only for the workbook it was made for,
and it is the one that was handed back before exactly if the session has been neither dropped nor
asked for another workbook since.

The induction over the calls follows one session: while the calls keep it, it has the same pipeline
(`Holds`); once one of them does not, it never has that pipeline again (`Lacks`), since new ones get
new numbers.
-/

namespace TableScript

/-! ## What fingerprints show -/

namespace Value

mutual

/-- The value as its fingerprint shows it: a number that is not finite is missing. -/
def blurred : Value → Value
  | float x => if x.isFinite then float x else null
  | list items => list (blurredItems items)
  | dict entries => dict (blurredEntries entries)
  | other => other

/-- The items of a list as their fingerprints show them. -/
def blurredItems : List Value → List Value
  | [] => []
  | v :: rest => blurred v :: blurredItems rest

/-- The entries of a dictionary as their fingerprints show them. -/
def blurredEntries : List (String × Value) → List (String × Value)
  | [] => []
  | (key, v) :: rest => (key, blurred v) :: blurredEntries rest

end

end Value

/-- The frame as its fingerprint shows it. -/
def Frame.blurred (f : Frame) : Frame :=
  ⟨f.columns.map fun (name, cells) => (name, Value.blurredItems cells), f.rows⟩

/-- The workbook as its fingerprint shows it. -/
def Workbook.blurred (w : Workbook) : Workbook := ⟨w.frames.map fun (name, f) => (name, f.blurred)⟩

namespace Document.Json

mutual

/-- Blurring a value blurs what is written of it. -/
theorem ofValue_blurred : (v : Value) → ofValue v.blurred = blurred (ofValue v)
  | .null => rfl
  | .bool _ => rfl
  | .int _ => rfl
  | .float x => by
    rw [Value.blurred, ofValue, blurred]
    exact apply_ite ofValue _ _ _
  | .str _ => rfl
  | .list items => congrArg list (ofItems_blurred items)
  | .dict entries => congrArg object (ofEntries_blurred entries)

/-- So it is with the items of a list. -/
theorem ofItems_blurred :
    (items : List Value) → ofItems (Value.blurredItems items) = blurredItems (ofItems items)
  | [] => rfl
  | v :: rest => congrArg₂ List.cons (ofValue_blurred v) (ofItems_blurred rest)

/-- So it is with the entries of a dictionary. -/
theorem ofEntries_blurred : (entries : List (String × Value)) →
    ofEntries (Value.blurredEntries entries) = blurredEntries (ofEntries entries)
  | [] => rfl
  | (key, v) :: rest =>
    congrArg₂ List.cons (congrArg (Prod.mk key) (ofValue_blurred v)) (ofEntries_blurred rest)

end

mutual

/-- Values are told apart by their trees. -/
theorem ofValue_injective : (a b : Value) → ofValue a = ofValue b → a = b
  | .null, b, h => by
    cases b <;> first | rfl | cases h
  | .bool a, b, h => by
    cases b with
    | bool b => exact congrArg Value.bool (bool.inj h)
    | _ => cases h
  | .int a, b, h => by
    cases b with
    | int b => exact congrArg Value.int (Int64.toInt_inj.mp (int.inj h))
    | _ => cases h
  | .float a, b, h => by
    cases b with
    | float b => exact congrArg Value.float (float.inj h)
    | _ => cases h
  | .str a, b, h => by
    cases b with
    | str b => exact congrArg Value.str (str.inj h)
    | _ => cases h
  | .list as, b, h => by
    cases b with
    | list bs => exact congrArg Value.list (ofItems_injective as bs (list.inj h))
    | _ => cases h
  | .dict as, b, h => by
    cases b with
    | dict bs => exact congrArg Value.dict (ofEntries_injective as bs (object.inj h))
    | _ => cases h

/-- Lists of different items are written differently. -/
theorem ofItems_injective : (as bs : List Value) → ofItems as = ofItems bs → as = bs
  | [], [], _ => rfl
  | [], _ :: _, h => nomatch h
  | _ :: _, [], h => nomatch h
  | a :: as, b :: bs, h =>
    congrArg₂ List.cons (ofValue_injective a b (List.cons.inj h).1)
      (ofItems_injective as bs (List.cons.inj h).2)

/-- So are dictionaries of different entries. -/
theorem ofEntries_injective :
    (as bs : List (String × Value)) → ofEntries as = ofEntries bs → as = bs
  | [], [], _ => rfl
  | [], _ :: _, h => nomatch h
  | _ :: _, [], h => nomatch h
  | (key, a) :: as, (key', b) :: bs, h => by
    obtain ⟨hentry, hrest⟩ := List.cons.inj h
    obtain ⟨rfl, hvalue⟩ := Prod.mk.inj hentry
    rw [ofValue_injective a b hvalue, ofEntries_injective as bs hrest]

end

/-- Blurring a dataframe blurs what is written of it. -/
theorem ofFrame_blurred (f : Frame) : ofFrame f.blurred = blurred (ofFrame f) := by
  have hcolumns : blurredEntries (f.columns.map fun (name, cells) => (name, list (ofItems cells))) =
      f.blurred.columns.map fun (name, cells) => (name, list (ofItems cells)) := by
    rw [blurredEntries_eq, Frame.blurred, List.map_map, List.map_map]
    refine List.map_congr_left fun column _ => ?_
    exact congrArg (fun items => (column.1, list items)) (ofItems_blurred column.2).symm
  rw [ofFrame, ofFrame, ← hcolumns]
  rfl

/-- Blurring a workbook blurs what is written of it. -/
theorem ofWorkbook_blurred (w : Workbook) : ofWorkbook w.blurred = blurred (ofWorkbook w) := by
  have hframes : blurredEntries (w.frames.map fun (name, f) => (name, ofFrame f)) =
      w.blurred.frames.map fun (name, f) => (name, ofFrame f) := by
    rw [blurredEntries_eq, Workbook.blurred, List.map_map, List.map_map]
    refine List.map_congr_left fun entry _ => ?_
    exact congrArg (Prod.mk entry.1) (ofFrame_blurred entry.2).symm
  rw [ofWorkbook, ofWorkbook, ← hframes]
  rfl

/-- Different dataframes are written differently. -/
theorem ofFrame_injective {f g : Frame} (h : ofFrame f = ofFrame g) : f = g := by
  unfold ofFrame at h
  simp only [object.injEq, List.cons.injEq, Prod.mk.injEq, true_and, and_true, int.injEq,
    Nat.cast_inj] at h
  obtain ⟨hcolumns, hrows⟩ := h
  have hinjective : Function.Injective fun column : String × List Value =>
      (column.1, list (ofItems column.2)) := by
    rintro ⟨name, cells⟩ ⟨name', cells'⟩ heq
    obtain ⟨rfl, hcells⟩ := Prod.mk.inj heq
    rw [ofItems_injective cells cells' (list.inj hcells)]
  obtain ⟨columns, rows⟩ := f
  obtain ⟨columns', rows'⟩ := g
  obtain rfl : columns = columns' := hinjective.list_map hcolumns
  obtain rfl : rows = rows' := hrows
  rfl

/-- So are different workbooks. -/
theorem ofWorkbook_injective {v w : Workbook} (h : ofWorkbook v = ofWorkbook w) : v = w := by
  unfold ofWorkbook at h
  simp only [object.injEq, List.cons.injEq, Prod.mk.injEq, true_and, and_true] at h
  have hinjective :
      Function.Injective fun entry : String × Frame => (entry.1, ofFrame entry.2) := by
    rintro ⟨name, f⟩ ⟨name', g⟩ heq
    obtain ⟨rfl, hframe⟩ := Prod.mk.inj heq
    exact congrArg (Prod.mk name) (ofFrame_injective hframe)
  obtain ⟨frames⟩ := v
  obtain ⟨frames'⟩ := w
  obtain rfl : frames = frames' := hinjective.list_map h
  rfl

end Document.Json

/-- Fingerprints tell workbooks apart, but for cells that are no finite numbers, which look
missing. -/
theorem Workbook.fingerprint_eq_iff {v w : Workbook} :
    v.fingerprint = w.fingerprint ↔ v.blurred = w.blurred := by
  unfold fingerprint
  rw [Document.Json.compact_eq_iff, ← Document.Json.ofWorkbook_blurred,
    ← Document.Json.ofWorkbook_blurred]
  exact ⟨Document.Json.ofWorkbook_injective, congrArg _⟩

/-! ## Calls -/

namespace SessionCache

/-- A call to the cache. -/
inductive Call where
  /-- Ask for the session's pipeline over a workbook. -/
  | get (key : String) (w : Workbook)
  /-- Drop the session. -/
  | invalidate (key : String)

/-- The number of the pipeline that is handed back for a workbook, and the cache after that. -/
def serve (registry : Registry) (cache : SessionCache) (key : String) (w : Workbook) :
    Nat × SessionCache :=
  cache.getOrCreate key w.fingerprint (Pipeline.new registry w)

/-- The cache after a call. -/
def next (registry : Registry) (cache : SessionCache) : Call → SessionCache
  | .get key w => (serve registry cache key w).2
  | .invalidate key => (cache.invalidate key).2

/-- The cache after calls. -/
def nextAll (registry : Registry) (cache : SessionCache) (calls : List Call) : SessionCache :=
  calls.foldl (next registry) cache

/-- The call does not drop the session, and asks it for no workbook but those that are alike. -/
def Call.Keeps (key : String) (alike : Workbook → Prop) : Call → Prop
  | .get other w => other = key → alike w
  | .invalidate other => other ≠ key

variable {registry : Registry} {cache : SessionCache} {key fingerprint : String} {n : Nat}

/-- The session is there, with its pipeline's number. -/
def Holds (cache : SessionCache) (key fingerprint : String) (n : Nat) : Prop :=
  cache.sessions.get? key = some ⟨fingerprint, n⟩

/-- The session, if it is there, does not have that pipeline, which was made before. -/
structure Lacks (cache : SessionCache) (key : String) (n : Nat) : Prop where
  made : n < cache.pipelines.length
  other : ∀ session, cache.sessions.get? key = some session → session.pipeline ≠ n

/-- A session has a pipeline that was made for a workbook with the session's fingerprint. -/
structure Sound (registry : Registry) (cache : SessionCache) : Prop where
  distinct : cache.sessions.keys.Nodup
  made : ∀ key session, cache.sessions.get? key = some session →
    ∃ u : Workbook, cache.pipelines[session.pipeline]? = some (Pipeline.new registry u) ∧
      session.fingerprint = u.fingerprint

/-- Either the session is there with the workbook's fingerprint and nothing changes, or a new
pipeline is made and becomes the session's. -/
theorem serve_cases (registry : Registry) (cache : SessionCache) (key : String) (w : Workbook) :
    (∃ n, cache.Holds key w.fingerprint n ∧ serve registry cache key w = (n, cache)) ∨
      ((∀ n, ¬ cache.Holds key w.fingerprint n) ∧
        serve registry cache key w = (cache.pipelines.length,
          ⟨cache.sessions.put key ⟨w.fingerprint, cache.pipelines.length⟩,
            cache.pipelines ++ [Pipeline.new registry w]⟩)) := by
  unfold serve getOrCreate current? Holds
  cases hsession : cache.sessions.get? key with
  | none => exact .inr ⟨fun n h => (nomatch h), rfl⟩
  | some session =>
    obtain ⟨fingerprint, n⟩ := session
    by_cases heq : fingerprint = w.fingerprint
    · subst heq
      exact .inl ⟨n, rfl, by simp⟩
    · refine .inr ⟨fun m h => heq ?_, by simp [heq]⟩
      cases h
      rfl

/-- A session that was asked for a workbook has the pipeline that was handed back. -/
theorem holds_serve (registry : Registry) (cache : SessionCache) (key : String) (w : Workbook) :
    (serve registry cache key w).2.Holds key w.fingerprint (serve registry cache key w).1 := by
  rcases serve_cases registry cache key w with ⟨n, hholds, hserve⟩ | ⟨-, hserve⟩
  · rw [hserve]
    exact hholds
  · rw [hserve]
    exact Keyed.get?_put_self _ _ _

/-- Other sessions are left as they are. -/
theorem get?_serve_of_ne {other : String} (h : key ≠ other) (w : Workbook) :
    (serve registry cache key w).2.sessions.get? other = cache.sessions.get? other := by
  rcases serve_cases registry cache key w with ⟨n, -, hserve⟩ | ⟨-, hserve⟩
  · rw [hserve]
  · rw [hserve]
    exact Keyed.get?_put_of_ne _ _ h

/-- No pipeline is lost. -/
theorem length_le_serve (registry : Registry) (cache : SessionCache) (key : String) (w : Workbook) :
    cache.pipelines.length ≤ (serve registry cache key w).2.pipelines.length := by
  rcases serve_cases registry cache key w with ⟨n, -, hserve⟩ | ⟨-, hserve⟩
  · rw [hserve]
  · rw [hserve, List.length_append]
    exact Nat.le_add_right _ _

/-! ## What calls preserve -/

/-- An empty cache is sound. -/
theorem sound_empty (registry : Registry) : Sound registry empty :=
  ⟨List.nodup_nil, fun _ _ h => nomatch h⟩

/-- Asking for a workbook keeps a cache sound. -/
theorem sound_serve (h : Sound registry cache) (key : String) (w : Workbook) :
    Sound registry (serve registry cache key w).2 := by
  rcases serve_cases registry cache key w with ⟨n, -, hserve⟩ | ⟨-, hserve⟩
  · rw [hserve]
    exact h
  · rw [hserve]
    refine ⟨Keyed.nodup_keys_put h.distinct _ _, fun other session hsession => ?_⟩
    dsimp only at hsession ⊢
    by_cases hkey : key = other
    · rw [← hkey, Keyed.get?_put_self] at hsession
      cases hsession
      exact ⟨w, List.getElem?_concat_length, rfl⟩
    · rw [Keyed.get?_put_of_ne _ _ hkey] at hsession
      obtain ⟨u, hu, hfingerprint⟩ := h.made other session hsession
      have hlt := (List.getElem?_eq_some_iff.mp hu).1
      exact ⟨u, (List.getElem?_append_left hlt).trans hu, hfingerprint⟩

/-- Dropping a session leaves the others as they are. -/
theorem get?_invalidate_of_ne {other : String} (h : other ≠ key) :
    (cache.invalidate other).2.sessions.get? key = cache.sessions.get? key :=
  Keyed.get?_erase_of_ne _ h

/-- A session that was dropped is gone. -/
theorem get?_invalidate_self (h : Sound registry cache) (key : String) :
    (cache.invalidate key).2.sessions.get? key = none :=
  Keyed.get?_erase_self h.distinct key

/-- A call keeps a cache sound. -/
theorem sound_next (h : Sound registry cache) (call : Call) :
    Sound registry (next registry cache call) := by
  cases call with
  | get key w => exact sound_serve h key w
  | invalidate key =>
    refine ⟨Keyed.nodup_keys_erase h.distinct key, fun other session hsession =>
      h.made other session ?_⟩
    change (cache.invalidate key).2.sessions.get? other = some session at hsession
    by_cases hkey : key = other
    · subst hkey
      rw [get?_invalidate_self h] at hsession
      cases hsession
    · rwa [get?_invalidate_of_ne hkey] at hsession

/-- So do calls, one after the other. -/
theorem sound_nextAll (h : Sound registry cache) (calls : List Call) :
    Sound registry (nextAll registry cache calls) := by
  induction calls generalizing cache with
  | nil => exact h
  | cons call calls ih => exact ih (sound_next h call)

/-- The number of a session's pipeline is that of one that was made. -/
theorem Sound.lt (h : Sound registry cache) (hholds : cache.Holds key fingerprint n) :
    n < cache.pipelines.length := by
  obtain ⟨u, hu, -⟩ := h.made key _ hholds
  exact (List.getElem?_eq_some_iff.mp hu).1

/-- A call that keeps the session leaves it its pipeline. -/
theorem holds_next (h : cache.Holds key fingerprint n) {call : Call}
    (hkeeps : call.Keeps key (·.fingerprint = fingerprint)) :
    (next registry cache call).Holds key fingerprint n := by
  cases call with
  | get other w =>
    by_cases hkey : other = key
    · subst hkey
      have hsame : w.fingerprint = fingerprint := hkeeps rfl
      rcases serve_cases registry cache other w with ⟨m, -, hserve⟩ | ⟨hnone, -⟩
      · rw [next, hserve]
        exact h
      · exact absurd (hsame ▸ h) (hnone n)
    · exact (get?_serve_of_ne hkey w).trans h
  | invalidate other => exact (get?_invalidate_of_ne hkeeps).trans h

/-- A session never gets back a pipeline that it lacks: what it is given is its own or new. -/
theorem lacks_next (h : cache.Lacks key n) (hsound : Sound registry cache) (call : Call) :
    (next registry cache call).Lacks key n := by
  cases call with
  | get other w =>
    refine ⟨h.made.trans_le (length_le_serve registry cache other w), fun session hsession => ?_⟩
    change (serve registry cache other w).2.sessions.get? key = some session at hsession
    by_cases hkey : other = key
    · subst hkey
      rcases serve_cases registry cache other w with ⟨m, -, hserve⟩ | ⟨-, hserve⟩
      · rw [hserve] at hsession
        exact h.other session hsession
      · rw [hserve, Keyed.get?_put_self] at hsession
        cases hsession
        exact h.made.ne'
    · rw [get?_serve_of_ne hkey] at hsession
      exact h.other session hsession
  | invalidate other =>
    refine ⟨h.made, fun session hsession => h.other session ?_⟩
    change (cache.invalidate other).2.sessions.get? key = some session at hsession
    by_cases hkey : other = key
    · subst hkey
      rw [get?_invalidate_self hsound] at hsession
      cases hsession
    · rwa [get?_invalidate_of_ne hkey] at hsession

/-- A call that does not keep the session takes its pipeline away from it. -/
theorem lacks_of_not_keeps (h : cache.Holds key fingerprint n) (hsound : Sound registry cache)
    {call : Call} (hkeeps : ¬ call.Keeps key (·.fingerprint = fingerprint)) :
    (next registry cache call).Lacks key n := by
  cases call with
  | get other w =>
    obtain ⟨rfl, hother⟩ : other = key ∧ w.fingerprint ≠ fingerprint := by
      simpa [Call.Keeps] using hkeeps
    rcases serve_cases registry cache other w with ⟨m, hholds, -⟩ | ⟨-, hserve⟩
    · cases h.symm.trans hholds
      exact absurd rfl hother
    · rw [next, hserve]
      refine ⟨(hsound.lt h).trans_le (by simp), fun session hsession => ?_⟩
      rw [Keyed.get?_put_self] at hsession
      cases hsession
      exact (hsound.lt h).ne'
  | invalidate other =>
    obtain rfl : other = key := by simpa [Call.Keeps] using hkeeps
    refine ⟨hsound.lt h, fun session hsession => ?_⟩
    change (cache.invalidate other).2.sessions.get? other = some session at hsession
    rw [get?_invalidate_self hsound] at hsession
    cases hsession

/-- A session that lacks a pipeline never has it again. -/
theorem lacks_nextAll (h : cache.Lacks key n) (hsound : Sound registry cache) (calls : List Call) :
    (nextAll registry cache calls).Lacks key n := by
  induction calls generalizing cache with
  | nil => exact h
  | cons call calls ih => exact ih (lacks_next h hsound call) (sound_next hsound call)

/-- After calls a session has the pipeline that it had exactly if all of them keep it. -/
theorem holds_nextAll_or_lacks (h : cache.Holds key fingerprint n) (hsound : Sound registry cache)
    (calls : List Call) :
    ((∀ call ∈ calls, call.Keeps key (·.fingerprint = fingerprint)) ∧
        (nextAll registry cache calls).Holds key fingerprint n) ∨
      (¬ (∀ call ∈ calls, call.Keeps key (·.fingerprint = fingerprint)) ∧
        (nextAll registry cache calls).Lacks key n) := by
  induction calls generalizing cache with
  | nil => exact .inl ⟨List.forall_mem_nil _, h⟩
  | cons call calls ih =>
    rw [List.forall_mem_cons]
    by_cases hkeeps : call.Keeps key (·.fingerprint = fingerprint)
    · rcases ih (holds_next h hkeeps) (sound_next hsound call) with ⟨hall, hholds⟩ | ⟨hsome, hlacks⟩
      · exact .inl ⟨⟨hkeeps, hall⟩, hholds⟩
      · exact .inr ⟨fun hboth => hsome hboth.2, hlacks⟩
    · exact .inr ⟨fun hboth => hkeeps hboth.1,
        lacks_nextAll (lacks_of_not_keeps h hsound hkeeps) (sound_next hsound call) calls⟩

/-! ## What is handed back -/

/-- A session that has a pipeline for a fingerprint is handed it back for that one only. -/
theorem serve_eq_iff_of_holds (h : cache.Holds key fingerprint n) (hsound : Sound registry cache)
    (w : Workbook) : (serve registry cache key w).1 = n ↔ w.fingerprint = fingerprint := by
  rcases serve_cases registry cache key w with ⟨m, hholds, hserve⟩ | ⟨hnone, hserve⟩
  · cases h.symm.trans hholds
    rw [hserve]
    exact iff_of_true rfl rfl
  · rw [hserve]
    refine iff_of_false (hsound.lt h).ne' fun heq => hnone n ?_
    rw [heq]
    exact h

/-- A pipeline that the session lacks is not handed back. -/
theorem serve_ne_of_lacks (h : cache.Lacks key n) (w : Workbook) :
    (serve registry cache key w).1 ≠ n := by
  rcases serve_cases registry cache key w with ⟨m, hholds, hserve⟩ | ⟨-, hserve⟩
  · rw [hserve]
    exact h.other _ hholds
  · rw [hserve]
    exact h.made.ne'

/-- Calls that keep a session do so for all that is said in the same words about workbooks. -/
theorem keeps_congr {alike alike' : Workbook → Prop} (h : ∀ w, alike w ↔ alike' w) (call : Call) :
    call.Keeps key alike ↔ call.Keeps key alike' := by
  cases call with
  | get other w => exact imp_congr_right fun _ => h w
  | invalidate other => exact Iff.rfl

/-- The number of the pipeline that is handed back for a workbook after calls. -/
def answer (registry : Registry) (calls : List Call) (key : String) (w : Workbook) : Nat :=
  (serve registry (nextAll registry empty calls) key w).1

/-- After any calls, the pipeline that is handed back for a workbook was made for one that looks the
same to a fingerprint. It is the one that was handed back at an earlier call with that key exactly
if the workbook of that call looks the same too and no call since then has dropped the session or
asked it for a workbook that looks different. -/
theorem served_pipeline (registry : Registry) (key : String) (w : Workbook) :
    (∀ calls, ∃ u : Workbook,
      (nextAll registry empty (calls ++ [.get key w])).pipelines[answer registry calls key w]? =
        some (Pipeline.new registry u) ∧ u.blurred = w.blurred) ∧
      ∀ before between v,
        answer registry (before ++ .get key v :: between) key w = answer registry before key v ↔
          w.blurred = v.blurred ∧ ∀ call ∈ between, call.Keeps key (·.blurred = v.blurred) := by
  constructor
  · intro calls
    have hsound := sound_nextAll (sound_empty registry) calls
    have hholds := holds_serve registry (nextAll registry empty calls) key w
    obtain ⟨u, hu, hfingerprint⟩ := (sound_serve hsound key w).made key _ hholds
    refine ⟨u, ?_, (Workbook.fingerprint_eq_iff.mp hfingerprint).symm⟩
    rw [nextAll, List.foldl_append]
    exact hu
  · intro before between v
    have hbefore := sound_nextAll (sound_empty registry) before
    have hholds := holds_serve registry (nextAll registry empty before) key v
    have hsound := sound_nextAll (sound_serve hbefore key v) between
    have hcache : nextAll registry empty (before ++ .get key v :: between) =
        nextAll registry (serve registry (nextAll registry empty before) key v).2 between := by
      rw [nextAll, List.foldl_append]
      rfl
    have hkeeps : (∀ call ∈ between, call.Keeps key (·.fingerprint = v.fingerprint)) ↔
        ∀ call ∈ between, call.Keeps key (·.blurred = v.blurred) :=
      forall₂_congr fun call _ => keeps_congr (fun _ => Workbook.fingerprint_eq_iff) call
    rw [← hkeeps, ← Workbook.fingerprint_eq_iff, answer, hcache]
    rcases holds_nextAll_or_lacks hholds (sound_serve hbefore key v) between with
      ⟨hall, hheld⟩ | ⟨hsome, hlacks⟩
    · rw [answer, serve_eq_iff_of_holds hheld hsound]
      exact (and_iff_left hall).symm
    · exact iff_of_false (serve_ne_of_lacks hlacks w) fun hboth => hsome hboth.2

/-- A workbook of one cell. -/
def oneCell (v : Value) : Workbook := ⟨[("df", ⟨[("A", [v])], 1⟩)]⟩

/-- A session that was asked for a workbook with a cell that is no number hands its pipeline back
for the workbook in which the cell is missing. -/
theorem served_pipeline_missing_cell : oneCell (.float (0.0 / 0.0)) ≠ oneCell .null ∧
    answer ⟨[]⟩ [.get "w" (oneCell (.float (0.0 / 0.0)))] "w" (oneCell .null) =
      answer ⟨[]⟩ [] "w" (oneCell (.float (0.0 / 0.0))) := by
  have hfinite : (0.0 / 0.0 : Float).isFinite = false := by decide +kernel
  have hblurred : (oneCell (.float (0.0 / 0.0))).blurred = (oneCell .null).blurred := by
    simp [oneCell, Workbook.blurred, Frame.blurred, Value.blurredItems, Value.blurred, hfinite]
  refine ⟨by simp [oneCell], ?_⟩
  exact ((served_pipeline ⟨[]⟩ "w" (oneCell .null)).2 [] [] _).mpr
    ⟨hblurred.symm, List.forall_mem_nil _⟩

end SessionCache

end TableScript
