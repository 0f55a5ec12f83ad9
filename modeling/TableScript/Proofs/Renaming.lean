import TableScript.Proofs.Keyed
import TableScript.Chunk
import Mathlib.Data.List.Nodup
import Mathlib.Data.List.Sort

/-!
# Renaming columns, once and again

A renaming succeeds exactly if the new headers are distinct, and then every column has its new header
(`rename_made_iff`). So two mappings do the same to a frame if they send every header to the same name.

`composeRenamings` takes in the entries of the second mapping one after the other, and an entry that
leads from `o` goes to the *first* entry of the first mapping that leads to `o` by then. This is the
wrong one if an entry taken in before has led another header to `o` and that header stands earlier.
`Untangled` says that this does not happen, and it is exactly what composition needs
(`composeRenamings_iff`). It holds whenever the second mapping has one entry, as that of a single step.
-/

namespace TableScript

open TableScript.Frame

/-! ## What a mapping does to a header -/

namespace Frame

/-- A header that is not in the mapping stays. -/
theorem renamed_of_not_mem {mapping : Keyed String} {header : String} (h : header ∉ mapping.keys) :
    renamed mapping header = header := by
  rw [renamed, (Keyed.get?_eq_none_iff _ _).mpr h, Option.getD_none]

/-- A header in the mapping gets the name that stands with it. -/
theorem renamed_of_mem {mapping : Keyed String} (distinct : mapping.keys.Nodup) {old new : String}
    (h : (old, new) ∈ mapping) : renamed mapping old = new := by
  rw [renamed, Keyed.get?_of_mem distinct h, Option.getD_some]

/-- A header in the mapping stands there with its new name. -/
theorem mem_of_mem_keys {mapping : Keyed String} {old : String} (h : old ∈ mapping.keys) :
    (old, renamed mapping old) ∈ mapping := by
  cases hget : mapping.get? old with
  | none => exact absurd h ((Keyed.get?_eq_none_iff _ _).mp hget)
  | some new =>
    rw [renamed, hget, Option.getD_some]
    exact Keyed.mem_of_get? hget

/-- A pair put into a mapping decides for its header. -/
theorem renamed_put (mapping : Keyed String) (key new header : String) :
    renamed (mapping.put key new) header = if key = header then new else renamed mapping header := by
  rw [renamed, renamed, Keyed.get?_put]
  split <;> rfl

/-- So does a pair put at the end for a new header. -/
theorem renamed_append_single {mapping : Keyed String} {old : String} (h : old ∉ mapping.keys)
    (new header : String) : renamed (mapping ++ [(old, new)]) header =
      if old = header then new else renamed mapping header := by
  rw [← Keyed.put_of_not_mem h, renamed_put]

/-! ## When a renaming succeeds -/

/-- The columns under their new headers. -/
def renamedColumns (mapping : Keyed String) (columns : Keyed (List Value)) : Keyed (List Value) :=
  columns.map fun column => (renamed mapping column.1, column.2)

/-- The headers of renamed columns are the renamed headers. -/
theorem keys_renamedColumns (mapping : Keyed String) (columns : Keyed (List Value)) :
    (renamedColumns mapping columns).keys = columns.keys.map (renamed mapping) := by
  simp [renamedColumns, Keyed.keys, Function.comp_def]

/-- An empty mapping renames nothing. -/
theorem renamedColumns_nil (columns : Keyed (List Value)) : renamedColumns [] columns = columns :=
  List.map_id columns

/-- Columns are renamed one after the other exactly as long as no new header comes twice. -/
theorem renameAfter_eq_ok_iff (mapping : Keyed String) (done columns out : Keyed (List Value))
    (hdone : done.keys.Nodup) : renameAfter mapping done columns = .ok out ↔
      (done ++ renamedColumns mapping columns).keys.Nodup ∧
        out = done ++ renamedColumns mapping columns := by
  induction columns generalizing done with
  | nil =>
    rw [renameAfter]
    simp only [renamedColumns, List.map_nil, List.append_nil]
    constructor
    · intro h
      exact ⟨hdone, (Except.ok.inj h).symm⟩
    · rintro ⟨-, rfl⟩
      rfl
  | cons column rest ih =>
    obtain ⟨header, cells⟩ := column
    have hcons : done ++ renamedColumns mapping ((header, cells) :: rest) =
        done ++ [(renamed mapping header, cells)] ++ renamedColumns mapping rest := by
      simp [renamedColumns]
    have hstep : renameAfter mapping done ((header, cells) :: rest) =
        if done.has (renamed mapping header) then .error (.duplicateColumn (renamed mapping header))
        else renameAfter mapping (done ++ [(renamed mapping header, cells)]) rest := rfl
    rw [hstep, hcons]
    split
    case isTrue htaken =>
      constructor
      · intro h
        cases h
      · rintro ⟨hnodup, -⟩
        rw [Keyed.keys_append, Keyed.keys_append, List.append_assoc] at hnodup
        have hmem := (Keyed.has_iff _ _).mp htaken
        exact absurd rfl ((List.nodup_append.mp hnodup).2.2 _ hmem _ (by simp))
    case isFalse hfree =>
      refine ih _ ?_
      rw [← Keyed.put_of_not_mem (fun hmem => hfree ((Keyed.has_iff _ _).mpr hmem)) cells]
      exact Keyed.nodup_keys_put hdone _ _

/-- A renaming succeeds exactly if the new headers are distinct, and renames every column. -/
theorem rename_made_iff (f g : Frame) (mapping : Keyed String) : (f.rename mapping).made = .ok g ↔
    (f.headers.map (renamed mapping)).Nodup ∧ g = ⟨renamedColumns mapping f.columns, f.rows⟩ := by
  have hafter := fun out => renameAfter_eq_ok_iff mapping [] f.columns out List.nodup_nil
  simp only [List.nil_append, keys_renamedColumns] at hafter
  unfold rename
  cases hresult : renameAfter mapping [] f.columns with
  | error e =>
    constructor
    · intro h
      cases h
    · rintro ⟨hnodup, -⟩
      have hok := (hafter _).mpr ⟨hnodup, rfl⟩
      rw [hresult] at hok
      cases hok
  | ok columns =>
    obtain ⟨hnodup, rfl⟩ := (hafter columns).mp hresult
    constructor
    · intro h
      exact ⟨hnodup, (Except.ok.inj h).symm⟩
    · rintro ⟨-, rfl⟩
      rfl

/-- The headers after a renaming. -/
theorem headers_of_rename {f g : Frame} {mapping : Keyed String} (h : (f.rename mapping).made = .ok g) :
    g.headers = f.headers.map (renamed mapping) := by
  obtain ⟨-, rfl⟩ := (rename_made_iff f g mapping).mp h
  exact keys_renamedColumns mapping f.columns

/-- Headers that have distinct new names are distinct. -/
theorem nodup_headers_of_rename {f g : Frame} {mapping : Keyed String}
    (h : (f.rename mapping).made = .ok g) : f.headers.Nodup :=
  List.Nodup.of_map _ ((rename_made_iff f g mapping).mp h).1

/-- Two renamings are one that sends every header where they send it. -/
theorem rename_composed_iff {f g k : Frame} {first second composed : Keyed String}
    (hfirst : (f.rename first).made = .ok g) (hsecond : (g.rename second).made = .ok k) :
    (f.rename composed).made = .ok k ↔
      ∀ header ∈ f.headers, renamed composed header = renamed second (renamed first header) := by
  obtain ⟨-, rfl⟩ := (rename_made_iff f g first).mp hfirst
  obtain ⟨hnodup, rfl⟩ := (rename_made_iff _ k second).mp hsecond
  have hheaders : (Frame.mk (renamedColumns first f.columns) f.rows).headers =
      f.headers.map (renamed first) := keys_renamedColumns first f.columns
  rw [hheaders, List.map_map] at hnodup
  rw [rename_made_iff]
  constructor
  · rintro ⟨-, heq⟩ header hheader
    have hkeys := congrArg (fun g : Frame => g.columns.keys) heq
    simp only [keys_renamedColumns, List.map_map] at hkeys
    exact ((List.map_inj_left.mp hkeys) header hheader).symm
  · intro hall
    have hmap : f.headers.map (renamed composed) = f.headers.map (renamed second ∘ renamed first) :=
      List.map_congr_left hall
    refine ⟨hmap ▸ hnodup, ?_⟩
    have hcolumns : renamedColumns second (renamedColumns first f.columns) =
        renamedColumns composed f.columns := by
      unfold renamedColumns
      rw [List.map_map]
      refine List.map_congr_left fun column hcolumn => ?_
      have hheader : column.1 ∈ f.headers := List.mem_map_of_mem hcolumn
      simp only [Function.comp_apply, hall _ hheader]
    rw [hcolumns]

end Frame

namespace Chunk

/-! ## Taking in one entry -/

/-- The header whose entry is changed when an entry that leads from `old` is taken in. -/
def picked (mapping : Keyed String) (old : String) : String :=
  ((mapping.find? fun entry => entry.2 = old).map (·.1)).getD old

/-- Redirecting the first pair to a header is putting in another new name for it. -/
theorem redirectFirst_eq {mapping : Keyed String} (distinct : mapping.keys.Nodup) {old : String}
    {entry : String × String} (h : mapping.find? (fun entry => entry.2 = old) = some entry)
    (new : String) : redirect.redirectFirst old new mapping = mapping.put entry.1 new := by
  induction mapping with
  | nil => cases h
  | cons first rest ih =>
    obtain ⟨source, target⟩ := first
    rw [Keyed.keys_cons, List.nodup_cons] at distinct
    rw [redirect.redirectFirst]
    by_cases htarget : target = old
    · rw [List.find?_cons_of_pos (by simpa using htarget)] at h
      cases h
      simp [htarget, Keyed.put]
    · rw [List.find?_cons_of_neg (by simpa using htarget)] at h
      have hne : source ≠ entry.1 := by
        rintro rfl
        exact distinct.1 (Keyed.mem_keys_of_mem (List.mem_of_find?_eq_some h))
      rw [if_neg htarget, ih distinct.2 h, Keyed.put, if_neg hne]

/-- Taking in an entry sets one entry. -/
theorem redirect_eq_put {mapping : Keyed String} (distinct : mapping.keys.Nodup) (old new : String) :
    redirect mapping old new = mapping.put (picked mapping old) new := by
  unfold redirect picked
  cases hfind : mapping.find? fun entry => entry.2 = old with
  | none =>
    have hnone : (mapping.any fun entry => entry.2 = old) = false := by
      rw [List.any_eq_false]
      intro entry hentry
      exact List.find?_eq_none.mp hfind entry hentry
    rw [if_neg (by rw [hnone]; exact Bool.false_ne_true)]
    rfl
  | some entry =>
    have htarget := List.find?_some hfind
    have hany : (mapping.any fun entry => entry.2 = old) = true :=
      List.any_eq_true.mpr ⟨entry, List.mem_of_find?_eq_some hfind, htarget⟩
    rw [if_pos hany]
    exact redirectFirst_eq distinct hfind new

/-- An entry is picked exactly if no earlier one leads to the same header. -/
theorem picked_eq_iff {mapping : Keyed String} (distinct : mapping.keys.Nodup) {i : Nat}
    (hi : i < mapping.length) {source old : String} (hentry : mapping[i] = (source, old)) :
    picked mapping old = source ↔ ∀ (j : Nat) (hj : j < i), mapping[j].2 ≠ old := by
  have hfound : (mapping.find? fun entry => entry.2 = old).isSome = true := by
    rw [List.find?_isSome]
    exact ⟨mapping[i], List.getElem_mem hi, by simp [hentry]⟩
  obtain ⟨found, hfind⟩ := Option.isSome_iff_exists.mp hfound
  obtain ⟨-, k, hk, hget, hbefore⟩ := List.find?_eq_some_iff_getElem.mp hfind
  have hpicked : picked mapping old = found.1 := by rw [picked, hfind]; rfl
  constructor
  · intro h j hj
    have hnodup : (mapping.map (·.1)).Nodup := distinct
    have hsame : (mapping.map (·.1))[k]? = (mapping.map (·.1))[i]? := by
      rw [List.getElem?_map, List.getElem?_map, List.getElem?_eq_getElem hk, List.getElem?_eq_getElem hi,
        Option.map_some, Option.map_some, hget, hentry, ← hpicked, h]
    obtain rfl : k = i := (List.getElem?_inj (by simpa using hk) hnodup).mp hsame
    simpa using hbefore j hj
  · intro hnone
    have hki : ¬ i < k := fun hlt => by simpa [hentry] using hbefore i hlt
    have hik : ¬ k < i := fun hlt => hnone k hlt (by
      have htarget := List.find?_some hfind
      rw [hget]
      simpa using htarget)
    obtain rfl : i = k := by omega
    rw [hpicked, ← hget, hentry]

/-- The picked header leads to the wanted one, or is that itself and nothing leads there. -/
theorem picked_cases {mapping : Keyed String} (distinct : mapping.keys.Nodup) (old : String) :
    (picked mapping old ∈ mapping.keys ∧ renamed mapping (picked mapping old) = old) ∨
      (picked mapping old = old ∧ ∀ header ∈ mapping.keys, renamed mapping header ≠ old) := by
  unfold picked
  cases hfind : mapping.find? fun entry => entry.2 = old with
  | none =>
    refine Or.inr ⟨rfl, fun header hheader heq => ?_⟩
    exact absurd heq (by simpa using List.find?_eq_none.mp hfind _ (mem_of_mem_keys hheader))
  | some entry =>
    have hmem := List.mem_of_find?_eq_some hfind
    have htarget : entry.2 = old := by simpa using List.find?_some hfind
    exact Or.inl ⟨Keyed.mem_keys_of_mem hmem, htarget ▸ renamed_of_mem distinct hmem⟩

/-! ## Composing -/

/-- Where the first entry that leads to a header stands, or one past the last if none does. -/
def targetRank (mapping : Keyed String) (header : String) : Nat := (mapping.map (·.2)).idxOf header

/-- No entry that is taken in leads to a header that a later one leads from, unless the entry for that
later one stands earlier in the first mapping. -/
def Untangled (first second : Keyed String) : Prop :=
  second.Pairwise fun a b => a.2 = b.1 → targetRank first b.1 < targetRank first a.1

instance (first second : Keyed String) : Decidable (Untangled first second) :=
  inferInstanceAs (Decidable (second.Pairwise _))

/-- One entry is never tangled. -/
theorem untangled_of_length_le_one (first : Keyed String) {second : Keyed String}
    (h : second.length ≤ 1) : Untangled first second := by
  match second, h with
  | [], _ => exact List.Pairwise.nil
  | [entry], _ => exact List.pairwise_singleton _ _

/-- A mapping for some headers: each has one entry at most, and the new headers are distinct. -/
structure Renames (headers : List String) (mapping : Keyed String) : Prop where
  keys : mapping.keys.Nodup
  among : ∀ header ∈ mapping.keys, header ∈ headers
  distinct : (headers.map (renamed mapping)).Nodup

/-- Two headers with one new name are one. -/
theorem Renames.inj {headers : List String} {mapping : Keyed String} (h : Renames headers mapping)
    {a b : String} (ha : a ∈ headers) (hb : b ∈ headers) (heq : renamed mapping a = renamed mapping b) :
    a = b := List.inj_on_of_nodup_map h.distinct ha hb heq

/-- The headers that entries lead to are distinct. -/
theorem Renames.nodup_targets {headers : List String} {mapping : Keyed String}
    (h : Renames headers mapping) : (mapping.map (·.2)).Nodup := by
  have htargets : mapping.map (·.2) = mapping.keys.map (renamed mapping) := by
    rw [Keyed.keys, List.map_map]
    exact List.map_congr_left fun entry hentry => (renamed_of_mem h.keys hentry).symm
  rw [htargets]
  exact h.keys.map_on fun a ha b hb heq => h.inj (h.among a ha) (h.among b hb) heq

/-- The rank of the new name of a header is where its entry stands. -/
theorem Renames.targetRank_eq {headers : List String} {mapping : Keyed String}
    (h : Renames headers mapping) {i : Nat} (hi : i < mapping.length) {old new : String}
    (hentry : mapping[i] = (old, new)) : targetRank mapping new = i := by
  have hlength : i < (mapping.map (·.2)).length := by rwa [List.length_map]
  have hget : (mapping.map (·.2))[i] = new := by rw [List.getElem_map, hentry]
  rw [targetRank, ← hget]
  exact h.nodup_targets.idxOf_getElem i hlength

/-- A name that no header without an entry has is led to by no entry. -/
theorem Renames.targetRank_of_not_mem {headers : List String} {mapping : Keyed String}
    (h : Renames headers mapping) {header : String} (hheader : header ∈ headers)
    (hfree : header ∉ mapping.keys) : targetRank mapping header = mapping.length := by
  rw [targetRank, ← List.length_map (·.2)]
  refine List.idxOf_eq_length fun hmem => ?_
  obtain ⟨⟨old, new⟩, hentry, heq⟩ := List.mem_map.mp hmem
  obtain rfl : new = header := heq
  have hold : old ∈ mapping.keys := Keyed.mem_keys_of_mem hentry
  have hsame : old = new := h.inj (h.among old hold) hheader
    ((renamed_of_mem h.keys hentry).trans (renamed_of_not_mem hfree).symm)
  exact hfree (hsame ▸ hold)

section Composing

variable {headers : List String} {first : Keyed String}

/-- What holds of a mapping while entries are taken in, even if wrong entries are changed: headers whose
turn is still to come have the names that the first mapping gives them. -/
structure Waiting (headers : List String) (first done mapping : Keyed String) : Prop where
  keys : mapping.keys.Nodup
  waiting : ∀ header ∈ headers, renamed first header ∉ done.keys →
    renamed mapping header = renamed first header

/-- The header that is picked is the one whose turn it is, or one whose turn was before. -/
theorem Waiting.renamed_picked {done mapping : Keyed String} (h : Waiting headers first done mapping)
    {source old : String} (hsource : source ∈ headers) (hold : renamed first source = old)
    (hnew : old ∉ done.keys) :
    (picked mapping old ∈ mapping.keys ∧ renamed mapping (picked mapping old) = old) ∨
      (picked mapping old = source ∧ source = old ∧ old ∉ mapping.keys) := by
  rcases picked_cases h.keys old with hpicked | ⟨hself, hnone⟩
  · exact Or.inl hpicked
  · have hname : renamed mapping source = old :=
      (h.waiting source hsource (hold ▸ hnew)).trans hold
    have hfree : source ∉ mapping.keys := fun hmem => hnone source hmem hname
    have heq : source = old := (renamed_of_not_mem hfree).symm.trans hname
    exact Or.inr ⟨hself.trans heq.symm, heq, heq ▸ hfree⟩

/-- Headers whose turn is still to come keep their names when an entry is taken in. -/
theorem Waiting.step {done mapping : Keyed String} (h : Waiting headers first done mapping)
    {source old : String} (hsource : source ∈ headers) (hold : renamed first source = old)
    (hnew : old ∉ done.keys) (new : String) :
    Waiting headers first (done ++ [(old, new)]) (redirect mapping old new) := by
  rw [redirect_eq_put h.keys]
  refine ⟨Keyed.nodup_keys_put h.keys _ _, fun header hheader hlater => ?_⟩
  rw [Keyed.keys_append, List.mem_append, not_or] at hlater
  have hwait := h.waiting header hheader hlater.1
  have hother : renamed first header ≠ old := fun heq => hlater.2 (by simp [heq])
  have hne : picked mapping old ≠ header := by
    rintro rfl
    rcases h.renamed_picked hsource hold hnew with ⟨-, hname⟩ | ⟨hpicked, -, -⟩
    · exact hother (hwait ▸ hname)
    · exact hother (hpicked ▸ hold)
  rw [renamed_put, if_neg hne, hwait]

/-- A header that keeps a name after its turn keeps it for good. -/
theorem Waiting.stuck (second : Keyed String) {done mapping : Keyed String}
    (h : Waiting headers first done mapping) (hnodup : (done ++ second).keys.Nodup)
    (hsources : ∀ old ∈ second.keys, ∃ source ∈ headers, renamed first source = old)
    {header : String} (hheader : header ∈ headers) (hturn : renamed first header ∈ done.keys)
    (hkept : renamed mapping header = renamed first header) :
    renamed (second.foldl (fun mapping entry => redirect mapping entry.1 entry.2) mapping) header =
      renamed first header := by
  induction second generalizing done mapping with
  | nil => exact hkept
  | cons entry rest ih =>
    obtain ⟨old, new⟩ := entry
    rw [Keyed.keys_append, Keyed.keys_cons] at hnodup
    have hnew : old ∉ done.keys := fun hmem => (List.nodup_append.mp hnodup).2.2 _ hmem _ (by simp) rfl
    obtain ⟨source, hsource, hold⟩ := hsources old (by simp)
    have hother : renamed first header ≠ old := fun heq => hnew (heq ▸ hturn)
    refine ih (h.step hsource hold hnew new) ?_ (fun o ho => hsources o (by simp [ho])) ?_ ?_
    · simpa [Keyed.keys] using hnodup
    · rw [Keyed.keys_append]
      exact List.mem_append_left _ hturn
    · have hne : picked mapping old ≠ header := by
        rintro rfl
        rcases h.renamed_picked hsource hold hnew with ⟨-, hname⟩ | ⟨hpicked, -, -⟩
        · exact hother (hkept ▸ hname)
        · exact hother (hpicked ▸ hold)
      simp only [redirect_eq_put h.keys, renamed_put, if_neg hne, hkept]

/-- What holds of a mapping while the right entries are changed: it does to every header what the first
mapping and the entries taken in do, and its keys are those of the first mapping and then others. -/
structure Composed (headers : List String) (first done mapping : Keyed String) : Prop where
  keys : mapping.keys.Nodup
  among : ∀ header ∈ mapping.keys, header ∈ headers
  shape : ∃ extra, mapping.keys = first.keys ++ extra ∧ ∀ header ∈ extra, header ∈ done.keys
  right : ∀ header ∈ headers, renamed mapping header = renamed done (renamed first header)

/-- Before any entry is taken in. -/
theorem composed_nil (hfirst : Renames headers first) : Composed headers first [] first where
  keys := hfirst.keys
  among := hfirst.among
  shape := ⟨[], by simp, by simp⟩
  right _ _ := (renamed_of_not_mem (by simp)).symm

/-- While the right entries are changed, headers whose turn is still to come keep their names. -/
theorem Composed.waiting {done mapping : Keyed String} (h : Composed headers first done mapping) :
    Waiting headers first done mapping :=
  ⟨h.keys, fun header hheader hlater => (h.right header hheader).trans (renamed_of_not_mem hlater)⟩

/-- The headers with a name are the one whose turn it is, and those that were led there before. -/
theorem Composed.eq_or_mem {done mapping : Keyed String} (h : Composed headers first done mapping)
    (hfirst : Renames headers first) {source old header : String} (hsource : source ∈ headers)
    (hold : renamed first source = old) (hheader : header ∈ headers)
    (hname : renamed mapping header = old) :
    header = source ∨ (renamed first header, old) ∈ done := by
  rw [h.right header hheader] at hname
  by_cases hturn : renamed first header ∈ done.keys
  · exact Or.inr (hname ▸ mem_of_mem_keys hturn)
  · rw [renamed_of_not_mem hturn] at hname
    exact Or.inl (hfirst.inj hheader hsource (hname.trans hold.symm))

/-- The header whose turn it is has an entry exactly if it had one in the first mapping. -/
theorem Composed.mem_keys_iff {done mapping : Keyed String} (h : Composed headers first done mapping)
    {source old : String} (hold : renamed first source = old) (hnew : old ∉ done.keys) :
    source ∈ mapping.keys ↔ source ∈ first.keys := by
  obtain ⟨extra, hkeys, hextra⟩ := h.shape
  rw [hkeys, List.mem_append]
  refine ⟨?_, Or.inl⟩
  rintro (hmem | hmem)
  · exact hmem
  · by_contra hfree
    have hself : source = old := (renamed_of_not_mem hfree).symm.trans hold
    exact hnew (hself ▸ hextra source hmem)

/-- The entries of the first mapping stay where they stand. -/
theorem Composed.getElem_fst {done mapping : Keyed String} (h : Composed headers first done mapping)
    {i : Nat} (hi : i < first.length) :
    ∃ hi' : i < mapping.length, mapping[i].1 = first[i].1 := by
  obtain ⟨extra, hkeys, -⟩ := h.shape
  have hlength : mapping.length = first.length + extra.length := by
    simpa [Keyed.keys] using congrArg List.length hkeys
  have hi' : i < mapping.length := by omega
  refine ⟨hi', ?_⟩
  have hget : (mapping.map (·.1))[i]? = (first.map (·.1) ++ extra)[i]? := congrArg (·[i]?) hkeys
  rw [List.getElem?_append_left (by simpa using hi), List.getElem?_map, List.getElem?_map,
    List.getElem?_eq_getElem hi', List.getElem?_eq_getElem hi] at hget
  exact Option.some.inj hget

/-- An entry that was taken in has led a header to its name, by an entry of the mapping. -/
theorem Composed.exists_led {done mapping : Keyed String} (h : Composed headers first done mapping)
    (hdone : done.keys.Nodup) {entry : String × String} (hentry : entry ∈ done)
    (hproper : entry.1 ≠ entry.2)
    (hsources : ∀ o ∈ done.keys, ∃ source ∈ headers, renamed first source = o) :
    ∃ other ∈ headers, renamed first other = entry.1 ∧ renamed mapping other = entry.2 ∧
      other ∈ mapping.keys := by
  obtain ⟨other, hother, hsame⟩ := hsources entry.1 (Keyed.mem_keys_of_mem hentry)
  have hname : renamed mapping other = entry.2 := by
    rw [h.right other hother, hsame]
    exact renamed_of_mem hdone hentry
  refine ⟨other, hother, hsame, hname, ?_⟩
  by_contra hfree
  have hfree' : other ∉ first.keys := by
    obtain ⟨extra, hkeys, -⟩ := h.shape
    exact fun hmem => hfree (hkeys ▸ List.mem_append_left _ hmem)
  rw [renamed_of_not_mem hfree] at hname
  rw [renamed_of_not_mem hfree'] at hsame
  exact hproper (hsame.symm.trans hname)

/-- An entry of the first mapping, by the rank of the header it leads to, and the entry in its place. -/
theorem Composed.exists_place {done mapping : Keyed String} (h : Composed headers first done mapping)
    (hfirst : Renames headers first) {header : String} (hmem : header ∈ first.keys) :
    ∃ i, ∃ (_ : i < first.length) (hi : i < mapping.length),
      targetRank first (renamed first header) = i ∧
        mapping[i] = (header, renamed mapping header) := by
  obtain ⟨i, hi, hget⟩ := List.getElem_of_mem (mem_of_mem_keys hmem)
  obtain ⟨hi', hfst⟩ := h.getElem_fst hi
  rw [hget] at hfst
  refine ⟨i, hi, hi', hfirst.targetRank_eq hi hget, Prod.ext hfst ?_⟩
  have hentry : (mapping[i].1, mapping[i].2) ∈ mapping := List.getElem_mem hi'
  rw [← renamed_of_mem h.keys hentry, hfst]

/-- The entry of a header of the first mapping stands at its rank, and is picked if none before it leads to
the same name. -/
theorem Composed.picked_iff_of_mem {done mapping : Keyed String} (h : Composed headers first done mapping)
    (hfirst : Renames headers first) (hdone : done.keys.Nodup)
    (hproper : ∀ entry ∈ done, entry.1 ≠ entry.2)
    (hsources : ∀ o ∈ done.keys, ∃ source ∈ headers, renamed first source = o)
    {source old : String} (hsource : source ∈ headers) (hold : renamed first source = old)
    (hname : renamed mapping source = old) (hmem : source ∈ first.keys) : picked mapping old = source ↔
      ∀ entry ∈ done, entry.2 = old → targetRank first old < targetRank first entry.1 := by
  obtain ⟨i, hi, hi', hrank, hget⟩ := h.exists_place hfirst hmem
  rw [hold] at hrank
  rw [hname] at hget
  rw [picked_eq_iff h.keys hi' hget, hrank]
  -- the name is picked at the first entry that leads to it, and entries stand at the ranks of old names
  constructor
  · intro hnone entry hentry htarget
    obtain ⟨other, hother, hsame, hothername, -⟩ :=
      h.exists_led hdone hentry (hproper entry hentry) hsources
    by_cases hotherfirst : other ∈ first.keys
    · obtain ⟨j, hj, hj', hrankother, hgetj⟩ := h.exists_place hfirst hotherfirst
      rw [← hsame, hrankother]
      have hge : ¬ j < i := fun hlt => hnone j hlt (by rw [hgetj, hothername, htarget])
      -- two entries at one place would be one, and then this one led from a name to itself
      have hne : i ≠ j := by
        rintro rfl
        have hothersource : source = other := (Prod.mk.inj (hget.symm.trans hgetj)).1
        exact hproper entry hentry
          (hsame.symm.trans (hothersource ▸ hold.trans htarget.symm))
      omega
    · rw [← hsame, renamed_of_not_mem hotherfirst,
        hfirst.targetRank_of_not_mem hother hotherfirst]
      exact hi
  · intro hranks j hj hsnd
    have hj' : j < first.length := by omega
    have hentry : (mapping[j].1, mapping[j].2) ∈ mapping := List.getElem_mem _
    have hnamej : renamed mapping mapping[j].1 = old := by rw [renamed_of_mem h.keys hentry, hsnd]
    obtain ⟨_, hfst⟩ := h.getElem_fst hj'
    have hgetj : first[j] = (mapping[j].1, renamed first mapping[j].1) := by
      have hentry : (first[j].1, first[j].2) ∈ first := List.getElem_mem hj'
      rw [hfst, renamed_of_mem hfirst.keys hentry]
    have hrankj := hfirst.targetRank_eq hj' hgetj
    have hheaderj := h.among _ (Keyed.mem_keys_of_mem hentry)
    rcases h.eq_or_mem hfirst hsource hold hheaderj hnamej with heq | hdonej
    · rw [heq, hold] at hrankj
      omega
    · have hlt : i < targetRank first (renamed first mapping[j].1) := hranks _ hdonej rfl
      omega

/-- A header without an entry in the first mapping is picked if no entry at all leads to its name. -/
theorem Composed.picked_iff_of_not_mem {done mapping : Keyed String}
    (h : Composed headers first done mapping) (hfirst : Renames headers first) (hdone : done.keys.Nodup)
    (hproper : ∀ entry ∈ done, entry.1 ≠ entry.2)
    (hsources : ∀ o ∈ done.keys, ∃ source ∈ headers, renamed first source = o)
    {source old : String} (hsource : source ∈ headers) (hold : renamed first source = old)
    (hnew : old ∉ done.keys) (hmem : source ∉ first.keys) : picked mapping old = source ↔
      ∀ entry ∈ done, entry.2 = old → targetRank first old < targetRank first entry.1 := by
  have hself : source = old := (renamed_of_not_mem hmem).symm.trans hold
  have hrank : targetRank first old = first.length := hself ▸ hfirst.targetRank_of_not_mem hsource hmem
  rw [hrank]
  constructor
  · intro hpicked entry hentry htarget
    obtain ⟨other, -, -, hothername, hothermem⟩ :=
      h.exists_led hdone hentry (hproper entry hentry) hsources
    rcases picked_cases h.keys old with ⟨hmem', -⟩ | ⟨-, hnone⟩
    · exact absurd ((h.mem_keys_iff hold hnew).mp (hpicked ▸ hmem')) hmem
    · exact absurd (hothername.trans htarget) (hnone other hothermem)
  · intro hranks
    rcases picked_cases h.keys old with ⟨hmem', hpickedname⟩ | ⟨hpicked, -⟩
    · rcases h.eq_or_mem hfirst hsource hold (h.among _ hmem') hpickedname with heq | hentry
      · exact heq
      · have hlt : first.length < targetRank first (renamed first (picked mapping old)) :=
          hranks _ hentry rfl
        have hle : targetRank first (renamed first (picked mapping old)) ≤ first.length := by
          rw [targetRank, ← List.length_map (·.2)]
          exact List.idxOf_le_length
        omega
    · exact hpicked.trans hself.symm

/-- The right entry is picked exactly if no header that was led to the same name before stands
earlier. -/
theorem Composed.picked_iff {done mapping : Keyed String} (h : Composed headers first done mapping)
    (hfirst : Renames headers first) (hdone : done.keys.Nodup)
    (hproper : ∀ entry ∈ done, entry.1 ≠ entry.2)
    (hsources : ∀ o ∈ done.keys, ∃ source ∈ headers, renamed first source = o)
    {source old : String} (hsource : source ∈ headers) (hold : renamed first source = old)
    (hnew : old ∉ done.keys) : picked mapping old = source ↔
      ∀ entry ∈ done, entry.2 = old → targetRank first old < targetRank first entry.1 := by
  by_cases hmem : source ∈ first.keys
  · have hname : renamed mapping source = old := by
      rw [h.right source hsource, hold, renamed_of_not_mem hnew]
    exact h.picked_iff_of_mem hfirst hdone hproper hsources hsource hold hname hmem
  · exact h.picked_iff_of_not_mem hfirst hdone hproper hsources hsource hold hnew hmem

/-- Changing the right entry takes the entry in. -/
theorem Composed.step {done mapping : Keyed String} (h : Composed headers first done mapping)
    (hfirst : Renames headers first) {source old : String} (hsource : source ∈ headers)
    (hold : renamed first source = old) (hnew : old ∉ done.keys)
    (hpicked : picked mapping old = source) (new : String) :
    Composed headers first (done ++ [(old, new)]) (redirect mapping old new) := by
  rw [redirect_eq_put h.keys, hpicked]
  obtain ⟨extra, hkeys, hextra⟩ := h.shape
  refine ⟨Keyed.nodup_keys_put h.keys _ _, fun header hheader => ?_, ?_, fun header hheader => ?_⟩
  · rcases (Keyed.mem_keys_put _ _ _ _).mp hheader with rfl | hmem
    · exact hsource
    · exact h.among header hmem
  · by_cases hmem : source ∈ mapping.keys
    · refine ⟨extra, by rw [Keyed.keys_put_of_mem hmem, hkeys], fun header hheader => ?_⟩
      rw [Keyed.keys_append]
      exact List.mem_append_left _ (hextra header hheader)
    · refine ⟨extra ++ [source], ?_, fun header hheader => ?_⟩
      · rw [Keyed.keys_put_of_not_mem hmem, hkeys, List.append_assoc]
      · rw [Keyed.keys_append]
        rcases List.mem_append.mp hheader with hheader | hheader
        · exact List.mem_append_left _ (hextra header hheader)
        · have hfree : source ∉ first.keys := fun h' => hmem (hkeys ▸ List.mem_append_left _ h')
          have hself : source = old := (renamed_of_not_mem hfree).symm.trans hold
          rw [List.mem_singleton.mp hheader, hself]
          simp
  · rw [renamed_put, renamed_append_single hnew]
    by_cases heq : source = header
    · rw [if_pos heq, if_pos (heq ▸ hold.symm)]
    · have hother : old ≠ renamed first header := fun hsame =>
        heq (hfirst.inj hsource hheader (hold.trans hsame))
      rw [if_neg heq, if_neg hother, h.right header hheader]

/-- All entries of one mapping taken into another. -/
def takeIn (first second : Keyed String) : Keyed String :=
  second.foldl (fun mapping entry => redirect mapping entry.1 entry.2) first

/-- The keys stay distinct, whatever entries are changed. -/
theorem Waiting.nodup_keys_takeIn (second : Keyed String) {done mapping : Keyed String}
    (h : Waiting headers first done mapping) (hnodup : (done ++ second).keys.Nodup)
    (hsources : ∀ old ∈ second.keys, ∃ source ∈ headers, renamed first source = old) :
    (takeIn mapping second).keys.Nodup := by
  induction second generalizing done mapping with
  | nil => exact h.keys
  | cons entry rest ih =>
    obtain ⟨old, new⟩ := entry
    rw [Keyed.keys_append, Keyed.keys_cons] at hnodup
    have hnew : old ∉ done.keys := fun hmem => (List.nodup_append.mp hnodup).2.2 _ hmem _ (by simp) rfl
    obtain ⟨source, hsource, hold⟩ := hsources old (by simp)
    exact ih (h.step hsource hold hnew new) (by simpa [Keyed.keys] using hnodup)
      (fun o ho => hsources o (by simp [ho]))

/-- Untangled entries are taken in rightly, one after the other. -/
theorem Composed.takeIn_of_untangled (second : Keyed String) {done mapping : Keyed String}
    (h : Composed headers first done mapping) (hfirst : Renames headers first)
    (hnodup : (done ++ second).keys.Nodup) (hproper : ∀ entry ∈ done ++ second, entry.1 ≠ entry.2)
    (hsources : ∀ old ∈ (done ++ second).keys, ∃ source ∈ headers, renamed first source = old)
    (huntangled : Untangled first (done ++ second)) :
    Composed headers first (done ++ second) (takeIn mapping second) := by
  induction second generalizing done mapping with
  | nil => rwa [List.append_nil]
  | cons entry rest ih =>
    obtain ⟨old, new⟩ := entry
    have hassoc : done ++ (old, new) :: rest = done ++ [(old, new)] ++ rest := by simp
    have hkeys := hnodup
    rw [Keyed.keys_append, Keyed.keys_cons] at hkeys
    have hdisjoint := List.nodup_append.mp hkeys
    have hnew : old ∉ done.keys := fun hmem => hdisjoint.2.2 _ hmem _ (by simp) rfl
    obtain ⟨source, hsource, hold⟩ := hsources old (by simp [Keyed.keys_append])
    have hpicked := (h.picked_iff hfirst hdisjoint.1 (fun e he => hproper e (by simp [he]))
      (fun o ho => hsources o (by simp [Keyed.keys_append, ho])) hsource hold hnew).mpr
      fun e he => (List.pairwise_append.mp huntangled).2.2 e he (old, new) (by simp)
    rw [hassoc] at hnodup hproper hsources huntangled ⊢
    exact ih (h.step hfirst hsource hold hnew hpicked new) hnodup hproper hsources huntangled

/-- Entries that are taken in rightly are untangled. -/
theorem Composed.untangled_of_takeIn (second : Keyed String) {done mapping : Keyed String}
    (h : Composed headers first done mapping) (hfirst : Renames headers first)
    (hnodup : (done ++ second).keys.Nodup) (hproper : ∀ entry ∈ done ++ second, entry.1 ≠ entry.2)
    (hsources : ∀ old ∈ (done ++ second).keys, ∃ source ∈ headers, renamed first source = old)
    (hdone : Untangled first done) (hright : ∀ header ∈ headers,
      renamed (takeIn mapping second) header = renamed (done ++ second) (renamed first header)) :
    Untangled first (done ++ second) := by
  induction second generalizing done mapping with
  | nil => rwa [List.append_nil]
  | cons entry rest ih =>
    obtain ⟨old, new⟩ := entry
    have hassoc : done ++ (old, new) :: rest = done ++ [(old, new)] ++ rest := by simp
    have hkeys := hnodup
    rw [Keyed.keys_append, Keyed.keys_cons] at hkeys
    have hdisjoint := List.nodup_append.mp hkeys
    have hnew : old ∉ done.keys := fun hmem => hdisjoint.2.2 _ hmem _ (by simp) rfl
    obtain ⟨source, hsource, hold⟩ := hsources old (by simp [Keyed.keys_append])
    have hpicked : picked mapping old = source := by
      -- otherwise the source keeps its name for good, and it should have got another one
      by_contra hwrong
      have hname : renamed (redirect mapping old new) source = renamed first source := by
        rw [redirect_eq_put h.keys, renamed_put, if_neg hwrong, h.right source hsource, hold,
          renamed_of_not_mem hnew]
      have hstuck := (h.waiting.step hsource hold hnew new).stuck rest
        (by rw [← hassoc]; exact hnodup)
        (fun o ho => hsources o (by simp [Keyed.keys_append, ho])) hsource
        (by simp [Keyed.keys_append, hold]) hname
      have hwanted := hright source hsource
      rw [hold, renamed_of_mem hnodup (show (old, new) ∈ done ++ (old, new) :: rest by simp)] at hwanted
      exact hproper (old, new) (by simp) (hold.symm.trans (hstuck.symm.trans hwanted))
    have hranks := (h.picked_iff hfirst hdisjoint.1 (fun e he => hproper e (by simp [he]))
      (fun o ho => hsources o (by simp [Keyed.keys_append, ho])) hsource hold hnew).mp hpicked
    have hdone' : Untangled first (done ++ [(old, new)]) := by
      refine List.pairwise_append.mpr ⟨hdone, List.pairwise_singleton _ _, fun a ha b hb => ?_⟩
      obtain rfl := List.mem_singleton.mp hb
      exact hranks a ha
    rw [hassoc] at hnodup hproper hsources hright ⊢
    exact ih (h.step hfirst hsource hold hnew hpicked new) hnodup hproper hsources hdone' hright

end Composing

/-! ## The composed mapping -/

/-- Entries that lead nowhere else do nothing. -/
theorem renamed_filter {mapping : Keyed String} (distinct : mapping.keys.Nodup) (header : String) :
    renamed (mapping.filter fun entry => entry.1 ≠ entry.2) header = renamed mapping header := by
  have hsub : (Keyed.keys (mapping.filter fun entry => entry.1 ≠ entry.2)).Sublist mapping.keys :=
    List.filter_sublist.map _
  by_cases hmem : header ∈ mapping.keys
  · by_cases hproper : header = renamed mapping header
    · rw [← hproper, renamed_of_not_mem]
      intro hkept
      obtain ⟨entry, hentry, heq⟩ := List.mem_map.mp hkept
      obtain ⟨hentry, hne⟩ := List.mem_filter.mp hentry
      have htarget : renamed mapping entry.1 = entry.2 := renamed_of_mem distinct hentry
      simp only [ne_eq, decide_not, Bool.not_eq_true', decide_eq_false_iff_not] at hne
      subst heq
      exact hne (hproper.trans htarget)
    · refine renamed_of_mem (distinct.sublist hsub) (List.mem_filter.mpr ⟨mem_of_mem_keys hmem, ?_⟩)
      simpa using hproper
  · rw [renamed_of_not_mem hmem, renamed_of_not_mem fun hkept => hmem (hsub.subset hkept)]

/-- Putting a mapping in the order of headers only changes its order. -/
theorem inHeaderOrder_perm (headers : List String) (mapping : Keyed String) :
    (inHeaderOrder headers mapping).Perm mapping := List.mergeSort_perm _ _

/-- The order of entries does not matter to what they do. -/
theorem renamed_inHeaderOrder {mapping : Keyed String} (distinct : mapping.keys.Nodup)
    (headers : List String) (header : String) :
    renamed (inHeaderOrder headers mapping) header = renamed mapping header := by
  have hperm := inHeaderOrder_perm headers mapping
  have hnodup : (inHeaderOrder headers mapping).keys.Nodup := (hperm.map _).nodup_iff.mpr distinct
  rw [renamed, renamed, Keyed.get?_of_perm hperm hnodup]

/-- Every entry of a mapping for the new headers has a header that it is about. -/
theorem sources_of_renames {headers : List String} {first second : Keyed String}
    (hsecond : Renames (headers.map (renamed first)) second) :
    ∀ old ∈ second.keys, ∃ source ∈ headers, renamed first source = old := fun old hold =>
  List.mem_map.mp (hsecond.among old hold)

section Compose

variable {headers : List String} {first second : Keyed String} (hfirst : Renames headers first)
  (hsecond : Renames (headers.map (renamed first)) second)
include hfirst hsecond

/-- Taking in one mapping after the other keeps the headers distinct. -/
theorem nodup_keys_takeIn : (takeIn first second).keys.Nodup :=
  (composed_nil hfirst).waiting.nodup_keys_takeIn second (by simpa using hsecond.keys)
    (sources_of_renames hsecond)

/-- What the composed mapping does is what the entries taken in do. -/
theorem renamed_composeRenamings (order : List String) (header : String) :
    renamed (composeRenamings order first second) header = renamed (takeIn first second) header := by
  have hnodup := nodup_keys_takeIn hfirst hsecond
  have hfiltered : (Keyed.keys ((takeIn first second).filter fun entry => entry.1 ≠ entry.2)).Nodup :=
    hnodup.sublist (List.filter_sublist.map _)
  exact (renamed_inHeaderOrder hfiltered order header).trans (renamed_filter hnodup header)

/-- The composed mapping has distinct headers and renames each of them. -/
theorem composeRenamings_keys (order : List String) :
    (composeRenamings order first second).keys.Nodup ∧
      (∀ entry ∈ composeRenamings order first second, entry ∈ takeIn first second ∧
        entry.1 ≠ entry.2) := by
  have hperm := inHeaderOrder_perm order
    ((takeIn first second).filter fun entry => entry.1 ≠ entry.2)
  refine ⟨(hperm.map _).nodup_iff.mpr
    ((nodup_keys_takeIn hfirst hsecond).sublist (List.filter_sublist.map _)), fun entry hentry => ?_⟩
  have hmem := List.mem_filter.mp (hperm.mem_iff.mp hentry)
  exact ⟨hmem.1, by simpa using hmem.2⟩

variable (hproper : ∀ entry ∈ second, entry.1 ≠ entry.2)
include hproper

/-- The composed mapping sends every header where the two mappings send it, one after the other, exactly
if the second is untangled. -/
theorem composeRenamings_iff (order : List String) :
    (∀ header ∈ headers, renamed (composeRenamings order first second) header =
      renamed second (renamed first header)) ↔ Untangled first second := by
  have hsources := sources_of_renames hsecond
  simp only [renamed_composeRenamings hfirst hsecond]
  constructor
  · intro hright
    exact (composed_nil hfirst).untangled_of_takeIn second hfirst (by simpa using hsecond.keys)
      (by simpa using hproper) (by simpa using hsources) List.Pairwise.nil (by simpa using hright)
  · intro huntangled
    have hcomposed := (composed_nil hfirst).takeIn_of_untangled second hfirst
      (by simpa using hsecond.keys) (by simpa using hproper) (by simpa using hsources) huntangled
    exact hcomposed.right

/-- An untangled composition is a mapping of the same headers again. -/
theorem renames_composeRenamings (huntangled : Untangled first second) (order : List String) :
    Renames headers (composeRenamings order first second) := by
  have hsources := sources_of_renames hsecond
  have hright := (composeRenamings_iff hfirst hsecond hproper order).mpr huntangled
  obtain ⟨hkeys, hmem⟩ := composeRenamings_keys hfirst hsecond order
  have hcomposed := (composed_nil hfirst).takeIn_of_untangled second hfirst
    (by simpa using hsecond.keys) (by simpa using hproper) (by simpa using hsources) huntangled
  refine ⟨hkeys, fun header hheader => ?_, ?_⟩
  · obtain ⟨entry, hentry, rfl⟩ := List.mem_map.mp hheader
    exact hcomposed.among _ (List.mem_map_of_mem (hmem entry hentry).1)
  · rw [List.map_congr_left hright, ← Function.comp_def, ← List.map_map]
    exact hsecond.distinct

end Compose

/-! ## The headers of a composed mapping -/

/-- The header is in an entry of the mapping, as the old one or as the new one. -/
def Mentions (mapping : Keyed String) (header : String) : Prop :=
  ∃ entry ∈ mapping, header = entry.1 ∨ header = entry.2

/-- A longer mapping mentions what a shorter one does. -/
theorem Mentions.cons {mapping : Keyed String} {header : String} (h : Mentions mapping header)
    (first : String × String) : Mentions (first :: mapping) header := by
  obtain ⟨entry, hentry, hheader⟩ := h
  exact ⟨entry, List.mem_cons_of_mem _ hentry, hheader⟩

/-- A redirected mapping mentions one new header at most. -/
theorem mentions_redirectFirst {mapping : Keyed String} {old new header : String}
    (h : Mentions (redirect.redirectFirst old new mapping) header) :
    Mentions mapping header ∨ header = new := by
  induction mapping with
  | nil => exact Or.inl h
  | cons first rest ih =>
    obtain ⟨source, target⟩ := first
    rw [redirect.redirectFirst] at h
    split at h
    · obtain ⟨entry, hentry, hheader⟩ := h
      rcases List.mem_cons.mp hentry with rfl | hrest
      · exact hheader.imp_left fun heq => ⟨(source, target), by simp, Or.inl heq⟩
      · exact Or.inl ⟨entry, List.mem_cons_of_mem _ hrest, hheader⟩
    · obtain ⟨entry, hentry, hheader⟩ := h
      rcases List.mem_cons.mp hentry with rfl | hrest
      · exact Or.inl ⟨(source, target), by simp, hheader⟩
      · exact (ih ⟨entry, hrest, hheader⟩).imp_left fun h => h.cons _

/-- A mapping with one more pair mentions its headers at most. -/
theorem mentions_put {mapping : Keyed String} {old new header : String}
    (h : Mentions (mapping.put old new) header) :
    Mentions mapping header ∨ header = old ∨ header = new := by
  obtain ⟨entry, hentry, hheader⟩ := h
  rcases Keyed.mem_of_mem_put hentry with rfl | hold
  · exact Or.inr hheader
  · exact Or.inl ⟨entry, hold, hheader⟩

/-- Composing makes up no header. -/
theorem mentions_composeRenamings {order : List String} {first second : Keyed String} {header : String}
    (h : Mentions (composeRenamings order first second) header) :
    Mentions first header ∨ Mentions second header := by
  have htaken : Mentions (takeIn first second) header := by
    obtain ⟨entry, hentry, hheader⟩ := h
    have hmem := (inHeaderOrder_perm order _).mem_iff.mp hentry
    exact ⟨entry, (List.mem_filter.mp hmem).1, hheader⟩
  clear h
  induction second generalizing first with
  | nil => exact Or.inl htaken
  | cons entry rest ih =>
    obtain ⟨old, new⟩ := entry
    rcases ih htaken with hfirst | hrest
    · have hcases : Mentions first header ∨ header = old ∨ header = new := by
        change Mentions (redirect first old new) header at hfirst
        unfold redirect at hfirst
        split at hfirst
        · exact (mentions_redirectFirst hfirst).imp_right Or.inr
        · exact mentions_put hfirst
      exact hcases.imp_right fun heq => ⟨(old, new), by simp, heq⟩
    · obtain ⟨other, hother, heq⟩ := hrest
      exact Or.inr ⟨other, List.mem_cons_of_mem _ hother, heq⟩

end Chunk

end TableScript
