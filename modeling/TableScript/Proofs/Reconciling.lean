import TableScript.Step.Recon
import TableScript.Proofs.Sameness

/-!
# A reconciliation accounts for everything once

Between two versions of a frame every column of the earlier one is kept, deleted or renamed, and every
column of the later one is kept, created or the new form of a renamed one, each of them once. Columns are
paired if they have the same cells, and no pair is left unmade (`ColumnRecon.Accounts`). Between two
workbooks the dataframes are accounted for by their names in the same way, and nothing is reported exactly
if the workbooks are the same (`BookRecon.Accounts`).

Pairs are made while the deleted headers are gone through in their order, so old headers come in the order
of the earlier frame. The new ones come in the order of the old ones, and not in that of the later frame
(`new_headers_out_of_order`); only among columns with the same cells is it that, since each takes the first
that is left. All this is carried by what pairing does (`pairs_pairRenamed`), by induction on the deleted
headers.
-/

namespace TableScript

/-! ## Shared keys -/

namespace Keyed

variable {α β : Type}

/-- The keys of one keyed list that another has as well. -/
def shared (first : Keyed α) (second : Keyed β) : List String := first.keys.filter second.has

/-- The keys of the first are those that the second has too, and the others. -/
theorem keys_perm_shared (first : Keyed α) (second : Keyed β) :
    first.keys.Perm (first.shared second ++ first.keys.filter fun key => !second.has key) :=
  (List.filter_append_perm second.has first.keys).symm

/-- Both lists share the same keys, each in its own order. -/
theorem shared_perm {first : Keyed α} {second : Keyed β} (hfirst : first.keys.Nodup)
    (hsecond : second.keys.Nodup) : (first.shared second).Perm (second.shared first) := by
  refine (List.perm_ext_iff_of_nodup (hfirst.filter _) (hsecond.filter _)).mpr fun key => ?_
  rw [List.mem_filter, List.mem_filter, has_iff, has_iff, and_comm]

end Keyed

namespace Step

/-! ## Pairing -/

/-- The new headers of renamed columns, in the order of the old ones. -/
def ColumnRecon.newHeaders (recon : ColumnRecon) : List String := recon.renamed.map (·.2)

/-- What pairing makes of the headers that only one of two versions has. -/
structure Pairs (prev post : Frame) (created deleted : List String) (recon : ColumnRecon) : Prop where
  deletedOrRenamed : deleted.Perm (recon.deleted ++ recon.renamed.keys)
  deletedInOrder : recon.deleted.Sublist deleted
  renamedInOrder : recon.renamed.keys.Sublist deleted
  createdOrNew : created.Perm (recon.created ++ recon.newHeaders)
  createdInOrder : recon.created.Sublist created
  /-- Of two columns with the same cells, the first one is taken first. -/
  newInOrder : recon.renamed.Pairwise fun first second =>
    sameColumn prev post first.1 second.2 = true → [first.2, second.2].Sublist created
  same : ∀ pair ∈ recon.renamed, sameColumn prev post pair.1 pair.2 = true
  unpaired : ∀ old ∈ recon.deleted, ∀ new ∈ recon.created, sameColumn prev post old new = false

/-- A header that is found first stands before all others that would do. -/
theorem sublist_of_find? {created : List String} {test : String → Bool} {new other : String}
    (hfind : created.find? test = some new) (hother : other ∈ created.erase new)
    (htest : test other = true) : [new, other].Sublist created := by
  obtain ⟨hnew, before, after, rfl, hbefore⟩ := List.find?_eq_some_iff_append.mp hfind
  have hnone : ∀ header ∈ before, test header ≠ true := fun header hmem => by
    simpa using hbefore header hmem
  have hfirst : new ∉ before := fun hmem => hnone new hmem hnew
  rw [List.erase_append_right _ hfirst, List.erase_cons_head] at hother
  rcases List.mem_append.mp hother with hmem | hmem
  · exact absurd htest (hnone other hmem)
  · exact ((List.singleton_sublist.mpr hmem).cons_cons new).trans (List.sublist_append_right before _)

/-- One more deleted header that no created one is paired with. -/
theorem Pairs.delete {prev post : Frame} {created deleted : List String} {recon : ColumnRecon}
    (h : Pairs prev post created deleted recon) {old : String}
    (hnone : created.find? (sameColumn prev post old) = none) :
    Pairs prev post created (old :: deleted) { recon with deleted := old :: recon.deleted } where
  deletedOrRenamed := h.deletedOrRenamed.cons old
  deletedInOrder := h.deletedInOrder.cons_cons old
  renamedInOrder := h.renamedInOrder.cons old
  createdOrNew := h.createdOrNew
  createdInOrder := h.createdInOrder
  newInOrder := h.newInOrder
  same := h.same
  unpaired := by
    refine List.forall_mem_cons.mpr ⟨fun new hnew => ?_, h.unpaired⟩
    exact Bool.not_eq_true _ ▸ List.find?_eq_none.mp hnone new (h.createdInOrder.subset hnew)

/-- One more deleted header, paired with the first created one that has the same cells. -/
theorem Pairs.rename {prev post : Frame} {created deleted : List String} {recon : ColumnRecon}
    {old new : String} (h : Pairs prev post (created.erase new) deleted recon)
    (hfind : created.find? (sameColumn prev post old) = some new) :
    Pairs prev post created (old :: deleted) { recon with renamed := (old, new) :: recon.renamed } where
  deletedOrRenamed := (h.deletedOrRenamed.cons old).trans List.perm_middle.symm
  deletedInOrder := h.deletedInOrder.cons old
  renamedInOrder := h.renamedInOrder.cons_cons old
  createdOrNew := by
    have hcreated := (List.perm_cons_erase (List.mem_of_find?_eq_some hfind)).trans (h.createdOrNew.cons new)
    exact hcreated.trans List.perm_middle.symm
  createdInOrder := h.createdInOrder.trans List.erase_sublist
  newInOrder := by
    refine List.pairwise_cons.mpr ⟨fun pair hpair hsame => ?_, h.newInOrder.imp fun hsublist hsame =>
      (hsublist hsame).trans List.erase_sublist⟩
    have hleft : pair.2 ∈ created.erase new := h.createdOrNew.mem_iff.mpr
      (List.mem_append_right _ (List.mem_map_of_mem hpair))
    exact sublist_of_find? hfind hleft hsame
  same := List.forall_mem_cons.mpr ⟨List.find?_some hfind, h.same⟩
  unpaired := h.unpaired

/-- The pairs that are found are pairs of columns with equal cells, in order. -/
theorem pairs_pairRenamed (prev post : Frame) (created deleted : List String) :
    Pairs prev post created deleted (pairRenamed prev post created deleted) := by
  fun_induction pairRenamed prev post created deleted with
  | case1 created =>
    exact ⟨.nil, .slnil, .slnil, by simp [ColumnRecon.newHeaders], List.Sublist.refl _, .nil, by simp,
      by simp⟩
  | case2 created old rest new hfind recon ih => exact ih.rename hfind
  | case3 created old rest hnone recon ih => exact ih.delete hnone

/-! ## Columns -/

/-- Every column of either version is accounted for once. -/
structure ColumnRecon.Accounts (prev post : Frame) (recon : ColumnRecon) : Prop where
  /-- Columns before are kept, deleted or renamed. -/
  before : prev.headers.Perm (prev.columns.shared post.columns ++ recon.deleted ++ recon.renamed.keys)
  /-- Columns afterwards are kept, created or renamed. -/
  after : post.headers.Perm (post.columns.shared prev.columns ++ recon.created ++ recon.newHeaders)
  kept : (prev.columns.shared post.columns).Perm (post.columns.shared prev.columns)
  beforeInOrder : recon.deleted.Sublist prev.headers ∧ recon.renamed.keys.Sublist prev.headers
  createdInOrder : recon.created.Sublist post.headers
  /-- Among columns with the same cells, the new headers come in their order as well. -/
  newInOrder : recon.renamed.Pairwise fun first second =>
    sameColumn prev post first.1 second.2 = true → [first.2, second.2].Sublist post.headers
  /-- No header is renamed twice, and none is given twice. -/
  injective : recon.renamed.keys.Nodup ∧ recon.newHeaders.Nodup
  /-- Renamed columns have the same cells as before. -/
  sameCells : ∀ pair ∈ recon.renamed, ∃ cells others, prev.column? pair.1 = some cells ∧
    post.column? pair.2 = some others ∧ (cells == others) = true
  /-- No other two columns could have been paired. -/
  unpaired : ∀ old ∈ recon.deleted, ∀ new ∈ recon.created, sameColumn prev post old new = false
  countBefore : recon.deleted.length + recon.renamed.length + (prev.columns.shared post.columns).length =
    prev.headers.length
  countAfter : recon.created.length + recon.renamed.length + (prev.columns.shared post.columns).length =
    post.headers.length

/-- Columns of which one is there count as the same only if both are. -/
theorem cells_of_sameColumn {prev post : Frame} {old new : String} (hold : old ∈ prev.headers)
    (h : sameColumn prev post old new = true) : ∃ cells others, prev.column? old = some cells ∧
      post.column? new = some others ∧ (cells == others) = true := by
  unfold sameColumn at h
  cases hcells : prev.column? old with
  | none => exact absurd hold ((Keyed.get?_eq_none_iff _ _).mp hcells)
  | some cells =>
    cases hothers : post.column? new with
    | none => rw [hcells, hothers] at h; cases h
    | some others =>
      rw [hcells, hothers] at h
      exact ⟨cells, others, rfl, rfl, h⟩

/-- Reconciling two dataframes accounts for the headers of both. -/
theorem accounts_reconcileFrame {prev post : Frame} (hprev : prev.headers.Nodup)
    (hpost : post.headers.Nodup) : (reconcileFrame prev post).columns.Accounts prev post := by
  have hpairs := pairs_pairRenamed prev post (headersOnlyIn post prev) (headersOnlyIn prev post)
  generalize hrecon : pairRenamed prev post (headersOnlyIn post prev) (headersOnlyIn prev post) = recon
    at hpairs
  have hcolumns : (reconcileFrame prev post).columns = recon := hrecon
  rw [hcolumns]
  have hkept := Keyed.shared_perm hprev hpost
  have hbefore : prev.headers.Perm
      (prev.columns.shared post.columns ++ recon.deleted ++ recon.renamed.keys) := by
    rw [List.append_assoc]
    exact (Keyed.keys_perm_shared _ _).trans (hpairs.deletedOrRenamed.append_left _)
  have hafter : post.headers.Perm
      (post.columns.shared prev.columns ++ recon.created ++ recon.newHeaders) := by
    rw [List.append_assoc]
    exact (Keyed.keys_perm_shared _ _).trans (hpairs.createdOrNew.append_left _)
  have hold : recon.renamed.keys.Sublist prev.headers :=
    hpairs.renamedInOrder.trans List.filter_sublist
  have hcreated : (headersOnlyIn post prev).Sublist post.headers := List.filter_sublist
  refine ⟨hbefore, hafter, hkept, ⟨hpairs.deletedInOrder.trans List.filter_sublist, hold⟩,
    hpairs.createdInOrder.trans hcreated,
    hpairs.newInOrder.imp fun hsublist hsame => (hsublist hsame).trans hcreated,
    ⟨hold.nodup hprev, (List.nodup_append.mp (hafter.nodup_iff.mp hpost)).2.1⟩,
    fun pair hpair => cells_of_sameColumn (hold.subset (List.mem_map_of_mem hpair)) (hpairs.same pair hpair),
    hpairs.unpaired, ?_, ?_⟩
  · have hlength := hbefore.length_eq
    simp only [List.length_append, Keyed.keys, List.length_map] at hlength
    omega
  · have hlength := hafter.length_eq
    simp only [List.length_append, ColumnRecon.newHeaders, List.length_map] at hlength
    rw [hkept.length_eq]
    omega

/-! ## Dataframes -/

/-- Every dataframe of either workbook is accounted for once. -/
structure BookRecon.Accounts (prev post : Workbook) (recon : BookRecon) : Prop where
  /-- Dataframes before are kept or deleted. -/
  before : prev.names.Perm (prev.frames.shared post.frames ++ recon.deleted)
  /-- Dataframes afterwards are kept or created. -/
  after : post.names.Perm (post.frames.shared prev.frames ++ recon.created)
  kept : (prev.frames.shared post.frames).Perm (post.frames.shared prev.frames)
  inOrder : recon.deleted.Sublist prev.names ∧ recon.created.Sublist post.names ∧
    recon.modified.keys.Sublist (post.frames.shared prev.frames)
  /-- What is reported as modified are the dataframes that were there before and differ from that. -/
  modified (name : String) (change : FrameRecon) : (name, change) ∈ recon.modified ↔
    ∃ before after, prev.frame? name = some before ∧ post.frame? name = some after ∧
      (before == after) = false ∧ change = reconcileFrame before after
  isEmpty_iff : recon.isEmpty = true ↔ (prev == post) = true

/-- A dataframe is reported as modified exactly if it was there before with other content. -/
theorem modification?_eq_some_iff {prev : Workbook} {name : String} {after : Frame}
    {change : String × FrameRecon} : modification? prev (name, after) = some change ↔
      ∃ before, prev.frame? name = some before ∧ (before == after) = false ∧
        change = (name, reconcileFrame before after) := by
  cases hbefore : prev.frame? name with
  | none => simp [modification?, hbefore]
  | some before =>
    simp only [modification?, hbefore, Option.some.injEq, exists_eq_left']
    cases before == after <;> simp [eq_comm (a := change)]

/-- A dataframe that was there before is not reported exactly if it is the same. -/
theorem modification?_eq_none_iff {prev : Workbook} {name : String} {before after : Frame}
    (hbefore : prev.frame? name = some before) :
    modification? prev (name, after) = none ↔ (before == after) = true := by
  cases hsame : before == after <;> simp [modification?, hbefore, hsame]

/-- Modified dataframes come in the order of the later workbook. -/
theorem keys_modified_sublist (prev : Workbook) (frames : Keyed Frame) :
    (Keyed.keys (frames.filterMap (modification? prev))).Sublist (frames.shared prev.frames) := by
  induction frames with
  | nil => exact .slnil
  | cons entry rest ih =>
    obtain ⟨name, after⟩ := entry
    cases hchange : modification? prev (name, after) with
    | none =>
      rw [List.filterMap_cons_none hchange]
      exact ih.trans ((List.sublist_cons_self name _).filter _)
    | some change =>
      obtain ⟨before, hbefore, -, rfl⟩ := modification?_eq_some_iff.mp hchange
      have hhas : prev.frames.has name = true :=
        (Keyed.has_iff _ _).mpr (Keyed.mem_keys_of_mem (Keyed.mem_of_get? hbefore))
      rw [List.filterMap_cons_some hchange, Keyed.keys_cons, Keyed.shared, Keyed.keys_cons,
        List.filter_cons_of_pos hhas]
      exact ih.cons_cons name

section Books

variable {prev post : Workbook} (hprev : prev.names.Nodup) (hpost : post.names.Nodup)
include hpost

/-- A modification is reported exactly for a name that is in both workbooks, with dataframes that differ. -/
theorem mem_modified_iff (name : String) (change : FrameRecon) :
    (name, change) ∈ (reconcile prev post).modified ↔
      ∃ before after, prev.frame? name = some before ∧ post.frame? name = some after ∧
        (before == after) = false ∧ change = reconcileFrame before after := by
  change (name, change) ∈ post.frames.filterMap (modification? prev) ↔ _
  rw [List.mem_filterMap]
  constructor
  · rintro ⟨⟨other, after⟩, hentry, hchange⟩
    obtain ⟨before, hbefore, hdiffers, heq⟩ := modification?_eq_some_iff.mp hchange
    obtain ⟨rfl, rfl⟩ := Prod.mk.inj heq
    exact ⟨before, after, hbefore, Keyed.get?_of_mem hpost hentry, hdiffers, rfl⟩
  · rintro ⟨before, after, hbefore, hafter, hdiffers, rfl⟩
    exact ⟨(name, after), Keyed.mem_of_get? hafter,
      modification?_eq_some_iff.mpr ⟨before, hbefore, hdiffers, rfl⟩⟩

include hprev

/-- Nothing is reported exactly if both workbooks have the same names and the same dataframes under them,
and that is what it means for them to be the same. -/
theorem isEmpty_reconcile_iff : (reconcile prev post).isEmpty = true ↔ (prev == post) = true := by
  have hsame : (prev == post) = prev.frames.agree (· == ·) post.frames := rfl
  have hmissing : ∀ book other : Workbook, (namesOnlyIn book other).isEmpty = true ↔
      book.names ⊆ other.names := by
    intro book other
    rw [List.isEmpty_iff, namesOnlyIn, List.filter_eq_nil_iff]
    refine forall₂_congr fun name _ => ?_
    rw [Bool.not_eq_true', Bool.not_eq_false, Workbook.has, Keyed.has_iff]
    rfl
  rw [hsame, Keyed.agree, BookRecon.isEmpty, Bool.and_eq_true, Bool.and_eq_true, Bool.and_eq_true,
    beq_iff_eq, List.all_eq_true]
  change ((namesOnlyIn post prev).isEmpty = true ∧ (namesOnlyIn prev post).isEmpty = true) ∧
    (post.frames.filterMap (modification? prev)).isEmpty = true ↔ _
  rw [hmissing, hmissing, List.isEmpty_iff, List.filterMap_eq_nil_iff]
  have hlengths : ∀ book : Workbook, book.names.length = book.frames.length :=
    fun _ => List.length_map _
  constructor
  · rintro ⟨⟨hcreated, hdeleted⟩, hmodified⟩
    have hnames : prev.names.Perm post.names :=
      (List.perm_ext_iff_of_nodup hprev hpost).mpr fun name => ⟨@hdeleted name, @hcreated name⟩
    refine ⟨by rw [← hlengths, ← hlengths, hnames.length_eq], ?_⟩
    rintro ⟨name, before⟩ hentry
    obtain ⟨⟨_, after⟩, hafter, rfl⟩ := List.mem_map.mp (hdeleted (Keyed.mem_keys_of_mem hentry))
    have hunchanged := (modification?_eq_none_iff (Keyed.get?_of_mem hprev hentry)).mp
      (hmodified _ hafter)
    exact (Option.any_eq_true _ _).mpr ⟨after, Keyed.get?_of_mem hpost hafter, hunchanged⟩
  · rintro ⟨hlength, hall⟩
    have hfound : ∀ name before, (name, before) ∈ prev.frames →
        ∃ after, post.frame? name = some after ∧ (before == after) = true :=
      fun name before hentry => (Option.any_eq_true _ _).mp (hall _ hentry)
    have hdeleted : prev.names ⊆ post.names := by
      intro name hname
      obtain ⟨⟨_, before⟩, hentry, rfl⟩ := List.mem_map.mp hname
      obtain ⟨after, hafter, -⟩ := hfound _ _ hentry
      exact Keyed.mem_keys_of_mem (Keyed.mem_of_get? hafter)
    -- as many names as before, and all of those: so no others
    have hnames : prev.names.Perm post.names := (hprev.subperm hdeleted).perm_of_length_le
      (by rw [hlengths, hlengths, hlength])
    refine ⟨⟨hnames.symm.subset, hdeleted⟩, ?_⟩
    rintro ⟨name, after⟩ hentry
    obtain ⟨⟨_, before⟩, hbefore, rfl⟩ :=
      List.mem_map.mp (hnames.symm.subset (Keyed.mem_keys_of_mem hentry))
    obtain ⟨found, hfound, hunchanged⟩ := hfound _ _ hbefore
    obtain rfl : found = after :=
      Option.some.inj (hfound.symm.trans (Keyed.get?_of_mem hpost hentry))
    exact (modification?_eq_none_iff (Keyed.get?_of_mem hprev hbefore)).mpr hunchanged

/-- Reconciling two workbooks accounts for the names of both. -/
theorem accounts_reconcile : (reconcile prev post).Accounts prev post where
  before := Keyed.keys_perm_shared _ _
  after := Keyed.keys_perm_shared _ _
  kept := Keyed.shared_perm hprev hpost
  inOrder := ⟨List.filter_sublist, List.filter_sublist, keys_modified_sublist prev post.frames⟩
  modified := mem_modified_iff hpost
  isEmpty_iff := isEmpty_reconcile_iff hprev hpost

end Books

/-! ## Both together -/

/-- The reconciliation of two frames accounts for every column of both, and that of two workbooks for every
dataframe of both. -/
theorem reconciliation_accounts {prev post : Frame} (hprev : prev.headers.Nodup)
    (hpost : post.headers.Nodup) {before after : Workbook} (hbefore : before.names.Nodup)
    (hafter : after.names.Nodup) : (reconcileFrame prev post).columns.Accounts prev post ∧
      (reconcile before after).Accounts before after :=
  ⟨accounts_reconcileFrame hprev hpost, accounts_reconcile hbefore hafter⟩

/-- Several columns with the same cells on both sides, a NaN that is not the same as itself, and dataframes
of which one is kept, one changed, one deleted and one created. -/
theorem reconciliation_accounts_for_twins :
    let prev : Frame := ⟨[("A", [.int 1]), ("K", [.int 5]), ("N", [.float (0.0 / 0.0)]), ("B", [.int 2]),
      ("C", [.int 1]), ("D", [.int 1])], 1⟩
    let post : Frame := ⟨[("Z", [.int 2]), ("M", [.float (0.0 / 0.0)]), ("X", [.int 1]), ("K", [.int 7]),
      ("Y", [.int 1])], 1⟩
    let before : Workbook := ⟨[("df", prev), ("same", ⟨[("A", [.int 1])], 1⟩), ("gone", post)]⟩
    let after : Workbook := ⟨[("new", prev), ("same", ⟨[("A", [.int 1])], 1⟩), ("df", post)]⟩
    (prev.headers.Nodup ∧ post.headers.Nodup ∧ before.names.Nodup ∧ after.names.Nodup) ∧
    ((reconcileFrame prev post).columns.Accounts prev post ∧
      (reconcile before after).Accounts before after) ∧
    (reconcileFrame prev post).columns.renamed = [("A", "X"), ("B", "Z"), ("C", "Y")] ∧
    (reconcileFrame prev post).columns.deleted = ["N", "D"] ∧
    (reconcileFrame prev post).columns.created = ["M"] ∧
    Keyed.keys (reconcile before after).modified = ["df"] := by
  intro prev post before after
  have hprev : prev.headers.Nodup := by decide
  have hpost : post.headers.Nodup := by decide
  have hbefore : before.names.Nodup := by decide
  have hafter : after.names.Nodup := by decide
  refine ⟨⟨hprev, hpost, hbefore, hafter⟩, reconciliation_accounts hprev hpost hbefore hafter, ?_⟩
  decide +kernel

/-- Two columns that change both their headers and their places: the old headers are in the order of the
earlier frame, so the new ones are not in the order of the later one. -/
theorem new_headers_out_of_order :
    let prev : Frame := ⟨[("A", [.int 1]), ("B", [.int 2])], 1⟩
    let post : Frame := ⟨[("X", [.int 2]), ("Y", [.int 1])], 1⟩
    prev.Rectangular ∧ post.Rectangular ∧
    (reconcileFrame prev post).columns.renamed = [("A", "Y"), ("B", "X")] ∧
    ¬ (reconcileFrame prev post).columns.newHeaders.Sublist post.headers := by
  intro prev post
  refine ⟨by simp [prev, Frame.Rectangular], by simp [post, Frame.Rectangular], ?_⟩
  decide +kernel

end Step

end TableScript
