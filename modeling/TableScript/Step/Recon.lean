import TableScript.Workbook

/-!
# What changed between two workbooks

Dataframes are matched by name: one that is only there afterwards was created, one that is only there
before was deleted, and one whose content differs was modified. Inside a modified dataframe the columns
are matched by header in the same way, except that a deleted column counts as renamed when a created one
has the same cells.
-/

namespace TableScript.Step

/-! ## Columns -/

/-- The columns of a dataframe that changed. -/
structure ColumnRecon where
  created : List String
  deleted : List String
  /-- The old headers of renamed columns, each with the new one. -/
  renamed : Keyed String

/-- How one dataframe changed. -/
structure FrameRecon where
  columns : ColumnRecon
  addedRows : Int

/-- The headers of one frame that another lacks. -/
def headersOnlyIn (f other : Frame) : List String :=
  f.headers.filter fun header => !other.hasColumn header

/-- The two columns have the same cells. -/
def sameColumn (prev post : Frame) (old new : String) : Bool :=
  prev.column? old == post.column? new

/-- Go through the deleted headers in order and pair each with the first created one, among those not
yet paired, that has the same cells. -/
def pairRenamed (prev post : Frame) (created : List String) : List String → ColumnRecon
  | [] => ⟨created, [], []⟩
  | old :: rest =>
    match created.find? (sameColumn prev post old) with
    | some new =>
      let recon := pairRenamed prev post (created.erase new) rest
      { recon with renamed := (old, new) :: recon.renamed }
    | none =>
      let recon := pairRenamed prev post created rest
      { recon with deleted := old :: recon.deleted }

/-- How a dataframe changed. -/
def reconcileFrame (prev post : Frame) : FrameRecon :=
  ⟨pairRenamed prev post (headersOnlyIn post prev) (headersOnlyIn prev post), post.rows - prev.rows⟩

/-! ## Dataframes -/

/-- How a workbook changed. -/
structure BookRecon where
  created : List String
  deleted : List String
  modified : Keyed FrameRecon

/-- The names of one workbook that another lacks. -/
def namesOnlyIn (book other : Workbook) : List String :=
  book.names.filter fun name => !other.has name

/-- The change of a dataframe that is there before and afterwards, if its content differs. -/
def modification? (prev : Workbook) (entry : String × Frame) : Option (String × FrameRecon) :=
  match prev.frame? entry.1 with
  | some before =>
    if before == entry.2 then none else some (entry.1, reconcileFrame before entry.2)
  | none => none

/-- How a workbook changed. -/
def reconcile (prev post : Workbook) : BookRecon :=
  ⟨namesOnlyIn post prev, namesOnlyIn prev post, post.frames.filterMap (modification? prev)⟩

namespace BookRecon

/-- Nothing changed. -/
def isEmpty (recon : BookRecon) : Bool :=
  recon.created.isEmpty && recon.deleted.isEmpty && recon.modified.isEmpty

/-- The change of a dataframe as a value. -/
def frameValue (recon : FrameRecon) : Value :=
  .dict [
    ("column_recon", .dict [
      ("created_columns", .ofTexts recon.columns.created),
      ("deleted_columns", .ofTexts recon.columns.deleted),
      ("renamed_columns", .dict (recon.columns.renamed.map fun (old, new) => (old, .str new)))]),
    ("num_added_or_removed_rows", .int (Int64.ofInt recon.addedRows))]

/-- The change as entries of a dictionary. -/
def entries (recon : BookRecon) : Keyed Value := [
  ("created_dataframe_names", .ofTexts recon.created),
  ("deleted_dataframe_names", .ofTexts recon.deleted),
  ("modified_dataframes_recons",
    .dict (recon.modified.map fun (name, frame) => (name, frameValue frame)))]

end BookRecon

end TableScript.Step
