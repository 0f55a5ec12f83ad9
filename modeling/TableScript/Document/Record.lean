import TableScript.Value

/-!
# Records in documents

Documents of different formats say the same thing in their own ways: what is a text here is any scalar
there, and one has dates, another references. A reader of documents knows what it expects at each place, and a
`View` is what a format has to offer it. A record may be written with the names of its fields, or as a
list of their values in the order of the fields.
-/

namespace TableScript.Document

/-- The parts of a record: under the names of its fields, or in their order. -/
inductive Parts (α : Type) where
  | named (entries : List (String × α))
  | ordered (items : List α)

/-- What a document of some format offers to a reader that knows what to expect. -/
structure View (α : Type) where
  /-- The parts of a record. -/
  parts? : α → Option (Parts α)
  /-- The items of a list. -/
  items? : α → Option (List α)
  /-- The text. -/
  text? : α → Option String
  /-- The natural number. -/
  count? : α → Option Nat
  /-- The entries of a dictionary of values. -/
  params? : α → Option Params
  /-- A record that is written as a list may go on after its last field. -/
  openEnded : Bool

/-- What stands under each of the names. Other names do not count; a name that counts comes at most once. -/
def namedFields {α : Type} (entries : List (String × α)) (names : List String) : Option (List (Option α)) :=
  names.mapM fun name =>
    match entries.filter (·.1 = name) with
    | [] => some none
    | [(_, part)] => some (some part)
    | _ => none

/-- What stands at the place of each of the names. -/
def orderedFields {α : Type} (items : List α) : List String → List (Option α)
  | [] => []
  | _ :: names => items.head? :: orderedFields (items.drop 1) names

namespace View

variable {α : Type}

/-- The fields of a record, where they are given. -/
def fields? (view : View α) (names : List String) (record : α) : Option (List (Option α)) := do
  match ← view.parts? record with
  | .named entries => namedFields entries names
  | .ordered items =>
    if names.length < items.length && !view.openEnded then none
    else return orderedFields items names

/-- A field that may be missing. -/
def optional {β : Type} (read : α → Option β) (missing : β) : Option α → Option β
  | some part => read part
  | none => some missing

end View

end TableScript.Document
