import TableScript.Document.Record
import TableScript.Document.Yaml.Node
import TableScript.Document.Yaml.Scalar

/-!
# YAML documents as records

What a YAML document offers to a reader of records. Where a text is expected every scalar is one, as it is
written; where a record, a list or a dictionary is expected, nothing at all is an empty one. References are
followed wherever they stand.

A tag that a document makes up has no meaning for values, and a value that has one is refused; the tags for
truth values, numbers and nothing say how a scalar is read. Values may be nested so deep that a document as
a whole has 128 levels, and references may make it a hundred times as large as it is written.
-/

namespace TableScript.Document.Yaml

/-- The standard tag of this name. -/
def coreTag (name : String) : String := "tag:yaml.org,2002:" ++ name

/-- The tag is made up by the document. -/
def isLocalTag (tag : Option String) : Bool := tag.any (·.startsWith "!")

/-- The value of a scalar. -/
def scalarValue? (tag : Option String) (style : Style) (text : String) : Option Value :=
  if isLocalTag tag then none
  else match tag with
    | none => if style = .plain then plainValue? text else some (.str text)
    | some tag =>
      if tag = coreTag "bool" then (boolWord? text).map .bool
      else if tag = coreTag "int" then ((whole? text.toList).filter isWhole).bind wholeValue?
      else if tag = coreTag "float" then (float? text.toList).map .float
      else if tag = coreTag "null" then if isNullWord text then some .null else none
      else some (.str text)

/-- Nothing is written there. -/
def isEmptyScalar : Node → Bool
  | .scalar _ .plain "" => true
  | _ => false

/-- The text of a scalar, as it is written. -/
def scalarText? (d : Tree) (n : Node) : Option String :=
  match d.resolve n with
  | some (.scalar _ _ text) => some text
  | _ => none

/-- Following references is counted down. -/
abbrev Following := StateT Nat Option

/-- What the node is, or stands for. -/
def follow (d : Tree) : Node → Following Node
  | .reference anchor => do
    match ← get with
    | 0 => failure
    | left + 1 => set left
    (d.anchored? anchor : Option Node)
  | other => return other

/-- The value of a node, which may be nested so deep. -/
def nodeValue (d : Tree) (depth : Nat) (n : Node) : Following Value := do
  match ← follow d n, depth with
  | .scalar tag style text, _ => (scalarValue? tag style text : Option Value)
  | .list tag items, depth + 1 =>
    if isLocalTag tag then failure
    return .list (← items.mapM (nodeValue d depth))
  | .map tag entries, depth + 1 =>
    if isLocalTag tag then failure
    let entries ← entries.mapM fun (key, value) => do
      match ← nodeValue d depth key with
      | .str key => return (key, ← nodeValue d depth value)
      | _ => failure
    return .dict (Keyed.ofList entries)
  | _, _ => failure

/-- How many references may be followed. -/
def referenceLimit (textLength : Nat) : Nat := 100 * textLength

/-- The entries of a dictionary of values at the fourth level of the document. -/
def nodeParams? (d : Tree) (limit : Nat) (n : Node) : Option Params := do
  match ← d.resolve n with
  | .map _ entries =>
    let read : Following (List (String × Value)) := entries.mapM fun (key, value) => do
      let key ← (scalarText? d key : Option String)
      return (key, ← nodeValue d 124 value)
    let (entries, _) ← read limit
    return Keyed.ofList entries
  | other => if isEmptyScalar other then return [] else none

/-- The parts of a record. -/
def nodeParts? (d : Tree) (n : Node) : Option (Parts Node) := do
  match ← d.resolve n with
  | .list _ items => return .ordered items
  | .map _ entries =>
    return .named (← entries.mapM fun (key, value) => (scalarText? d key).map fun key => (key, value))
  | other => if isEmptyScalar other then return .named [] else none

/-- The items of a list. -/
def nodeItems? (d : Tree) (n : Node) : Option (List Node) := do
  match ← d.resolve n with
  | .list _ items => return items
  | other => if isEmptyScalar other then return [] else none

/-- The natural number. -/
def nodeCount? (d : Tree) (n : Node) : Option Nat := do
  match ← d.resolve n with
  | .scalar tag style text =>
    if style = .plain || (style = .literal && tag = some (coreTag "int")) then natural? text.toList else none
  | _ => none

/-- The document as a record. -/
def Tree.view (d : Tree) (limit : Nat) : View Node where
  parts? := nodeParts? d
  items? := nodeItems? d
  text? := scalarText? d
  count? := nodeCount? d
  params? := nodeParams? d limit
  openEnded := false

/-- The root of the document; nothing at all is an empty scalar. -/
def Tree.start (d : Tree) : Node := d.root.getD Reading.emptyNode

end TableScript.Document.Yaml
