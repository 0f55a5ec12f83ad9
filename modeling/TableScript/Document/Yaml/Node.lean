import TableScript.Document.Yaml.Token

/-!
# Nodes of YAML texts

`Tree.ofText?` reads the one document of a text: a tree of scalars, lists and mappings. A reference to an
anchor stays a reference, since what it stands for may be looked up only by who needs it, and since a node
may refer to itself. Keys of a mapping are nodes, and a key that comes twice is there twice.
-/

namespace TableScript.Document.Yaml

/-- A part of a document. A reference gives the number of an anchor. -/
inductive Node where
  | scalar (tag : Option String) (style : Style) (text : String)
  | list (tag : Option String) (items : List Node)
  | map (tag : Option String) (entries : List (Node × Node))
  | reference (anchor : Nat)
deriving Inhabited

/-- The document of a text, which is none where the text has no content, and the nodes that anchors mark. -/
structure Tree where
  root : Option Node
  anchors : List (Nat × Node)

namespace Tree

/-- The node that an anchor of this number marks. -/
def anchored? (d : Tree) (anchor : Nat) : Option Node := d.anchors.lookup anchor

/-- What the node is, or stands for. -/
def resolve (d : Tree) : Node → Option Node
  | .reference anchor => d.anchored? anchor
  | other => some other

end Tree

/-! ## Reading -/

/-- What a reader has in hand: the tokens that are left, what the handles of tags stand for, the numbers
of the anchors by name, and the nodes they mark, the latest first. -/
structure Source where
  tokens : List Token
  handles : Keyed String
  numbers : Keyed Nat
  marked : List (Nat × Node)

/-- Reading may fail. -/
abbrev Reading := StateT Source Option

namespace Reading

/-- The next token, which stays. -/
def peek : Reading (Option Token) := return (← get).tokens.head?

/-- Drop the next token. -/
def drop : Reading Unit := modify fun s => { s with tokens := s.tokens.drop 1 }

/-- What the tag stands for. A handle has to be known. -/
def tagText (handle suffix : String) : Reading String := do
  if handle.isEmpty then return suffix
  match (← get).handles.get? handle with
  | some start => return start ++ suffix
  | none => failure

/-- A new anchor of this name. Anchors are numbered by how many names there are before. -/
def newAnchor (name : String) : Reading Nat := do
  let s ← get
  set { s with numbers := s.numbers.put name s.numbers.length }
  return s.numbers.length

/-- The node is what the anchor marks. -/
def mark (anchor : Option Nat) (n : Node) : Reading Node := do
  match anchor with
  | some number => modify fun s => { s with marked := (number, n) :: s.marked }
  | none => pure ()
  return n

/-- The anchor and the tag in front of a node, in either order and at most one of each. -/
def properties : Reading (Option Nat × Option String) := do
  match ← peek with
  | some (.anchor name) =>
    drop
    match ← peek with
    | some (.tag handle suffix) =>
      drop
      let tag ← tagText handle suffix
      return (some (← newAnchor name), some tag)
    | _ => return (some (← newAnchor name), none)
  | some (.tag handle suffix) =>
    drop
    match ← peek with
    | some (.anchor name) =>
      drop
      let tag ← tagText handle suffix
      return (some (← newAnchor name), some tag)
    | _ => return (none, some (← tagText handle suffix))
  | _ => return (none, none)

/-- The node where nothing is written. -/
def emptyNode : Node := .scalar none .plain ""

end Reading

open Reading

/-- The token ends an entry of a block mapping, or is missing. -/
def endsEntry : Option Token → Bool
  | none | some .key | some .colon | some .closeBlock => true
  | _ => false

/-- The token ends an item of a block list, or is missing. -/
def endsItem : Option Token → Bool
  | none | some .dash | some .closeBlock => true
  | _ => false

/-- The token ends a part between brackets, whose closing bracket is given. -/
def endsPart (closing : Token → Bool) : Option Token → Bool
  | none | some .comma => true
  | some t => closing t

/-- The token is a closing bracket. -/
def isCloseBracket : Token → Bool
  | .closeBracket => true
  | _ => false

/-- The token is a closing brace. -/
def isCloseBrace : Token → Bool
  | .closeBrace => true
  | _ => false

/-- The token is a colon. -/
def isColon : Option Token → Bool
  | some .colon => true
  | _ => false

mutual

/-- A node. Block lists and mappings may begin only where `block` says so, and a list whose dashes stand
at the column of the mapping around it only where `loose` says so. -/
def readNode : (steps : Nat) → (block loose : Bool) → Reading Node
  | 0, _, _ => failure
  | steps + 1, block, loose => do
    if let some (.reference name) ← peek then
      drop
      match (← get).numbers.get? name with
      | some number => return .reference number
      | none => failure
    let (anchor, tag) ← properties
    match ← peek with
    | some (.scalar style text) => do
      drop
      mark anchor (.scalar (if tag = some "!" then none else tag) style text)
    | some .openBracket => do
      drop
      mark anchor (.list tag (← readBracket steps true))
    | some .openBrace => do
      drop
      mark anchor (.map tag (← readBrace steps true))
    | some .openItems =>
      if !block then failure
      drop
      mark anchor (.list tag (← readItems steps))
    | some .openEntries =>
      if !block then failure
      drop
      mark anchor (.map tag (← readEntries steps))
    | some .dash =>
      if !loose then failure
      mark anchor (.list tag (← readLooseItems steps))
    | _ =>
      if anchor.isNone && tag.isNone then failure
      mark anchor (.scalar tag .plain "")

/-- The items of a block list up to its end. -/
def readItems : (steps : Nat) → Reading (List Node)
  | 0 => failure
  | steps + 1 => do
    match ← peek with
    | some .dash =>
      drop
      let item ← if endsItem (← peek) then pure emptyNode else readNode steps true false
      return item :: (← readItems steps)
    | some .closeBlock => drop; return []
    | _ => failure

/-- The items of a list whose dashes stand at the column of the mapping around it. -/
def readLooseItems : (steps : Nat) → Reading (List Node)
  | 0 => failure
  | steps + 1 => do
    match ← peek with
    | some .dash =>
      drop
      let next ← peek
      let item ←
        if endsItem next || endsEntry next then pure emptyNode else readNode steps true false
      return item :: (← readLooseItems steps)
    | _ => return []

/-- The value of an entry of a block mapping, with the colon before it. -/
def readEntryValue : (steps : Nat) → Reading Node
  | 0 => failure
  | steps + 1 => do
    if !isColon (← peek) then return emptyNode
    drop
    if endsEntry (← peek) then return emptyNode
    readNode steps true true

/-- The entries of a block mapping up to its end. -/
def readEntries : (steps : Nat) → Reading (List (Node × Node))
  | 0 => failure
  | steps + 1 => do
    match ← peek with
    | some .key =>
      drop
      let key ← if endsEntry (← peek) then pure emptyNode else readNode steps true true
      let value ← readEntryValue steps
      return (key, value) :: (← readEntries steps)
    | some .closeBlock => drop; return []
    | _ => failure

/-- The value of an entry between brackets, with the colon before it. -/
def readPartValue : (steps : Nat) → (closing : Token → Bool) → Reading Node
  | 0, _ => failure
  | steps + 1, closing => do
    if !isColon (← peek) then return emptyNode
    drop
    if endsPart closing (← peek) then return emptyNode
    readNode steps false false

/-- The parts of a list in brackets up to the closing one. A part may be a mapping of one entry. -/
def readBracket : (steps : Nat) → (first : Bool) → Reading (List Node)
  | 0, _ => failure
  | steps + 1, first => do
    if (← peek).any isCloseBracket then
      drop
      return []
    if !first then
      match ← peek with
      | some .comma => drop
      | _ => failure
    match ← peek with
    | some .closeBracket => drop; return []
    | some .key =>
      drop
      let next ← peek
      let key ←
        if isColon next || endsPart isCloseBracket next then do drop; pure emptyNode
        else readNode steps false false
      let value ← readPartValue steps isCloseBracket
      return .map none [(key, value)] :: (← readBracket steps false)
    | _ => return (← readNode steps false false) :: (← readBracket steps false)

/-- The entries of a mapping in braces up to the closing one. -/
def readBrace : (steps : Nat) → (first : Bool) → Reading (List (Node × Node))
  | 0, _ => failure
  | steps + 1, first => do
    if (← peek).any isCloseBrace then
      drop
      return []
    if !first then
      match ← peek with
      | some .comma => drop
      | _ => failure
    match ← peek with
    | some .closeBrace => drop; return []
    | some .key =>
      drop
      let next ← peek
      let key ←
        if isColon next || endsPart isCloseBrace next then pure emptyNode
        else readNode steps false false
      let value ← readPartValue steps isCloseBrace
      return (key, value) :: (← readBrace steps false)
    | _ =>
      let key ← readNode steps false false
      return (key, emptyNode) :: (← readBrace steps false)

end

/-! ## Documents -/

/-- The handles that need no directive. -/
def standardHandles : Keyed String := [("!", "!"), ("!!", "tag:yaml.org,2002:")]

/-- The directives in front of a document. Each may come once. -/
def readDirectives : (steps : Nat) → (versioned : Bool) → (declared : Keyed String) → Reading (Keyed String)
  | 0, _, _ => failure
  | steps + 1, versioned, declared => do
    match ← peek with
    | some (.version major minor) =>
      if versioned || major ≠ 1 || (minor ≠ 1 && minor ≠ 2) then failure
      drop
      readDirectives steps true declared
    | some (.tagPrefix handle start) =>
      if declared.has handle then failure
      drop
      readDirectives steps versioned (declared.put handle start)
    | _ => return declared

/-- The token ends a document. -/
def endsDocument : Option Token → Bool
  | none | some .documentStart | some .documentEnd | some (.version ..) | some (.tagPrefix ..) => true
  | _ => false

/-- A document begins with directives or with its mark. -/
def beginsExplicitly : Option Token → Bool
  | some .documentStart | some (.version ..) | some (.tagPrefix ..) => true
  | _ => false

/-- The marks that end a document, as many as there are. -/
def isDocumentEnd : Token → Bool
  | .documentEnd => true
  | _ => false

/-- The root of the one document, and nothing after it. -/
def readDocument (steps : Nat) : Reading (Option Node) := do
  let first ← peek
  if first.isNone then return none
  let root ←
    if beginsExplicitly first then do
      let declared ← readDirectives steps false []
      modify fun s => { s with handles := declared ++ s.handles }
      match ← peek with
      | some .documentStart => drop
      | _ => failure
      if endsDocument (← peek) then pure emptyNode else readNode steps true false
    else readNode steps true false
  let after := (← get).tokens.dropWhile isDocumentEnd
  if after.isEmpty then return some root else failure

/-- The one document of a text. -/
def Tree.ofText? (cs : List Char) : Option Tree := do
  let tokens ← tokens? cs
  let (root, source) ← readDocument (3 * tokens.length + 3) ⟨tokens, standardHandles, [], []⟩
  return ⟨root, source.marked⟩

end TableScript.Document.Yaml
