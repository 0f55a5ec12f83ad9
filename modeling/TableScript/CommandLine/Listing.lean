import TableScript.Files
import TableScript.Document.Json
import TableScript.Text.LetterCase

/-!
# Directory listings

What is in a directory, for choosing a file to import: files first, then directories, each in the order of
their names whatever the case of the letters. Names that begin with a dot or a dollar sign are hidden. What
is no directory is listed as an empty one.
-/

namespace TableScript.CommandLine

/-- A file or a directory in a listing, with the seconds since the epoch when it last changed. -/
structure Element where
  name : String
  isDirectory : Bool
  lastModified : Option Float

/-- The content of a directory. -/
structure Listing where
  path : String
  parts : List String
  elements : List Element

namespace Listing

/-- The name is not shown. -/
def isHidden (name : String) : Bool := name.startsWith "." || name.startsWith "$"

/-- The parts of a path, the top directory first. -/
def pathParts (path : String) : List String :=
  (if path.startsWith "/" then ["/"] else []) ++ Files.pathNames path

/-- The path is that of the directory one is in. -/
def isHere (path : String) : Bool := path.startsWith "." && (Files.pathNames path).isEmpty

/-- Put an element in front of the first whose name is greater, whatever the case of the letters. -/
def insertElement (e : Element) : List Element → List Element
  | [] => [e]
  | other :: rest =>
    if Text.toLower other.name < Text.toLower e.name then other :: insertElement e rest
    else e :: other :: rest

/-- The elements in the order of their names, whatever the case of the letters. -/
def sortElements (elements : List Element) : List Element := elements.foldr insertElement []

/-- The entries of a directory that are shown, in order. -/
def elementsOf (modified : String → Option Float) (entries : Files) : List Element :=
  let elements := (entries.filter fun entry => !isHidden entry.1).map fun (name, node) =>
    Element.mk name (node matches .directory _) (modified name)
  sortElements (elements.filter (!·.isDirectory)) ++ sortElements (elements.filter (·.isDirectory))

/-- The listing of a directory; `here` is the path of the one we are in, and `modified` tells when what is
at a path last changed. -/
def ofPath (files : Files) (modified : String → Option Float) (here path : String) : Listing :=
  let shown := if isHere path then here else path
  let elements := match files.entries? path with
    | some entries => elementsOf (fun name => modified (Files.join path name)) entries
    | none => []
  ⟨shown, pathParts shown, elements⟩

/-- The listing as JSON. -/
def toJson (listing : Listing) : Document.Json :=
  let elementJson (e : Element) : Document.Json :=
    .object [("name", .str e.name), ("isDirectory", .bool e.isDirectory),
      ("lastModified", match e.lastModified with
        | some time => .float time
        | none => .null)]
  .object [("path", .str listing.path), ("path_parts", .list (listing.parts.map .str)),
    ("elements", .list (listing.elements.map elementJson))]

end Listing

end TableScript.CommandLine
