import TableScript.Files
import TableScript.Text.Distance
import TableScript.Text.LetterCase

/-!
# Suggestions

Messages about names that are not known say which known name was probably meant: the type of step that is
the closest, within three edits and whatever the case of its letters, or files of the same directory that
are within two edits.
-/

namespace TableScript.CommandLine

/-- The closer of two names, each with its distance; the first if they are equally close. -/
def closer (a b : Nat × String) : Nat × String := if b.1 < a.1 then b else a

/-- The closest of the names within so many edits, the first of them if several are equally close. -/
def closest? (limit : Nat) (text : String) (names : List String) : Option String :=
  let near := (names.map fun name => (Text.editDistance text name, name)).filter (·.1 ≤ limit)
  match near with
  | [] => none
  | first :: rest => some (rest.foldl closer first).2

/-- The type of step that was probably meant, of those that are known. -/
def suggestedType? (known : List String) (typeName : String) : Option String :=
  closest? 3 (Text.toLower typeName) known

/-- The message about a type of step that is none of those that are known. -/
def unknownTypeMessage (known : List String) (typeName : String) : String :=
  "Unknown step type '" ++ typeName ++ "'" ++ match suggestedType? known typeName with
    | some suggestion => ". Did you mean '" ++ suggestion ++ "'?"
    | none => ".\n\nAvailable steps: " ++ ", ".intercalate known

/-- Put a text in front of the first that is not less. -/
def insertText (text : String) : List String → List String
  | [] => [text]
  | other :: rest => if other < text then other :: insertText text rest else text :: other :: rest

/-- The texts in ascending order. -/
def sortTexts (texts : List String) : List String := texts.foldr insertText []

/-- The names in the directory of a path that are like its last name, three of them at most. -/
def similarNames (files : Files) (path : String) : List String :=
  match Files.lastName? path, files.entries? (Files.parentOf path) with
  | some name, some entries =>
    let similar := (entries.map (·.1)).filter fun other => Text.editDistance name other ≤ 2 && other ≠ name
    (sortTexts similar).take 3
  | _, _ => []

/-- The message about a file that does not exist. -/
def missingFileMessage (files : Files) (path : String) : String :=
  "Failed to read '" ++ path ++ "': file not found" ++ match similarNames files path with
    | [] => ""
    | names => ".\n\nDid you mean: " ++ ", ".intercalate names ++ "?"

end TableScript.CommandLine
