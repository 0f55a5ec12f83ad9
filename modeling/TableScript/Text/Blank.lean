import TableScript.Text.CharRange

/-!
# Blanks, lines and words

What counts as a blank (the property *White_Space*), the lines of a text, and a text without the
blanks around it or between its words. A line ends at a line feed; a carriage return just before the
line feed belongs to the ending, and a text that ends with a line feed has no empty line after it.
-/

namespace TableScript.Text

/-- The code points of the property *White_Space*. -/
def blankRanges : CharRanges := #[
  (0x9, 0xD), (0x20, 0x20), (0x85, 0x85), (0xA0, 0xA0), (0x1680, 0x1680), (0x2000, 0x200A),
   (0x2028, 0x2029), (0x202F, 0x202F), (0x205F, 0x205F), (0x3000, 0x3000)]

/-- A character of the property *White_Space*. -/
def isBlank (c : Char) : Bool := blankRanges.contains c

/-! ## Trimming and words -/

/-- Characters without the blanks at their end. -/
def trimEnd (cs : List Char) : List Char := (cs.reverse.dropWhile isBlank).reverse

/-- Characters without the blanks at either end. -/
def trimChars (cs : List Char) : List Char := trimEnd (cs.dropWhile isBlank)

/-- The text without the blanks at either end. -/
def trim (s : String) : String := String.ofList (trimChars s.toList)

/-- The words of the rest of a text, `word` being the one begun, last character first. -/
def wordsFrom (word : List Char) : List Char → List String
  | [] => if word.isEmpty then [] else [String.ofList word.reverse]
  | c :: rest =>
    if isBlank c then
      if word.isEmpty then wordsFrom [] rest
      else String.ofList word.reverse :: wordsFrom [] rest
    else wordsFrom (c :: word) rest

/-- The longest runs of characters that are no blanks. -/
def words (s : String) : List String := wordsFrom [] s.toList

/-! ## Lines -/

/-- Put a character in front of the first line. -/
def consFirst (c : Char) : List (List Char) → List (List Char)
  | [] => [[c]]
  | line :: rest => (c :: line) :: rest

/-- The lines of a sequence of characters, without their endings. -/
def linesOf : List Char → List (List Char)
  | [] => []
  | '\n' :: rest => [] :: linesOf rest
  | '\r' :: '\n' :: rest => [] :: linesOf rest
  | c :: rest => consFirst c (linesOf rest)

/-- The lines of a text, without their endings. -/
def lines (s : String) : List String := (linesOf s.toList).map String.ofList

end TableScript.Text
