import TableScript.Frame

/-!
# Workbooks

A workbook holds all dataframes of an analysis under their names, in order; the position of a dataframe
is its index. Steps never change a workbook that others can see, they make a new one.

Dataframes that come from files get their names here: any text can be made into a usable name, and any
usable name into one that is not taken.
-/

namespace TableScript

/-- Named dataframes in order. -/
structure Workbook where
  frames : Keyed Frame
deriving Inhabited

namespace Workbook

/-- No dataframes. -/
def empty : Workbook := ⟨[]⟩

/-- The two workbooks have the same dataframes under the same names, in any order. -/
def same (a b : Workbook) : Bool := Keyed.same a.frames b.frames

instance : BEq Workbook := ⟨same⟩

/-- The number of dataframes. -/
def size (w : Workbook) : Nat := w.frames.length

/-- The names in order. -/
def names (w : Workbook) : List String := w.frames.keys

/-- The dataframe of that name. -/
def frame? (w : Workbook) (name : String) : Option Frame := w.frames.get? name

/-- There is a dataframe of that name. -/
def has (w : Workbook) (name : String) : Bool := w.frames.has name

/-- The index of a dataframe. -/
def indexOf? (w : Workbook) (name : String) : Option Nat := w.frames.indexOf? name

/-- Name and dataframe at an index. -/
def frameAt? (w : Workbook) (index : Nat) : Option (String × Frame) := w.frames[index]?

/-- Put a dataframe in: in the place of the one of that name, or at the end. -/
def insert (w : Workbook) (name : String) (f : Frame) : Workbook := ⟨w.frames.put name f⟩

/-- Remove a dataframe; the later ones move up. -/
def remove (w : Workbook) (name : String) : Workbook := ⟨w.frames.erase name⟩

/-! ## Names -/

/-- The first of `base_k`, `base_(k+1)`, … that is not taken, among as many as `tries`. -/
def freshFrom (w : Workbook) (base : String) (k : Nat) : (tries : Nat) → String
  | 0 => base
  | tries + 1 =>
    let candidate := base ++ "_" ++ toString k
    if w.has candidate then freshFrom w base (k + 1) tries else candidate

/-- A name that is not taken: `base`, or else the first of `base_1`, `base_2`, … Among one more of them
than there are dataframes, one is free. -/
def freshName (w : Workbook) (base : String) : String :=
  if w.has base then w.freshFrom base 1 (w.size + 1) else base

end Workbook

/-- The words of the script language, and the name every script has for its library of dataframes. None
of them can name a dataframe. -/
def reservedNames : List String := [
  "False", "None", "True", "and", "as", "assert", "async", "await", "break", "class",
  "continue", "def", "del", "elif", "else", "except", "finally", "for", "from", "global", "if",
  "import", "in", "is", "lambda", "nonlocal", "not", "or", "pass", "raise", "return", "try",
  "while", "with", "yield", "pd"]

/-- The text with an underscore for everything but ASCII letters and digits. -/
def nameChars (raw : String) : List Char :=
  raw.toList.map fun c => if c.isAlphanum then c else '_'

/-- A name for a dataframe, made from any text: other characters than ASCII letters and digits become
underscores, a name does not begin with a digit, and no reserved word is a name. -/
def usableName (raw : String) : String :=
  let cs := nameChars raw
  let name := String.ofList <| match cs with
    | [] => "df_".toList
    | c :: _ => if c.isDigit then "df_".toList ++ cs else cs
  if reservedNames.contains name then name ++ "_df" else name

end TableScript
