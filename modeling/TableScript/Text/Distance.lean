/-!
# Edit distance

The distance between two texts is the least number of characters that have to be inserted, deleted or
replaced to turn one into the other. It is computed with a table that has a row for every beginning of the
first text and a column for every beginning of the second one. Two of its rows are kept at a time: the one
that was filled last, and one whose cells are written over from left to right. The two then change places,
so that the cells of an earlier row stand in the row that is filled next until they are written over.
-/

namespace TableScript.Text

variable {n : Nat}

/-- Write the cell for one more column than `j`, in the row for one more character `c` than the row
`above`. -/
def writeCell (c : Char) (b : Vector Char n) (above : Vector Nat (n + 1)) (j : Nat) (hj : j < n)
    (row : Vector Nat (n + 1)) : Vector Nat (n + 1) :=
  let replaced := above[j] + if c = b[j] then 0 else 1
  row.set (j + 1) (min (min (above[j + 1] + 1) (row[j] + 1)) replaced)

/-- The row for `i` characters, the last of which is `c`, written over what stands in `row`. -/
def fillRow (c : Char) (i : Nat) (b : Vector Char n) (above row : Vector Nat (n + 1)) :
    Vector Nat (n + 1) :=
  n.fold (writeCell c b above) (row.set 0 i)

/-- The two rows that are kept. -/
structure Rows (n : Nat) where
  filled : Vector Nat (n + 1)
  spare : Vector Nat (n + 1)

/-- The rows for no characters. -/
def Rows.first (n : Nat) : Rows n := ⟨Vector.range (n + 1), Vector.replicate (n + 1) 0⟩

/-- The rows after one more character, which comes after `i` others. -/
def Rows.next (b : Vector Char n) (rows : Rows n) (c : Char) (i : Nat) : Rows n :=
  ⟨fillRow c (i + 1) b rows.filled rows.spare, rows.filled⟩

/-- The edit distance between two texts. -/
def editDistance (a b : String) : Nat :=
  let a := a.toList
  let b := b.toList.toArray
  if a.isEmpty then b.size
  else if b.isEmpty then a.length
  else
    let rows := a.zipIdx.foldl (fun rows (c, i) => rows.next b.toVector c i) (Rows.first b.size)
    rows.filled[b.size]

end TableScript.Text
