/-!
# Keyed lists

Entries under text keys, in the order in which the keys were first put in. Columns of a frame,
dataframes of a workbook, entries of a dictionary and parameters of a step are all kept this way, since
their order shows in every answer.

Every operation below leaves the keys distinct when they were distinct before.
-/

namespace TableScript

/-- Entries under text keys, in order. -/
abbrev Keyed (α : Type) := List (String × α)

namespace Keyed

variable {α : Type}

/-- The keys in order. -/
def keys (entries : Keyed α) : List String := entries.map (·.1)

/-- The entry under a key. -/
def get? : Keyed α → String → Option α
  | [], _ => none
  | (k, a) :: rest, key => if k = key then some a else get? rest key

/-- There is an entry under the key. -/
def has (entries : Keyed α) (key : String) : Bool := (entries.get? key).isSome

/-- The position of a key. -/
def indexOf? : Keyed α → String → Option Nat
  | [], _ => none
  | (k, _) :: rest, key => if k = key then some 0 else (indexOf? rest key).map (· + 1)

/-- Put an entry under a key: in the key's place if it is there already, at the end otherwise. -/
def put : Keyed α → String → α → Keyed α
  | [], key, value => [(key, value)]
  | (k, a) :: rest, key, value =>
    if k = key then (k, value) :: rest else (k, a) :: put rest key value

/-- Remove the entry under a key; the later ones move up. -/
def erase : Keyed α → String → Keyed α
  | [], _ => []
  | (k, a) :: rest, key => if k = key then rest else (k, a) :: erase rest key

/-- Insert a new entry before position `i`, or at the end if there is no such position. -/
def insertAt : Keyed α → Nat → String → α → Keyed α
  | entries, 0, key, value => (key, value) :: entries
  | [], _ + 1, key, value => [(key, value)]
  | entry :: rest, i + 1, key, value => entry :: insertAt rest i key value

/-- Put entries in one after the other: a key keeps its first place and its last value. -/
def ofList (entries : List (String × α)) : Keyed α :=
  entries.foldl (fun kept entry => kept.put entry.1 entry.2) []

end Keyed

end TableScript
