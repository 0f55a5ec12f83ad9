import TableScript.Decimal.Reading

/-!
# Dates and times

A date, a time of day, or a date with a time of day and perhaps a distance from universal time, as TOML
writes them. What is read is the moment's canonical text: `T` between date and time, fractions of a second
without needless zeros and with nine digits at most, and `Z` in upper case.
-/

namespace TableScript.Document.Toml

/-- A number of exactly so many digits, and what follows it. -/
def readDigits (width : Nat) (cs : List Char) : Option (Nat × List Char) :=
  let digits := cs.take width
  if digits.length = width && digits.all Char.isDigit then
    some (Decimal.digitsValue 0 digits, cs.drop width)
  else none

/-- A number in decimal digits, at least so many. -/
def padded (width n : Nat) : String :=
  let digits := Nat.toDigits 10 n
  String.ofList (List.replicate (width - digits.length) '0' ++ digits)

/-- The number of days in a month. -/
def daysIn (year month : Nat) : Nat :=
  if month = 2 then if (year % 4 = 0 && year % 100 ≠ 0) || year % 400 = 0 then 29 else 28
  else if month = 4 || month = 6 || month = 9 || month = 11 then 30
  else 31

/-- A character that has to come, and what follows it. -/
def expect (c : Char) : List Char → Option (List Char)
  | d :: rest => if c = d then some rest else none
  | [] => none

/-- A date, and what follows it. -/
def readDate (cs : List Char) : Option (String × List Char) := do
  let (year, cs) ← readDigits 4 cs
  let (month, cs) ← readDigits 2 (← expect '-' cs)
  let (day, cs) ← readDigits 2 (← expect '-' cs)
  if month < 1 || 12 < month || day < 1 || daysIn year month < day then none
  return (padded 4 year ++ "-" ++ padded 2 month ++ "-" ++ padded 2 day, cs)

/-- A fraction of a second, if there is one. -/
def readSecondFraction (cs : List Char) : String × List Char :=
  match cs with
  | '.' :: c :: rest =>
    if c.isDigit then
      let digits := (c :: rest).takeWhile Char.isDigit
      let kept := ((digits.take 9).reverse.dropWhile (· = '0')).reverse
      (if kept.isEmpty then "" else "." ++ String.ofList kept, (c :: rest).drop digits.length)
    else ("", cs)
  | _ => ("", cs)

/-- A time of day, and what follows it. -/
def readTime (cs : List Char) : Option (String × List Char) := do
  let (hour, cs) ← readDigits 2 cs
  let (minute, cs) ← readDigits 2 (← expect ':' cs)
  let (second, cs) ← readDigits 2 (← expect ':' cs)
  if 23 < hour || 59 < minute || 60 < second then none
  let (fraction, cs) := readSecondFraction cs
  return (padded 2 hour ++ ":" ++ padded 2 minute ++ ":" ++ padded 2 second ++ fraction, cs)

/-- A distance from universal time, if there is one. -/
def readOffset (cs : List Char) : Option (String × List Char) :=
  match cs with
  | [] => some ("", [])
  | c :: rest =>
    if c = 'Z' || c = 'z' then some ("Z", rest)
    else if c = '+' || c = '-' then do
      let (hour, rest) ← readDigits 2 rest
      let (minute, rest) ← readDigits 2 (← expect ':' rest)
      if 23 < hour || 59 < minute then none
      let sign := if c = '-' && (hour ≠ 0 || minute ≠ 0) then "-" else "+"
      return (sign ++ padded 2 hour ++ ":" ++ padded 2 minute, rest)
    else some ("", cs)

/-- A moment, and what follows it. -/
def readMoment (cs : List Char) : Option (String × List Char) :=
  match readDate cs with
  | none => readTime cs
  | some (date, after) =>
    match after with
    | c :: rest =>
      if c = 'T' || c = 't' || c = ' ' then
        match readTime rest with
        | none => some (date, after)
        | some (time, rest) => do
          let (offset, rest) ← readOffset rest
          return (date ++ "T" ++ time ++ offset, rest)
      else some (date, after)
    | [] => some (date, [])

end TableScript.Document.Toml
