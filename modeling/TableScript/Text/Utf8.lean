/-!
# Bytes as characters

Files are bytes; texts are characters. Reading bytes as UTF-8 never fails: each place holds either a
character that is properly encoded there or a stray byte. A sequence of bytes is a text when none of
its bytes is stray.
-/

namespace TableScript.Text

/-- What stands at one place of a sequence of bytes. -/
inductive Utf8Unit where
  /-- A properly encoded character. -/
  | char (c : Char)
  /-- A byte that begins no properly encoded character. -/
  | stray (b : UInt8)

/-- The number of bytes a unit takes up. -/
def Utf8Unit.width : Utf8Unit → Nat
  | .char c => c.utf8Size
  | .stray _ => 1

/-- The bytes of a unit. -/
def Utf8Unit.bytes : Utf8Unit → List UInt8
  | .char c => String.utf8EncodeChar c
  | .stray b => [b]

/-- The character that the bytes begin with. No character takes more than four of them. -/
def leadingChar? (bytes : List UInt8) : Option Char :=
  (bytes.take 4).toByteArray.utf8DecodeChar? 0

/-- The units of a sequence of bytes, after its first `skip` bytes. -/
def utf8UnitsAfter : Nat → List UInt8 → List Utf8Unit
  | _, [] => []
  | skip + 1, _ :: rest => utf8UnitsAfter skip rest
  | 0, b :: rest =>
    match leadingChar? (b :: rest) with
    | some c => .char c :: utf8UnitsAfter (c.utf8Size - 1) rest
    | none => .stray b :: utf8UnitsAfter 0 rest

/-- The units of a sequence of bytes. -/
def utf8Units (bytes : List UInt8) : List Utf8Unit := utf8UnitsAfter 0 bytes

/-- The characters of a sequence of units that begins at `offset`, or the offset of its first stray
byte. -/
def charsOfUnits (offset : Nat) : List Utf8Unit → Except Nat (List Char)
  | [] => .ok []
  | .stray _ :: _ => .error offset
  | .char c :: rest => (charsOfUnits (offset + c.utf8Size) rest).map (c :: ·)

/-- The text a sequence of bytes encodes, or the offset of its first stray byte. -/
def decodeUtf8 (bytes : List UInt8) : Except Nat String :=
  (charsOfUnits 0 (utf8Units bytes)).map String.ofList

/-- The bytes of a text. -/
def encodeUtf8 (s : String) : List UInt8 := s.toList.flatMap String.utf8EncodeChar

end TableScript.Text
