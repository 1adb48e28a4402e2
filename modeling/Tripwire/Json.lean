import Tripwire.Number.Integer

/-!
# JSON values

A JSON value is kept as written: a number as its literal, and a text piece by piece, since an
escape may name half of a character alone. Such a text is well formed, but it has no string.
-/

namespace Tripwire

/-- A character of a text, or an escaped half of a pair that names a character. -/
inductive Json.Piece where
  | letter (char : Char)
  | half (unit : Nat)
deriving DecidableEq, Repr

/-- A JSON value. The entries of an object stand in the order of the text. -/
inductive Json where
  | null
  | boolean (truth : Bool)
  | number (literal : List Char)
  | text (pieces : List Json.Piece)
  | array (items : List Json)
  | object (entries : List (List Json.Piece × Json))

namespace Json

namespace Piece

/-- The first half of a pair. -/
def isLeading (unit : Nat) : Bool :=
  0xD800 ≤ unit && unit < 0xDC00

/-- The second half of a pair. -/
def isTrailing (unit : Nat) : Bool :=
  0xDC00 ≤ unit && unit < 0xE000

/-- The piece that an escape with four digits names. -/
def ofUnit (unit : Nat) : Piece :=
  if isLeading unit || isTrailing unit then .half unit else .letter (Char.ofNat unit)

/-- The character that a pair names. -/
def pair (leading trailing : Nat) : Char :=
  Char.ofNat (0x10000 + (leading - 0xD800) * 0x400 + (trailing - 0xDC00))

/-- The characters of a text, if every half has its other half beside it. -/
def join? : List Piece → Option (List Char)
  | [] => some []
  | .letter char :: rest => (join? rest).map (char :: ·)
  | .half leading :: .half trailing :: rest =>
      if isLeading leading && isTrailing trailing then
        (join? rest).map (pair leading trailing :: ·)
      else none
  | .half _ :: _ => none

theorem join?_map_letter (letters : List Char) : join? (letters.map .letter) = some letters := by
  induction letters with
  | nil => rfl
  | cons first rest ih => simp [join?, ih]

end Piece

/-- The pieces of a string. -/
def pieces (string : String) : List Piece :=
  string.toList.map .letter

/-- The text of a string. -/
def ofString (string : String) : Json :=
  .text (pieces string)

/-- The string of a text, if it has one. -/
def string? : Json → Option String
  | text pieces => (Piece.join? pieces).map String.ofList
  | _ => none

theorem string?_ofString (string : String) : (ofString string).string? = some string := by
  simp [ofString, pieces, string?, Piece.join?_map_letter]

/-- The literal of a natural number. -/
def ofNat (number : Nat) : Json :=
  .number (Number.digitsOf 10 number)

/-- An object with known keys. -/
def record (entries : List (String × Json)) : Json :=
  .object (entries.map fun (key, value) => (pieces key, value))

end Json

end Tripwire
