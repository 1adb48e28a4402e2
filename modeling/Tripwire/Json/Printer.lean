import Tripwire.Json

/-!
# Printing JSON

The documented compact form of a value: no blanks, entries in their order, literals as they are,
and in texts only what must be escaped is. The mark, the backslash and five control characters have
escapes of one letter, the other control characters have four digits, whose letters are small, and
every other character stands for itself.
-/

namespace Tripwire.Json

/-- The digit of a number below sixteen. -/
def hexDigit (number : Nat) : Char :=
  (number % 16).digitChar

/-- The escape with four digits. -/
def unitLetters (unit : Nat) : List Char :=
  ['\x5c', 'u', hexDigit (unit / 0x1000), hexDigit (unit / 0x100), hexDigit (unit / 0x10),
    hexDigit unit]

/-- A character inside a text. -/
def charLetters : Char → List Char
  | '\x22' => ['\x5c', '\x22']
  | '\x5c' => ['\x5c', '\x5c']
  | '\x08' => ['\x5c', 'b']
  | '\x0c' => ['\x5c', 'f']
  | '\n' => ['\x5c', 'n']
  | '\r' => ['\x5c', 'r']
  | '\t' => ['\x5c', 't']
  | char => if char.toNat < 0x20 then unitLetters char.toNat else [char]

/-- A piece of a text. -/
def Piece.letters : Piece → List Char
  | .letter char => charLetters char
  | .half unit => unitLetters unit

/-- A text between its marks. -/
def textLetters (pieces : List Piece) : List Char :=
  '\x22' :: (pieces.flatMap Piece.letters ++ ['\x22'])

mutual

/-- The characters of a value. -/
def letters : Json → List Char
  | null => ['n', 'u', 'l', 'l']
  | boolean true => ['t', 'r', 'u', 'e']
  | boolean false => ['f', 'a', 'l', 's', 'e']
  | number literal => literal
  | text pieces => textLetters pieces
  | array items => '[' :: ([','].intercalate (lettersOfItems items) ++ [']'])
  | object entries => '\x7b' :: ([','].intercalate (lettersOfEntries entries) ++ ['\x7d'])

/-- The characters of each item. -/
def lettersOfItems : List Json → List (List Char)
  | [] => []
  | first :: rest => first.letters :: lettersOfItems rest

/-- The characters of each entry. -/
def lettersOfEntries : List (List Piece × Json) → List (List Char)
  | [] => []
  | (key, value) :: rest =>
      (textLetters key ++ ':' :: value.letters) :: lettersOfEntries rest

end

/-- The compact form of a value. -/
def print (json : Json) : String :=
  String.ofList json.letters

end Tripwire.Json
