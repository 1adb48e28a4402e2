import Tripwire.Number.Decimal
import Tripwire.Value

/-!
# Reading literals

The declared type of a field says how the text of a literal beside it is read.
-/

namespace Tripwire

namespace FieldType

/-- Reads a word of bits: hexadecimal or binary after a mark of the radix, else decimal. -/
def readBits? : List Char → Option Nat
  | '0' :: 'x' :: rest => Number.unsigned? 16 64 rest
  | '0' :: 'X' :: rest => Number.unsigned? 16 64 rest
  | '0' :: 'b' :: rest => Number.unsigned? 2 64 rest
  | '0' :: 'B' :: rest => Number.unsigned? 2 64 rest
  | letters => Number.unsigned? 10 64 letters

/-- Reads a truth value in letters of any case or as a digit. -/
def readBoolean? (letters : List Char) : Option Bool :=
  match String.ofList (letters.map Char.toLower) with
  | "true" => some true
  | "1" => some true
  | "false" => some false
  | "0" => some false
  | _ => none

/-- The value of a type that a literal writes, if it writes one. -/
def read? (type : FieldType) (literal : String) : Option Value :=
  let letters := literal.toList
  match type with
  | unsigned => (Number.unsigned? 10 64 letters).map fun number => .unsigned (.ofNat number)
  | signed => (Number.signed? 64 letters).map fun number => .signed (.ofInt number)
  | float => (Number.Binary.read? .single letters).map .float
  | double => (Number.Binary.read? .double letters).map .double
  | text => some (.text literal)
  | boolean => (readBoolean? letters).map .boolean
  | bits => (readBits? letters).map fun word => .bits (.ofNat word)

end FieldType

end Tripwire
