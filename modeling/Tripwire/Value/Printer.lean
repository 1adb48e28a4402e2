import Tripwire.Number.Layout
import Tripwire.Text.Quoted
import Tripwire.Token.Scan
import Tripwire.Value

/-!
# Printing values

A value is printed as a literal that reads back as the value: bare where a word can hold the
text, quoted elsewhere, floats with every place written, words of bits in hexadecimal.
-/

namespace Tripwire

namespace Value

/-- Every place is written, none that only pads, and of two equally near decimals the larger. -/
def floatStyle : Number.Style :=
  { tie := .up, keepsPoint := false, positional := none }

/-- The text of a float, infinite ones and those that are no number included. -/
def floatText {format : Number.Format} (number : Number.Binary format) : List Char :=
  if number.isNan then ['N', 'a', 'N']
  else if number.isInfinite then
    if number.negative then ['-', 'i', 'n', 'f'] else ['i', 'n', 'f']
  else number.finiteText floatStyle

/-- Whether a text is no bare word. -/
def needsQuotes (letters : List Char) : Bool :=
  letters.isEmpty || letters.any Token.isDelimiter

/-- The characters of a value's literal. -/
def letters : Value → List Char
  | unsigned number => Number.digitsOf 10 number.toNat
  | signed number => Number.ofInt number.toInt
  | float number => floatText number
  | double number => floatText number
  | text contents =>
      if needsQuotes contents.toList then Text.quote contents.toList else contents.toList
  | boolean true => ['t', 'r', 'u', 'e']
  | boolean false => ['f', 'a', 'l', 's', 'e']
  | bits word => '0' :: 'x' :: Number.digitsOf 16 word.toNat

/-- The literal of a value. -/
def print (value : Value) : String :=
  String.ofList value.letters

end Value

end Tripwire
