import Tripwire.Json.Numeral
import Tripwire.Json.Record
import Tripwire.Number.Layout
import Tripwire.Value

/-!
# Values in documents

A value is a record of its type's name and its data, read and written as is documented for types
that are tagged beside their contents. Floats are numbers with a point or an exponent and with as
few digits as lead back to them; infinite ones and those that are no number are written as `null`,
which no type reads.
-/

namespace Tripwire

namespace FieldType

/-- The type that a text names. -/
def ofPieces? (pieces : List Json.Piece) : Option FieldType :=
  (Json.Piece.join? pieces).bind fun name => ofTag? (String.ofList name)

/-- A type's name, or an object with the name as its only key and no value. -/
def ofJson? : Json → Option FieldType
  | .text pieces => ofPieces? pieces
  | .object [(key, .null)] => ofPieces? key
  | _ => none

end FieldType

namespace Value

/-- The exponents of first digits that documents write positionally. The range depends on the
width: floats have it from -6 to 12, doubles from -5 to 15. -/
def positionalExponents (format : Number.Format) : Int × Int :=
  if format = .single then (-6, 12) else (-5, 15)

/-- Numbers keep their point; of two equally near decimals the even one is written. -/
def documentStyle (format : Number.Format) : Number.Style :=
  { tie := .even, keepsPoint := true, positional := some (positionalExponents format) }

/-- A float's number. -/
def floatJson {format : Number.Format} (number : Number.Binary format) : Json :=
  if number.isFinite then .number (number.finiteText (documentStyle format)) else .null

/-- A value's data. -/
def dataJson : Value → Json
  | unsigned number => .ofNat number.toNat
  | signed number => .number (Number.ofInt number.toInt)
  | float number => floatJson number
  | double number => floatJson number
  | text contents => .ofString contents
  | boolean truth => .boolean truth
  | bits word => .ofNat word.toNat

/-- The record of a value. -/
def toJson (value : Value) : Json :=
  .record [("type", .ofString value.type.tag), ("value", value.dataJson)]

/-- The value of a type that data are. -/
def ofData? (type : FieldType) (json : Json) : Option Value :=
  match type with
  | .unsigned => (json.natural? 64).map fun number => .unsigned (.ofNat number)
  | .signed => (json.signed? 64).map fun integer => .signed (.ofInt integer)
  | .float => (json.binary? .single).map .float
  | .double => (json.binary? .double).map .double
  | .text => json.string?.map .text
  | .boolean =>
      match json with
      | .boolean truth => some (.boolean truth)
      | _ => none
  | .bits => (json.natural? 64).map fun word => .bits (.ofNat word)

/-- The type of a value's record. An object may write it in either form of a type; in an array
it is a plain name. -/
def typeOfJson? : (container : Json) → (type : Json) → Option FieldType
  | .array _, .text pieces => FieldType.ofPieces? pieces
  | .array _, _ => none
  | _, type => FieldType.ofJson? type

/-- The value of a record. -/
def ofJson? (json : Json) : Option Value :=
  match json.fields? ["type", "value"] with
  | some [some type, some contents] =>
      (typeOfJson? json type).bind fun type => ofData? type contents
  | _ => none

end Value

end Tripwire
