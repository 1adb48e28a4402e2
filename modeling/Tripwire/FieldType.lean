/-!
# Field types

The declared type of a field decides how a literal beside it is read.
-/

namespace Tripwire

/-- The types that a field may be declared with. -/
inductive FieldType where
  | unsigned
  | signed
  | float
  | double
  | text
  | boolean
  | bits
deriving DecidableEq, Repr

namespace FieldType

/-- The name of a type in messages. -/
def name : FieldType → String
  | unsigned => "UNSIGNED_INT"
  | signed => "SIGNED_INT"
  | float => "FLOAT"
  | double => "DOUBLE"
  | text => "TEXT"
  | boolean => "BOOLEAN"
  | bits => "BITFIELD"

/-- The name of a type in documents. -/
def tag : FieldType → String
  | unsigned => "UnsignedInt"
  | signed => "SignedInt"
  | float => "Float"
  | double => "Double"
  | text => "Text"
  | boolean => "Boolean"
  | bits => "BitField"

/-- Every type, once. -/
def every : List FieldType :=
  [unsigned, signed, float, double, text, boolean, bits]

/-- The type that documents call by a name. -/
def ofTag? (word : String) : Option FieldType :=
  every.find? (·.tag == word)

theorem ofTag?_tag (type : FieldType) : ofTag? type.tag = some type := by
  cases type <;> rfl

end FieldType

end Tripwire
