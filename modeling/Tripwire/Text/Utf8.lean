/-!
# Byte lengths and byte order

Positions in a text count the bytes of its UTF-8 form, and texts are ordered by those
bytes, the first difference deciding.
-/

namespace Tripwire.Text

/-- The number of bytes that a list of characters takes. -/
def byteLength (letters : List Char) : Nat :=
  letters.foldr (fun letter total => letter.utf8Size + total) 0

@[simp]
theorem byteLength_nil : byteLength [] = 0 := rfl

@[simp]
theorem byteLength_cons (letter : Char) (rest : List Char) :
    byteLength (letter :: rest) = letter.utf8Size + byteLength rest := rfl

@[simp]
theorem byteLength_append (first second : List Char) :
    byteLength (first ++ second) = byteLength first + byteLength second := by
  induction first with
  | nil => simp
  | cons letter rest ih => simp [ih, Nat.add_assoc]

theorem byteLength_pos {letters : List Char} (nonempty : letters ≠ []) : 0 < byteLength letters := by
  cases letters with
  | nil => exact absurd rfl nonempty
  | cons letter rest => exact Nat.add_pos_left letter.utf8Size_pos _

/-- The bytes of a text, in order. -/
def bytes (text : String) : List UInt8 :=
  text.toUTF8.data.toList

/-- Texts are ordered by their bytes. -/
def compareBytes (first second : String) : Ordering :=
  compare (bytes first) (bytes second)

end Tripwire.Text
