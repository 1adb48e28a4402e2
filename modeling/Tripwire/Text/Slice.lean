import Tripwire.Text.Utf8

/-!
# Parts of a text

A part of a text is given by the byte where it begins and the byte where it ends. There is none
where one of the two is within a character or past the end, or where the end comes first.
-/

namespace Tripwire.Text

/-- The characters before a byte and those from it on. -/
def splitAt? : List Char → Nat → Option (List Char × List Char)
  | letters, 0 => some ([], letters)
  | [], _ + 1 => none
  | letter :: rest, count + 1 =>
      if letter.utf8Size ≤ count + 1 then
        (splitAt? rest (count + 1 - letter.utf8Size)).map (Prod.map (letter :: ·) id)
      else none

/-- The characters from a byte up to another. -/
def slice? (letters : List Char) (start stop : Nat) : Option (List Char) :=
  if start ≤ stop then do
    let (_, rest) ← splitAt? letters start
    let (inside, _) ← splitAt? rest (stop - start)
    return inside
  else none

theorem splitAt?_zero (letters : List Char) : splitAt? letters 0 = some ([], letters) := by
  rw [splitAt?]

theorem splitAt?_cons (letter : Char) (rest : List Char) (count : Nat) :
    splitAt? (letter :: rest) (letter.utf8Size + count) =
      (splitAt? rest count).map (Prod.map (letter :: ·) id) := by
  obtain ⟨fewer, size⟩ := Nat.exists_add_one_eq.2 letter.utf8Size_pos
  rw [← size, Nat.add_right_comm, splitAt?, ← size, if_pos (by omega)]
  congr 2
  omega

theorem splitAt?_append (before after : List Char) :
    splitAt? (before ++ after) (byteLength before) = some (before, after) := by
  induction before with
  | nil => exact splitAt?_zero after
  | cons letter before ih =>
      rw [List.cons_append, byteLength_cons, splitAt?_cons, ih]
      rfl

theorem splitAt?_eq_some {letters before after : List Char} {count : Nat}
    (split : splitAt? letters count = some (before, after)) :
    letters = before ++ after ∧ count = byteLength before := by
  fun_induction splitAt? letters count generalizing before after with
  | case1 letters =>
      cases split
      exact ⟨rfl, rfl⟩
  | case2 => cases split
  | case3 letter rest count fits ih =>
      obtain ⟨⟨earlier, later⟩, found, same⟩ := Option.map_eq_some_iff.1 split
      cases same
      obtain ⟨rfl, counted⟩ := ih found
      refine ⟨rfl, ?_⟩
      change count + 1 = letter.utf8Size + byteLength earlier
      omega
  | case4 => cases split

/-- A part stands between what comes before and after it. -/
theorem slice?_eq_some_iff {letters inside : List Char} {start stop : Nat} :
    slice? letters start stop = some inside ↔ ∃ before after,
      letters = before ++ inside ++ after ∧ start = byteLength before ∧
        stop = byteLength (before ++ inside) := by
  constructor
  · intro sliced
    unfold slice? at sliced
    split at sliced
    case isTrue ordered =>
      obtain ⟨⟨before, rest⟩, first, sliced⟩ := Option.bind_eq_some_iff.1 sliced
      obtain ⟨⟨inner, after⟩, second, same⟩ := Option.bind_eq_some_iff.1 sliced
      cases same
      obtain ⟨rfl, starts⟩ := splitAt?_eq_some first
      obtain ⟨rfl, length⟩ := splitAt?_eq_some second
      refine ⟨before, after, (List.append_assoc ..).symm, starts, ?_⟩
      rw [byteLength_append]
      omega
    case isFalse => cases sliced
  · rintro ⟨before, after, rfl, rfl, rfl⟩
    rw [slice?, byteLength_append, if_pos (Nat.le_add_right _ _), Nat.add_sub_cancel_left,
      List.append_assoc, splitAt?_append]
    change (splitAt? (inside ++ after) (byteLength inside)).bind _ = _
    rw [splitAt?_append]
    rfl

end Tripwire.Text
