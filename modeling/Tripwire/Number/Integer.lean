/-!
# Integers as text

An integer is written with at least one digit and perhaps a plus sign, a signed one
perhaps with a minus sign, and it is read only if it fits its width. What is printed is read
back.
-/

namespace Tripwire.Number

/-- The value of a digit; letters of either case follow the ten decimal digits. -/
def digitValue? (letter : Char) : Option Nat :=
  if letter.isDigit then some (letter.toNat - 48)
  else if letter.isLower then some (letter.toNat - 87)
  else if letter.isUpper then some (letter.toNat - 55)
  else none

/-- The value of a digit of a radix. -/
def digit? (radix : Nat) (letter : Char) : Option Nat :=
  (digitValue? letter).filter (· < radix)

/-- The number that digits stand for, most significant first. -/
def ofDigits (radix : Nat) (digits : List Nat) : Nat :=
  digits.foldl (fun total digit => total * radix + digit) 0

/-- Reads digits alone. -/
def natural? (radix : Nat) (letters : List Char) : Option Nat :=
  if letters.isEmpty then none
  else (letters.mapM (digit? radix)).map (ofDigits radix)

/-- Reads digits after a plus sign or none, if the number has at most `width` bits. -/
def unsigned? (radix width : Nat) (letters : List Char) : Option Nat :=
  let digits :=
    match letters with
    | '+' :: rest => rest
    | _ => letters
  (natural? radix digits).filter (· < Nat.pow 2 width)

/-- Reads decimal digits after a sign or none, if the number fits `width` bits with sign. -/
def signed? (width : Nat) (letters : List Char) : Option Int :=
  match letters with
  | '-' :: rest =>
      ((natural? 10 rest).filter (· ≤ Nat.pow 2 (width - 1))).map
        fun magnitude => -(magnitude : Int)
  | _ => (unsigned? 10 (width - 1) letters).map fun magnitude => (magnitude : Int)

/-- The digits of a number, lower-case above nine. -/
def digitsOf (radix number : Nat) : List Char :=
  Nat.toDigits radix number

/-- The decimal digits of an integer after a minus sign if it is negative. -/
def ofInt : Int → List Char
  | .ofNat number => digitsOf 10 number
  | .negSucc number => '-' :: digitsOf 10 (number + 1)

/-! ## Reading back -/

theorem digitValue?_digitChar :
    ∀ digit : Fin 16, digitValue? digit.val.digitChar = some digit.val := by
  decide

theorem digit?_digitChar {radix digit : Nat} (small : digit < radix) (bound : radix ≤ 16) :
    digit? radix digit.digitChar = some digit := by
  have value := digitValue?_digitChar ⟨digit, Nat.lt_of_lt_of_le small bound⟩
  simp only [digit?, value, Option.filter_some, small, decide_true, if_true]

theorem ofDigits_append (radix : Nat) (first : List Nat) (last : Nat) :
    ofDigits radix (first ++ [last]) = ofDigits radix first * radix + last := by
  simp [ofDigits]

/-- The digits of a number are digits of its radix and stand for the number. -/
theorem mapM_digitsOf {radix : Nat} (positive : 1 < radix) (bound : radix ≤ 16) (number : Nat) :
    ∃ digits, (digitsOf radix number).mapM (digit? radix) = some digits ∧
      ofDigits radix digits = number := by
  induction number using Nat.strongRecOn with
  | ind number ih =>
      by_cases small : number < radix
      · refine ⟨[number], ?_, by simp [ofDigits]⟩
        simp [digitsOf, Nat.toDigits_of_lt_base small, digit?_digitChar small bound]
      · have above : radix ≤ number := Nat.le_of_not_lt small
        have quotient : 0 < number / radix := Nat.div_pos above (by omega)
        have remainder : number % radix < radix := Nat.mod_lt _ (by omega)
        obtain ⟨digits, read, value⟩ := ih (number / radix) (Nat.div_lt_self (by omega) positive)
        refine ⟨digits ++ [number % radix], ?_, ?_⟩
        · have split := Nat.toDigits_append_toDigits positive quotient remainder
          rw [Nat.div_add_mod] at split
          rw [digitsOf, ← split, List.mapM_append, ← digitsOf, read,
            Nat.toDigits_of_lt_base remainder]
          simp [digit?_digitChar remainder bound]
        · rw [ofDigits_append, value, Nat.mul_comm, Nat.div_add_mod]

theorem digitsOf_ne_nil (radix number : Nat) : digitsOf radix number ≠ [] :=
  Nat.toDigits_ne_nil

theorem natural?_digitsOf {radix : Nat} (positive : 1 < radix) (bound : radix ≤ 16)
    (number : Nat) : natural? radix (digitsOf radix number) = some number := by
  obtain ⟨digits, read, value⟩ := mapM_digitsOf positive bound number
  simp [natural?, digitsOf_ne_nil, read, value]

end Tripwire.Number
