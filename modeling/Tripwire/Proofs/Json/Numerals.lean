import Tripwire.Json.Numeral
import Tripwire.Proofs.Number.Reading

/-!
# Numbers in documents

What is a number's literal has no letters but digits, signs, the point and the mark of an exponent.
The digits that are written for an integer are taken in one by one while they fit sixty-four bits,
and so every integer that fits is read back.
-/

namespace Tripwire

namespace Json

open Number (digitsOf digit?)

namespace Numeral

/-! ## The letters of a literal -/

/-- Whether a letter may stand in a literal. -/
def mayHold (letter : Char) : Bool :=
  letter.isDigit || ['-', '+', '.', 'e', 'E'].contains letter

theorem mayHold_of_isDigit {letter : Char} (isDigit : letter.isDigit = true) :
    mayHold letter = true := by
  rw [mayHold, isDigit, Bool.true_or]

/-- An exponent is digits after a sign or none. -/
theorem exponent?_cases {letters : List Char} {exponent : Int}
    (read : Number.Decimal.exponent? letters = some exponent) :
    ∃ digits number, Number.natural? 10 digits = some number ∧
      (letters = '+' :: digits ∨ letters = '-' :: digits ∨ letters = digits) := by
  unfold Number.Decimal.exponent? at read
  split at read
  case h_1 rest =>
    obtain ⟨_, found, _⟩ := Option.map_eq_some_iff.1 read
    obtain ⟨number, digits, _⟩ := Option.bind_eq_some_iff.1 found
    exact ⟨rest, number, digits, Or.inl rfl⟩
  case h_2 rest =>
    obtain ⟨_, found, _⟩ := Option.map_eq_some_iff.1 read
    obtain ⟨number, digits, _⟩ := Option.bind_eq_some_iff.1 found
    exact ⟨rest, number, digits, Or.inr (Or.inl rfl)⟩
  case h_3 =>
    obtain ⟨_, found, _⟩ := Option.map_eq_some_iff.1 read
    obtain ⟨number, digits, _⟩ := Option.bind_eq_some_iff.1 found
    exact ⟨letters, number, digits, Or.inr (Or.inr rfl)⟩

theorem mayHold_of_exponent? {letters : List Char} {exponent : Int}
    (read : Number.Decimal.exponent? letters = some exponent) :
    ∀ letter ∈ letters, mayHold letter = true := by
  obtain ⟨digits, number, found, signed⟩ := exponent?_cases read
  have plain : ∀ letter ∈ digits, mayHold letter = true := fun letter member =>
    mayHold_of_isDigit (Number.isDigit_of_natural? found letter member)
  rcases signed with rfl | rfl | rfl
  · exact List.forall_mem_cons.2 ⟨rfl, plain⟩
  · exact List.forall_mem_cons.2 ⟨rfl, plain⟩
  · exact plain

theorem mayHold_of_readExponent? {letters : List Char} {exponent : Option Int}
    (read : readExponent? letters = some exponent) :
    ∀ letter ∈ letters, mayHold letter = true := by
  unfold readExponent? at read
  split at read
  case h_1 => exact fun letter member => nomatch member
  case h_2 rest =>
    obtain ⟨value, found, _⟩ := Option.map_eq_some_iff.1 read
    exact List.forall_mem_cons.2 ⟨rfl, mayHold_of_exponent? found⟩
  case h_3 rest =>
    obtain ⟨value, found, _⟩ := Option.map_eq_some_iff.1 read
    exact List.forall_mem_cons.2 ⟨rfl, mayHold_of_exponent? found⟩
  case h_4 => cases read

/-- Letters may stand in a literal if those after the first digits may. -/
theorem mayHold_of_dropWhile {letters : List Char}
    (others : ∀ letter ∈ letters.dropWhile Char.isDigit, mayHold letter = true) :
    ∀ letter ∈ letters, mayHold letter = true := by
  intro letter member
  have split : letters.takeWhile Char.isDigit ++ letters.dropWhile Char.isDigit = letters :=
    List.takeWhile_append_dropWhile
  rw [← split] at member
  rcases List.mem_append.1 member with digits | later
  · exact mayHold_of_isDigit (List.mem_takeWhile_imp digits)
  · exact others letter later

theorem mayHold_of_readFraction? {letters : List Char} {parts : Option (List Char) × Option Int}
    (read : readFraction? letters = some parts) : ∀ letter ∈ letters, mayHold letter = true := by
  unfold readFraction? at read
  split at read
  case h_1 rest =>
    dsimp only at read
    split at read
    case isTrue => cases read
    case isFalse =>
      obtain ⟨exponent, found, _⟩ := Option.map_eq_some_iff.1 read
      have later := mayHold_of_dropWhile (mayHold_of_readExponent? found)
      exact List.forall_mem_cons.2 ⟨rfl, later⟩
  case h_2 =>
    obtain ⟨exponent, found, _⟩ := Option.map_eq_some_iff.1 read
    exact mayHold_of_readExponent? found

theorem mayHold_of_readMagnitude? {negative : Bool} {letters : List Char} {numeral : Numeral}
    (read : readMagnitude? negative letters = some numeral) :
    letters ≠ [] ∧ ∀ letter ∈ letters, mayHold letter = true := by
  unfold readMagnitude? at read
  split at read
  case h_1 => cases read
  case h_2 => cases read
  case h_3 nonempty _ =>
    obtain ⟨parts, found, _⟩ := Option.map_eq_some_iff.1 read
    refine ⟨?_, mayHold_of_dropWhile (mayHold_of_readFraction? found)⟩
    rintro rfl
    exact nonempty rfl

/-- A literal has letters, all of which may stand in one. -/
theorem mayHold_of_ofLetters? {letters : List Char} (read : (ofLetters? letters).isSome) :
    letters ≠ [] ∧ ∀ letter ∈ letters, mayHold letter = true := by
  obtain ⟨numeral, found⟩ := Option.isSome_iff_exists.1 read
  unfold ofLetters? at found
  split at found
  case h_1 rest =>
    have later := (mayHold_of_readMagnitude? found).2
    exact ⟨List.cons_ne_nil _ _, List.forall_mem_cons.2 ⟨rfl, later⟩⟩
  case h_2 => exact mayHold_of_readMagnitude? found

/-! ## Integers -/

theorem le_foldl_digits (digits : List Nat) (total : Nat) :
    total ≤ digits.foldl (fun total digit => total * 10 + digit) total := by
  induction digits generalizing total with
  | nil => exact Nat.le_refl total
  | cons digit digits ih =>
      have step : total ≤ total * 10 + digit := by omega
      exact Nat.le_trans step (ih (total * 10 + digit))

/-- Digits are all taken in if the number that they make fits. -/
theorem gather_of_mapM {letters : List Char} {digits : List Nat} {total : Nat}
    (read : letters.mapM (digit? 10) = some digits)
    (fits : digits.foldl (fun total digit => total * 10 + digit) total < Nat.pow 2 64) :
    gather total letters = (digits.foldl (fun total digit => total * 10 + digit) total, []) := by
  induction letters generalizing digits total with
  | nil =>
      cases read
      rfl
  | cons first rest ih =>
      rw [List.mapM_cons] at read
      obtain ⟨digit, here, others⟩ := Option.bind_eq_some_iff.1 read
      obtain ⟨more, there, same⟩ := Option.bind_eq_some_iff.1 others
      cases same
      have value := (Number.isDigit_of_digit? here).2
      rw [List.foldl_cons] at fits ⊢
      have next : total * 10 + (first.toNat - 48) < Nat.pow 2 64 := by
        rw [← value]
        exact Nat.lt_of_le_of_lt (le_foldl_digits more _) fits
      rw [gather, if_pos next, ← value]
      exact ih there fits

theorem gather_digitsOf {number : Nat} (fits : number < 2 ^ 64) :
    gather 0 (digitsOf 10 number) = (number, []) := by
  obtain ⟨digits, read, value⟩ :=
    Number.mapM_digitsOf (by decide : 1 < 10) (by decide) number
  have fold : digits.foldl (fun total digit => total * 10 + digit) 0 = number := value
  rw [gather_of_mapM read (by rw [fold]; exact fits), fold]

/-- The digits of a number are a literal by themselves. -/
theorem readMagnitude?_digitsOf (negative : Bool) (number : Nat) :
    readMagnitude? negative (digitsOf 10 number) =
      some ⟨negative, digitsOf 10 number, none, none⟩ := by
  have digits : ∀ letter ∈ digitsOf 10 number, letter.isDigit = true :=
    fun _ => Number.isDigit_of_mem_digitsOf
  have all : (digitsOf 10 number).takeWhile Char.isDigit = digitsOf 10 number :=
    List.takeWhile_eq_self_iff.2 digits
  have none : (digitsOf 10 number).dropWhile Char.isDigit = [] :=
    List.dropWhile_eq_nil_iff.2 digits
  unfold readMagnitude?
  rw [all, none]
  split
  case h_1 empty => exact absurd empty (Number.digitsOf_ne_nil 10 number)
  case h_2 second rest leading =>
    cases Nat.eq_zero_or_pos number with
    | inl zero =>
        subst zero
        cases leading
    | inr positive =>
        obtain ⟨first, others, split, apart⟩ := Number.digitsOf_eq_cons positive
        rw [split] at leading
        exact absurd (List.cons.inj leading).1 apart
  case h_3 => rfl

theorem ofLetters?_digitsOf (number : Nat) :
    ofLetters? (digitsOf 10 number) = some ⟨false, digitsOf 10 number, none, none⟩ := by
  unfold ofLetters?
  split
  case h_1 rest signed =>
    have member : '-' ∈ digitsOf 10 number := signed ▸ List.mem_cons_self
    exact absurd (Number.isDigit_of_mem_digitsOf member) (by decide)
  case h_2 => exact readMagnitude?_digitsOf false number

end Numeral

/-- A natural number that fits sixty-four bits is read back. -/
theorem integer?_ofNat {number : Nat} (fits : number < 2 ^ 64) :
    (ofNat number).integer? = some (number : Int) := by
  rw [ofNat, integer?, Numeral.ofLetters?_digitsOf, Option.bind_some, Numeral.integer?,
    Numeral.gather_digitsOf fits]
  rfl

theorem integer?_ofInt {number : Int} (least : -(2 ^ 63 : Nat) ≤ number)
    (below : number < (2 ^ 64 : Nat)) :
    (Json.number (Number.ofInt number)).integer? = some number := by
  cases number with
  | ofNat magnitude => exact integer?_ofNat (Int.ofNat_lt.1 below)
  | negSucc magnitude =>
      have fits : magnitude + 1 ≤ Nat.pow 2 63 := by
        change magnitude + 1 ≤ 2 ^ 63
        omega
      have within : magnitude + 1 < 2 ^ 64 := Nat.lt_of_le_of_lt fits (by decide)
      rw [Number.ofInt, integer?, Numeral.ofLetters?, Numeral.readMagnitude?_digitsOf,
        Option.bind_some, Numeral.integer?, Numeral.gather_digitsOf within]
      simp only [Nat.zero_lt_succ, fits, decide_true, Bool.and_self, if_true]
      rfl

theorem natural?_ofNat {width number : Nat} (narrow : width ≤ 64) (fits : number < 2 ^ width) :
    (ofNat number).natural? width = some number := by
  have within : number < 2 ^ 64 :=
    Nat.lt_of_lt_of_le fits (Nat.pow_le_pow_right (by decide) narrow)
  have small : number < Nat.pow 2 width := fits
  rw [natural?, integer?_ofNat within]
  exact if_pos small

theorem signed?_ofInt {number : Int} (least : -(2 ^ 63 : Nat) ≤ number)
    (below : number < (2 ^ 63 : Nat)) :
    (Json.number (Number.ofInt number)).signed? 64 = some number := by
  have within : number < (2 ^ 64 : Nat) := Int.lt_trans below (by decide)
  rw [signed?, integer?_ofInt least within, Option.filter_some, if_pos]
  rw [Bool.and_eq_true, decide_eq_true_iff, decide_eq_true_iff]
  exact ⟨least, below⟩

end Json

end Tripwire
