import Mathlib.Data.List.TakeWhile
import Tripwire.Proofs.Number.Rounding
import Tripwire.Value.Printer

/-!
# Floats are read back

Every place of a decimal is written, so the text reads as a decimal with the same value or, where
zeros are written for its exponent, as the whole number that it is. Either rounds to the pattern
that was printed. Only of what is no number the bits are not all written.
-/

namespace Tripwire.Number

/-! ## Digits among zeros -/

theorem natural?_eq_some {letters : List Char} {digits : List Nat} (nonempty : letters ≠ [])
    (read : letters.mapM (digit? 10) = some digits) :
    natural? 10 letters = some (ofDigits 10 digits) := by
  unfold natural?
  rw [if_neg (by simpa using nonempty), read, Option.map_some]

theorem mapM_replicate_zero (count : Nat) :
    (List.replicate count '0').mapM (digit? 10) = some (List.replicate count 0) := by
  induction count with
  | zero => rfl
  | succ count ih =>
      rw [List.replicate_succ, List.mapM_cons, ih]
      rfl

theorem ofDigits_zeros_append (count : Nat) (digits : List Nat) :
    ofDigits 10 (List.replicate count 0 ++ digits) = ofDigits 10 digits := by
  induction count with
  | zero => rfl
  | succ count ih =>
      rw [← ih]
      rfl

theorem ofDigits_append_zeros (digits : List Nat) (count : Nat) :
    ofDigits 10 (digits ++ List.replicate count 0) = ofDigits 10 digits * 10 ^ count := by
  induction count with
  | zero => simp
  | succ count ih =>
      rw [List.replicate_succ', ← List.append_assoc, ofDigits_append, ih, Nat.pow_succ,
        Nat.mul_assoc, Nat.add_zero]

/-- Zeros before the digits of a number do not change it. -/
theorem natural?_zeros_append (count number : Nat) :
    natural? 10 (List.replicate count '0' ++ digitsOf 10 number) = some number := by
  obtain ⟨digits, read, value⟩ := mapM_digitsOf (by decide : 1 < 10) (by decide) number
  have whole : (List.replicate count '0' ++ digitsOf 10 number).mapM (digit? 10) =
      some (List.replicate count 0 ++ digits) := by
    rw [List.mapM_append, mapM_replicate_zero, read]
    rfl
  rw [natural?_eq_some (by simp [digitsOf_ne_nil]) whole, ofDigits_zeros_append, value]

/-- Zeros after the digits of a number multiply it. -/
theorem natural?_append_zeros (number count : Nat) :
    natural? 10 (digitsOf 10 number ++ List.replicate count '0') = some (number * 10 ^ count) := by
  obtain ⟨digits, read, value⟩ := mapM_digitsOf (by decide : 1 < 10) (by decide) number
  have whole : (digitsOf 10 number ++ List.replicate count '0').mapM (digit? 10) =
      some (digits ++ List.replicate count 0) := by
    rw [List.mapM_append, mapM_replicate_zero, read]
    rfl
  rw [natural?_eq_some (by simp [digitsOf_ne_nil]) whole, ofDigits_append_zeros, value]

/-- Every letter of what is read is a digit. -/
theorem exists_digit_of_mapM {radix : Nat} {letters : List Char} {digits : List Nat}
    (read : letters.mapM (digit? radix) = some digits) {letter : Char}
    (member : letter ∈ letters) : ∃ digit, digit? radix letter = some digit := by
  induction letters generalizing digits with
  | nil => cases member
  | cons first rest ih =>
      rw [List.mapM_cons] at read
      obtain ⟨digit, here, others⟩ := Option.bind_eq_some_iff.1 read
      obtain ⟨more, there, _⟩ := Option.bind_eq_some_iff.1 others
      rcases List.mem_cons.1 member with rfl | inRest
      · exact ⟨digit, here⟩
      · exact ih there inRest

theorem isDigit_of_mem_digitsOf {number : Nat} {letter : Char}
    (member : letter ∈ digitsOf 10 number) : letter.isDigit = true :=
  Nat.isDigit_of_mem_toDigits (by decide) (by decide) member

theorem isDigit_of_mem_padded {number zeros : Nat} {letter : Char}
    (member : letter ∈ digitsOf 10 number ++ List.replicate zeros '0') :
    letter.isDigit = true := by
  rw [List.mem_append, List.mem_replicate] at member
  rcases member with inDigits | ⟨_, rfl⟩
  · exact isDigit_of_mem_digitsOf inDigits
  · rfl

theorem isDigit_of_digit? {letter : Char} {digit : Nat} (read : digit? 10 letter = some digit) :
    letter.isDigit = true ∧ digit = letter.toNat - 48 := by
  obtain ⟨value, small⟩ := Option.filter_eq_some_iff.1 read
  have below : digit < 10 := of_decide_eq_true small
  unfold digitValue? at value
  split at value
  case isTrue isDigit => exact ⟨isDigit, (Option.some.inj value).symm⟩
  case isFalse =>
    split at value
    case isTrue isLower =>
      have bound : 'a'.val ≤ letter.val := of_decide_eq_true (Bool.and_eq_true_iff.1 isLower).1
      have least : 97 ≤ letter.toNat := UInt32.le_iff_toNat_le.1 bound
      have same := Option.some.inj value
      omega
    case isFalse =>
      split at value
      case isTrue isUpper =>
        have bounds : 'A'.val ≤ letter.val ∧ letter.val ≤ 'Z'.val := of_decide_eq_true isUpper
        have least : 65 ≤ letter.toNat := UInt32.le_iff_toNat_le.1 bounds.1
        have same := Option.some.inj value
        omega
      case isFalse => cases value

/-- What is read as a natural number has no letters but digits. -/
theorem isDigit_of_natural? {letters : List Char} {number : Nat}
    (read : natural? 10 letters = some number) :
    ∀ letter ∈ letters, letter.isDigit = true := by
  intro letter member
  unfold natural? at read
  split at read
  case isTrue => cases read
  case isFalse =>
    obtain ⟨digits, found, _⟩ := Option.map_eq_some_iff.1 read
    obtain ⟨digit, here⟩ := exists_digit_of_mapM found member
    exact (isDigit_of_digit? here).1

/-- A positive number does not start with a zero. -/
theorem digitsOf_eq_cons {number : Nat} (positive : 0 < number) :
    ∃ first rest, digitsOf 10 number = first :: rest ∧ first ≠ '0' := by
  induction number using Nat.strongRecOn with
  | ind number ih =>
      by_cases small : number < 10
      · refine ⟨number.digitChar, [], Nat.toDigits_of_lt_base small, ?_⟩
        have apart : ∀ digit : Fin 10, 0 < digit.val → digit.val.digitChar ≠ '0' := by decide
        exact apart ⟨number, small⟩ positive
      · have quotient : 0 < number / 10 := by omega
        obtain ⟨first, rest, split, apart⟩ := ih (number / 10) (by omega) quotient
        have remainder : number % 10 < 10 := Nat.mod_lt number (by decide)
        have whole := Nat.toDigits_append_toDigits (by decide) quotient remainder
        rw [Nat.div_add_mod, ← digitsOf, split] at whole
        exact ⟨first, _, whole.symm, apart⟩

/-! ## Integers -/

theorem ne_of_mem_digitsOf {radix number : Nat} (positive : 1 < radix) (bound : radix ≤ 16)
    {letter other : Char} (member : letter ∈ digitsOf radix number)
    (noDigit : digitValue? other = none) : letter ≠ other := by
  rintro rfl
  obtain ⟨digits, read, _⟩ := mapM_digitsOf positive bound number
  obtain ⟨digit, found⟩ := exists_digit_of_mapM read member
  rw [digit?, noDigit] at found
  cases found

/-- A number that fits is read from its digits. -/
theorem unsigned?_digitsOf {radix width number : Nat} (positive : 1 < radix) (bound : radix ≤ 16)
    (fits : number < 2 ^ width) : unsigned? radix width (digitsOf radix number) = some number := by
  have small : number < Nat.pow 2 width := fits
  unfold unsigned?
  dsimp only
  split
  case h_1 rest split =>
    exact absurd rfl (ne_of_mem_digitsOf positive bound (split ▸ List.mem_cons_self) rfl)
  case h_2 =>
    rw [natural?_digitsOf positive bound, Option.filter_some, if_pos (decide_eq_true small)]

/-- An integer that fits is read from its text. -/
theorem signed?_ofInt (width : Nat) (number : Int)
    (fits : -(2 ^ (width - 1) : Nat) ≤ number ∧ number < (2 ^ (width - 1) : Nat)) :
    signed? width (ofInt number) = some number := by
  cases number with
  | ofNat number =>
      have small : number < 2 ^ (width - 1) := Int.ofNat_lt.1 fits.2
      change signed? width (digitsOf 10 number) = _
      unfold signed?
      split
      case h_1 rest split =>
        exact absurd rfl (ne_of_mem_digitsOf (by decide : 1 < 10) (by decide)
          (split ▸ List.mem_cons_self) rfl)
      case h_2 =>
        rw [unsigned?_digitsOf (by decide) (by decide) small]
        rfl
  | negSucc number =>
      have small : number + 1 ≤ Nat.pow 2 (width - 1) := by
        have least := fits.1
        change number + 1 ≤ 2 ^ (width - 1)
        omega
      rw [ofInt, signed?, natural?_digitsOf (by decide) (by decide), Option.filter_some,
        if_pos (decide_eq_true small)]
      rfl

namespace Decimal

/-! ## Positional texts -/

/-- Digits alone are read as a whole number. -/
theorem read?_of_digits {letters : List Char} {number : Nat}
    (digits : ∀ letter ∈ letters, letter.isDigit = true)
    (read : natural? 10 letters = some number) : read? letters = some ⟨number, 0⟩ := by
  have all : letters.takeWhile Char.isDigit = letters := List.takeWhile_eq_self_iff.2 digits
  have none : letters.dropWhile Char.isDigit = [] := List.dropWhile_eq_nil_iff.2 digits
  unfold read?
  rw [all, none]
  simp [splitFraction, read, suffix?]

/-- Digits on both sides of a point are read as the number that they make together. -/
theorem read?_of_point {whole fraction : List Char} {number : Nat}
    (before : ∀ letter ∈ whole, letter.isDigit = true)
    (after : ∀ letter ∈ fraction, letter.isDigit = true)
    (read : natural? 10 (whole ++ fraction) = some number) :
    read? (whole ++ '.' :: fraction) = some ⟨number, -(fraction.length : Int)⟩ := by
  have taken : (whole ++ '.' :: fraction).takeWhile Char.isDigit = whole := by
    rw [List.takeWhile_append_of_pos before]
    simp
  have dropped : (whole ++ '.' :: fraction).dropWhile Char.isDigit = '.' :: fraction := by
    rw [List.dropWhile_append_of_pos before]
    rfl
  have all : fraction.takeWhile Char.isDigit = fraction := List.takeWhile_eq_self_iff.2 after
  have none : fraction.dropWhile Char.isDigit = [] := List.dropWhile_eq_nil_iff.2 after
  unfold read?
  rw [taken, dropped]
  simp [splitFraction, all, none, read, suffix?]

variable {format : Format}

/-- A whole number rounds like the decimal of which it is the value. -/
theorem round_of_zeros {digits zeros : Nat}
    (finite : round format ⟨digits, (zeros : Int)⟩ ≠ format.infinity) :
    round format ⟨digits * 10 ^ zeros, 0⟩ = round format ⟨digits, (zeros : Int)⟩ := by
  by_cases none : digits = 0
  · simp [round, none]
  · have some : digits * 10 ^ zeros ≠ 0 :=
      Nat.mul_ne_zero none (Nat.ne_of_gt (Nat.pow_pos (by decide)))
    unfold round at finite ⊢
    dsimp only at finite ⊢
    rw [if_neg none] at finite ⊢
    rw [if_neg some, if_neg (by omega), if_neg (by omega)]
    split at finite
    case isTrue => exact absurd rfl finite
    case isFalse inside =>
      rw [if_neg inside, if_neg (by omega)]
      change format.round (digits * 10 ^ zeros * 1) 1 = format.round (digits * 10 ^ zeros) 1
      rw [Nat.mul_one]

/-- The text of a decimal is its digits with zeros after them, or it has a point among digits, as
many after it as its exponent asks for. -/
theorem positional_cases (decimal : Decimal) :
    (∃ zeros : Nat, decimal.exponent = zeros ∧
        decimal.positional = digitsOf 10 decimal.digits ++ List.replicate zeros '0') ∨
      ∃ whole fraction, whole ≠ [] ∧ (∀ letter ∈ whole ++ fraction, letter.isDigit = true) ∧
        natural? 10 (whole ++ fraction) = some decimal.digits ∧
          decimal.exponent = -(fraction.length : Int) ∧
            decimal.positional = whole ++ '.' :: fraction := by
  obtain ⟨digits, exponent⟩ := decimal
  cases exponent with
  | ofNat zeros => exact Or.inl ⟨zeros, rfl, rfl⟩
  | negSucc below =>
      have text : positional ⟨digits, .negSucc below⟩ =
          if below + 1 < (digitsOf 10 digits).length then
            (digitsOf 10 digits).take ((digitsOf 10 digits).length - (below + 1)) ++
              '.' :: (digitsOf 10 digits).drop ((digitsOf 10 digits).length - (below + 1))
          else
            ['0'] ++ '.' :: (List.replicate (below + 1 - (digitsOf 10 digits).length) '0' ++
              digitsOf 10 digits) := rfl
      refine Or.inr ?_
      rw [text]
      split
      case isTrue inside =>
        refine ⟨_, _, ?_, ?_, ?_, ?_, rfl⟩
        · intro none
          have length := congrArg List.length none
          rw [List.length_take, List.length_nil] at length
          omega
        · rw [List.take_append_drop]
          exact fun letter => isDigit_of_mem_digitsOf
        · rw [List.take_append_drop]
          exact natural?_digitsOf (by decide) (by decide) digits
        · change Int.negSucc below = _
          rw [List.length_drop, Int.negSucc_eq]
          omega
      case isFalse outside =>
        have number := natural?_zeros_append (below + 1 - (digitsOf 10 digits).length + 1) digits
        refine ⟨['0'], List.replicate (below + 1 - (digitsOf 10 digits).length) '0' ++
          digitsOf 10 digits, List.cons_ne_nil _ _, ?_, number, ?_, rfl⟩
        · intro letter member
          simp only [List.mem_append, List.mem_singleton, List.mem_replicate] at member
          rcases member with rfl | ⟨_, rfl⟩ | inDigits
          · rfl
          · rfl
          · exact isDigit_of_mem_digitsOf inDigits
        · change Int.negSucc below = _
          rw [List.length_append, List.length_replicate, Int.negSucc_eq]
          omega

/-- The text of a decimal that does not round to infinity reads as one that rounds alike. -/
theorem read?_positional {decimal : Decimal} (finite : decimal.round format ≠ format.infinity) :
    ∃ read, read? decimal.positional = some read ∧
      read.round format = decimal.round format := by
  obtain ⟨digits, exponent⟩ := decimal
  rcases positional_cases ⟨digits, exponent⟩ with
    ⟨zeros, rfl, text⟩ | ⟨whole, fraction, _, areDigits, number, rfl, text⟩
  · rw [text]
    exact ⟨_, read?_of_digits (fun letter => isDigit_of_mem_padded)
      (natural?_append_zeros digits zeros), round_of_zeros finite⟩
  · rw [text]
    exact ⟨_, read?_of_point (fun letter member => areDigits letter (List.mem_append_left _ member))
      (fun letter member => areDigits letter (List.mem_append_right _ member)) number, rfl⟩

/-- The text of a decimal starts with a digit, and digits and points are all that it has. -/
theorem positional_letters (decimal : Decimal) :
    (∃ first rest, decimal.positional = first :: rest ∧ first.isDigit = true) ∧
      ∀ letter ∈ decimal.positional, letter.isDigit = true ∨ letter = '.' := by
  rcases positional_cases decimal with
    ⟨zeros, _, text⟩ | ⟨whole, fraction, nonempty, areDigits, _, _, text⟩
  · constructor
    · obtain ⟨first, rest, split⟩ := List.exists_cons_of_ne_nil (digitsOf_ne_nil 10 decimal.digits)
      refine ⟨first, rest ++ List.replicate zeros '0', by rw [text, split]; rfl, ?_⟩
      exact isDigit_of_mem_digitsOf (split ▸ List.mem_cons_self)
    · intro letter member
      rw [text] at member
      exact Or.inl (isDigit_of_mem_padded member)
  · constructor
    · obtain ⟨first, rest, rfl⟩ := List.exists_cons_of_ne_nil nonempty
      exact ⟨first, rest ++ '.' :: fraction, text, areDigits first (.head _)⟩
    · intro letter member
      rw [text, List.mem_append, List.mem_cons] at member
      rcases member with before | point | after
      · exact Or.inl (areDigits letter (List.mem_append_left _ before))
      · exact Or.inr point
      · exact Or.inl (areDigits letter (List.mem_append_right _ after))

end Decimal

namespace Binary

variable {format : Format}

/-- What starts with a digit is no name. -/
theorem readMagnitude?_of_isDigit (format : Format) {first : Char} (isDigit : first.isDigit = true)
    (rest : List Char) :
    readMagnitude? format (first :: rest) =
      (Decimal.read? (first :: rest)).map (Decimal.round format) := by
  have lower : first.toLower.isDigit = true := by
    have notUpper : ¬(first.val ≥ 'A'.val ∧ first.val ≤ 'Z'.val) := by
      rintro ⟨above, _⟩
      have below := (Char.isDigit_iff_toNat.1 isDigit).2
      have least : 'A'.toNat ≤ first.toNat := UInt32.le_iff_toNat_le.1 above
      exact absurd (Nat.le_trans least below) (by decide)
    have same : first.toLower = first := dif_neg notUpper
    rw [same]
    exact isDigit
  have other {name : String} {letter : Char} {more : List Char}
      (start : name.toList = letter :: more) (isName : letter.isDigit = false) :
      String.ofList ((first :: rest).map Char.toLower) ≠ name := by
    intro same
    have letters := congrArg String.toList same
    rw [String.toList_ofList, start, List.map_cons, List.cons.injEq] at letters
    rw [letters.1, isName] at lower
    cases lower
  unfold readMagnitude?
  split
  case h_1 same => exact absurd same (other rfl rfl)
  case h_2 same => exact absurd same (other rfl rfl)
  case h_3 same => exact absurd same (other rfl rfl)
  case h_4 => rfl

theorem readMagnitude?_positional {decimal : Decimal}
    (finite : decimal.round format ≠ format.infinity) :
    readMagnitude? format decimal.positional = some (decimal.round format) := by
  obtain ⟨⟨first, rest, text, isDigit⟩, _⟩ := decimal.positional_letters
  obtain ⟨read, found, same⟩ := Decimal.read?_positional finite
  rw [text] at found ⊢
  rw [readMagnitude?_of_isDigit format isDigit, found, Option.map_some, same]

theorem ofPattern_pattern (number : Binary format) :
    ofPattern number.negative number.pattern = number := by
  obtain ⟨negative, pattern, below⟩ := number
  simp only [ofPattern, Nat.mod_eq_of_lt below]

theorem read?_of_isDigit (format : Format) {first : Char} (isDigit : first.isDigit = true)
    (rest : List Char) :
    read? format (first :: rest) =
      (readMagnitude? format (first :: rest)).map (ofPattern false) := by
  unfold read?
  split
  case h_1 same =>
    cases same
    cases isDigit
  case h_2 same =>
    cases same
    cases isDigit
  case h_3 => rfl

/-- The text of a number that is one is read as the same bits. -/
theorem read?_floatText (within : Decimal.Within format) {number : Binary format}
    (isNumber : number.isNan = false) :
    read? format (Value.floatText number) = some number := by
  obtain ⟨negative, pattern, below⟩ := number
  have most : pattern ≤ format.infinity := by
    simpa [isNan] using isNumber
  have bits := ofPattern_pattern ⟨negative, pattern, below⟩
  unfold Value.floatText
  rw [isNumber, if_neg Bool.false_ne_true]
  split
  case isTrue infinite =>
    have same : pattern = format.infinity := by simpa [isInfinite] using infinite
    subst same
    cases negative <;> exact congrArg some bits
  case isFalse finite =>
    have less : pattern ≠ format.infinity := by simpa [isInfinite] using finite
    let decimal := Decimal.shortest format .up pattern
    have rounds : decimal.round format = pattern := Decimal.round_shortest within .up most
    have inside : decimal.round format ≠ format.infinity := rounds ▸ less
    have magnitude := readMagnitude?_positional inside
    obtain ⟨⟨first, rest, text, isDigit⟩, _⟩ := decimal.positional_letters
    have whole : Binary.finiteText Value.floatStyle ⟨negative, pattern, below⟩ =
        if negative then '-' :: decimal.positional else decimal.positional := rfl
    rw [whole]
    rw [rounds] at magnitude
    cases negative with
    | true =>
        change (readMagnitude? format decimal.positional).map (ofPattern true) = _
        rw [magnitude, Option.map_some, bits]
    | false =>
        change read? format decimal.positional = _
        rw [text, read?_of_isDigit format isDigit, ← text, magnitude, Option.map_some, bits]

/-- The text of what is no number is read as the positive quiet pattern. -/
theorem read?_floatText_of_isNan {number : Binary format} (isNan : number.isNan = true) :
    read? format (Value.floatText number) = some (ofPattern false format.quietNan) := by
  unfold Value.floatText
  rw [isNan, if_pos rfl]
  rfl

theorem round_le_infinity (format : Format) (decimal : Decimal) :
    decimal.round format ≤ format.infinity := by
  unfold Decimal.round
  dsimp only
  split
  case isTrue => exact Nat.zero_le _
  case isFalse =>
    split
    case isTrue => exact Nat.le_refl _
    case isFalse =>
      split
      case isTrue => exact Nat.zero_le _
      case isFalse => split <;> exact format.round_le_infinity _ _

/-- A magnitude that is read is that of a number, or it is the quiet pattern. -/
theorem readMagnitude?_cases {letters : List Char} {pattern : Nat}
    (read : readMagnitude? format letters = some pattern) :
    pattern ≤ format.infinity ∨ pattern = format.quietNan := by
  unfold readMagnitude? at read
  split at read
  case h_1 | h_2 =>
    cases read
    exact Or.inl (Nat.le_refl _)
  case h_3 =>
    cases read
    exact Or.inr rfl
  case h_4 =>
    obtain ⟨decimal, _, rfl⟩ := Option.map_eq_some_iff.1 read
    exact Or.inl (round_le_infinity format decimal)

/-- What is read is a number, or it has the quiet pattern. -/
theorem eq_quietNan_of_read? {letters : List Char} {number : Binary format}
    (read : read? format letters = some number) (isNan : number.isNan = true) :
    number = ofPattern number.negative format.quietNan := by
  have signed : ∃ negative text, (readMagnitude? format text).map (ofPattern negative) =
      some number := by
    unfold Binary.read? at read
    split at read <;> exact ⟨_, _, read⟩
  obtain ⟨negative, text, magnitude⟩ := signed
  obtain ⟨pattern, found, rfl⟩ := Option.map_eq_some_iff.1 magnitude
  rcases readMagnitude?_cases found with most | rfl
  · have above : format.infinity < pattern % format.size := of_decide_eq_true isNan
    exact absurd (Nat.lt_of_lt_of_le above (Nat.mod_le _ _)) (Nat.not_lt.2 most)
  · rfl

end Binary

end Tripwire.Number
