import Tripwire.Proofs.Number.Reading
import Tripwire.Value.Literal

/-!
# Printed values are read back

The literal of a value is a bare word, or the quoted contents of a text, and what it contains is
read by the type of the value as the value again. A value that was read itself is lost only if it
is no number and negative: its text has no sign. No comparison tells it from what is read instead.
-/

namespace Tripwire

/-! ## Bare words -/

namespace Token

/-- A word that stands without quotes. -/
structure IsBare (letters : List Char) : Prop where
  nonempty : letters ≠ []
  inside : ∀ letter ∈ letters, isDelimiter letter = false

theorem isBare_of_check {letters : List Char}
    (check : (!letters.isEmpty && letters.all (!isDelimiter ·)) = true) : IsBare letters := by
  rw [Bool.and_eq_true, Bool.not_eq_true', List.isEmpty_eq_false_iff, List.all_eq_true] at check
  exact ⟨check.1, fun letter member => Bool.not_eq_true' _ ▸ check.2 letter member⟩

theorem isDelimiter_of_digitValue?_ascii :
    ∀ code : Fin 128, (Number.digitValue? (Char.ofNat code)).isSome = true →
      isDelimiter (Char.ofNat code) = false := by
  decide

theorem toNat_lt_of_digitValue? {letter : Char}
    (isDigit : (Number.digitValue? letter).isSome = true) : letter.toNat < 128 := by
  have below {last : Char} (most : letter.val ≤ last.val) (small : last.toNat < 128) :
      letter.toNat < 128 :=
    Nat.lt_of_le_of_lt (UInt32.le_iff_toNat_le.1 most) small
  unfold Number.digitValue? at isDigit
  split at isDigit
  case isTrue decimal =>
    exact Nat.lt_of_le_of_lt (Char.isDigit_iff_toNat.1 decimal).2 (by decide)
  case isFalse =>
    split at isDigit
    case isTrue lower =>
      have most : letter.val ≤ 'z'.val := of_decide_eq_true (Bool.and_eq_true_iff.1 lower).2
      exact below most (by decide)
    case isFalse =>
      split at isDigit
      case isTrue upper =>
        have bounds : 'A'.val ≤ letter.val ∧ letter.val ≤ 'Z'.val := of_decide_eq_true upper
        exact below bounds.2 (by decide)
      case isFalse => cases isDigit

/-- No digit of any radix ends a word. -/
theorem isDelimiter_of_digitValue? {letter : Char}
    (isDigit : (Number.digitValue? letter).isSome = true) : isDelimiter letter = false := by
  have code := isDelimiter_of_digitValue?_ascii ⟨letter.toNat, toNat_lt_of_digitValue? isDigit⟩
  rw [Char.ofNat_toNat] at code
  exact code isDigit

theorem isDelimiter_of_isDigit {letter : Char} (isDigit : letter.isDigit = true) :
    isDelimiter letter = false := by
  refine isDelimiter_of_digitValue? ?_
  rw [Number.digitValue?, if_pos isDigit]
  rfl

theorem isBare_digitsOf {radix : Nat} (positive : 1 < radix) (bound : radix ≤ 16)
    (number : Nat) : IsBare (Number.digitsOf radix number) where
  nonempty := Number.digitsOf_ne_nil radix number
  inside letter member := by
    obtain ⟨digits, read, _⟩ := Number.mapM_digitsOf positive bound number
    obtain ⟨digit, found⟩ := Number.exists_digit_of_mapM read member
    obtain ⟨known, _⟩ := Option.filter_eq_some_iff.1 found
    exact isDelimiter_of_digitValue? (known ▸ rfl)

theorem IsBare.cons {first : Char} {letters : List Char} (bare : IsBare letters)
    (inside : isDelimiter first = false) : IsBare (first :: letters) where
  nonempty := List.cons_ne_nil _ _
  inside letter member := by
    rcases List.mem_cons.1 member with rfl | inRest
    · exact inside
    · exact bare.inside letter inRest

theorem isBare_ofInt (number : Int) : IsBare (Number.ofInt number) := by
  cases number with
  | ofNat number => exact isBare_digitsOf (by decide) (by decide) number
  | negSucc number => exact (isBare_digitsOf (by decide) (by decide) (number + 1)).cons rfl

theorem isBare_floatText {format : Number.Format} (number : Number.Binary format) :
    IsBare (Value.floatText number) := by
  unfold Value.floatText
  split
  case isTrue => exact isBare_of_check rfl
  case isFalse =>
    split
    case isTrue => split <;> exact isBare_of_check rfl
    case isFalse =>
      let decimal := Number.Decimal.shortest format .up number.pattern
      obtain ⟨⟨first, rest, text, _⟩, letters⟩ := decimal.positional_letters
      have bare : IsBare decimal.positional := by
        refine ⟨by simp [text], fun letter member => ?_⟩
        rcases letters letter member with isDigit | rfl
        · exact isDelimiter_of_isDigit isDigit
        · rfl
      change IsBare (if number.negative then '-' :: decimal.positional else decimal.positional)
      split
      case isTrue => exact bare.cons rfl
      case isFalse => exact bare

end Token

namespace Number.Binary

variable {format : Format}

/-- The number that the text of a number is read as: the sign is lost of what is no number. -/
def asWritten (number : Binary format) : Binary format :=
  if number.isNan then { number with negative := false } else number

theorem asWritten_of_signed {number : Binary format}
    (signed : (number.isNan && number.negative) = false) : number.asWritten = number := by
  unfold asWritten
  split
  case isTrue noNumber =>
    rw [noNumber, Bool.true_and] at signed
    rw [← signed]
  case isFalse => rfl

theorem key?_asWritten (number : Binary format) : number.asWritten.key? = number.key? := by
  unfold asWritten
  split
  case isTrue noNumber =>
    have alike : isNan { number with negative := false } = true := noNumber
    rw [key?, if_pos alike, key?, if_pos noNumber]
  case isFalse => rfl

theorem floatText_asWritten (number : Binary format) :
    Value.floatText number.asWritten = Value.floatText number := by
  unfold asWritten
  split
  case isTrue noNumber =>
    have alike : isNan { number with negative := false } = true := noNumber
    rw [Value.floatText, if_pos alike, Value.floatText, if_pos noNumber]
  case isFalse => rfl

end Number.Binary

namespace Value

/-- No number, and negative: the sign of such a value is not written. -/
def isNegativeNan : Value → Bool
  | float number => number.isNan && number.negative
  | double number => number.isNan && number.negative
  | _ => false

/-- The value that the literal of a value is read as. -/
def asWritten : Value → Value
  | float number => float number.asWritten
  | double number => double number.asWritten
  | value => value

theorem asWritten_of_signed {value : Value} (signed : value.isNegativeNan = false) :
    value.asWritten = value := by
  cases value with
  | float number => exact congrArg _ (Number.Binary.asWritten_of_signed signed)
  | double number => exact congrArg _ (Number.Binary.asWritten_of_signed signed)
  | unsigned | signed | text | boolean | bits => rfl

theorem type_asWritten (value : Value) : value.asWritten.type = value.type := by
  cases value <;> rfl

theorem ordering?_asWritten (value literal : Value) :
    value.ordering? literal.asWritten = value.ordering? literal := by
  cases literal with
  | float number =>
      cases value with
      | float known =>
          change known.compare? number.asWritten = known.compare? number
          rw [Number.Binary.compare?, Number.Binary.key?_asWritten]
          rfl
      | unsigned | signed | double | text | boolean | bits => rfl
  | double number =>
      cases value with
      | double known =>
          change known.compare? number.asWritten = known.compare? number
          rw [Number.Binary.compare?, Number.Binary.key?_asWritten]
          rfl
      | unsigned | signed | float | text | boolean | bits => rfl
  | unsigned | signed | text | boolean | bits => rfl

/-- A literal says of a value what is said by what it is read as. -/
theorem compare?_asWritten (operator : Comparison) (value literal : Value) :
    value.compare? operator literal.asWritten = value.compare? operator literal := by
  rw [compare?, type_asWritten, ordering?_asWritten]
  rfl

/-- What a literal is read as has the same literal. -/
theorem letters_asWritten (value : Value) : value.asWritten.letters = value.letters := by
  cases value with
  | float number => exact Number.Binary.floatText_asWritten number
  | double number => exact Number.Binary.floatText_asWritten number
  | unsigned | signed | text | boolean | bits => rfl

/-- What the literal of a value contains. -/
def contents : Value → List Char
  | text contents => contents.toList
  | value => value.letters

/-- The literal of a value is its contents as a bare word, or quoted. -/
theorem letters_cases (value : Value) :
    (value.letters = value.contents ∧ Token.IsBare value.contents) ∨
      value.letters = Text.quote value.contents := by
  cases value with
  | unsigned number => exact Or.inl ⟨rfl, Token.isBare_digitsOf (by decide) (by decide) _⟩
  | signed number => exact Or.inl ⟨rfl, Token.isBare_ofInt _⟩
  | float number => exact Or.inl ⟨rfl, Token.isBare_floatText number⟩
  | double number => exact Or.inl ⟨rfl, Token.isBare_floatText number⟩
  | boolean truth => cases truth <;> exact Or.inl ⟨rfl, Token.isBare_of_check rfl⟩
  | bits word =>
      refine Or.inl ⟨rfl, ?_⟩
      exact ((Token.isBare_digitsOf (by decide) (by decide) _).cons rfl).cons rfl
  | text contents =>
      change ((if needsQuotes contents.toList then Text.quote contents.toList
        else contents.toList) = contents.toList ∧ Token.IsBare contents.toList) ∨
          (if needsQuotes contents.toList then Text.quote contents.toList
            else contents.toList) = Text.quote contents.toList
      split
      case isTrue => exact Or.inr rfl
      case isFalse plain =>
        rw [needsQuotes, Bool.or_eq_true, not_or, List.isEmpty_iff, List.any_eq_true] at plain
        refine Or.inl ⟨rfl, plain.1, fun letter member => ?_⟩
        rw [← Bool.not_eq_true]
        exact fun ends => plain.2 ⟨letter, member, ends⟩

theorem read?_contents_float {format : Number.Format} (within : Number.Decimal.Within format)
    {number : Number.Binary format} {written : List Char}
    (read : Number.Binary.read? format written = some number) :
    Number.Binary.read? format (floatText number) = some number.asWritten := by
  unfold Number.Binary.asWritten
  split
  case isTrue noNumber =>
    have quiet := congrArg Number.Binary.pattern
      (Number.Binary.eq_quietNan_of_read? read noNumber)
    rw [Number.Binary.read?_floatText_of_isNan noNumber, Option.some.injEq, Number.Binary.mk.injEq]
    exact ⟨rfl, quiet.symm⟩
  case isFalse isNumber =>
    exact Number.Binary.read?_floatText within (Bool.not_eq_true _ ▸ isNumber)

/-- The digits of a word are read as the word in either radix. -/
theorem unsigned?_word {radix : Nat} (positive : 1 < radix) (bound : radix ≤ 16)
    (word : UInt64) :
    Number.unsigned? radix 64 (Number.digitsOf radix word.toNat) = some word.toNat :=
  Number.unsigned?_digitsOf positive bound word.toNat_lt

/-- Whether a value is a float that is no number. -/
def isNan : Value → Bool
  | float number => number.isNan
  | double number => number.isNan
  | _ => false

/-- Any value but one that is no number is read from what its literal contains. -/
theorem read?_contents_of_isNumber (value : Value) (isNumber : value.isNan = false) :
    value.type.read? (String.ofList value.contents) = some value := by
  cases value with
  | text contents =>
      change some (Value.text (String.ofList contents.toList)) = some (.text contents)
      rw [String.ofList_toList]
  | unsigned number =>
      simp only [type, contents, letters, FieldType.read?, String.toList_ofList,
        unsigned?_word (by decide : 1 < 10) (by decide), Option.map_some, UInt64.ofNat_toNat]
  | signed number =>
      have fits : -2 ^ 63 ≤ number.toInt ∧ number.toInt < 2 ^ 63 :=
        ⟨number.le_toInt, number.toInt_lt⟩
      have read := Number.signed?_ofInt 64 number.toInt (by simpa using fits)
      simp only [type, contents, letters, FieldType.read?, String.toList_ofList, read,
        Option.map_some, Int64.ofInt_toInt]
  | float number =>
      have read := Number.Binary.read?_floatText Number.Decimal.within_single isNumber
      simp only [type, contents, letters, FieldType.read?, String.toList_ofList, read,
        Option.map_some]
  | double number =>
      have read := Number.Binary.read?_floatText Number.Decimal.within_double isNumber
      simp only [type, contents, letters, FieldType.read?, String.toList_ofList, read,
        Option.map_some]
  | boolean truth => cases truth <;> rfl
  | bits word =>
      simp only [type, contents, letters, FieldType.read?, String.toList_ofList,
        FieldType.readBits?, unsigned?_word (by decide : 1 < 16) (by decide), Option.map_some,
        UInt64.ofNat_toNat]

/-- A value that was read is read again from what its literal contains, but for the sign of what is
no number. -/
theorem read?_contents {value : Value} {type : FieldType} {written : String}
    (read : type.read? written = some value) :
    type.read? (String.ofList value.contents) = some value.asWritten := by
  cases type with
  | text =>
      cases read
      exact read?_contents_of_isNumber (.text written) rfl
  | unsigned =>
      obtain ⟨number, _, rfl⟩ := Option.map_eq_some_iff.1 read
      exact read?_contents_of_isNumber (.unsigned (.ofNat number)) rfl
  | signed =>
      obtain ⟨number, _, rfl⟩ := Option.map_eq_some_iff.1 read
      exact read?_contents_of_isNumber (.signed (.ofInt number)) rfl
  | float =>
      obtain ⟨number, found, rfl⟩ := Option.map_eq_some_iff.1 read
      have again := read?_contents_float Number.Decimal.within_single found
      simp only [contents, letters, FieldType.read?, String.toList_ofList, again, Option.map_some,
        asWritten]
  | double =>
      obtain ⟨number, found, rfl⟩ := Option.map_eq_some_iff.1 read
      have again := read?_contents_float Number.Decimal.within_double found
      simp only [contents, letters, FieldType.read?, String.toList_ofList, again, Option.map_some,
        asWritten]
  | boolean =>
      obtain ⟨truth, _, rfl⟩ := Option.map_eq_some_iff.1 read
      exact read?_contents_of_isNumber (.boolean truth) rfl
  | bits =>
      obtain ⟨word, _, rfl⟩ := Option.map_eq_some_iff.1 read
      exact read?_contents_of_isNumber (.bits (.ofNat word)) rfl

end Value

end Tripwire
