import Mathlib.Data.List.Lex
import Tripwire.Proofs.Value.Reading

/-!
# Comparisons agree with each other

The six operators ask one ordering of two values, if there is one. Values of one type have an
ordering unless one of them is no number, and where they have it is total: turning the sides turns
it, it is transitive and equal values stand in the same order to every other.
-/

namespace Tripwire

namespace Text

/-- The bytes of the characters of a text in turn. -/
def encoded (text : String) : List UInt8 :=
  text.toList.flatMap String.utf8EncodeChar

theorem bytes_eq_encoded (text : String) : bytes text = encoded text := by
  rw [bytes, String.toUTF8, ← String.utf8Encode_toList, List.utf8Encode, List.data_toByteArray]
  rfl

theorem bytes_inj {first second : String} : bytes first = bytes second ↔ first = second := by
  rw [bytes, bytes, Array.toList_inj, ← ByteArray.ext_iff]
  exact String.toByteArray_inj

theorem compareLex_eq_lt_iff (first second : List UInt8) :
    List.compareLex compare first second = .lt ↔ List.Lex (· < ·) first second := by
  induction first generalizing second with
  | nil => cases second <;> simp [List.compareLex_nil_nil, List.compareLex_nil_cons]
  | cons byte rest ih =>
      cases second with
      | nil => simp [List.compareLex_cons_nil]
      | cons other others =>
          rw [List.compareLex_cons_cons, Ordering.then_eq_lt, Std.compare_eq_lt,
            Std.compare_eq_iff_eq, ih, List.cons_lex_cons_iff]

/-- Texts are ordered by the first byte in which they differ. -/
theorem compareBytes_eq_lt_iff (first second : String) :
    compareBytes first second = .lt ↔ List.Lex (· < ·) (encoded first) (encoded second) := by
  rw [← bytes_eq_encoded, ← bytes_eq_encoded]
  exact compareLex_eq_lt_iff _ _

theorem compareBytes_eq_eq_iff (first second : String) :
    compareBytes first second = .eq ↔ first = second := by
  rw [compareBytes, Std.compare_eq_iff_eq, bytes_inj]

instance transCmp_compareBytes : Std.TransCmp compareBytes where
  eq_swap {first second} := by
    rw [compareBytes, compareBytes]
    exact Std.OrientedCmp.eq_swap
  isLE_trans {first second third} before after := by
    rw [compareBytes] at before after ⊢
    exact Std.TransCmp.isLE_trans before after

end Text

namespace Number.Binary

variable {format : Format} {first second third : Binary format}

theorem key?_eq_none_iff : first.key? = none ↔ first.isNan = true := by
  unfold key?
  split
  case isTrue noNumber => simp [noNumber]
  case isFalse => split <;> simp [*]

theorem compare?_eq_some_iff {ordering : Ordering} : first.compare? second = some ordering ↔
    ∃ key other, first.key? = some key ∧ second.key? = some other ∧
      compare key other = ordering := by
  unfold compare?
  cases first.key? <;> cases second.key? <;> simp

theorem compare?_eq_none_iff :
    first.compare? second = none ↔ first.isNan = true ∨ second.isNan = true := by
  rw [← key?_eq_none_iff, ← key?_eq_none_iff, compare?]
  cases first.key? <;> cases second.key? <;> simp

theorem compare?_swap (first second : Binary format) :
    second.compare? first = (first.compare? second).map Ordering.swap := by
  unfold compare?
  cases first.key? with
  | none => cases second.key? <;> rfl
  | some key =>
      cases second.key? with
      | none => rfl
      | some other => exact congrArg some Std.OrientedCmp.eq_swap

theorem compare?_trans (before : first.compare? second = some .lt)
    (after : second.compare? third = some .lt) : first.compare? third = some .lt := by
  rw [compare?_eq_some_iff] at before after ⊢
  obtain ⟨key, middle, isKey, isMiddle, less⟩ := before
  obtain ⟨again, last, isAgain, isLast, more⟩ := after
  cases isMiddle.symm.trans isAgain
  exact ⟨key, last, isKey, isLast, Std.TransCmp.lt_trans less more⟩

/-- Numbers that compare as equal have one key. -/
theorem compare?_congr (same : first.compare? second = some .eq) (third : Binary format) :
    first.compare? third = second.compare? third := by
  obtain ⟨key, other, isKey, isOther, equal⟩ := compare?_eq_some_iff.1 same
  rw [Std.compare_eq_iff_eq] at equal
  rw [compare?, compare?, isKey, isOther, equal]

end Number.Binary

namespace Value

variable {first second third : Value}

/-! ## The ordering of two values -/

theorem ordering?_eq_none_iff (same : first.type = second.type) :
    first.ordering? second = none ↔ first.isNan = true ∨ second.isNan = true := by
  cases first <;> cases second <;> cases same
  case float.float.refl | double.double.refl => exact Number.Binary.compare?_eq_none_iff
  all_goals simp [ordering?, isNan]

theorem ordering?_swap (first second : Value) :
    second.ordering? first = (first.ordering? second).map Ordering.swap := by
  cases first <;> cases second
  case float.float number other | double.double number other => exact number.compare?_swap other
  case unsigned.unsigned | signed.signed | text.text | boolean.boolean | bits.bits =>
    exact congrArg some Std.OrientedCmp.eq_swap
  all_goals rfl

theorem type_eq_of_ordering? {ordering : Ordering}
    (ordered : first.ordering? second = some ordering) : first.type = second.type := by
  cases first <;> cases second <;> first | rfl | cases ordered

theorem ordering?_trans (before : first.ordering? second = some .lt)
    (after : second.ordering? third = some .lt) : first.ordering? third = some .lt := by
  -- Floats go by their keys, and the order of every other type is total.
  have same := type_eq_of_ordering? before
  have also := type_eq_of_ordering? after
  cases first <;> cases second <;> cases same <;> cases third <;> cases also
  case float.float.refl.float.refl | double.double.refl.double.refl =>
    exact Number.Binary.compare?_trans before after
  all_goals
    exact congrArg some (Std.TransCmp.lt_trans (Option.some.inj before) (Option.some.inj after))

/-- Values that compare as equal compare alike to every value. -/
theorem ordering?_congr (same : first.ordering? second = some .eq) (third : Value) :
    first.ordering? third = second.ordering? third := by
  have alike := type_eq_of_ordering? same
  cases first <;> cases second <;> cases alike <;> cases third
  case float.float.refl.float | double.double.refl.double =>
    exact Number.Binary.compare?_congr same _
  case unsigned.unsigned.refl.unsigned | signed.signed.refl.signed | text.text.refl.text
  | boolean.boolean.refl.boolean | bits.bits.refl.bits =>
    exact congrArg some (Std.TransCmp.congr_left (Option.some.inj same))
  all_goals rfl

theorem type_ne_boolean_of_isNan (same : first.type = second.type)
    (noNumber : first.isNan = true ∨ second.isNan = true) : first.type ≠ .boolean := by
  cases first <;> cases second <;> cases same
  case boolean.boolean.refl => simp [isNan] at noNumber
  all_goals exact nofun

end Value

/-! ## What the operators say of it -/

namespace Comparison

/-- What an operator says of two values that compare as given, if they compare. -/
def answer (operator : Comparison) : Option Ordering → Bool
  | some ordering => operator.holds ordering
  | none => operator == .ne

/-- The operator says something of values of the types. -/
def Applies (operator : Comparison) (first second : FieldType) : Prop :=
  first = second ∧ (operator.isOrdering = true → first ≠ .boolean)

theorem Applies.symm {operator : Comparison} {first second : FieldType}
    (applies : operator.Applies first second) : operator.Applies second first := by
  obtain ⟨rfl, ordered⟩ := applies
  exact ⟨rfl, ordered⟩

theorem applies_of_ne_boolean {first second : FieldType} (same : first = second)
    (ordered : first ≠ .boolean) (operator : Comparison) : operator.Applies first second :=
  ⟨same, fun _ => ordered⟩

theorem applies_comm {operator : Comparison} {first second : FieldType} :
    operator.Applies first second ↔ operator.Applies second first :=
  ⟨Applies.symm, Applies.symm⟩

theorem applies_eq_iff {first second : FieldType} : eq.Applies first second ↔ first = second :=
  and_iff_left nofun

theorem applies_ne_iff {first second : FieldType} : ne.Applies first second ↔ first = second :=
  and_iff_left nofun

theorem not_applies_iff {operator : Comparison} {first second : FieldType} :
    ¬operator.Applies first second ↔
      first ≠ second ∨ operator.isOrdering = true ∧ first = .boolean := by
  rw [Applies, not_and_or, Classical.not_imp, not_not]

/-- The three operators of which one holds of two values in an order. -/
def strict : List Comparison :=
  [lt, eq, gt]

theorem answer_ne (ordered : Option Ordering) : ne.answer ordered = !eq.answer ordered := by
  cases ordered <;> rfl

theorem answer_le (ordered : Option Ordering) :
    le.answer ordered = (lt.answer ordered || eq.answer ordered) := by
  rcases ordered with _ | (_ | _ | _) <;> rfl

theorem answer_ge (ordered : Option Ordering) :
    ge.answer ordered = (gt.answer ordered || eq.answer ordered) := by
  rcases ordered with _ | (_ | _ | _) <;> rfl

theorem answer_gt_swap (ordered : Option Ordering) :
    gt.answer (ordered.map Ordering.swap) = lt.answer ordered := by
  rcases ordered with _ | (_ | _ | _) <;> rfl

theorem answer_eq_swap (ordered : Option Ordering) :
    eq.answer (ordered.map Ordering.swap) = eq.answer ordered := by
  rcases ordered with _ | (_ | _ | _) <;> rfl

/-- The operator that holds of one order only. -/
def ofOrdering : Ordering → Comparison
  | .lt => lt
  | .eq => eq
  | .gt => gt

theorem mem_strict_iff {operator : Comparison} :
    operator ∈ strict ↔ ∃ ordering, operator = ofOrdering ordering := by
  constructor
  · intro strictly
    rcases List.mem_cons.1 strictly with rfl | later
    · exact ⟨.lt, rfl⟩
    · rcases List.mem_pair.1 later with rfl | rfl
      · exact ⟨.eq, rfl⟩
      · exact ⟨.gt, rfl⟩
  · rintro ⟨ordering, rfl⟩
    cases ordering <;> decide

theorem answer_ofOrdering_iff {ordering : Ordering} {ordered : Option Ordering} :
    (ofOrdering ordering).answer ordered = true ↔ ordered = some ordering := by
  cases ordered with
  | none => cases ordering <;> simp [ofOrdering, answer]
  | some other => cases ordering <;> cases other <;> decide

end Comparison

namespace Value

variable {first second third : Value} {operator : Comparison}

theorem compare?_of_applies (applies : operator.Applies first.type second.type) :
    first.compare? operator second = some (operator.answer (first.ordering? second)) := by
  obtain ⟨same, ordered⟩ := applies
  rw [compare?, if_neg (not_not.2 same), if_neg (by simpa using ordered)]
  cases first.ordering? second <;> rfl

theorem compare?_eq_none_iff :
    first.compare? operator second = none ↔ ¬operator.Applies first.type second.type := by
  constructor
  · intro silent applies
    rw [compare?_of_applies applies] at silent
    cases silent
  · intro silent
    unfold compare?
    rcases Comparison.not_applies_iff.1 silent with differ | ⟨ordering, boolean⟩
    · rw [if_pos differ]
    · split
      · rfl
      · rw [if_pos (by simp [ordering, boolean])]

theorem compare?_eq_some_iff {holds : Bool} : first.compare? operator second = some holds ↔
    operator.Applies first.type second.type ∧
      operator.answer (first.ordering? second) = holds := by
  by_cases applies : operator.Applies first.type second.type
  · rw [compare?_of_applies applies, Option.some.injEq, and_iff_right applies]
  · rw [compare?_eq_none_iff.2 applies]
    simp [applies]

/-- Operators that apply to the same types and agree on every ordering agree. -/
theorem compare?_congr {other : Comparison} {third fourth : Value}
    (applies : operator.Applies first.type second.type ↔ other.Applies third.type fourth.type)
    (same : operator.answer (first.ordering? second) = other.answer (third.ordering? fourth)) :
    first.compare? operator second = third.compare? other fourth := by
  by_cases speaks : operator.Applies first.type second.type
  · rw [compare?_of_applies speaks, compare?_of_applies (applies.1 speaks), same]
  · rw [compare?_eq_none_iff.2 speaks, compare?_eq_none_iff.2 fun also => speaks (applies.2 also)]

theorem compare?_ofOrdering_iff (ordering : Ordering) :
    first.compare? (.ofOrdering ordering) second = some true ↔
      (Comparison.ofOrdering ordering).Applies first.type second.type ∧
        first.ordering? second = some ordering := by
  rw [compare?_eq_some_iff, Comparison.answer_ofOrdering_iff]

theorem compare?_lt_iff : first.compare? .lt second = some true ↔
    Comparison.lt.Applies first.type second.type ∧ first.ordering? second = some .lt :=
  compare?_ofOrdering_iff .lt

theorem compare?_eq_iff : first.compare? .eq second = some true ↔
    first.type = second.type ∧ first.ordering? second = some .eq := by
  rw [← Comparison.applies_eq_iff]
  exact compare?_ofOrdering_iff .eq

theorem compare?_ne (first second : Value) :
    first.compare? .ne second = (first.compare? .eq second).map (!·) := by
  by_cases same : first.type = second.type
  · rw [compare?_of_applies (Comparison.applies_ne_iff.2 same),
      compare?_of_applies (Comparison.applies_eq_iff.2 same), Comparison.answer_ne,
      Option.map_some]
  · rw [compare?_eq_none_iff.2 (mt And.left same), compare?_eq_none_iff.2 (mt And.left same),
      Option.map_none]

/-- No two of the strict operators hold at once. -/
theorem eq_of_strict {other : Comparison} (strictly : operator ∈ Comparison.strict)
    (also : other ∈ Comparison.strict) (holds : first.compare? operator second = some true)
    (alsoHolds : first.compare? other second = some true) : operator = other := by
  obtain ⟨ordering, rfl⟩ := Comparison.mem_strict_iff.1 strictly
  obtain ⟨another, rfl⟩ := Comparison.mem_strict_iff.1 also
  have ordered := ((compare?_ofOrdering_iff _).1 holds).2
  have alsoOrdered := ((compare?_ofOrdering_iff _).1 alsoHolds).2
  rw [Option.some.inj (ordered.symm.trans alsoOrdered)]

/-- One of the strict operators holds of values that are no truth values and have an order. -/
theorem exists_strict (same : first.type = second.type) (notBoolean : first.type ≠ .boolean)
    (isNumber : first.isNan = false) (alsoNumber : second.isNan = false) :
    ∃ operator ∈ Comparison.strict, first.compare? operator second = some true := by
  have comparable : first.ordering? second ≠ none := by
    rw [Ne, ordering?_eq_none_iff same, isNumber, alsoNumber]
    decide
  obtain ⟨ordering, ordered⟩ := Option.ne_none_iff_exists'.1 comparable
  refine ⟨.ofOrdering ordering, Comparison.mem_strict_iff.2 ⟨ordering, rfl⟩, ?_⟩
  have applies := Comparison.applies_of_ne_boolean same notBoolean (.ofOrdering ordering)
  exact (compare?_ofOrdering_iff ordering).2 ⟨applies, ordered⟩

/-- Beside what is no number only the inequality holds. -/
theorem compare?_of_isNan (same : first.type = second.type)
    (noNumber : first.isNan = true ∨ second.isNan = true) (operator : Comparison) :
    first.compare? operator second = some (operator == .ne) := by
  have notBoolean := type_ne_boolean_of_isNan same noNumber
  rw [compare?_of_applies (Comparison.applies_of_ne_boolean same notBoolean operator),
    (ordering?_eq_none_iff same).2 noNumber]
  rfl

theorem compare?_lt_trans (before : first.compare? .lt second = some true)
    (after : second.compare? .lt third = some true) : first.compare? .lt third = some true := by
  obtain ⟨⟨alike, ordered⟩, less⟩ := compare?_lt_iff.1 before
  obtain ⟨⟨also, _⟩, more⟩ := compare?_lt_iff.1 after
  exact compare?_lt_iff.2 ⟨⟨alike.trans also, ordered⟩, ordering?_trans less more⟩

/-- Values that compare as equal answer every operator alike, on either side of it. -/
theorem compare?_of_equal (same : first.compare? .eq second = some true) (third : Value)
    (operator : Comparison) : first.compare? operator third = second.compare? operator third ∧
      third.compare? operator first = third.compare? operator second := by
  obtain ⟨alike, equal⟩ := compare?_eq_iff.1 same
  have agree := ordering?_congr equal third
  constructor
  · exact compare?_congr (by rw [alike]) (by rw [agree])
  · refine compare?_congr (by rw [alike]) ?_
    rw [ordering?_swap first third, ordering?_swap second third, agree]

theorem compare?_text (left right : String) :
    ((text left).compare? .lt (text right) = some true ↔
      List.Lex (· < ·) (Text.encoded left) (Text.encoded right)) ∧
    ((text left).compare? .eq (text right) = some true ↔ left = right) := by
  have applies : Comparison.lt.Applies (text left).type (text right).type := ⟨rfl, nofun⟩
  have ordered : (text left).ordering? (text right) = some (Text.compareBytes left right) := rfl
  constructor
  · rw [compare?_lt_iff, ordered, Option.some_inj, Text.compareBytes_eq_lt_iff]
    exact and_iff_right applies
  · rw [compare?_eq_iff, ordered, Option.some_inj, Text.compareBytes_eq_eq_iff]
    exact and_iff_right rfl

/-- The six operators agree with each other: which of them speak depends on the two types alone,
each is a disjunction or a negation of the strict ones, and these order the values that are
numbers. -/
structure Coheres (first second third : Value) : Prop where
  undefined : ∀ operator, first.compare? operator second = none ↔
    first.type ≠ second.type ∨ operator.isOrdering = true ∧ first.type = .boolean
  symmetric : ∀ operator,
    first.compare? operator second = none ↔ second.compare? operator first = none
  ne : first.compare? .ne second = (first.compare? .eq second).map (!·)
  le : ∀ {less same}, first.compare? .lt second = some less →
    first.compare? .eq second = some same → first.compare? .le second = some (less || same)
  ge : ∀ {more same}, first.compare? .gt second = some more →
    first.compare? .eq second = some same → first.compare? .ge second = some (more || same)
  swap : first.compare? .lt second = second.compare? .gt first
  comm : first.compare? .eq second = second.compare? .eq first
  exclusive : ∀ {operator other}, operator ∈ Comparison.strict → other ∈ Comparison.strict →
    first.compare? operator second = some true → first.compare? other second = some true →
      operator = other
  total : first.type = second.type → first.type ≠ .boolean → first.isNan = false →
    second.isNan = false →
    ∃ operator ∈ Comparison.strict, first.compare? operator second = some true
  unordered : first.type = second.type → first.isNan = true ∨ second.isNan = true →
    ∀ operator, first.compare? operator second = some (operator == .ne)
  trans : first.compare? .lt second = some true → second.compare? .lt third = some true →
    first.compare? .lt third = some true
  congr : first.compare? .eq second = some true → ∀ operator,
    first.compare? operator third = second.compare? operator third ∧
      third.compare? operator first = third.compare? operator second
  lexicographic : ∀ {left right}, first = .text left → second = .text right →
    (first.compare? .lt second = some true ↔
      List.Lex (· < ·) (Text.encoded left) (Text.encoded right)) ∧
    (first.compare? .eq second = some true ↔ left = right)

/-- Whatever three values are compared, the six operators agree on them. -/
theorem coheres (first second third : Value) : Coheres first second third where
  undefined operator := by rw [compare?_eq_none_iff, Comparison.not_applies_iff]
  symmetric operator := by
    rw [compare?_eq_none_iff, compare?_eq_none_iff, Comparison.applies_comm]
  ne := compare?_ne first second
  le less same := by
    obtain ⟨applies, rfl⟩ := compare?_eq_some_iff.1 less
    obtain ⟨_, rfl⟩ := compare?_eq_some_iff.1 same
    exact compare?_eq_some_iff.2 ⟨applies, Comparison.answer_le _⟩
  ge more same := by
    obtain ⟨applies, rfl⟩ := compare?_eq_some_iff.1 more
    obtain ⟨_, rfl⟩ := compare?_eq_some_iff.1 same
    exact compare?_eq_some_iff.2 ⟨applies, Comparison.answer_ge _⟩
  swap := by
    refine compare?_congr Comparison.applies_comm ?_
    rw [ordering?_swap first second, Comparison.answer_gt_swap]
  comm := by
    refine compare?_congr Comparison.applies_comm ?_
    rw [ordering?_swap first second, Comparison.answer_eq_swap]
  exclusive := eq_of_strict
  total := exists_strict
  unordered := compare?_of_isNan
  trans := compare?_lt_trans
  congr same := compare?_of_equal same third
  lexicographic {left right} isLeft isRight := by
    subst isLeft isRight
    exact compare?_text left right

end Value

end Tripwire
