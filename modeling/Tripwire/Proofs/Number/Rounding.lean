import Mathlib.Tactic.Ring
import Tripwire.Number.Shortest

/-!
# Shortest decimals round back

A finite magnitude is a whole number of units, and dividing what is that many units exactly gives
back its pattern. So all digits of a magnitude round to its pattern, and so does the decimal that is
printed, which was chosen among those that do.
-/

namespace Tripwire.Number

namespace Format

variable {format : Format}

theorem fractionSize_pos (format : Format) : 0 < format.fractionSize :=
  Nat.two_pow_pos format.fractionBits

theorem divideToNearest_mul {divisor : Nat} (positive : 0 < divisor) (quotient : Nat) :
    divideToNearest (quotient * divisor) divisor = quotient := by
  unfold divideToNearest
  simp [Nat.mul_div_cancel _ positive, positive]

/-- A pattern with a zero exponent field counts units; any other has a leading bit that its exponent
shifts. -/
theorem units_cases (format : Format) (pattern : Nat) :
    (pattern < format.fractionSize ∧ format.units pattern = pattern) ∨
      ∃ exponent fraction, fraction < format.fractionSize ∧
        pattern = (exponent + 1) * format.fractionSize + fraction ∧
          format.units pattern = (format.fractionSize + fraction) * Nat.pow 2 exponent := by
  have whole := Nat.div_add_mod' pattern format.fractionSize
  have below := Nat.mod_lt pattern format.fractionSize_pos
  unfold units
  cases field : pattern / format.fractionSize with
  | zero =>
      rw [field, Nat.zero_mul, Nat.zero_add] at whole
      exact Or.inl ⟨whole ▸ below, whole⟩
  | succ exponent =>
      rw [field] at whole
      exact Or.inr ⟨exponent, _, below, whole.symm, rfl⟩

/-- The leading bit of a significand says by how much it is shifted. -/
theorem log2_shifted (format : Format) {fraction : Nat} (below : fraction < format.fractionSize)
    (exponent : Nat) :
    ((format.fractionSize + fraction) * Nat.pow 2 exponent).log2 =
      format.fractionBits + exponent := by
  have least : Nat.pow 2 (format.fractionBits + exponent) ≤
      (format.fractionSize + fraction) * Nat.pow 2 exponent := by
    refine (Nat.le_of_eq (Nat.pow_add 2 _ _)).trans (Nat.mul_le_mul_right _ ?_)
    exact Nat.le_add_right _ _
  have greatest : (format.fractionSize + fraction) * Nat.pow 2 exponent <
      Nat.pow 2 (format.fractionBits + exponent + 1) := by
    have twice : Nat.pow 2 (format.fractionBits + exponent + 1) =
        (format.fractionSize + format.fractionSize) * Nat.pow 2 exponent := by
      change 2 ^ (format.fractionBits + exponent + 1) =
        (2 ^ format.fractionBits + 2 ^ format.fractionBits) * 2 ^ exponent
      ring
    rw [twice]
    exact Nat.mul_lt_mul_of_pos_right (Nat.add_lt_add_left below _) (Nat.two_pow_pos exponent)
  have nonzero : (format.fractionSize + fraction) * Nat.pow 2 exponent ≠ 0 :=
    Nat.ne_of_gt (Nat.lt_of_lt_of_le (Nat.two_pow_pos _) least)
  exact Nat.le_antisymm (Nat.le_of_lt_succ ((Nat.log2_lt nonzero).2 greatest))
    ((Nat.le_log2 nonzero).2 least)

/-- The significand of a magnitude and the shift that it is rounded with make its pattern. -/
theorem exists_significand (format : Format) {pattern : Nat} (positive : pattern ≠ 0) :
    ∃ significand, format.units pattern =
        significand * Nat.pow 2 ((format.units pattern).log2 - format.fractionBits) ∧
      ((format.units pattern).log2 - format.fractionBits) * format.fractionSize + significand =
        pattern := by
  rcases format.units_cases pattern with ⟨below, same⟩ | ⟨exponent, fraction, below, split, same⟩
  · have bits : pattern.log2 < format.fractionBits := (Nat.log2_lt positive).2 below
    have unshifted : pattern.log2 - format.fractionBits = 0 :=
      Nat.sub_eq_zero_of_le (Nat.le_of_lt bits)
    refine ⟨pattern, ?_, ?_⟩
    · rw [same, unshifted]
      exact (Nat.mul_one pattern).symm
    · rw [same, unshifted, Nat.zero_mul, Nat.zero_add]
  · have bits := format.log2_shifted below exponent
    refine ⟨format.fractionSize + fraction, ?_, ?_⟩
    · rw [same, bits, Nat.add_sub_cancel_left]
    · rw [same, bits, Nat.add_sub_cancel_left, split]
      ring

theorem units_ne_zero (format : Format) {pattern : Nat} (positive : pattern ≠ 0) :
    format.units pattern ≠ 0 := by
  rcases format.units_cases pattern with ⟨_, same⟩ | ⟨exponent, fraction, _, _, same⟩
  · rw [same]
    exact positive
  · rw [same]
    refine Nat.ne_of_gt (Nat.mul_pos ?_ (Nat.two_pow_pos exponent))
    exact Nat.add_pos_left format.fractionSize_pos _

/-- Dividing what is a whole number of units exactly gives back the pattern. -/
theorem round_of_units {pattern dividend divisor : Nat} (positive : pattern ≠ 0)
    (finite : pattern ≤ format.infinity) (nonzero : 0 < divisor)
    (exactly : dividend * format.unitsPerOne = format.units pattern * divisor) :
    format.round dividend divisor = pattern := by
  obtain ⟨significand, shifted, made⟩ := format.exists_significand positive
  unfold round
  dsimp only
  rw [exactly, Nat.mul_div_cancel _ nonzero]
  have scaled : format.units pattern * divisor = significand *
      (divisor * Nat.pow 2 ((format.units pattern).log2 - format.fractionBits)) := by
    conv => lhs; rw [shifted]
    ring
  have shiftedDivisor : 0 <
      divisor * Nat.pow 2 ((format.units pattern).log2 - format.fractionBits) :=
    Nat.mul_pos nonzero (Nat.two_pow_pos _)
  rw [scaled, divideToNearest_mul shiftedDivisor, made, Nat.min_eq_left finite]

end Format

namespace Decimal

variable {format : Format} {tie : Tie} {pattern : Nat}

/-- No place of a magnitude of the format is out of its reach. -/
def Within (format : Format) : Prop :=
  format.unitsPerOne.log2 ≤ format.exponentSize

theorem within_single : Within .single := by
  unfold Within
  decide +kernel

theorem within_double : Within .double := by
  unfold Within
  decide +kernel

theorem unitsPerOne_eq (format : Format) :
    format.unitsPerOne = 2 ^ format.unitsPerOne.log2 := by
  unfold Format.unitsPerOne
  exact congrArg _ Nat.log2_two_pow.symm

/-- All digits of a magnitude round to its pattern. -/
theorem round_exact (within : Within format) (positive : pattern ≠ 0)
    (finite : pattern ≤ format.infinity) : (exact format pattern).round format = pattern := by
  have units := format.units_ne_zero positive
  have one := unitsPerOne_eq format
  unfold Within at within
  unfold exact round
  dsimp only
  generalize format.unitsPerOne.log2 = places at one within ⊢
  have nonzero : format.units pattern * Nat.pow 5 places ≠ 0 :=
    Nat.mul_ne_zero units (Nat.ne_of_gt (Nat.pow_pos (by decide)))
  rw [if_neg nonzero, if_neg (by omega), if_neg (by omega)]
  cases places with
  | zero =>
      refine Format.round_of_units positive finite Nat.one_pos ?_
      rw [one]
      change format.units pattern * 1 * 1 * 1 = format.units pattern * 1
      rw [Nat.mul_one, Nat.mul_one]
  | succ places =>
      refine Format.round_of_units positive finite (Nat.pow_pos (by decide)) ?_
      rw [one, Nat.mul_assoc]
      exact congrArg _ (Nat.mul_pow 5 2 (places + 1)).symm

/-- A decimal of a grid is taken only if it rounds to the pattern. -/
theorem round_onGrid {count : Nat} {decimal : Decimal}
    (found : onGrid? format tie pattern count = some decimal) :
    decimal.round format = pattern := by
  unfold onGrid? at found
  dsimp only at found
  split at found
  case h_1 lower upper =>
    split at found
    case isTrue =>
      cases found
      exact eq_of_beq upper
    case isFalse =>
      cases found
      exact eq_of_beq lower
  case h_2 lower upper =>
    cases found
    exact eq_of_beq lower
  case h_3 lower upper =>
    cases found
    exact eq_of_beq upper
  case h_4 => cases found

/-- The decimal that is printed of a finite magnitude rounds to its pattern. -/
theorem round_shortest (within : Within format) (tie : Tie)
    (finite : pattern ≤ format.infinity) :
    (shortest format tie pattern).round format = pattern := by
  unfold shortest
  split
  case isTrue zero =>
    rw [zero]
    rfl
  case isFalse positive =>
    dsimp only
    generalize (List.range (digitLimit format)).map (· + 1) = counts
    cases found : counts.findSome? (onGrid? format tie pattern) with
    | none => exact round_exact within positive finite
    | some decimal =>
        obtain ⟨count, _, taken⟩ := List.exists_of_findSome?_eq_some found
        exact round_onGrid taken

end Decimal

end Tripwire.Number
