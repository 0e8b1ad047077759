import LogPipeline.Number.Reading
import LogPipeline.Value.Json
import LogPipeline.Proofs.Number.Decimals

namespace LogPipeline

/-!
# Doubles that are whole numbers

A double that is a whole number is written as its digits.  The double nearest
to a whole number is itself a whole number: where the significand has room for
all its binary digits it is that number, and where it has not the double is a
multiple of a power of two.
-/

namespace Rounding

theorem nearestEven_of_dvd {numerator denominator : Nat} (divides : denominator ∣ numerator) :
    nearestEven numerator denominator = numerator / denominator := by
  rw [nearestEven, Nat.mod_eq_zero_of_dvd divides, Nat.mul_zero]
  by_cases zero : denominator = 0
  · subst zero
    rw [Nat.div_zero]
    rfl
  · rw [if_neg (by omega), if_pos (Nat.pos_of_ne_zero zero)]

theorem nearestEven_bounds (numerator denominator : Nat) :
    numerator / denominator ≤ nearestEven numerator denominator ∧
      nearestEven numerator denominator ≤ numerator / denominator + 1 := by
  rw [nearestEven]
  split
  · omega
  · split
    · omega
    · split <;> omega

end Rounding

namespace FixedPoint

theorem unsigned_mul_unit (units : Nat) : unsigned (units * unit) = Digits.decimal units := by
  have positive : 0 < unit := by decide
  rcases unsigned_cases (units * unit) with
    ⟨-, written⟩ | ⟨kept, number, someKept, atMost, lastPlace, counted, -⟩
  · rw [written, Nat.mul_div_cancel _ positive]
  · exact absurd counted (mul_unit_ne someKept atMost lastPlace)

theorem text_of_isFinite {number : Binary64} (isFinite : number.isFinite = true) :
    text number = String.ofList (finite number) := by
  have notNaN : number.isNaN = false := by
    rw [Binary64.isFinite, decide_eq_true_eq] at isFinite
    rw [Binary64.isNaN, decide_eq_false (by omega), Bool.false_and]
  rw [text, notNaN, if_neg Bool.false_ne_true, if_pos isFinite]

/-- A finite double that is a whole number is written as the digits of that
number. -/
theorem text_of_whole {number : Binary64} (finite : number.isFinite = true)
    (whole : number.numerator % number.denominator = 0) :
    text number = String.ofList (Digits.signed (Json.wholeNumber number)) := by
  have divides := Nat.dvd_of_mod_eq_zero whole
  have counted : millionths number = number.numerator / number.denominator * unit := by
    rw [millionths, Rounding.nearestEven_of_dvd (Nat.dvd_mul_right_of_dvd divides _),
      Nat.div_mul_right_comm divides]
  rw [text_of_isFinite finite, FixedPoint.finite, counted, unsigned_mul_unit, Json.wholeNumber, Digits.signed_eq]
  congr 1
  generalize number.numerator / number.denominator = units
  cases number.isNegative with
  | false => simp
  | true =>
    by_cases noUnits : units = 0
    · subst noUnits
      rfl
    · have someUnits : units * unit ≠ 0 := Nat.mul_ne_zero noUnits (by decide)
      simp [someUnits, noUnits]

end FixedPoint

namespace Binary64

theorem fields_ofMagnitudeBits (negative : Bool) {exponent fraction : Nat}
    (exponentFits : exponent < 2048) (fractionFits : fraction < fractionCount) :
    (ofMagnitudeBits negative (exponent * fractionCount + fraction)).exponentField = exponent ∧
      (ofMagnitudeBits negative (exponent * fractionCount + fraction)).fractionField = fraction ∧
      (ofMagnitudeBits negative (exponent * fractionCount + fraction)).isNegative = negative := by
  rw [fractionCount] at fractionFits
  rw [exponentField, fractionField, isNegative, ofMagnitudeBits, fractionCount, signWeight,
    UInt64.toNat_ofNat']
  cases negative with
  | false =>
    rw [if_neg Bool.false_ne_true]
    refine ⟨by omega, by omega, ?_⟩
    rw [decide_eq_false_iff_not]
    omega
  | true =>
    rw [if_pos rfl]
    refine ⟨by omega, by omega, ?_⟩
    rw [decide_eq_true_eq]
    omega

theorem not_isFinite_infinity (negative : Bool) : (infinity negative).isFinite = false := by
  cases negative <;> decide

/-- Fifty-three binary digits of a whole number are kept. -/
theorem nearestPower_one {number : Nat} (positive : 0 < number) :
    nearestPower number 1 = (Nat.log2 number : Int) - 52 := by
  have least := Nat.log2_self_le (Nat.ne_of_gt positive)
  have logOne : Nat.log2 1 = 0 := rfl
  rw [nearestPower, logOne]
  simp only [Nat.pow_eq, Nat.one_mul]
  rw [if_neg]
  · omega
  · rw [Nat.not_lt, Nat.le_div_iff_mul_le (Nat.pow_pos (by omega))]
    change 2 ^ 53 * 2 ^ ((Nat.log2 number : Int) - (0 : Nat) - 53).toNat ≤
      number * 2 ^ (-((Nat.log2 number : Int) - (0 : Nat) - 53)).toNat
    calc 2 ^ 53 * 2 ^ ((Nat.log2 number : Int) - (0 : Nat) - 53).toNat
      _ = 2 ^ (Nat.log2 number + (-((Nat.log2 number : Int) - (0 : Nat) - 53)).toNat) := by
        rw [← Nat.pow_add]
        congr 1
        omega
      _ = 2 ^ Nat.log2 number * 2 ^ (-((Nat.log2 number : Int) - (0 : Nat) - 53)).toNat :=
        Nat.pow_add 2 _ _
      _ ≤ number * 2 ^ (-((Nat.log2 number : Int) - (0 : Nat) - 53)).toNat :=
        Nat.mul_le_mul_right _ least

theorem denominator_of_le {number : Binary64} (large : 1075 ≤ number.exponentField) :
    number.denominator = 1 := by
  rw [denominator, power, if_neg (by omega), Int.toNat_of_nonpos (by omega), Nat.pow_eq,
    Nat.pow_zero]

theorem exponentField_ofMagnitudeBits (negative : Bool) {magnitude : Nat}
    (fits : magnitude < 2048 * fractionCount) :
    (ofMagnitudeBits negative magnitude).exponentField = magnitude / fractionCount := by
  have positive : 0 < fractionCount := by decide
  have fields := (fields_ofMagnitudeBits negative ((Nat.div_lt_iff_lt_mul positive).mpr fits)
    (Nat.mod_lt magnitude positive)).1
  rwa [Nat.div_add_mod'] at fields

/-- The significand and the power of two that bits stand for. -/
theorem significand_ofMagnitudeBits (negative : Bool) {exponent significand : Nat}
    (fits : exponent + 1 < 2048) (normal : fractionCount ≤ significand)
    (below : significand < 2 * fractionCount) :
    (ofMagnitudeBits negative (exponent * fractionCount + significand)).significand =
        significand ∧
      (ofMagnitudeBits negative (exponent * fractionCount + significand)).power =
        (exponent : Int) - 1074 := by
  have split : exponent * fractionCount + significand =
      (exponent + 1) * fractionCount + (significand - fractionCount) := by
    rw [Nat.add_mul, Nat.one_mul]
    omega
  rcases fields_ofMagnitudeBits negative fits
    (show significand - fractionCount < fractionCount by omega) with ⟨exponentField, fraction, -⟩
  rw [← split] at exponentField fraction
  rw [Binary64.significand, power, exponentField, fraction, if_neg (by omega), if_neg (by omega)]
  omega

/-- A whole number whose binary digits all find room is kept as it is. -/
theorem whole_of_short (negative : Bool) {number log : Nat} (short : log < 52)
    (least : 2 ^ log ≤ number) (most : number < 2 ^ (log + 1)) :
    (ofMagnitudeBits negative
      ((log + 1022) * fractionCount + number * 2 ^ (52 - log))).numerator %
        (ofMagnitudeBits negative
          ((log + 1022) * fractionCount + number * 2 ^ (52 - log))).denominator = 0 := by
  have normal : fractionCount ≤ number * 2 ^ (52 - log) := by
    calc fractionCount
      _ = 2 ^ 52 := rfl
      _ = 2 ^ (log + (52 - log)) := by rw [Nat.add_sub_cancel' (Nat.le_of_lt short)]
      _ = 2 ^ log * 2 ^ (52 - log) := Nat.pow_add 2 _ _
      _ ≤ number * 2 ^ (52 - log) := Nat.mul_le_mul_right _ least
  have below : number * 2 ^ (52 - log) < 2 * fractionCount := by
    calc number * 2 ^ (52 - log)
      _ < 2 ^ (log + 1) * 2 ^ (52 - log) :=
        Nat.mul_lt_mul_of_pos_right most (Nat.pow_pos (by omega))
      _ = 2 ^ (log + 1 + (52 - log)) := (Nat.pow_add 2 _ _).symm
      _ = 2 ^ 53 := by rw [show log + 1 + (52 - log) = 53 by omega]
      _ = 2 * fractionCount := rfl
  rcases significand_ofMagnitudeBits negative (show log + 1022 + 1 < 2048 by omega) normal below
    with ⟨significand, power⟩
  rw [numerator, denominator, significand, power,
    show (-(((log + 1022 : Nat) : Int) - 1074)).toNat = 52 - log by omega, Nat.mul_right_comm]
  exact Nat.mul_mod_left _ _

/-- The double nearest to a whole number is a whole number. -/
theorem whole_ofFraction {negative : Bool} {number : Nat}
    (finite : (ofFraction negative number 1).isFinite = true) :
    (ofFraction negative number 1).numerator %
      (ofFraction negative number 1).denominator = 0 := by
  by_cases zero : number = 0
  · rcases fields_ofMagnitudeBits negative (show 0 < 2048 by omega)
      (show 0 < fractionCount by decide) with ⟨exponent, fraction, -⟩
    rw [Nat.zero_mul] at exponent fraction
    rw [ofFraction, if_pos zero, numerator, significand, if_pos exponent, fraction, Nat.zero_mul,
      Nat.zero_mod]
  have positive := Nat.pos_of_ne_zero zero
  have least := Nat.log2_self_le zero
  have most := Nat.lt_log2_self (n := number)
  rw [ofFraction, if_neg zero] at finite ⊢
  simp only [nearestPower_one positive, Nat.pow_eq, Nat.one_mul] at finite ⊢
  generalize Nat.log2 number = log at finite least most ⊢
  rw [show ((log : Int) - 52 + 1074).toNat = log + 1022 by omega] at finite ⊢
  split at finite
  · rename_i fits
    rw [if_pos fits]
    by_cases short : log < 52
    · rw [show ((log : Int) - 52).toNat = 0 by omega,
        show (-((log : Int) - 52)).toNat = 52 - log by omega, Nat.pow_zero,
        Rounding.nearestEven_of_dvd (Nat.one_dvd _), Nat.div_one]
      exact whole_of_short negative short least most
    · -- The power of two in the double is not below one.
      rw [denominator_of_le, Nat.mod_one]
      rw [show (-((log : Int) - 52)).toNat = 0 by omega,
        show ((log : Int) - 52).toNat = log - 52 by omega, Nat.pow_zero, Nat.mul_one] at fits ⊢
      have rounded : fractionCount ≤ Rounding.nearestEven number (2 ^ (log - 52)) := by
        apply Nat.le_trans _ (Rounding.nearestEven_bounds _ _).1
        rw [Nat.le_div_iff_mul_le (Nat.pow_pos (by omega))]
        calc fractionCount * 2 ^ (log - 52)
          _ = 2 ^ 52 * 2 ^ (log - 52) := rfl
          _ = 2 ^ (52 + (log - 52)) := (Nat.pow_add 2 _ _).symm
          _ = 2 ^ log := by rw [Nat.add_sub_cancel' (by omega)]
          _ ≤ number := least
      rw [exponentField_ofMagnitudeBits negative (by omega),
        Nat.le_div_iff_mul_le (by decide)]
      calc 1075 * fractionCount
        _ ≤ (log + 1022 + 1) * fractionCount := Nat.mul_le_mul_right _ (by omega)
        _ = (log + 1022) * fractionCount + fractionCount := Nat.succ_mul _ _
        _ ≤ (log + 1022) * fractionCount + Rounding.nearestEven number (2 ^ (log - 52)) :=
          Nat.add_le_add_left rounded _
  · rw [not_isFinite_infinity] at finite
    cases finite

end Binary64

end LogPipeline
