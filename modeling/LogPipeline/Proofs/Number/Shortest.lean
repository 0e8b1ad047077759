import LogPipeline.Proofs.Number.Decimals

namespace LogPipeline

namespace Shortest

/-!
# The digits of the shortest decimal

The grid points that are tried for a number lie between one and the power of
ten that has as many zeros as digits are tried.  So the one that is chosen is
not zero, and no zero is left at the end of its digits.
-/

theorem normalized_digits {fuel : Nat} {decimal : Decimal} (positive : 0 < decimal.digits)
    (fits : decimal.digits < 10 ^ fuel) : (normalized fuel decimal).digits % 10 ≠ 0 := by
  induction fuel generalizing decimal with
  | zero =>
    rw [Nat.pow_zero] at fits
    omega
  | succ fuel inductionHypothesis =>
    rw [normalized]
    split
    · rename_i zeroLast
      apply inductionHypothesis
      · dsimp only
        omega
      · dsimp only
        rw [Nat.pow_succ] at fits
        omega
    · omega

namespace Interval

variable {range : Interval}

/-- The number is not so small that too many zeros follow its point. -/
def NotTiny (range : Interval) : Prop :=
  ∃ zeros < 400, range.denominator ≤ range.middle * 10 ^ (zeros + 1)

/-- The number is less than the power of ten of its magnitude. -/
theorem middle_lt (positive : 0 < range.denominator) :
    range.middle * 10 ^ (-range.magnitude).toNat <
      range.denominator * 10 ^ range.magnitude.toNat := by
  rw [magnitude]
  by_cases noWhole : range.middle / range.denominator = 0
  · have less : range.middle < range.denominator :=
      (Nat.div_eq_zero_iff_lt positive).mp noWhole
    rw [if_pos noWhole]
    split
    · rename_i zeros found
      have before := (List.find?_range_eq_some.mp found).2.2
      rw [Int.neg_neg, Int.toNat_natCast, Int.toNat_of_nonpos (by omega), Nat.pow_zero,
        Nat.mul_one]
      cases zeros with
      | zero =>
        rw [Nat.pow_zero, Nat.mul_one]
        exact less
      | succ zeros =>
        have fewer := before zeros (by omega)
        simpa using fewer
    · simpa using less
  · rw [if_neg noWhole, Int.toNat_natCast, Int.toNat_of_nonpos (by omega), Nat.pow_zero,
      Nat.mul_one, Nat.mul_comm]
    exact (Nat.div_lt_iff_lt_mul positive).mp (Digits.lt_pow_length_decimal _)

/-- The number is at least the power of ten below its magnitude. -/
theorem le_middle (positive : 0 < range.denominator)
    (notTiny : range.NotTiny) :
    range.denominator * 10 ^ (range.magnitude - 1).toNat ≤
      range.middle * 10 ^ (1 - range.magnitude).toNat := by
  rw [magnitude]
  by_cases noWhole : range.middle / range.denominator = 0
  · rw [if_pos noWhole]
    split
    · rename_i zeros found
      have here := (List.find?_range_eq_some.mp found).1
      rw [Int.toNat_of_nonpos (by omega), show (1 - -(zeros : Int)).toNat = zeros + 1 by omega,
        Nat.pow_zero, Nat.mul_one]
      simpa using here
    · rename_i none
      exfalso
      rcases notTiny with ⟨zeros, few, reaches⟩
      exact List.find?_eq_none.mp none zeros (List.mem_range.mpr few) (decide_eq_true reaches)
  · have least := Digits.pow_length_decimal_le (Nat.pos_of_ne_zero noWhole)
    have someDigit := List.length_pos_iff.mpr
      (Digits.decimal_ne_nil (range.middle / range.denominator))
    rw [if_neg noWhole, Int.toNat_of_nonpos (z := 1 - _) (by omega), Nat.pow_zero, Nat.mul_one,
      show (((Digits.decimal (range.middle / range.denominator)).length : Int) - 1).toNat =
        (Digits.decimal (range.middle / range.denominator)).length - 1 by omega, Nat.mul_comm]
    exact (Nat.le_div_iff_mul_le positive).mp least

/-- The grid with a given count of digits has its point below the number
between one and the power of ten with that count of zeros. -/
theorem below_bounds (positive : 0 < range.denominator)
    (notTiny : range.NotTiny) {count : Nat} (someDigit : 0 < count) :
    0 < (range.below (range.magnitude - count)).digits ∧
      (range.below (range.magnitude - count)).digits < 10 ^ count := by
  have upper := middle_lt positive
  have lower := le_middle positive notTiny
  rw [below]
  simp only [Nat.pow_eq]
  generalize range.magnitude = magnitude at upper lower ⊢
  have scalePositive : 0 < range.denominator * 10 ^ (magnitude - count).toNat :=
    Nat.mul_pos positive (Nat.pow_pos (by omega))
  constructor
  · apply Nat.div_pos _ scalePositive
    apply Nat.le_of_mul_le_mul_right _ (Nat.pow_pos (n := (1 - magnitude).toNat)
      (show 0 < 10 by omega))
    calc range.denominator * 10 ^ (magnitude - count).toNat * 10 ^ (1 - magnitude).toNat
      _ = range.denominator * 10 ^ ((magnitude - count).toNat + (1 - magnitude).toNat) := by
        rw [Nat.pow_add, Nat.mul_assoc]
      _ ≤ range.denominator * 10 ^ ((magnitude - 1).toNat + (-(magnitude - count)).toNat) := by
        apply Nat.mul_le_mul_left
        apply Nat.pow_le_pow_right (by omega)
        omega
      _ = range.denominator * 10 ^ (magnitude - 1).toNat * 10 ^ (-(magnitude - count)).toNat := by
        rw [Nat.pow_add, Nat.mul_assoc]
      _ ≤ range.middle * 10 ^ (1 - magnitude).toNat * 10 ^ (-(magnitude - count)).toNat :=
        Nat.mul_le_mul_right _ lower
      _ = range.middle * 10 ^ (-(magnitude - count)).toNat * 10 ^ (1 - magnitude).toNat :=
        Nat.mul_right_comm _ _ _
  · rw [Nat.div_lt_iff_lt_mul scalePositive]
    apply Nat.lt_of_mul_lt_mul_right (a := 10 ^ magnitude.toNat)
    calc range.middle * 10 ^ (-(magnitude - count)).toNat * 10 ^ magnitude.toNat
      _ = range.middle * 10 ^ ((-(magnitude - count)).toNat + magnitude.toNat) := by
        rw [Nat.pow_add, Nat.mul_assoc]
      _ = range.middle * 10 ^ ((-magnitude).toNat + (count + (magnitude - count).toNat)) := by
        congr 2
        omega
      _ = range.middle * 10 ^ (-magnitude).toNat * 10 ^ (count + (magnitude - count).toNat) := by
        rw [Nat.pow_add, Nat.mul_assoc]
      _ < range.denominator * 10 ^ magnitude.toNat * 10 ^ (count + (magnitude - count).toNat) :=
        Nat.mul_lt_mul_of_pos_right upper (Nat.pow_pos (by omega))
      _ = 10 ^ count * (range.denominator * 10 ^ (magnitude - count).toNat) *
          10 ^ magnitude.toNat := by
        rw [Nat.pow_add]
        simp only [Nat.mul_comm, Nat.mul_left_comm, Nat.mul_assoc]

theorem digits_of_onGrid? {tie : Tie} {exponent : Int} {decimal : Decimal}
    (found : range.onGrid? tie exponent = some decimal) :
    decimal.digits = (range.below exponent).digits ∨
      decimal.digits = (range.below exponent).digits + 1 := by
  rw [onGrid?] at found
  split at found
  · split at found
    · exact .inl (congrArg Decimal.digits (Option.some.inj found)).symm
    · split at found
      · exact .inr (congrArg Decimal.digits (Option.some.inj found)).symm
      · split at found
        · exact .inl (congrArg Decimal.digits (Option.some.inj found)).symm
        · exact .inr (congrArg Decimal.digits (Option.some.inj found)).symm
  · exact .inl (congrArg Decimal.digits (Option.some.inj found)).symm
  · exact .inr (congrArg Decimal.digits (Option.some.inj found)).symm
  · cases found

end Interval

theorem significand_pos {number : Binary64} (notZero : number.isZero = false) :
    0 < number.significand := by
  rw [Binary64.isZero, Bool.and_eq_false_iff, decide_eq_false_iff_not,
    decide_eq_false_iff_not] at notZero
  rw [Binary64.significand]
  split
  · omega
  · exact Nat.add_pos_right _ (by decide)

theorem two_pow_le_ten_pow {exponent zeros : Nat} (few : exponent ≤ 3 * zeros) :
    2 ^ exponent ≤ 10 ^ zeros := by
  calc 2 ^ exponent
    _ ≤ 2 ^ (3 * zeros) := Nat.pow_le_pow_right (by omega) few
    _ = (2 ^ 3) ^ zeros := Nat.pow_mul 2 3 zeros
    _ ≤ 10 ^ zeros := Nat.pow_le_pow_left (by omega) zeros

theorem notTiny_interval {number : Binary64} (notZero : number.isZero = false) :
    (interval number).NotTiny := by
  have leastPower : (-number.power).toNat ≤ 1074 := by
    rw [Binary64.power]
    split <;> omega
  have someMiddle : 0 < (interval number).middle := by
    apply Nat.mul_pos (Nat.mul_pos (by omega) (significand_pos notZero))
    exact Nat.pow_pos (by omega)
  have reaches : ∀ zeros, 1076 ≤ 3 * (zeros + 1) →
      (interval number).denominator ≤ (interval number).middle * 10 ^ (zeros + 1) := by
    intro zeros enough
    calc (interval number).denominator
      _ = 2 ^ 2 * 2 ^ (-number.power).toNat := rfl
      _ = 2 ^ (2 + (-number.power).toNat) := (Nat.pow_add 2 2 _).symm
      _ ≤ 10 ^ (zeros + 1) := two_pow_le_ten_pow (by omega)
      _ = 1 * 10 ^ (zeros + 1) := (Nat.one_mul _).symm
      _ ≤ (interval number).middle * 10 ^ (zeros + 1) := Nat.mul_le_mul_right _ someMiddle
  exact ⟨358, by omega, reaches 358 (by omega)⟩

/-- The shortest decimal of a number other than zero has no zero at the end. -/
theorem digits_decimal (tie : Tie) {number : Binary64} (notZero : number.isZero = false) :
    (decimal tie number).digits % 10 ≠ 0 := by
  have positive : 0 < (interval number).denominator :=
    Nat.mul_pos (by omega) number.denominator_pos
  have bounds : ∀ count : Nat, 0 < count → count ≤ 17 →
      0 < ((interval number).below ((interval number).magnitude - count)).digits ∧
        ((interval number).below ((interval number).magnitude - count)).digits + 1 < 10 ^ 20 := by
    intro count someDigit atMost
    rcases Interval.below_bounds positive (notTiny_interval notZero) someDigit with ⟨least, most⟩
    have power : 10 ^ count ≤ 10 ^ 17 := Nat.pow_le_pow_right (by omega) atMost
    exact ⟨least, by omega⟩
  rw [decimal]
  generalize isFound : (List.range 17).findSome? (fun count : Nat =>
    (interval number).onGrid? tie ((interval number).magnitude - ((count : Int) + 1))) = found
  cases found with
  | none =>
    rcases bounds 17 (by omega) (by omega) with ⟨least, most⟩
    change 0 < ((interval number).below ((interval number).magnitude - 17)).digits at least
    change ((interval number).below ((interval number).magnitude - 17)).digits + 1 < _ at most
    exact normalized_digits least (Nat.lt_of_succ_lt most)
  | some point =>
    rcases List.exists_of_findSome?_eq_some isFound with ⟨count, member, onGrid⟩
    rw [List.mem_range] at member
    rcases bounds (count + 1) (by omega) (by omega) with ⟨least, most⟩
    rw [Int.natCast_add, Int.natCast_one] at least most
    apply normalized_digits
    · rcases Interval.digits_of_onGrid? onGrid with same | same
      · rw [Option.getD_some, same]
        exact least
      · rw [Option.getD_some, same]
        omega
    · rcases Interval.digits_of_onGrid? onGrid with same | same
      · rw [Option.getD_some, same]
        omega
      · rw [Option.getD_some, same]
        exact most

end Shortest

end LogPipeline
