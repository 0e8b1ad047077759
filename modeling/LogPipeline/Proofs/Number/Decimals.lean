import Mathlib.Data.List.DropRight
import LogPipeline.Number.FixedPoint
import LogPipeline.Number.Shortest
import LogPipeline.Proofs.Number.Digits

namespace LogPipeline

/-!
# Decimals with a point

A number of places after the point and the number that all its digits spell
determine a decimal text, and are determined by it.  Positional texts have this
form, and so have the texts of counted millionths that are no whole number of
units; in these the last place is never a zero.
-/

namespace Digits

/-- A number with a point in front of its last places. -/
def pointed (places number : Nat) : List Char :=
  decimal (number / 10 ^ places) ++ '.' :: paddedDecimal places (number % 10 ^ places)

theorem point_notMem_decimal (number : Nat) : '.' ∉ decimal number :=
  (allDecimal_decimal number).notMem rfl

theorem pointed_injective {leftPlaces rightPlaces left right : Nat} (leftSome : 0 < leftPlaces)
    (rightSome : 0 < rightPlaces) (same : pointed leftPlaces left = pointed rightPlaces right) :
    leftPlaces = rightPlaces ∧ left = right := by
  have noPoint : ∀ places number, '.' ∉ paddedDecimal places number :=
    fun places number => (allDecimal_paddedDecimal places number).notMem rfl
  have below : ∀ places number, number % 10 ^ places < 10 ^ places :=
    fun places number => Nat.mod_lt number (Nat.pow_pos (by omega))
  rw [pointed, pointed, List.append_cons_inj_of_notMem (point_notMem_decimal _)
    (noPoint _ _)] at same
  rcases same with ⟨sameWhole, -, sameRest⟩
  have sameLength := congrArg List.length sameRest
  rw [length_paddedDecimal (below _ _) leftSome,
    length_paddedDecimal (below _ _) rightSome] at sameLength
  subst sameLength
  have sameSpelled := congrArg (spelled 10) sameRest
  rw [spelled_paddedDecimal, spelled_paddedDecimal] at sameSpelled
  refine ⟨rfl, ?_⟩
  rw [← Nat.div_add_mod left (10 ^ leftPlaces), decimal_injective sameWhole, sameSpelled,
    Nat.div_add_mod]

/-- A row of digits cut before its last places, which are fewer than there are. -/
theorem pointed_of_cut {places number : Nat} (somePlace : 0 < places)
    (fewer : places < (decimal number).length) :
    pointed places number =
      (decimal number).take ((decimal number).length - places) ++
        '.' :: (decimal number).drop ((decimal number).length - places) := by
  generalize cut : (decimal number).length - places = index
  have whole := List.take_append_drop index (decimal number)
  have digits := allDecimal_decimal number
  rw [← whole, allDecimal_append] at digits
  have backLength : ((decimal number).drop index).length = places := by
    rw [List.length_drop]
    omega
  have spells := congrArg (spelled 10) whole
  rw [spelled_append, spelled_decimal, backLength] at spells
  have backFits := spelled_lt digits.2
  rw [backLength] at backFits
  have positive : 0 < number := by
    rcases Nat.eq_zero_or_pos number with rfl | positive
    · rw [decimal_of_lt (by omega), List.length_singleton] at fewer
      omega
    · exact positive
  have frontNonempty : (decimal number).take index ≠ [] := by
    apply List.ne_nil_of_length_pos
    rw [List.length_take]
    omega
  have noZero : ((decimal number).take index).head? ≠ some '0' := by
    have sameHead := @List.head?_append_of_ne_nil _ _ ((decimal number).drop index) frontNonempty
    rw [← sameHead, whole]
    exact head?_decimal positive
  have front := (decimal_spelled frontNonempty digits.1 noZero).1
  have back := eq_paddedDecimal (List.ne_nil_of_length_pos (by omega)) digits.2 rfl
  rw [backLength] at back
  rw [Nat.add_comm, Nat.mul_comm] at spells
  rcases (Nat.div_mod_unique (Nat.pow_pos (by omega))).mpr ⟨spells, backFits⟩ with
    ⟨quotient, remainder⟩
  rw [pointed, quotient, remainder, front, ← back]

/-- A row of digits that are no more than the places. -/
theorem pointed_of_short {places number : Nat} (short : (decimal number).length ≤ places) :
    pointed places number =
      '0' :: '.' :: (List.replicate (places - (decimal number).length) '0' ++ decimal number) := by
  have fits : number < 10 ^ places :=
    Nat.lt_of_lt_of_le (lt_pow_length_decimal number) (Nat.pow_le_pow_right (by omega) short)
  rw [pointed, Nat.div_eq_of_lt fits, Nat.mod_eq_of_lt fits, decimal_of_lt (by omega)]
  rfl

/-- A number with zeros behind it. -/
theorem decimal_mul_pow {number : Nat} (positive : 0 < number) (zeros : Nat) :
    decimal number ++ List.replicate zeros '0' = decimal (number * 10 ^ zeros) := by
  have spells : spelled 10 (decimal number ++ List.replicate zeros '0') =
      number * 10 ^ zeros := by
    rw [spelled_append, spelled_decimal, spelled_replicate_zero, List.length_replicate,
      Nat.add_zero]
  rw [← spells]
  symm
  apply (decimal_spelled _ _ _).1
  · exact List.append_ne_nil_of_left_ne_nil (decimal_ne_nil number) _
  · rw [allDecimal_append]
    exact ⟨allDecimal_decimal number, allDecimal_replicate_zero zeros⟩
  · rw [List.head?_append_of_ne_nil _ (decimal_ne_nil number)]
    exact head?_decimal positive

end Digits

namespace Shortest

/-! ## Positional texts -/

theorem positional_of_neg {digits places : Nat} (somePlace : 0 < places) :
    positional { digits := digits, exponent := -(places : Int) } =
      Digits.pointed places digits := by
  rw [positional]
  dsimp only
  rw [if_neg (by omega)]
  by_cases fewer : places < (Digits.decimal digits).length
  · have index : ((Digits.decimal digits).length + -(places : Int)).toNat =
        (Digits.decimal digits).length - places := by omega
    rw [if_pos (by omega), index, Digits.pointed_of_cut somePlace fewer]
  · have zeros : (-((Digits.decimal digits).length + -(places : Int))).toNat =
        places - (Digits.decimal digits).length := by omega
    rw [if_neg (by omega), zeros, Digits.pointed_of_short (by omega)]

theorem positional_of_nonneg {digits exponent : Nat} (positive : 0 < digits) :
    positional { digits := digits, exponent := (exponent : Int) } =
      Digits.decimal (digits * 10 ^ exponent) := by
  rw [positional]
  dsimp only
  rw [if_pos (by omega), Int.toNat_natCast, Digits.decimal_mul_pow positive]

/-- A positive decimal with one place behind the point where it needs none. -/
def withPoint (decimal : Decimal) : List Char :=
  if (positional decimal).contains '.' then positional decimal
  else positional decimal ++ ['.', '0']

theorem withPoint_of_neg {digits places : Nat} (somePlace : 0 < places) :
    withPoint { digits := digits, exponent := -(places : Int) } =
      Digits.pointed places digits := by
  rw [withPoint, positional_of_neg somePlace, if_pos]
  rw [List.contains_eq_mem, decide_eq_true_eq, Digits.pointed]
  exact List.mem_append_right _ List.mem_cons_self

theorem withPoint_of_nonneg {digits exponent : Nat} (positive : 0 < digits) :
    withPoint { digits := digits, exponent := (exponent : Int) } =
      Digits.pointed 1 (digits * 10 ^ exponent * 10) := by
  rw [withPoint, positional_of_nonneg positive, if_neg]
  · rw [Digits.pointed, Nat.pow_one, Nat.mul_div_cancel _ (by omega), Nat.mul_mod_left,
      Digits.paddedDecimal, Digits.decimal_of_lt (show 0 < 10 by omega)]
    rfl
  · rw [List.contains_eq_mem, decide_eq_true_eq]
    exact Digits.point_notMem_decimal _

theorem withPoint_eq_pointed {decimal : Decimal} (lastDigit : decimal.digits % 10 ≠ 0) :
    ∃ places count, withPoint decimal = Digits.pointed places count := by
  rcases decimal with ⟨digits, exponent⟩
  rcases Int.lt_or_le exponent 0 with negative | nonnegative
  · obtain ⟨places, rfl⟩ := Int.exists_eq_neg_ofNat (Int.le_of_lt negative)
    exact ⟨places, digits, withPoint_of_neg (by omega)⟩
  · obtain ⟨zeros, rfl⟩ := Int.eq_ofNat_of_zero_le nonnegative
    exact ⟨1, _, withPoint_of_nonneg (by dsimp only at lastDigit; omega)⟩

end Shortest

namespace FixedPoint

/-! ## Counted millionths -/

/-- Only zeros are taken away from the end of a row. -/
theorem append_zeros (digits : List Char) :
    withoutTrailingZeros digits ++
      List.replicate (digits.length - (withoutTrailingZeros digits).length) '0' = digits := by
  have parts : withoutTrailingZeros digits ++ digits.rtakeWhile (· = '0') = digits :=
    List.rdropWhile_append_rtakeWhile
  have zeros : digits.rtakeWhile (· = '0') =
      List.replicate (digits.rtakeWhile (· = '0')).length '0' := by
    rw [List.eq_replicate_iff]
    refine ⟨rfl, ?_⟩
    intro letter member
    have passes := List.mem_rtakeWhile_imp member
    exact of_decide_eq_true passes
  have lengths := congrArg List.length parts
  rw [List.length_append] at lengths
  rw [show digits.length - (withoutTrailingZeros digits).length =
    (digits.rtakeWhile (· = '0')).length by omega, ← zeros, parts]

theorem getLast?_withoutTrailingZeros (digits : List Char) :
    (withoutTrailingZeros digits).getLast? ≠ some '0' := by
  intro isZero
  have member := List.mem_getLast?_eq_getLast isZero
  rcases member with ⟨nonempty, last⟩
  have stops := List.rdropWhile_last_not (fun letter : Char => decide (letter = '0')) digits nonempty
  apply stops
  rw [decide_eq_true_eq]
  exact last.symm

/-- A row of places is a shorter row whose last place is no zero, and zeros. -/
theorem withoutTrailingZeros_cases {row : List Char} (digits : Digits.AllDecimal row) :
    (withoutTrailingZeros row = [] ∧ Digits.spelled 10 row = 0) ∨
      ∃ kept number, 0 < kept ∧ kept ≤ row.length ∧ number < 10 ^ kept ∧ number % 10 ≠ 0 ∧
        Digits.spelled 10 row = number * 10 ^ (row.length - kept) ∧
        withoutTrailingZeros row = Digits.paddedDecimal kept number := by
  have whole := append_zeros row
  have lastNoZero := getLast?_withoutTrailingZeros row
  generalize kept : withoutTrailingZeros row = front at whole lastNoZero ⊢
  have spells := congrArg (Digits.spelled 10) whole
  have lengths := congrArg List.length whole
  rw [Digits.spelled_append, Digits.spelled_replicate_zero, List.length_replicate,
    Nat.add_zero] at spells
  rw [List.length_append, List.length_replicate] at lengths
  have frontDigits : Digits.AllDecimal front := by
    rw [← whole, Digits.allDecimal_append] at digits
    exact digits.1
  rcases List.eq_nil_or_concat front with rfl | ⟨others, last, rfl⟩
  · left
    rw [← spells, Digits.spelled_nil, Nat.zero_mul]
    exact ⟨rfl, rfl⟩
  · right
    rw [List.concat_eq_append] at *
    have lastDigit := frontDigits last (List.mem_append_right _ List.mem_cons_self)
    rcases Digits.exists_character_of_isDecimal lastDigit with ⟨digit, small, rfl⟩
    have someDigit : digit ≠ 0 := by
      rintro rfl
      apply lastNoZero
      rw [List.getLast?_concat]
      rfl
    refine ⟨(others ++ [Digits.character digit]).length,
      Digits.spelled 10 (others ++ [Digits.character digit]), by simp, by omega,
      Digits.spelled_lt frontDigits, ?_, spells.symm,
      Digits.eq_paddedDecimal (by simp) frontDigits rfl⟩
    rw [Digits.spelled_concat, Digits.value?_character small, Option.getD_some]
    omega

theorem unit_eq : unit = 10 ^ places :=
  rfl

theorem ten_dvd_pow {exponent : Nat} (positive : 0 < exponent) : 10 ∣ 10 ^ exponent := by
  have divides := Nat.pow_dvd_pow 10 (Nat.succ_le_of_lt positive)
  rwa [Nat.pow_succ, Nat.pow_zero, Nat.one_mul] at divides

/-- A count of millionths is written as a whole number of units or with a point
and a last place that is no zero. -/
theorem unsigned_cases (count : Nat) :
    (unit ∣ count ∧ unsigned count = Digits.decimal (count / unit)) ∨
      ∃ kept number, 0 < kept ∧ kept ≤ places ∧ number % 10 ≠ 0 ∧
        count = number * 10 ^ (places - kept) ∧ unsigned count = Digits.pointed kept number := by
  have fits : count % unit < 10 ^ places := Nat.mod_lt count (Nat.pow_pos (by omega))
  have length := Digits.length_paddedDecimal fits (by decide)
  rcases withoutTrailingZeros_cases (Digits.allDecimal_paddedDecimal places (count % unit)) with
    ⟨none, spells⟩ | ⟨kept, number, someKept, atMost, small, noZero, spells, stripped⟩
  · left
    rw [Digits.spelled_paddedDecimal] at spells
    rw [unsigned, none]
    exact ⟨Nat.dvd_of_mod_eq_zero spells, rfl⟩
  · right
    rw [Digits.spelled_paddedDecimal, length] at spells
    rw [length] at atMost
    have power : 10 ^ places = 10 ^ kept * 10 ^ (places - kept) := by
      rw [← Nat.pow_add, Nat.add_sub_cancel' atMost]
    have tenth : 10 ^ kept % 10 = 0 := Nat.mod_eq_zero_of_dvd (ten_dvd_pow someKept)
    refine ⟨kept, number + 10 ^ kept * (count / unit), someKept, atMost, ?_, ?_, ?_⟩
    · rw [Nat.add_mod, Nat.mul_mod, tenth, Nat.zero_mul, Nat.zero_mod, Nat.add_zero, Nat.mod_mod]
      exact noZero
    · rw [Nat.add_mul, ← spells, Nat.mul_right_comm, ← power, ← unit_eq, Nat.add_comm,
        Nat.div_add_mod]
    · have rowNonempty : (Digits.paddedDecimal kept number).isEmpty = false := by
        rw [List.isEmpty_eq_false_iff]
        apply List.ne_nil_of_length_pos
        rw [Digits.length_paddedDecimal small someKept]
        exact someKept
      rw [unsigned, stripped, rowNonempty, if_neg Bool.false_ne_true, Digits.pointed,
        Nat.add_mul_div_left _ _ (Nat.pow_pos (by omega)), Nat.div_eq_of_lt small, Nat.zero_add,
        Nat.add_mul_mod_self_left, Nat.mod_eq_of_lt small]

/-- A whole number of units has no last place behind the point. -/
theorem mul_unit_ne {units kept number : Nat} (someKept : 0 < kept) (atMost : kept ≤ places)
    (lastPlace : number % 10 ≠ 0) : units * unit ≠ number * 10 ^ (places - kept) := by
  intro same
  have power : unit = 10 ^ kept * 10 ^ (places - kept) := by
    rw [unit_eq, ← Nat.pow_add, Nat.add_sub_cancel' atMost]
  rw [power, ← Nat.mul_assoc] at same
  have multiple := Nat.eq_of_mul_eq_mul_right (Nat.pow_pos (by omega)) same
  apply lastPlace
  rw [← multiple]
  exact Nat.mod_eq_zero_of_dvd (Nat.dvd_mul_left_of_dvd (ten_dvd_pow someKept) units)

/-- Two ways to write one count without a zero in the last place are the same. -/
theorem eq_of_mul_pow_eq {left right leftZeros rightZeros : Nat} (leftLast : left % 10 ≠ 0)
    (rightLast : right % 10 ≠ 0) (same : left * 10 ^ leftZeros = right * 10 ^ rightZeros) :
    leftZeros = rightZeros ∧ left = right := by
  induction leftZeros generalizing rightZeros with
  | zero =>
    cases rightZeros with
    | zero => simpa using same
    | succ rightZeros =>
      rw [Nat.pow_zero, Nat.mul_one, Nat.pow_succ, ← Nat.mul_assoc] at same
      omega
  | succ leftZeros inductionHypothesis =>
    cases rightZeros with
    | zero =>
      rw [Nat.pow_zero, Nat.mul_one, Nat.pow_succ, ← Nat.mul_assoc] at same
      omega
    | succ rightZeros =>
      rw [Nat.pow_succ, Nat.pow_succ, ← Nat.mul_assoc, ← Nat.mul_assoc] at same
      rcases inductionHypothesis (Nat.eq_of_mul_eq_mul_right (by omega) same) with ⟨rfl, rfl⟩
      exact ⟨rfl, rfl⟩

/-- A count of millionths is written with given places and digits exactly if
it is what they amount to and the last place is no zero. -/
theorem unsigned_eq_pointed_iff {count kept number : Nat} (someKept : 0 < kept) :
    unsigned count = Digits.pointed kept number ↔
      kept ≤ places ∧ number % 10 ≠ 0 ∧ count = number * 10 ^ (places - kept) := by
  have hasPoint : '.' ∈ Digits.pointed kept number :=
    List.mem_append_right _ List.mem_cons_self
  rcases unsigned_cases count with
    ⟨wholeUnits, written⟩ | ⟨ownKept, ownNumber, ownSome, atMost, lastPlace, counted, written⟩
  · constructor
    · intro same
      rw [← same, written] at hasPoint
      exact absurd hasPoint (Digits.point_notMem_decimal _)
    · rintro ⟨atMost, lastPlace, counted⟩
      rcases wholeUnits with ⟨units, same⟩
      rw [same, Nat.mul_comm] at counted
      exact absurd counted (mul_unit_ne someKept atMost lastPlace)
  · rw [written]
    constructor
    · intro same
      rcases Digits.pointed_injective ownSome someKept same with ⟨rfl, rfl⟩
      exact ⟨atMost, lastPlace, counted⟩
    · rintro ⟨otherAtMost, otherLastPlace, otherCounted⟩
      rw [counted] at otherCounted
      rcases eq_of_mul_pow_eq lastPlace otherLastPlace otherCounted with ⟨sameZeros, rfl⟩
      rw [show ownKept = kept by omega]

theorem unsigned_ne_nil (count : Nat) : unsigned count ≠ [] := by
  rw [unsigned]
  split
  · exact Digits.decimal_ne_nil _
  · exact List.append_ne_nil_of_left_ne_nil (Digits.decimal_ne_nil _) _

/-- Every number has a text. -/
theorem text_ne_empty (number : Binary64) : text number ≠ "" := by
  rw [text]
  split
  · decide
  · split
    · rw [ne_eq, String.ofList_eq_empty_iff, finite]
      split
      · exact List.cons_ne_nil _ _
      · exact unsigned_ne_nil _
    · split <;> decide

end FixedPoint

end LogPipeline
