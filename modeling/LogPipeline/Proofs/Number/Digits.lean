import Mathlib.Algebra.Group.Nat.Defs
import Mathlib.Data.List.Basic
import Mathlib.Data.List.Induction
import LogPipeline.Number.Digits

namespace LogPipeline

namespace Digits

/-!
# Rows of decimal digits

A row of decimal digits spells a number, and among the rows of one length it is
the only one that does.  Without a superfluous zero in front it is the row that
is written for its number.
-/

/-- The number that a row of digits spells in a base. -/
def spelled (base : Nat) (letters : List Char) : Nat :=
  letters.foldl (fun total letter => total * base + (value? letter).getD 0) 0

def AllDecimal (letters : List Char) : Prop :=
  ∀ letter ∈ letters, isDecimal letter = true

@[simp] theorem allDecimal_nil : AllDecimal [] := by
  intro letter member
  cases member

@[simp] theorem allDecimal_cons {first : Char} {rest : List Char} :
    AllDecimal (first :: rest) ↔ isDecimal first = true ∧ AllDecimal rest :=
  List.forall_mem_cons

@[simp] theorem allDecimal_append {front back : List Char} :
    AllDecimal (front ++ back) ↔ AllDecimal front ∧ AllDecimal back :=
  List.forall_mem_append

theorem allDecimal_replicate_zero (count : Nat) : AllDecimal (List.replicate count '0') := by
  intro letter member
  rw [List.eq_of_mem_replicate member]
  rfl

theorem AllDecimal.notMem {letters : List Char} (digits : AllDecimal letters) {letter : Char}
    (noDigit : isDecimal letter = false) : letter ∉ letters := by
  intro member
  rw [digits letter member] at noDigit
  cases noDigit

/-! ## Single digits -/

theorem isDecimal_character {digit : Nat} (small : digit < 10) :
    isDecimal (character digit) = true := by
  have all : ∀ digit : Fin 10, isDecimal (character digit) = true := by decide
  exact all ⟨digit, small⟩

theorem value?_character_of_lt {digit : Nat} (small : digit < 16) :
    value? (character digit) = some digit := by
  have all : ∀ digit : Fin 16, value? (character digit) = some digit.val := by decide
  exact all ⟨digit, small⟩

theorem value?_character {digit : Nat} (small : digit < 10) :
    value? (character digit) = some digit :=
  value?_character_of_lt (by omega)

theorem exists_character_of_isDecimal {letter : Char} (isDigit : isDecimal letter = true) :
    ∃ digit, digit < 10 ∧ letter = character digit := by
  simp only [isDecimal, Bool.and_eq_true, decide_eq_true_eq, Char.le_def, UInt32.le_iff_toNat_le]
    at isDigit
  change 48 ≤ letter.toNat ∧ letter.toNat ≤ 57 at isDigit
  refine ⟨letter.toNat - 48, by omega, ?_⟩
  rw [character, if_pos (by omega), Nat.add_sub_cancel' isDigit.1, Char.ofNat_toNat]

theorem character_eq_zero_iff {digit : Nat} (small : digit < 10) :
    character digit = '0' ↔ digit = 0 := by
  constructor
  · intro same
    have value := value?_character small
    rw [same] at value
    exact (Option.some.inj value).symm
  · rintro rfl
    rfl

/-! ## What a row spells -/

@[simp] theorem spelled_nil (base : Nat) : spelled base [] = 0 :=
  rfl

theorem spelled_concat (base : Nat) (letters : List Char) (letter : Char) :
    spelled base (letters ++ [letter]) =
      spelled base letters * base + (value? letter).getD 0 := by
  rw [spelled, List.foldl_append]
  rfl

theorem spelled_append (base : Nat) (front back : List Char) :
    spelled base (front ++ back) =
      spelled base front * base ^ back.length + spelled base back := by
  induction back using List.reverseRecOn with
  | nil => simp
  | append_singleton back letter inductionHypothesis =>
    rw [← List.append_assoc, spelled_concat, spelled_concat, inductionHypothesis,
      List.length_append, List.length_singleton, Nat.pow_succ, Nat.add_mul, Nat.mul_assoc,
      Nat.add_assoc]

theorem spelled_replicate_zero (base count : Nat) :
    spelled base (List.replicate count '0') = 0 := by
  induction count with
  | zero => rfl
  | succ count inductionHypothesis =>
    rw [List.replicate_succ', spelled_concat, inductionHypothesis, Nat.zero_mul]
    rfl

theorem spelled_lt {letters : List Char} (digits : AllDecimal letters) :
    spelled 10 letters < 10 ^ letters.length := by
  induction letters using List.reverseRecOn with
  | nil => simp
  | append_singleton front letter inductionHypothesis =>
    rw [allDecimal_append] at digits
    rcases exists_character_of_isDecimal (digits.2 letter List.mem_cons_self) with
      ⟨digit, small, rfl⟩
    have before := inductionHypothesis digits.1
    rw [spelled_concat, value?_character small, List.length_append, List.length_singleton,
      Nat.pow_succ, Option.getD_some]
    omega

/-- Rows of one length spell different numbers. -/
theorem eq_of_spelled_eq {left right : List Char} (leftDigits : AllDecimal left)
    (rightDigits : AllDecimal right) (sameLength : left.length = right.length)
    (same : spelled 10 left = spelled 10 right) : left = right := by
  induction left using List.reverseRecOn generalizing right with
  | nil => exact (List.length_eq_zero_iff.mp sameLength.symm).symm
  | append_singleton left letter inductionHypothesis =>
    rcases List.eq_nil_or_concat right with rfl | ⟨others, other, rfl⟩
    · simp at sameLength
    · rw [List.concat_eq_append, allDecimal_append] at rightDigits
      rw [allDecimal_append] at leftDigits
      rcases exists_character_of_isDecimal (leftDigits.2 letter List.mem_cons_self) with
        ⟨digit, small, rfl⟩
      rcases exists_character_of_isDecimal (rightDigits.2 other List.mem_cons_self) with
        ⟨otherDigit, otherSmall, rfl⟩
      simp only [List.concat_eq_append, List.length_append, List.length_singleton,
        spelled_concat, value?_character small, value?_character otherSmall,
        Option.getD_some] at sameLength same ⊢
      rw [inductionHypothesis leftDigits.1 rightDigits.1 (by omega) (by omega),
        show digit = otherDigit by omega]

/-- Reading that goes on at each digit gives the number that is spelled. -/
theorem foldl_of_steps {step : Option Nat → Char → Option Nat}
    (steps : ∀ total letter, isDecimal letter = true →
      step (some total) letter = some (total * 10 + (value? letter).getD 0))
    {row : List Char} (digits : AllDecimal row) (total : Nat) :
    row.foldl step (some total) =
      some (row.foldl (fun total letter => total * 10 + (value? letter).getD 0) total) := by
  induction row generalizing total with
  | nil => rfl
  | cons letter rest inductionHypothesis =>
    rw [allDecimal_cons] at digits
    rw [List.foldl_cons, List.foldl_cons, steps total letter digits.1]
    exact inductionHypothesis digits.2 _

/-- A row of digits reads as what it spells. -/
theorem read?_eq_spelled {letters : List Char} (nonempty : letters ≠ [])
    (digits : AllDecimal letters) : read? 10 letters = some (spelled 10 letters) := by
  cases letters with
  | nil => exact absurd rfl nonempty
  | cons letter rest =>
    rw [read?]
    apply foldl_of_steps _ digits
    intro total letter isDigit
    rcases exists_character_of_isDecimal isDigit with ⟨digit, small, rfl⟩
    rw [value?_character small]
    exact if_pos small

/-! ## Written numbers -/

theorem decimal_of_lt {number : Nat} (small : number < 10) :
    decimal number = [character number] := by
  rw [decimal, inBase, dif_pos small]

theorem decimal_of_le {number : Nat} (large : 10 ≤ number) :
    decimal number = decimal (number / 10) ++ [character (number % 10)] := by
  rw [decimal, inBase, dif_neg (by omega)]
  rfl

theorem allDecimal_decimal (number : Nat) : AllDecimal (decimal number) := by
  induction number using Nat.strongRecOn with
  | ind number inductionHypothesis =>
    by_cases small : number < 10
    · rw [decimal_of_lt small, allDecimal_cons]
      exact ⟨isDecimal_character small, allDecimal_nil⟩
    · rw [decimal_of_le (by omega), allDecimal_append, allDecimal_cons]
      exact ⟨inductionHypothesis _ (by omega), isDecimal_character (by omega), allDecimal_nil⟩

/-- No number begins with what is no digit. -/
theorem decimal_ne_cons {number : Nat} {letter : Char} {rest : List Char}
    (noDigit : isDecimal letter = false) : decimal number ≠ letter :: rest := by
  intro same
  apply (allDecimal_decimal number).notMem noDigit
  rw [same]
  exact List.mem_cons_self

@[simp] theorem spelled_decimal (number : Nat) : spelled 10 (decimal number) = number := by
  induction number using Nat.strongRecOn with
  | ind number inductionHypothesis =>
    by_cases small : number < 10
    · rw [decimal_of_lt small]
      change 0 * 10 + (value? (character number)).getD 0 = number
      rw [value?_character small, Option.getD_some]
      omega
    · rw [decimal_of_le (by omega), spelled_concat, inductionHypothesis _ (by omega),
        value?_character (by omega), Option.getD_some]
      omega

theorem decimal_ne_nil (number : Nat) : decimal number ≠ [] := by
  by_cases small : number < 10
  · rw [decimal_of_lt small]
    exact List.cons_ne_nil _ _
  · rw [decimal_of_le (by omega)]
    exact List.append_ne_nil_of_right_ne_nil _ (List.cons_ne_nil _ _)

theorem decimal_injective {left right : Nat} (same : decimal left = decimal right) :
    left = right := by
  rw [← spelled_decimal left, same, spelled_decimal]

/-- No zero leads the row of a number but that of zero itself. -/
theorem head?_decimal {number : Nat} (positive : 0 < number) :
    (decimal number).head? ≠ some '0' := by
  induction number using Nat.strongRecOn with
  | ind number inductionHypothesis =>
    by_cases small : number < 10
    · rw [decimal_of_lt small]
      intro isZero
      have digit := (character_eq_zero_iff small).mp (Option.some.inj isZero)
      omega
    · rw [decimal_of_le (by omega), List.head?_append_of_ne_nil _ (decimal_ne_nil _)]
      exact inductionHypothesis _ (by omega) (by omega)

/-- A row without a superfluous zero in front is the one written for its number. -/
theorem decimal_spelled {letters : List Char} (nonempty : letters ≠ [])
    (digits : AllDecimal letters) (noZero : letters.head? ≠ some '0') :
    decimal (spelled 10 letters) = letters ∧ 0 < spelled 10 letters := by
  induction letters using List.reverseRecOn with
  | nil => exact absurd rfl nonempty
  | append_singleton front letter inductionHypothesis =>
    rw [allDecimal_append] at digits
    rcases exists_character_of_isDecimal (digits.2 letter List.mem_cons_self) with
      ⟨digit, small, rfl⟩
    rw [spelled_concat, value?_character small, Option.getD_some]
    by_cases alone : front = []
    · subst alone
      have positive : digit ≠ 0 := by
        rintro rfl
        exact noZero rfl
      rw [spelled_nil, Nat.zero_mul, Nat.zero_add, decimal_of_lt small]
      exact ⟨rfl, Nat.pos_of_ne_zero positive⟩
    · rw [List.head?_append_of_ne_nil _ alone] at noZero
      rcases inductionHypothesis alone digits.1 noZero with ⟨same, positive⟩
      rw [decimal_of_le (by omega), Nat.add_comm, Nat.add_mul_div_right _ _ (by omega),
        Nat.div_eq_of_lt small, Nat.zero_add, same, Nat.add_mul_mod_self_right,
        Nat.mod_eq_of_lt small]
      exact ⟨rfl, by omega⟩

theorem lt_pow_length_decimal (number : Nat) : number < 10 ^ (decimal number).length := by
  have below := spelled_lt (allDecimal_decimal number)
  rwa [spelled_decimal] at below

theorem pow_length_decimal_le {number : Nat} (positive : 0 < number) :
    10 ^ ((decimal number).length - 1) ≤ number := by
  induction number using Nat.strongRecOn with
  | ind number inductionHypothesis =>
    by_cases small : number < 10
    · rw [decimal_of_lt small]
      exact positive
    · have before := inductionHypothesis (number / 10) (by omega) (by omega)
      have someDigit := List.length_pos_iff.mpr (decimal_ne_nil (number / 10))
      rw [decimal_of_le (by omega), List.length_append, List.length_singleton,
        Nat.add_sub_cancel]
      have grows := Nat.mul_le_mul_right 10 before
      rw [← Nat.pow_succ, Nat.succ_eq_add_one, Nat.sub_add_cancel someDigit] at grows
      omega

theorem length_decimal_le {number count : Nat} (fits : number < 10 ^ count) (someDigit : 0 < count) :
    (decimal number).length ≤ count := by
  by_cases zero : number = 0
  · rw [zero, decimal_of_lt (by omega)]
    exact someDigit
  · have least := pow_length_decimal_le (Nat.pos_of_ne_zero zero)
    have less := (Nat.pow_lt_pow_iff_right (a := 10) (by omega)).mp (Nat.lt_of_le_of_lt least fits)
    omega

/-! ## Padded numbers -/

theorem allDecimal_paddedDecimal (count number : Nat) :
    AllDecimal (paddedDecimal count number) := by
  rw [paddedDecimal, allDecimal_append]
  exact ⟨allDecimal_replicate_zero _, allDecimal_decimal number⟩

theorem spelled_paddedDecimal (count number : Nat) :
    spelled 10 (paddedDecimal count number) = number := by
  rw [paddedDecimal, spelled_append, spelled_replicate_zero, Nat.zero_mul, Nat.zero_add,
    spelled_decimal]

theorem length_paddedDecimal {count number : Nat} (fits : number < 10 ^ count)
    (someDigit : 0 < count) : (paddedDecimal count number).length = count := by
  have short := length_decimal_le fits someDigit
  rw [paddedDecimal, List.length_append, List.length_replicate]
  omega

/-- A row of digits is what is written, padded to its length, for its number. -/
theorem eq_paddedDecimal {letters : List Char} {number : Nat} (nonempty : letters ≠ [])
    (digits : AllDecimal letters) (spells : spelled 10 letters = number) :
    letters = paddedDecimal letters.length number := by
  have fits := spelled_lt digits
  rw [spells] at fits
  apply eq_of_spelled_eq digits (allDecimal_paddedDecimal _ _)
  · rw [length_paddedDecimal fits (List.length_pos_iff.mpr nonempty)]
  · rw [spells, spelled_paddedDecimal]

/-- A byte is written with two hexadecimal digits and zeros in front of them. -/
theorem paddedHexadecimal_of_lt (zeros : Nat) {number : Nat} (small : number < 256) :
    paddedHexadecimal (zeros + 2) number =
      List.replicate zeros '0' ++ [character (number / 16), character (number % 16)] := by
  rw [paddedHexadecimal, hexadecimal, inBase]
  by_cases oneDigit : number < 16
  · rw [dif_pos oneDigit, Nat.div_eq_of_lt oneDigit, Nat.mod_eq_of_lt oneDigit]
    change List.replicate (zeros + 1) '0' ++ [character number] = _
    rw [List.replicate_succ', List.append_assoc]
    rfl
  · rw [dif_neg oneDigit, inBase, dif_pos (Nat.div_lt_of_lt_mul small)]
    rfl

/-! ## Signed numbers -/

theorem signed_injective {left right : Int} (same : signed left = signed right) :
    left = right := by
  have noMinus : ∀ number, (decimal number).head? ≠ some '-' := by
    intro number isMinus
    exact (allDecimal_decimal number).notMem rfl (List.mem_of_mem_head? isMinus)
  cases left with
  | ofNat left =>
    cases right with
    | ofNat right => rw [decimal_injective same]
    | negSucc right => exact absurd (congrArg List.head? same) (noMinus left)
  | negSucc left =>
    cases right with
    | ofNat right => exact absurd (congrArg List.head? same).symm (noMinus right)
    | negSucc right =>
      have magnitudes := decimal_injective (List.cons.inj same).2
      rw [Nat.succ.inj magnitudes]

theorem signed_eq (number : Int) :
    signed number =
      if number < 0 then '-' :: decimal number.natAbs else decimal number.natAbs := by
  cases number with
  | ofNat magnitude =>
    rw [if_neg (by simp)]
    rfl
  | negSucc magnitude =>
    rw [if_pos (Int.negSucc_lt_zero magnitude)]
    rfl

theorem signed_zero : signed 0 = ['0'] :=
  decimal_of_lt (show 0 < 10 by omega)

theorem signed_of_nonneg (number : Nat) : signed (number : Int) = decimal number := rfl

theorem signed_neg {number : Nat} (positive : 0 < number) :
    signed (-(number : Int)) = '-' :: decimal number := by
  rw [signed_eq, if_pos (by omega), Int.natAbs_neg, Int.natAbs_natCast]

/-- Whole numbers as they are usually written: a zero, or a row of digits of
which the first is no zero, with or without a minus sign in front. -/
def IsCanonical (letters : List Char) : Prop :=
  letters = ['0'] ∨ ∃ digits, (letters = digits ∨ letters = '-' :: digits) ∧ digits ≠ [] ∧
    AllDecimal digits ∧ digits.head? ≠ some '0'

/-- The usual texts of whole numbers are those in which numbers are written. -/
theorem isCanonical_iff {letters : List Char} :
    IsCanonical letters ↔ ∃ number : Int, letters = signed number := by
  constructor
  · rintro (rfl | ⟨digits, sign, nonempty, allDigits, noZero⟩)
    · exact ⟨0, signed_zero.symm⟩
    · rcases decimal_spelled nonempty allDigits noZero with ⟨written, positive⟩
      rcases sign with rfl | rfl
      · exact ⟨(spelled 10 letters : Int), by rw [signed_of_nonneg, written]⟩
      · exact ⟨-(spelled 10 digits : Int), by rw [signed_neg positive, written]⟩
  · rintro ⟨number, rfl⟩
    rcases Int.eq_nat_or_neg number with ⟨size, rfl | rfl⟩
    all_goals rcases Nat.eq_zero_or_pos size with rfl | positive
    · exact .inl signed_zero
    · exact .inr ⟨decimal size, .inl rfl, decimal_ne_nil size, allDecimal_decimal size,
        head?_decimal positive⟩
    · exact .inl signed_zero
    · exact .inr ⟨decimal size, .inr (signed_neg positive), decimal_ne_nil size,
        allDecimal_decimal size, head?_decimal positive⟩

end Digits

end LogPipeline
