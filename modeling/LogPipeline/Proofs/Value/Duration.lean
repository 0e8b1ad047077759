import LogPipeline.Proofs.Number.Digits
import LogPipeline.Proofs.Text.Spans
import LogPipeline.Value.Duration

namespace LogPipeline

namespace Duration

/-!
# Duration texts are exact

The unit of a duration is chosen by its nanoseconds alone, and it is the largest
of the four that divides the whole of it.  The number that is written counts that
unit.  It is a product and a sum of words of 128 bits, which have room for both
whatever the seconds are, as long as these have 64 bits.  So the text denotes the
duration and no other duration has it.
-/

namespace Span

def perSecond : Span → Nat
  | .second => 1
  | .millisecond => 1000
  | .microsecond => 1000000
  | .nanosecond => 1000000000

theorem size_mul_perSecond (unit : Span) : unit.perSecond * unit.size = 1000000000 := by
  cases unit <;> rfl

theorem size_pos (unit : Span) : 0 < unit.size := by
  cases unit <;> decide

/-- The letters of a unit are looked up again, and none of them is a digit. -/
theorem find?_letters (unit : Span) :
    [Span.second, .millisecond, .microsecond, .nanosecond].find? (·.letters = unit.letters) =
      some unit := by
  cases unit <;> decide

theorem isDecimal_head?_letters (unit : Span) :
    ∀ letter ∈ unit.letters.head?, Digits.isDecimal letter = false := by
  cases unit <;> simp [letters, Digits.isDecimal]

end Span

variable (duration : Duration)

/-- How many of a unit a duration has, the rest of it left out. -/
def count (unit : Span) : Nat :=
  duration.seconds * unit.perSecond + duration.nanoseconds / unit.size

/-- The same number, multiplied and added in words of 128 bits. -/
def wordCount (unit : Span) : BitVec 128 :=
  BitVec.ofNat 128 duration.seconds * BitVec.ofNat 128 unit.perSecond +
    BitVec.ofNat 128 (duration.nanoseconds / unit.size)

theorem total_div_size (unit : Span) : duration.total / unit.size = duration.count unit := by
  rw [total, count, ← unit.size_mul_perSecond, ← Nat.mul_assoc,
    Nat.add_comm (duration.seconds * unit.perSecond * unit.size),
    Nat.add_mul_div_right _ _ unit.size_pos, Nat.add_comm]

/-- A unit divides a duration if it divides the part below a second. -/
theorem size_dvd_total_iff (unit : Span) :
    unit.size ∣ duration.total ↔ unit.size ∣ duration.nanoseconds := by
  have whole : unit.size ∣ duration.seconds * 1000000000 := by
    rw [← unit.size_mul_perSecond, ← Nat.mul_assoc]
    exact Nat.dvd_mul_left _ _
  exact Nat.dvd_add_iff_right whole |>.symm

/-- The chosen unit divides the part below a second, and no larger one does. -/
theorem span_largest (unit : Span) :
    unit.size ∣ duration.nanoseconds ↔ unit.size ∣ duration.span.size := by
  have below := duration.nanoseconds_lt
  unfold span
  split
  case isTrue zero =>
    rw [zero]
    cases unit <;> decide
  split
  case isTrue =>
    cases unit <;> simp only [Span.size] <;> omega
  split
  case isTrue =>
    cases unit <;> simp only [Span.size] <;> omega
  case isFalse =>
    cases unit <;> simp only [Span.size] <;> omega

theorem count_mul_size : duration.count duration.span * duration.span.size = duration.total := by
  rw [← total_div_size]
  apply Nat.div_mul_cancel
  apply (duration.size_dvd_total_iff _).mpr
  exact (duration.span_largest _).mpr (Nat.dvd_refl _)

/-! ## Room for the numbers -/

section Room

variable {duration} (fits : duration.seconds < 2 ^ 64)
include fits

theorem count_lt (unit : Span) : duration.count unit < 2 ^ 128 := by
  have below := duration.nanoseconds_lt
  have part : duration.nanoseconds / unit.size ≤ duration.nanoseconds := Nat.div_le_self _ _
  have whole : duration.seconds * unit.perSecond ≤ duration.seconds * 1000000000 := by
    apply Nat.mul_le_mul_left
    cases unit <;> decide
  rw [count]
  omega

/-- Neither the product nor the sum leaves the words. -/
theorem toNat_wordCount (unit : Span) : (duration.wordCount unit).toNat = duration.count unit := by
  have room := count_lt fits unit
  have product : duration.seconds * unit.perSecond < 2 ^ 128 :=
    Nat.lt_of_le_of_lt (Nat.le_add_right _ _) room
  have part : duration.nanoseconds / unit.size < 2 ^ 128 :=
    Nat.lt_of_le_of_lt (Nat.le_add_left _ _) room
  rw [wordCount, BitVec.toNat_add, ← BitVec.ofNat_mul, BitVec.toNat_ofNat, BitVec.toNat_ofNat,
    Nat.mod_eq_of_lt product, Nat.mod_eq_of_lt part]
  exact Nat.mod_eq_of_lt room

end Room

/-! ## Reading the text back -/

theorem letters_eq :
    duration.letters =
      Digits.decimal (duration.count duration.span) ++ duration.span.letters := by
  rw [letters, total_div_size]

/-- A number in digits and the letters of a unit are read as their product. -/
theorem read?_decimal_append (number : Nat) (unit : Span) :
    read? (Digits.decimal number ++ unit.letters) = some (number * unit.size) := by
  have span : (Digits.decimal number ++ unit.letters).takeWhile Digits.isDecimal =
      Digits.decimal number := by
    rw [takeWhile_append_iff]
    exact ⟨Digits.allDecimal_decimal number, unit.isDecimal_head?_letters⟩
  have value : Digits.read? 10 (Digits.decimal number) = some number := by
    rw [Digits.read?_eq_spelled (Digits.decimal_ne_nil _) (Digits.allDecimal_decimal _),
      Digits.spelled_decimal]
  simp only [read?, span, dropWhile_of_takeWhile span, value, unit.find?_letters]

theorem read?_letters : read? duration.letters = some duration.total := by
  rw [letters_eq, read?_decimal_append, count_mul_size]

/-- A duration is made again from its nanoseconds. -/
theorem ofParts_total : ofParts 0 duration.total = duration := by
  have below := duration.nanoseconds_lt
  rw [ofParts, Duration.mk.injEq, total]
  omega

theorem text_injective {other : Duration} (same : other.text = duration.text) :
    other = duration := by
  have sameLetters : other.letters = duration.letters := String.ofList_injective same
  have sameTotal : some other.total = some duration.total := by
    rw [← read?_letters, ← read?_letters, sameLetters]
  rw [← ofParts_total other, Option.some.inj sameTotal, ofParts_total]

/-- The text of a duration is exact.  For seconds of 64 bits it is a number in digits
and one of the four units.  The number times the unit is the duration, and of the units
that divide the duration it is the largest.  In whatever unit the duration is counted,
128 bits have room for the product and the sum.  The text is read back as the duration,
and no other duration has it. -/
theorem text_exact (duration : Duration) (fits : duration.seconds < 2 ^ 64) :
    let unit := duration.span
    let number := (duration.wordCount unit).toNat
    duration.text.toList = Digits.decimal number ++ unit.letters ∧
      number * unit.size = duration.total ∧
      (∀ other : Span, other.size ∣ duration.total → other.size ≤ unit.size) ∧
      (∀ other : Span, (duration.wordCount other).toNat = duration.total / other.size ∧
        duration.count other < 2 ^ 128) ∧
      (read? duration.text.toList).map (ofParts 0) = some duration ∧
      ∀ other : Duration, other.text = duration.text → other = duration := by
  have spelled : duration.text.toList = duration.letters := String.toList_ofList
  refine ⟨?_, ?_, ?_, ?_, ?_, fun other => duration.text_injective⟩
  · rw [spelled, letters_eq, toNat_wordCount fits]
  · rw [toNat_wordCount fits, count_mul_size]
  · intro other divides
    rw [size_dvd_total_iff, span_largest] at divides
    exact Nat.le_of_dvd duration.span.size_pos divides
  · intro other
    rw [toNat_wordCount fits, total_div_size]
    exact ⟨rfl, count_lt fits other⟩
  · rw [spelled, read?_letters, Option.map_some, ofParts_total]

def longest : Duration :=
  ofParts (2 ^ 64 - 1) 999999999

theorem text_exact_longest :
    longest.seconds < 2 ^ 64 ∧ longest.span = .nanosecond ∧
      longest.text.toList = "18446744073709551615999999999ns".toList ∧
      (longest.wordCount .nanosecond).toNat * Span.nanosecond.size = longest.total ∧
      (read? longest.text.toList).map (ofParts 0) = some longest := by
  have fits : longest.seconds < 2 ^ 64 := by decide
  have unit : longest.span = .nanosecond := by decide
  obtain ⟨-, product, -, -, again, -⟩ := text_exact longest fits
  rw [unit] at product
  exact ⟨fits, unit, by decide +kernel, product, again⟩

end Duration

end LogPipeline
