import LogPipeline.Proofs.Text.Quoting
import LogPipeline.Value.Json

namespace LogPipeline

namespace Printing

/-!
# Texts without control characters

Digits, numbers, quoted texts and JSON hold no character below the blank.  In
particular they hold neither a line break nor a tab, whatever the texts inside
them hold.
-/

/-- No letter is a control character below the blank. -/
def AllPrint (letters : List Char) : Prop :=
  ∀ letter ∈ letters, 32 ≤ letter.toNat

instance (letters : List Char) : Decidable (AllPrint letters) :=
  List.decidableBAll (fun letter : Char => 32 ≤ letter.toNat) letters

@[simp] theorem allPrint_nil : AllPrint [] := by
  intro letter member
  cases member

@[simp] theorem allPrint_cons {first : Char} {rest : List Char} :
    AllPrint (first :: rest) ↔ 32 ≤ first.toNat ∧ AllPrint rest :=
  List.forall_mem_cons

@[simp] theorem allPrint_append {left right : List Char} :
    AllPrint (left ++ right) ↔ AllPrint left ∧ AllPrint right :=
  List.forall_mem_append

theorem allPrint_replicate {count : Nat} {letter : Char} (prints : 32 ≤ letter.toNat) :
    AllPrint (List.replicate count letter) := by
  intro other member
  rw [List.eq_of_mem_replicate member]
  exact prints

theorem allPrint_of_subset {part whole : List Char} (inside : part ⊆ whole)
    (prints : AllPrint whole) : AllPrint part := by
  intro letter member
  exact prints letter (inside member)

theorem lineBreak_notMem {letters : List Char} (prints : AllPrint letters) : '\n' ∉ letters := by
  intro member
  exact absurd (prints '\n' member) (by decide)

theorem tab_notMem {letters : List Char} (prints : AllPrint letters) : '\t' ∉ letters := by
  intro member
  exact absurd (prints '\t' member) (by decide)

/-! ## Numbers -/

theorem toNat_character {digit : Nat} (small : digit < 16) :
    48 ≤ (Digits.character digit).toNat := by
  have all : ∀ digit : Fin 16, 48 ≤ (Digits.character digit).toNat := by decide
  exact all ⟨digit, small⟩

theorem allPrint_inBase {base : Nat} (atLeastTwo : 2 ≤ base) (atMostSixteen : base ≤ 16)
    (number : Nat) : AllPrint (Digits.inBase base atLeastTwo number) := by
  induction number using Nat.strongRecOn with
  | ind number inductionHypothesis =>
    have digitPrints : ∀ digit, digit < base → 32 ≤ (Digits.character digit).toNat := by
      intro digit below
      have enough := @toNat_character digit (by omega)
      omega
    rw [Digits.inBase]
    by_cases below : number < base
    · rw [dif_pos below, allPrint_cons]
      exact ⟨digitPrints number below, allPrint_nil⟩
    · rw [dif_neg below, allPrint_append, allPrint_cons]
      refine ⟨?_, digitPrints _ (Nat.mod_lt number (by omega)), allPrint_nil⟩
      exact inductionHypothesis _ (Nat.div_lt_self (by omega) (by omega))

@[simp] theorem allPrint_decimal (number : Nat) : AllPrint (Digits.decimal number) :=
  allPrint_inBase _ (by omega) number

@[simp] theorem allPrint_paddedDecimal (count number : Nat) :
    AllPrint (Digits.paddedDecimal count number) := by
  rw [Digits.paddedDecimal, allPrint_append]
  exact ⟨allPrint_replicate (by decide), allPrint_decimal number⟩

@[simp] theorem allPrint_paddedHexadecimal (count number : Nat) :
    AllPrint (Digits.paddedHexadecimal count number) := by
  rw [Digits.paddedHexadecimal, allPrint_append]
  exact ⟨allPrint_replicate (by decide), allPrint_inBase _ (by omega) number⟩

@[simp] theorem allPrint_signed (number : Int) : AllPrint (Digits.signed number) := by
  cases number with
  | ofNat magnitude => exact allPrint_decimal magnitude
  | negSucc magnitude =>
    rw [Digits.signed, allPrint_cons]
    exact ⟨by decide, allPrint_decimal _⟩

theorem allPrint_withoutTrailingZeros {digits : List Char} (prints : AllPrint digits) :
    AllPrint (FixedPoint.withoutTrailingZeros digits) := by
  apply allPrint_of_subset _ prints
  intro letter member
  rw [FixedPoint.withoutTrailingZeros, List.mem_reverse] at member
  exact List.mem_reverse.mp ((List.dropWhile_sublist _).subset member)

theorem allPrint_fixedPoint (number : Binary64) : AllPrint (FixedPoint.text number).toList := by
  have unsignedPrints : ∀ count, AllPrint (FixedPoint.unsigned count) := by
    intro count
    have places := @allPrint_withoutTrailingZeros _
      (allPrint_paddedDecimal FixedPoint.places (count % FixedPoint.unit))
    rw [FixedPoint.unsigned]
    split
    · exact allPrint_decimal _
    · rw [allPrint_append, allPrint_cons]
      exact ⟨allPrint_decimal _, by decide, places⟩
  rw [FixedPoint.text]
  split
  · decide
  · split
    · rw [String.toList_ofList, FixedPoint.finite]
      split
      · rw [allPrint_cons]
        exact ⟨by decide, unsignedPrints _⟩
      · exact unsignedPrints _
    · split <;> decide

theorem allPrint_positional (decimal : Decimal) :
    AllPrint (Shortest.positional decimal) := by
  have digits := allPrint_decimal decimal.digits
  rw [Shortest.positional]
  split
  · rw [allPrint_append]
    exact ⟨digits, allPrint_replicate (by decide)⟩
  · split
    · rw [allPrint_append, allPrint_cons]
      exact ⟨allPrint_of_subset (List.take_subset _ _) digits, by decide,
        allPrint_of_subset (List.drop_subset _ _) digits⟩
    · rw [allPrint_cons, allPrint_cons, allPrint_append]
      exact ⟨by decide, by decide, allPrint_replicate (by decide), digits⟩

theorem allPrint_scientific (decimal : Decimal) :
    AllPrint (Shortest.scientific decimal) := by
  have digits := allPrint_decimal decimal.digits
  rw [Shortest.scientific]
  rw [allPrint_append, allPrint_append, allPrint_cons]
  refine ⟨⟨allPrint_of_subset (List.take_subset _ _) digits, ?_⟩, by decide, ?_⟩
  · split
    · exact allPrint_nil
    · rw [allPrint_cons]
      exact ⟨by decide, allPrint_of_subset (List.drop_subset _ _) digits⟩
  · split
    · exact allPrint_signed _
    · rw [allPrint_cons]
      exact ⟨by decide, allPrint_signed _⟩

theorem allPrint_compact (number : Binary64) : AllPrint (Shortest.compact number) := by
  have magnitude : ∀ letters, AllPrint letters → AllPrint (Shortest.withSign number letters) := by
    intro letters prints
    rw [Shortest.withSign]
    split
    · rw [allPrint_cons]
      exact ⟨by decide, prints⟩
    · exact prints
  rw [Shortest.compact]
  apply magnitude
  split
  · decide
  · dsimp only
    split
    · split
      · exact allPrint_positional _
      · rw [allPrint_append]
        exact ⟨allPrint_positional _, by decide⟩
    · exact allPrint_scientific _

/-! ## Escaped texts -/

theorem allPrint_flatMap {escaped : Char → List Char} (each : ∀ letter, AllPrint (escaped letter))
    (letters : List Char) : AllPrint (letters.flatMap escaped) := by
  intro letter member
  rcases List.mem_flatMap.mp member with ⟨source, -, inside⟩
  exact each source letter inside

theorem allPrint_quote (content : String) : AllPrint (Quoted.quote content).toList := by
  have insidePrints : AllPrint (Quoted.inside content) := by
    intro letter member
    have noControl := Quoted.noControl_of_mem_inside member
    rw [Quoted.isControl, Bool.or_eq_false_iff, decide_eq_false_iff_not] at noControl
    exact Nat.le_of_not_lt noControl.1
  rw [Quoted.quote, String.toList_ofList, allPrint_cons, allPrint_append]
  exact ⟨by decide, insidePrints, by decide⟩

theorem allPrint_jsonCharacter (letter : Char) : AllPrint (Json.character letter) := by
  have otherwise : AllPrint (if letter.toNat < 32
      then '\\' :: 'u' :: Digits.paddedHexadecimal 4 letter.toNat else [letter]) := by
    by_cases control : letter.toNat < 32
    · rw [if_pos control, allPrint_cons, allPrint_cons]
      exact ⟨by decide, by decide, allPrint_paddedHexadecimal _ _⟩
    · rw [if_neg control, allPrint_cons]
      exact ⟨Nat.le_of_not_lt control, allPrint_nil⟩
  unfold Json.character
  split <;> first
    | decide
    | exact otherwise

theorem allPrint_jsonString (content : String) : AllPrint (Json.string content) := by
  rw [Json.string, allPrint_cons, allPrint_append]
  exact ⟨by decide, allPrint_flatMap allPrint_jsonCharacter _, by decide⟩

theorem allPrint_jsonReal (number : Binary64) : AllPrint (Json.real number) := by
  rw [Json.real]
  split
  · exact allPrint_signed _
  · split
    · exact allPrint_compact number
    · exact allPrint_jsonString _

mutual

theorem allPrint_json (value : Value) : AllPrint (Json.letters value) := by
  cases value with
  | text content =>
    rw [Json.letters]
    exact allPrint_jsonString content
  | integer number =>
    rw [Json.letters]
    exact allPrint_signed _
  | real number =>
    rw [Json.letters]
    exact allPrint_jsonReal number
  | truth flag => cases flag <;> decide
  | list items =>
    rw [Json.letters, allPrint_cons, allPrint_append]
    exact ⟨by decide, allPrint_jsonItems items, by decide⟩
  | map entries =>
    rw [Json.letters, allPrint_cons, allPrint_append]
    exact ⟨by decide, allPrint_jsonEntries entries, by decide⟩

theorem allPrint_jsonItems (items : List Value) : AllPrint (Json.itemLetters items) := by
  match items with
  | [] =>
    rw [Json.itemLetters]
    exact allPrint_nil
  | [item] =>
    rw [Json.itemLetters]
    exact allPrint_json item
  | item :: next :: rest =>
    rw [Json.itemLetters, allPrint_append, allPrint_cons]
    exact ⟨allPrint_json item, by decide, allPrint_jsonItems (next :: rest)⟩

theorem allPrint_jsonEntries (entries : List (String × Value)) :
    AllPrint (Json.entryLetters entries) := by
  match entries with
  | [] =>
    rw [Json.entryLetters]
    exact allPrint_nil
  | [(key, value)] =>
    rw [Json.entryLetters, allPrint_append, allPrint_cons]
    exact ⟨allPrint_jsonString key, by decide, allPrint_json value⟩
  | (key, value) :: next :: rest =>
    rw [Json.entryLetters, allPrint_append, allPrint_cons, allPrint_append, allPrint_cons]
    exact ⟨allPrint_jsonString key, by decide, allPrint_json value, by decide,
      allPrint_jsonEntries (next :: rest)⟩

end

end Printing

end LogPipeline
