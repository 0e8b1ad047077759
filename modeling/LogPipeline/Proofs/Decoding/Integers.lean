import LogPipeline.Proofs.Classic.Rendering
import LogPipeline.Proofs.Decoding.Sections
import LogPipeline.Proofs.Yaml.Integers

namespace LogPipeline

namespace Decoding

open Yaml (Mark Tree Tag Meaning Generic ScalarStyle)
open Digits (signed)

/-!
# Whole numbers from a document to its classic text

A property that is written as a whole number holds the number where it is a
signed one of sixty-four bits, and its digits or the double nearest to it
otherwise.  The double stands for numbers of more than 128 bits, and for any
number whose tag asks for it.  The classic text shows the number itself in all
cases but one: a double that is another number than the one that is written.
-/

/-- What a property holds that is written as a whole number. -/
inductive HoldsInteger (tag : Option Tag) (number : Int) : Value → Prop
  | integer (fits : -0x8000000000000000 ≤ number ∧ number < 0x8000000000000000) :
      HoldsInteger tag number (.integer (Int64.ofInt number))
  | text : HoldsInteger tag number (.text (String.ofList (signed number)))
  | real (finite : (Binary64.ofInt number).isFinite = true)
      (asked : tag = some (Tag.forKind "float") ∨ ¬ Meaning.FitsWide number) :
      HoldsInteger tag number (.real (Binary64.ofInt number))

theorem holdsInteger_of_holds {mark : Mark} {tag : Option Tag} {style : ScalarStyle} {number : Int}
    {held : Value} {generic : Generic}
    (holds : Holds (.scalar mark tag style (String.ofList (signed number))) held)
    (sense : Generic.ofTree? (.scalar mark tag style (String.ofList (signed number))) =
      some generic) : HoldsInteger tag number held := by
  simp only [Generic.ofTree?, Option.bind_eq_bind, Option.bind_eq_some_iff,
    Option.map_eq_some_iff] at sense
  rcases sense with ⟨meaning, found, value, fits, -⟩
  have same := (holds_scalar_iff.mp holds).2
  rw [found, Option.getD_some] at same
  rw [← same]
  cases Meaning.ofInteger_of_ofTagged? found with
  | integer =>
    rw [Generic.ofMeaning?] at fits
    split at fits
    · rename_i within
      rw [meaningValue]
      split
      · rename_i small
        exact .integer ⟨within.1, small⟩
      · exact .text
    · cases fits
  | text => exact .text
  | real finite asked => exact .real finite asked

/-- The text of what is written as a whole number is the number, unless it is a
double that is another number. -/
theorem render_of_holdsInteger {tag : Option Tag} {number : Int} {held : Value}
    (holds : HoldsInteger tag number held) (rulesExpected : Bool) :
    Classic.render rulesExpected held = String.ofList (signed number) ↔
      ∀ double, held = .real double → Json.wholeNumber double = number := by
  have bare : Classic.renderText (String.ofList (signed number)) =
      String.ofList (signed number) := by
    apply Classic.renderText_of_oneLine
    · intro empty
      have isEmpty := Meaning.isEmpty_signed number
      rw [empty] at isEmpty
      cases isEmpty
    · rw [String.toList_ofList]
      intro lineBreak
      rcases Digits.letter_of_mem_signed lineBreak with digit | minus
      · cases digit
      · cases minus
  cases holds with
  | integer fits =>
    have sameNumber : (Int64.ofInt number).toInt = number :=
      Int64.toInt_ofInt_of_le (by omega) (by omega)
    rw [Classic.render, Classic.renderInteger, sameNumber, bare]
    exact iff_of_true rfl (by rintro _ ⟨⟩)
  | text =>
    rw [Classic.render, bare]
    exact iff_of_true rfl (by rintro _ ⟨⟩)
  | real finite asked =>
    rw [Classic.render, FixedPoint.text_of_whole finite (Binary64.whole_ofFraction finite)]
    constructor
    · rintro sameText _ ⟨⟩
      exact Digits.signed_injective (String.ofList_injective sameText)
    · intro sameNumber
      rw [sameNumber _ rfl]

/-- In a text that is read as a document every property that is written as a
whole number, in any style and under any tag, is read and rendered: the text is
the number as it is written exactly if the property does not hold a double that
is another number; and it holds a double only where the tag asks for one or
where 128 bits do not suffice, and then the one nearest to the number. -/
theorem integers_of_ofText {content : String} {document : Document}
    (read : ofText content = .ok document) :
    ∃ tree generic, tree? content = some (some (tree, generic)) ∧
      List.Forall₂ (fun entry property => HoldsProperty entry property ∧
          ∀ mark tag style letters, entry.2.unshared = .scalar mark tag style letters →
            Digits.IsCanonical letters.toList →
              ∃ number : Int, letters = String.ofList (signed number) ∧
                HoldsInteger tag number property.value ∧
                ∀ rulesExpected, (Classic.render rulesExpected property.value = letters ↔
                  ∀ double, property.value = .real double → Json.wholeNumber double = number))
        (propertyEntries tree) (allProperties document) := by
  rcases holdsProperty_of_ofText read with ⟨tree, generic, found, sense, properties⟩
  refine ⟨tree, generic, found, ?_⟩
  have eachSense : ∀ entry ∈ propertyEntries tree,
      ∃ own, Generic.ofTree? entry.2 = some own :=
    fun entry member =>
      Generic.ofTree?_of_isPart (isPart_of_mem_propertyEntries tree entry member) sense
  refine ((List.forall₂_and_left _ _).mpr ⟨eachSense, properties⟩).imp ?_
  rintro entry property ⟨⟨own, ownSense⟩, holdsProperty⟩
  refine ⟨holdsProperty, ?_⟩
  intro mark tag style letters isScalar canonical
  rcases Digits.isCanonical_iff.mp canonical with ⟨number, written⟩
  obtain rfl : letters = String.ofList (signed number) := by
    rw [← written, String.ofList_toList]
  have holds := holds_unshared_iff.mpr holdsProperty.2
  rw [isScalar] at holds
  rw [← Generic.ofTree?_unshared, isScalar] at ownSense
  have holdsInteger := holdsInteger_of_holds holds ownSense
  exact ⟨number, rfl, holdsInteger, render_of_holdsInteger holdsInteger⟩

/-- A service with a small number, one of sixty-four bits without a sign and
`2^130`, which is a double. -/
def someIntegers : String :=
  "service:\n  a: -12\n  b: 18446744073709551615\n" ++
    "  c: 1361129467683753853853498429727072845824\n"

theorem integers_of_ofText_someIntegers :
    ∃ document, ofText someIntegers = .ok document ∧
      (allProperties document).map (fun property => Classic.render false property.value) =
        ["-12", "18446744073709551615", "1361129467683753853853498429727072845824"] ∧
      ∃ tree generic, tree? someIntegers = some (some (tree, generic)) ∧
        List.Forall₂ (fun entry property => HoldsProperty entry property ∧
            ∀ mark tag style letters, entry.2.unshared = .scalar mark tag style letters →
              Digits.IsCanonical letters.toList →
                ∃ number : Int, letters = String.ofList (signed number) ∧
                  HoldsInteger tag number property.value ∧
                  ∀ rulesExpected, (Classic.render rulesExpected property.value = letters ↔
                    ∀ double, property.value = .real double → Json.wholeNumber double = number))
          (propertyEntries tree) (allProperties document) := by
  have texts : (ofText someIntegers).toOption.map (fun document =>
      (allProperties document).map fun property => Classic.render false property.value) =
        some ["-12", "18446744073709551615", "1361129467683753853853498429727072845824"] := by
    decide +kernel
  rcases exists_ok_of_toOption_map texts with ⟨document, read, texts⟩
  exact ⟨document, read, texts, integers_of_ofText read⟩

/-- A service with `10^39`, which is no double and does not fit 128 bits. -/
def longInteger : String :=
  "service:\n  n: 1000000000000000000000000000000000000000\n"

/-- The classic text shows another number than the one that is written. -/
theorem integers_of_ofText_longInteger :
    ∃ document tree generic, ofText longInteger = .ok document ∧
      tree? longInteger = some (some (tree, generic)) ∧
      (propertyEntries tree).map (·.2.letters?) =
        [some "1000000000000000000000000000000000000000"] ∧
      Digits.IsCanonical "1000000000000000000000000000000000000000".toList ∧
      (allProperties document).map (fun property => Classic.render false property.value) =
        ["999999999999999939709166371603178586112"] := by
  have nodes : (tree? longInteger).join.map
      (fun parsed => (propertyEntries parsed.1).map (·.2.letters?)) =
        some [some "1000000000000000000000000000000000000000"] := by
    decide +kernel
  have texts : (ofText longInteger).toOption.map (fun document =>
      (allProperties document).map fun property => Classic.render false property.value) =
        some ["999999999999999939709166371603178586112"] := by
    decide +kernel
  rcases Option.map_eq_some_iff.mp nodes with ⟨⟨tree, generic⟩, found, nodes⟩
  rcases exists_ok_of_toOption_map texts with ⟨document, read, texts⟩
  refine ⟨document, tree, generic, read, Option.join_eq_some_iff.mp found, nodes, ?_, texts⟩
  exact .inr ⟨_, .inl rfl, by decide, List.all_eq_true.mp (by decide), by decide⟩

end Decoding

end LogPipeline
