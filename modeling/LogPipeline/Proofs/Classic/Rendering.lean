import LogPipeline.Classic.Block
import LogPipeline.Proofs.Text.Printing

namespace LogPipeline

namespace Classic

open Printing

/-!
# The characters of rendered values

Where no rule is expected, the only control characters of a rendered value are
those of a text that is written as it is, and a line break is not among them.
So a rendered value never breaks its line, and taking away a break at its end
changes nothing.
-/

theorem renderText_of_oneLine {content : String} (notEmpty : content ≠ "")
    (oneLine : '\n' ∉ content.toList) : renderText content = content := by
  rw [renderText, Quoted.hasLineBreak, List.contains_eq_mem, decide_eq_false oneLine,
    if_neg Bool.false_ne_true, if_neg]
  rw [String.isEmpty_iff]
  exact notEmpty

theorem renderText_ne_empty (content : String) : renderText content ≠ "" := by
  rw [renderText]
  split
  · rw [Quoted.quote, ne_eq, String.ofList_eq_empty_iff]
    exact List.cons_ne_nil _ _
  · split
    · decide
    · rename_i notEmpty
      rwa [String.isEmpty_iff] at notEmpty

/-- A text is rendered as it is, or without control characters. -/
theorem renderText_cases (content : String) :
    (content ≠ "" ∧ '\n' ∉ content.toList ∧ renderText content = content) ∨
      ('\n' ∈ content.toList ∨ content = "") ∧ AllPrint (renderText content).toList := by
  by_cases broken : '\n' ∈ content.toList
  · right
    rw [renderText, Quoted.hasLineBreak, List.contains_eq_mem, decide_eq_true broken, if_pos rfl]
    exact ⟨.inl broken, allPrint_quote content⟩
  · by_cases empty : content = ""
    · right
      rw [empty]
      exact ⟨.inr rfl, by decide⟩
    · exact .inl ⟨empty, broken, renderText_of_oneLine empty broken⟩

theorem allPrint_renderText {content : String} (prints : AllPrint content.toList) :
    AllPrint (renderText content).toList := by
  rcases renderText_cases content with ⟨-, -, same⟩ | ⟨-, rendered⟩
  · rw [same]
    exact prints
  · exact rendered

/-- A map that gives no rule line is rendered as JSON. -/
theorem render_map {rulesExpected : Bool} {entries : List (String × Value)}
    (noRule : ruleLine? rulesExpected (.map entries) = none) :
    render rulesExpected (.map entries) = Json.text (.map entries) := by
  cases rulesExpected with
  | false => rfl
  | true =>
    change renderRule? entries = none at noRule
    simp only [render, noRule]

/-- Only texts are rendered with control characters. -/
theorem allPrint_render {rulesExpected : Bool} {value : Value}
    (noText : value.asText? = none) (noRule : ruleLine? rulesExpected value = none) :
    AllPrint (render rulesExpected value).toList := by
  cases value with
  | text content => cases noText
  | integer number =>
    apply allPrint_renderText
    rw [renderInteger, String.toList_ofList]
    exact allPrint_signed _
  | real number => exact allPrint_fixedPoint number
  | truth flag =>
    apply allPrint_renderText
    cases flag <;> decide
  | list items =>
    rw [render, Json.text, String.toList_ofList]
    exact allPrint_json _
  | map entries =>
    rw [render_map noRule, Json.text, String.toList_ofList]
    exact allPrint_json _

/-- Only texts have control characters as fields of a rule. -/
theorem allPrint_plainText {value : Value} (noText : value.asText? = none) :
    AllPrint (plainText value).toList := by
  cases value with
  | text content => cases noText
  | integer number =>
    rw [plainText, renderInteger, String.toList_ofList]
    exact allPrint_signed _
  | real number => exact allPrint_fixedPoint number
  | truth flag => cases flag <;> decide
  | list items =>
    rw [plainText, Json.text, String.toList_ofList]
    exact allPrint_json _
  | map entries =>
    rw [plainText, Json.text, String.toList_ofList]
    exact allPrint_json _

/-- A rendered value never breaks its line. -/
theorem lineBreak_notMem_render {rulesExpected : Bool} {value : Value}
    (noRule : ruleLine? rulesExpected value = none) :
    '\n' ∉ (render rulesExpected value).toList := by
  cases value with
  | text content =>
    rcases renderText_cases content with ⟨-, oneLine, same⟩ | ⟨-, prints⟩
    · rw [render, same]
      exact oneLine
    · exact lineBreak_notMem prints
  | _ => exact lineBreak_notMem (allPrint_render rfl noRule)

/-- What only letters with a tab have, a rendered value has only as a text that
is written as it is. -/
theorem tabbed_render_iff {holds : List Char → Prop}
    (tabbed : ∀ letters, holds letters → '\t' ∈ letters) {rulesExpected : Bool} {value : Value}
    (noRule : ruleLine? rulesExpected value = none) :
    holds (render rulesExpected value).toList ↔
      ∃ content, value = .text content ∧ '\n' ∉ content.toList ∧ holds content.toList := by
  cases value with
  | text content =>
    rcases renderText_cases content with ⟨-, oneLine, same⟩ | ⟨quoted, prints⟩
    · rw [render, same]
      constructor
      · intro held
        exact ⟨content, rfl, oneLine, held⟩
      · rintro ⟨_, ⟨⟩, -, held⟩
        exact held
    · constructor
      · intro held
        exact absurd (tabbed _ held) (tab_notMem prints)
      · rintro ⟨_, ⟨⟩, oneLine, held⟩
        rcases quoted with broken | rfl
        · exact absurd broken oneLine
        · cases tabbed _ held
  | _ =>
    constructor
    · intro held
      exact absurd (tabbed _ held) (tab_notMem (allPrint_render rfl noRule))
    · rintro ⟨_, ⟨⟩, -⟩

theorem withoutFinalBreak_of_oneLine {text : String} (oneLine : '\n' ∉ text.toList) :
    withoutFinalBreak text = text := by
  rw [withoutFinalBreak]
  split
  · rename_i rest reversed
    have member : '\n' ∈ text.toList := by
      rw [← List.mem_reverse, reversed]
      exact List.mem_cons_self
    exact absurd member oneLine
  · rfl

end Classic

end LogPipeline
