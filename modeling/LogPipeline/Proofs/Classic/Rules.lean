import Mathlib.Data.List.Infix
import LogPipeline.Classic.Rendering
import LogPipeline.Proofs.Value.Entries

namespace LogPipeline

namespace Classic

/-!
# The fields of a rule line

A rule line puts its fields between quotes as they are, with a quote, a tab and a
quote from the inside of one to the inside of the next.  A field may hold these
three characters too, or make them up together with a quote of its own, and then
the line can be cut at another place.  Where no field does, the line shows its
fields; a regular expression of a single tab makes them up with both its quotes,
but nothing would be left of it if the line were cut there.
-/

/-- What stands between the insides of two fields. -/
def fieldBreak : List Char := ['"', '\t', '"']

def fieldLetters (state regex next : List Char) : List Char :=
  state ++ (fieldBreak ++ (regex ++ (fieldBreak ++ next)))

/-- Three fields that make up no other break between fields, each with the quotes
of its own that another field stands behind. -/
structure ReadBack (state regex next : List Char) : Prop where
  state : ¬ fieldBreak <:+: state ++ ['"']
  regex : regex = ['\t'] ∨ ¬ fieldBreak <:+: '"' :: (regex ++ ['"'])
  next : ¬ fieldBreak <:+: '"' :: next

/-! ## Cutting at a break -/

/-- Letters that are cut at two breaks are cut at the same one, or the later
break lies behind the earlier one, up to a quote that both may share. -/
theorem cut_cases {front back otherFront otherBack : List Char}
    (same : front ++ (fieldBreak ++ back) = otherFront ++ (fieldBreak ++ otherBack)) :
    (front = otherFront ∧ back = otherBack) ∨
      (∃ between, front ++ ['"'] = otherFront ++ (fieldBreak ++ between)) ∨
      ∃ between, '"' :: back = between ++ (fieldBreak ++ otherBack) ∧
        otherFront = front ++ '"' :: '\t' :: between := by
  rcases List.append_eq_append_iff.mp same with ⟨more, rfl, rest⟩ | ⟨more, rfl, rest⟩
  · match more with
    | [] => exact .inl ⟨(List.append_nil front).symm, List.append_cancel_left rest⟩
    | [letter] => simp [fieldBreak] at rest
    | first :: second :: between =>
      simp only [fieldBreak, List.cons_append, List.nil_append, List.cons.injEq] at rest
      rcases rest with ⟨rfl, rfl, rest⟩
      exact .inr (.inr ⟨between, rest, rfl⟩)
  · match more with
    | [] => exact .inl ⟨List.append_nil otherFront, (List.append_cancel_left rest).symm⟩
    | [letter] => simp [fieldBreak] at rest
    | [first, second] =>
      simp only [fieldBreak, List.cons_append, List.nil_append, List.cons.injEq] at rest
      rcases rest with ⟨rfl, rfl, -⟩
      exact .inr (.inl ⟨[], by simp [fieldBreak]⟩)
    | first :: second :: third :: between =>
      simp only [fieldBreak, List.cons_append, List.nil_append, List.cons.injEq] at rest
      rcases rest with ⟨rfl, rfl, rfl, -⟩
      exact .inr (.inl ⟨between ++ ['"'], by simp [fieldBreak]⟩)

/-- A regular expression may be cut only so that nothing of it is left. -/
theorem cut_regex {state regex next before after : List Char}
    (readBack : ReadBack state regex next)
    (cut : '"' :: (regex ++ ['"']) = before ++ (fieldBreak ++ after)) :
    before = [] ∧ after = [] := by
  rcases readBack.regex with rfl | whole
  · have lengths := congrArg List.length cut
    simp only [fieldBreak, List.length_cons, List.length_append, List.length_nil] at lengths
    exact ⟨List.length_eq_zero_iff.mp (by omega), List.length_eq_zero_iff.mp (by omega)⟩
  · refine absurd ⟨before, after, ?_⟩ whole
    rw [cut, List.append_assoc]

/-- Fields that make up no other break are those of every line with their letters. -/
theorem eq_of_fieldLetters {state regex next otherState otherRegex otherNext : List Char}
    (readBack : ReadBack state regex next)
    (same : fieldLetters state regex next = fieldLetters otherState otherRegex otherNext) :
    otherState = state ∧ otherRegex = regex ∧ otherNext = next := by
  have sameRight : (state ++ (fieldBreak ++ regex)) ++ (fieldBreak ++ next) =
      (otherState ++ (fieldBreak ++ otherRegex)) ++ (fieldBreak ++ otherNext) := by
    simpa only [fieldLetters, List.append_assoc] using same
  rcases cut_cases same with ⟨rfl, later⟩ | ⟨between, inState⟩ | ⟨between, inRest, rfl⟩
  · rcases cut_cases sameRight with ⟨front, rfl⟩ | ⟨last, inFront⟩ | ⟨last, inNext, -⟩
    · have sameRegex := List.append_cancel_left (List.append_cancel_left front)
      exact ⟨rfl, sameRegex.symm, rfl⟩
    · have cut : '"' :: (regex ++ ['"']) = ('"' :: otherRegex) ++ (fieldBreak ++ last) := by
        simpa [fieldBreak] using inFront
      cases (cut_regex readBack cut).1
    · refine absurd ⟨last, otherNext, ?_⟩ readBack.next
      rw [inNext, List.append_assoc]
  · refine absurd ⟨otherState, between, ?_⟩ readBack.state
    rw [inState, List.append_assoc]
  · rcases cut_cases sameRight with ⟨front, rfl⟩ | ⟨last, inFront⟩ | ⟨last, inNext, -⟩
    · have cut : '"' :: (regex ++ ['"']) = between ++ (fieldBreak ++ (otherRegex ++ ['"'])) := by
        rw [← List.cons_append, ← List.append_assoc, ← List.append_assoc, List.append_left_inj,
          ← List.append_left_inj (fieldBreak ++ next), List.append_assoc, List.append_assoc]
        exact inRest
      cases List.append_eq_nil_iff.mp (cut_regex readBack cut).2 |>.2
    · have cut : '"' :: (regex ++ ['"']) =
          between ++ (fieldBreak ++ (otherRegex ++ (fieldBreak ++ last))) := by
        simpa [fieldBreak] using inFront
      cases List.append_eq_nil_iff.mp (cut_regex readBack cut).2 |>.2
    · refine absurd ⟨last, otherNext, ?_⟩ readBack.next
      rw [inNext, List.append_assoc]

/-- Other fields have the same letters. -/
def IsAmbiguous (state regex next : List Char) : Prop :=
  ∃ otherState otherRegex otherNext,
    fieldLetters otherState otherRegex otherNext = fieldLetters state regex next ∧
      ¬ (otherState = state ∧ otherRegex = regex ∧ otherNext = next)

theorem isAmbiguous_of_state {state : List Char} (divided : fieldBreak <:+: state ++ ['"'])
    (regex next : List Char) : IsAmbiguous state regex next := by
  rcases divided with ⟨before, after, cut⟩
  refine ⟨before, after ++ '\t' :: '"' :: regex, next, ?_, ?_⟩
  · have wide := congrArg (· ++ '\t' :: '"' :: (regex ++ (fieldBreak ++ next))) cut
    simpa [fieldLetters, fieldBreak] using wide
  · rintro ⟨rfl, -, -⟩
    have lengths := congrArg List.length cut
    simp [fieldBreak] at lengths

theorem isAmbiguous_of_next {next : List Char} (divided : fieldBreak <:+: '"' :: next)
    (state regex : List Char) : IsAmbiguous state regex next := by
  rcases divided with ⟨before, after, cut⟩
  refine ⟨state, regex ++ '"' :: '\t' :: before, after, ?_, ?_⟩
  · have wide := congrArg (fun last => state ++ '"' :: '\t' :: '"' ::
      (regex ++ '"' :: '\t' :: last)) cut
    simpa [fieldLetters, fieldBreak] using wide
  · rintro ⟨-, -, rfl⟩
    have lengths := congrArg List.length cut
    simp [fieldBreak] at lengths
    omega

theorem isAmbiguous_of_regex {regex : List Char} (notTab : regex ≠ ['\t'])
    (divided : fieldBreak <:+: '"' :: (regex ++ ['"'])) (state next : List Char) :
    IsAmbiguous state regex next := by
  rcases divided with ⟨before, after, cut⟩
  -- The quote in front of the regular expression may be part of the break.
  cases before with
  | nil =>
    rcases List.eq_nil_or_concat after with rfl | ⟨kept, last, rfl⟩
    · have inside : ['\t'] ++ ['"'] = regex ++ ['"'] := (List.cons.inj cut).2
      exact absurd (List.append_cancel_right inside).symm notTab
    · have inside : ('\t' :: '"' :: kept) ++ [last] = regex ++ ['"'] := by
        simpa [fieldBreak] using cut
      rcases List.append_inj' inside rfl with ⟨rfl, -⟩
      refine ⟨state ++ ['"', '\t'], kept, next, by simp [fieldLetters, fieldBreak], ?_⟩
      rintro ⟨longer, -, -⟩
      exact absurd (List.append_right_eq_self.mp longer) (List.cons_ne_nil _ _)
  | cons quote before =>
    have inside : before ++ (fieldBreak ++ after) = regex ++ ['"'] := by
      simpa [fieldBreak] using (List.cons.inj cut).2
    refine ⟨state, before, after ++ '\t' :: '"' :: next, ?_, ?_⟩
    · have wide := congrArg (fun middle => state ++ '"' :: '\t' :: '"' ::
        (middle ++ '\t' :: '"' :: next)) inside
      simpa [fieldLetters, fieldBreak] using wide
    · rintro ⟨-, rfl, -⟩
      have lengths := congrArg List.length inside
      simp [fieldBreak] at lengths

/-- Fields are the only ones with their letters exactly if they make up no other
break. -/
theorem isAmbiguous_iff {state regex next : List Char} :
    IsAmbiguous state regex next ↔ ¬ ReadBack state regex next := by
  constructor
  · rintro ⟨otherState, otherRegex, otherNext, same, differ⟩ readBack
    exact differ (eq_of_fieldLetters readBack same.symm)
  · intro divided
    by_cases inState : fieldBreak <:+: state ++ ['"']
    · exact isAmbiguous_of_state inState regex next
    by_cases inNext : fieldBreak <:+: '"' :: next
    · exact isAmbiguous_of_next inNext state regex
    by_cases isTab : regex = ['\t']
    · exact absurd ⟨inState, .inl isTab, inNext⟩ divided
    by_cases inRegex : fieldBreak <:+: '"' :: (regex ++ ['"'])
    · exact isAmbiguous_of_regex isTab inRegex state next
    · exact absurd ⟨inState, .inr inRegex, inNext⟩ divided

/-- Fields without tabs make up no other break. -/
theorem readBack_of_noTab {state regex next : List Char} (inState : '\t' ∉ state)
    (inRegex : '\t' ∉ regex) (inNext : '\t' ∉ next) : ReadBack state regex next := by
  have tab : ∀ {letters : List Char}, fieldBreak <:+: letters → '\t' ∈ letters :=
    fun inside => inside.subset (by decide)
  refine ⟨?_, .inr ?_, ?_⟩
  · intro inside
    simpa [inState] using tab inside
  · intro inside
    simpa [inRegex] using tab inside
  · intro inside
    simpa [inNext] using tab inside

/-! ## Rule lines -/

/-- A map has texts as the fields of a rule. -/
def HoldsRule (entries : List (String × Value)) (state regex next : String) : Prop :=
  Value.entry? entries "state" = some (.text state) ∧
    Value.entry? entries "regex" = some (.text regex) ∧
      Value.entry? entries "next_state" = some (.text next)

theorem holdsRule_fields (state regex next : String) :
    HoldsRule [("state", .text state), ("regex", .text regex), ("next_state", .text next)]
      state regex next :=
  ⟨rfl, rfl, rfl⟩

theorem renderRule?_of_holdsRule {entries : List (String × Value)} {state regex next : String}
    (holds : HoldsRule entries state regex next) :
    ∃ line, renderRule? entries = some line ∧
      line.toList = "rule\t\"".toList ++
        (fieldLetters state.toList regex.toList next.toList ++ ['"']) := by
  rcases holds with ⟨hasState, hasRegex, hasNext⟩
  rw [renderRule?, hasState, hasRegex, hasNext]
  refine ⟨_, rfl, ?_⟩
  simp [ruleWord, ruleField, plainText, fieldLetters, fieldBreak]

/-- Maps have one rule line if the letters of their fields are the same. -/
theorem renderRule?_eq_iff {entries others : List (String × Value)}
    {state regex next otherState otherRegex otherNext : String}
    (holds : HoldsRule entries state regex next)
    (othersHold : HoldsRule others otherState otherRegex otherNext) :
    renderRule? others = renderRule? entries ↔
      fieldLetters otherState.toList otherRegex.toList otherNext.toList =
        fieldLetters state.toList regex.toList next.toList := by
  rcases renderRule?_of_holdsRule holds with ⟨line, found, letters⟩
  rcases renderRule?_of_holdsRule othersHold with ⟨other, otherFound, otherLetters⟩
  rw [found, otherFound, Option.some.injEq, ← String.toList_inj, letters, otherLetters,
    List.append_right_inj, List.append_left_inj]

/-- The rule line of a map with texts as fields is that of other fields too,
exactly if a quote, a tab and a quote follow each other in its state with the
quote behind it, in its next state with the quote before it, or in its regular
expression with both, unless that is a single tab.  In particular a line without
tabs inside its fields shows all three of them. -/
theorem fields_of_ruleLine {entries : List (String × Value)} {state regex next : String}
    (holds : HoldsRule entries state regex next) :
    ((∀ others otherState otherRegex otherNext,
        HoldsRule others otherState otherRegex otherNext →
          renderRule? others = renderRule? entries →
            otherState = state ∧ otherRegex = regex ∧ otherNext = next) ↔
      ReadBack state.toList regex.toList next.toList) ∧
      ('\t' ∉ state.toList → '\t' ∉ regex.toList → '\t' ∉ next.toList →
        ReadBack state.toList regex.toList next.toList) := by
  refine ⟨?_, readBack_of_noTab⟩
  constructor
  · intro only
    by_contra divided
    rcases isAmbiguous_iff.mpr divided with ⟨otherState, otherRegex, otherNext, same, differ⟩
    have othersHold := holdsRule_fields (String.ofList otherState) (String.ofList otherRegex)
      (String.ofList otherNext)
    have sameLine := (renderRule?_eq_iff holds othersHold).mpr
      (by simpa only [String.toList_ofList] using same)
    rcases only _ _ _ _ othersHold sameLine with ⟨rfl, rfl, rfl⟩
    simp at differ
  · intro readBack others otherState otherRegex otherNext othersHold sameLine
    have same := (renderRule?_eq_iff holds othersHold).mp sameLine
    simpa only [String.toList_inj] using eq_of_fieldLetters readBack same.symm

/-- A map with a quote in its state, a quote and a tab in its regular expression,
and the fields in another order. -/
def quotingRule : List (String × Value) :=
  [("next_state", .text "cont"), ("regex", .text "/\"\ta\" \t\"/"), ("state", .text "s\"")]

theorem fields_of_ruleLine_quoting :
    HoldsRule quotingRule "s\"" "/\"\ta\" \t\"/" "cont" ∧
      ∀ others otherState otherRegex otherNext,
        HoldsRule others otherState otherRegex otherNext →
          renderRule? others = renderRule? quotingRule →
            otherState = "s\"" ∧ otherRegex = "/\"\ta\" \t\"/" ∧ otherNext = "cont" := by
  have holds : HoldsRule quotingRule "s\"" "/\"\ta\" \t\"/" "cont" := ⟨rfl, rfl, rfl⟩
  have readBack : ReadBack "s\"".toList "/\"\ta\" \t\"/".toList "cont".toList :=
    ⟨by decide, .inr (by decide), by decide⟩
  exact ⟨holds, (fields_of_ruleLine holds).1.mpr readBack⟩

/-- A quote, a tab and a quote in the state may as well stand between it and the
regular expression, or inside that. -/
theorem fields_of_ruleLine_break :
    renderRule? [("state", .text "a\"\t\"b"), ("regex", .text "c"), ("next_state", .text "d")] =
        some "rule\t\"a\"\t\"b\"\t\"c\"\t\"d\"" ∧
      renderRule? [("state", .text "a"), ("regex", .text "b\"\t\"c"), ("next_state", .text "d")] =
        some "rule\t\"a\"\t\"b\"\t\"c\"\t\"d\"" ∧
      "a\"\t\"b" ≠ "a" ∧ "c" ≠ "b\"\t\"c" := by
  decide

end Classic

end LogPipeline
