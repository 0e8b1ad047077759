import LogPipeline.Proofs.Lua.Cursors
import LogPipeline.Proofs.Lua.Part

namespace LogPipeline

namespace Lua

namespace Scanner

/-!
# Scanning gaps and long brackets

Begun between two characters, a loop of the scanner ends where the reading of
the letters behind it ends, and on the same line, or it halts with the same
fault.  Blanks are ASCII letters.  Comments and long brackets may hold any
character, but what ends them is ASCII, so they end between characters as well.
-/

/-- Where a reading of letters leaves a cursor: in front of the letters that are
left, on the line that is reached. -/
def landed (content : String) : Except Fault (Nat × List Char) → Except Halt Cursor
  | .ok (line, letters) => .ok (before content line letters)
  | .error fault => .error (.fault fault)

/-! ## Kinds of ASCII letters -/

section Kinds

theorem ascii_between (first last : Char) (small : last.toNat < 128) :
    Ascii fun letter => first ≤ letter && letter ≤ last := by
  intro letter member
  have atMost : letter ≤ last := of_decide_eq_true (Bool.and_eq_true_iff.mp member).2
  exact Nat.lt_of_le_of_lt (UInt32.le_iff_toNat_le.mp atMost) small

theorem ascii_eq (letter : Char) (small : letter.toNat < 128) : Ascii (· = letter) := by
  intro other same
  rwa [of_decide_eq_true same]

theorem Ascii.or {first second : Char → Bool} (firstAscii : Ascii first)
    (secondAscii : Ascii second) : Ascii fun letter => first letter || second letter := by
  intro letter member
  rcases Bool.or_eq_true_iff.mp member with isFirst | isSecond
  · exact firstAscii letter isFirst
  · exact secondAscii letter isSecond

theorem ascii_isBlank : Ascii isBlank :=
  (((((ascii_eq ' ' (by decide)).or (ascii_eq '\t' (by decide))).or
    (ascii_eq '\n' (by decide))).or (ascii_eq '\r' (by decide))).or
    (ascii_eq '\x0b' (by decide))).or (ascii_eq '\x0c' (by decide))

theorem ascii_isBreak : Ascii isBreak :=
  (ascii_eq '\n' (by decide)).or (ascii_eq '\r' (by decide))

theorem ascii_isDecimal : Ascii Digits.isDecimal :=
  ascii_between '0' '9' (by decide)

theorem ascii_isNameStart : Ascii isNameStart :=
  ((ascii_between 'a' 'z' (by decide)).or (ascii_between 'A' 'Z' (by decide))).or
    (ascii_eq '_' (by decide))

theorem ascii_isNamePart : Ascii isNamePart :=
  ascii_isNameStart.or ascii_isDecimal

theorem ascii_isHexadecimal : Ascii Digits.isHexadecimal := by
  intro letter isDigit
  exact ascii_isNamePart letter (isNamePart_of_isHexadecimal isDigit)

theorem ne_of_large {letter other : Char} (large : 128 ≤ letter.toNat) (small : other.toNat < 128) :
    letter ≠ other := by
  intro same
  rw [same] at large
  exact Nat.not_lt_of_le large small

end Kinds

variable {content : String} {line level : Nat} {letter quote : Char} {rest letters body : List Char}
  {cause : FaultCause}

/-! ## Blanks -/

theorem passedOver_of_large {byte : Char} (large : 128 ≤ byte.toNat) (cursor : Cursor) :
    passedOver content byte cursor = passed content cursor := by
  rw [passedOver, if_neg (ne_of_large large (by decide))]

theorem lineBehind_of_large (large : 128 ≤ letter.toNat) : lineBehind line letter = line :=
  if_neg (ne_of_large large (by decide))

theorem lineBehind_add_count (line : Nat) (letter : Char) (letters : List Char) :
    lineBehind line letter + letters.count '\n' = line + (letter :: letters).count '\n' := by
  rw [lineBehind, List.count_cons]
  by_cases feed : letter = '\n'
  · simp only [feed, if_true, beq_self_eq_true]
    omega
  · simp only [feed, if_false, beq_iff_eq, Nat.add_zero]

/-- The blanks after `\z` are passed over. -/
theorem blanks_before (ends : letters <:+ content.toList) :
    blanks content (before content line letters) =
      .ok (before content (line + (letters.takeWhile isBlank).count '\n')
        (letters.dropWhile isBlank)) := by
  unfold blanks
  induction letters generalizing line with
  | nil =>
    apply repeated_of_done
    rw [blankTurn, peek_nil]
    rfl
  | cons letter rest inductionHypothesis =>
    have endsRest := (List.suffix_cons letter rest).trans ends
    cases blank : isBlank letter with
    | true =>
      have small := ascii_isBlank letter blank
      have seen := peek_ascii line ends small
      rw [List.dropWhile_cons_of_pos blank, List.takeWhile_cons_of_pos blank,
        ← lineBehind_add_count, ← inductionHypothesis endsRest]
      apply repeated_cons ends
      simp only [blankTurn, seen, blank, if_true, passedOver_cons ends small]
    | false =>
      have stops : ((before content line (letter :: rest)).peek content 0).any isBlank = false := by
        rw [any_peek ascii_isBlank ends]
        exact blank
      have notBlank := Bool.eq_false_iff.mp blank
      rw [List.dropWhile_cons_of_neg notBlank, List.takeWhile_cons_of_neg notBlank]
      apply repeated_of_done
      unfold blankTurn
      split
      · rename_i byte seen
        rw [seen, Option.any_some] at stops
        rw [stops]
        rfl
      · rfl

/-! ## Long brackets -/

theorem small_opening (level : Nat) :
    ∀ letter ∈ '[' :: (List.replicate level '=' ++ ['[']), letter.toNat < 128 := by
  simp only [List.mem_cons, List.mem_append, List.mem_replicate, List.not_mem_nil, or_false]
  rintro letter (rfl | ⟨-, rfl⟩ | rfl) <;> decide

theorem small_closing (level : Nat) : ∀ letter ∈ ']' :: closingTail level, letter.toNat < 128 := by
  simp only [closingTail, List.mem_cons, List.mem_append, List.mem_replicate, List.not_mem_nil,
    or_false]
  rintro letter (rfl | ⟨-, rfl⟩ | rfl) <;> decide

/-- The level of a long bracket is found where it opens. -/
theorem level?_before (ends : '[' :: rest <:+ content.toList) :
    level? content (before content line ('[' :: rest)) =
      .ok ((longOpening? ('[' :: rest)).map Prod.fst) := by
  have endsRest := (List.suffix_cons '[' rest).trans ends
  have endsLast := (List.dropWhile_suffix (· = '=')).trans endsRest
  have equals := ascii_eq '=' (by decide)
  have moved := equals.offset_dropWhile endsRest
  have behind : offset content ('[' :: rest) + 1 = offset content rest := (offset_cons ends).symm
  have seen := peek_eq_some_iff line (by decide : '['.toNat < 128) endsLast
  have inner : ({ before content line ('[' :: rest) with
      position := (before content line ('[' :: rest)).position + 1 } : Cursor) =
        before content line rest := by
    rw [before, before, ← behind]
  rw [level?, inner, equals.span_before endsRest, ok_bind, longOpening?]
  simp only [seen]
  simp only [before, moved, Nat.add_sub_cancel_left]
  split
  · rename_i opened
    rcases List.head?_eq_some_iff.mp opened with ⟨body, stripped⟩
    simp only [stripped]
    rfl
  · rename_i notOpened
    split
    · rename_i body stripped
      exact absurd (congrArg List.head? stripped) notOpened
    · rfl

/-- What closes a long bracket is seen where it stands. -/
theorem closes_before_iff (line : Nat) (ends : ']' :: rest <:+ content.toList) :
    closes content level (before content line (']' :: rest)) = true ↔
      rest.take (level + 1) = closingTail level := by
  have endsRest := (List.suffix_cons ']' rest).trans ends
  simp only [closes, peek_succ ends (by decide)]
  clear ends
  -- The induction is on the equals signs, and takes one off the front.
  induction level generalizing rest with
  | zero =>
    have seen := peek_eq_some_iff line (by decide : ']'.toNat < 128) endsRest
    cases rest with
    | nil => simp [seen, closingTail]
    | cons first rest => simp [seen, closingTail]
  | succ level inductionHypothesis =>
    have seen := peek_eq_some_iff line (by decide : '='.toNat < 128) endsRest
    cases rest with
    | nil => simp [seen, List.range_succ_eq_map, closingTail]
    | cons first rest =>
      by_cases equals : first = '='
      · subst equals
        have endsTail := (List.suffix_cons '=' rest).trans endsRest
        have grown : closingTail (level + 1) = '=' :: closingTail level := rfl
        have tail := inductionHypothesis endsTail
        rw [List.range_succ_eq_map, List.all_cons, List.all_map, List.take_succ_cons, grown,
          List.cons.injEq]
        simp only [← tail, Function.comp_def, Nat.succ_eq_add_one, peek_succ endsRest (by decide),
          seen, List.head?_cons, decide_true, Bool.true_and, true_and]
      · simp [seen, equals, List.range_succ_eq_map, closingTail, List.replicate_succ]

/-- What follows a long bracket whose inside begins the letters, and the line
that is reached. -/
def longRest (level : Nat) (cause : FaultCause) (line : Nat) (letters : List Char) :
    Except Fault (Nat × List Char) :=
  match untilClosing? level letters with
  | none => .error { line := line + letters.count '\n', cause := cause }
  | some (inside, after) => .ok (line + inside.count '\n', after)

theorem count_closingTail (level : Nat) : (closingTail level).count '\n' = 0 := by
  simp [closingTail, List.count_replicate]

theorem longRest_cons :
    longRest level cause line (letter :: rest) =
      if letter = ']' && rest.take (level + 1) = closingTail level then
        .ok (line, rest.drop (level + 1))
      else longRest level cause (lineBehind line letter) rest := by
  unfold longRest
  rw [untilClosing?]
  by_cases closing : letter = ']' && rest.take (level + 1) = closingTail level
  · have isTail := (Bool.and_eq_true_iff.mp closing)
    rw [if_pos closing, if_pos closing, of_decide_eq_true isTail.1, of_decide_eq_true isTail.2]
    simp [count_closingTail]
  · rw [if_neg closing, if_neg closing]
    cases found : untilClosing? level rest with
    | none => simp only [Option.map_none, lineBehind_add_count]
    | some pair => simp only [Option.map_some, lineBehind_add_count]

theorem longTurn_passesLarge : PassesLarge content (longTurn content level cause) := by
  intro cursor byte seen large
  have notBracket : byte ≠ ']' := ne_of_large large (by decide)
  simp only [longTurn, seen, notBracket, decide_false, Bool.false_and, Bool.false_eq_true, if_false,
    passedOver_of_large large]

/-- The inside of a long bracket is read up to what closes it. -/
theorem longTurn_before (ends : letters <:+ content.toList) :
    repeated content (longTurn content level cause) (before content line letters) =
      landed content (longRest level cause line letters) := by
  induction letters generalizing line with
  | nil =>
    apply repeated_of_error
    rw [longTurn, peek_nil]
    rfl
  | cons letter rest inductionHypothesis =>
    have endsRest := (List.suffix_cons letter rest).trans ends
    rw [longRest_cons]
    rcases Nat.lt_or_ge letter.toNat 128 with small | large
    · have seen := peek_ascii line ends small
      split
      · rename_i closing
        rw [Bool.and_eq_true, decide_eq_true_eq, decide_eq_true_eq] at closing
        rcases closing with ⟨rfl, isTail⟩
        have whole : (']' :: closingTail level) ++ rest.drop (level + 1) = ']' :: rest := by
          rw [← isTail, List.cons_append, List.take_append_drop]
        have counted : (']' :: closingTail level).length = level + 2 := by
          rw [List.length_cons, length_closingTail]
        have closed := (closes_before_iff line ends).mpr isTail
        apply repeated_of_done
        simp only [longTurn, seen, closed, decide_true, Bool.true_and, if_true]
        rw [← whole] at ends ⊢
        rw [advance_ascii ends (small_closing level) counted]
        rfl
      · rename_i goesOn
        rw [← inductionHypothesis endsRest]
        apply repeated_cons ends
        have stays : ¬ (letter = ']' &&
            closes content level (before content line (letter :: rest))) = true := by
          intro closing
          rw [Bool.and_eq_true, decide_eq_true_eq] at closing
          rcases closing with ⟨rfl, closed⟩
          apply goesOn
          simpa using (closes_before_iff line ends).mp closed
        simp only [longTurn, seen, if_neg stays, passedOver_cons ends small]
    · have notBracket : letter ≠ ']' := ne_of_large large (by decide)
      rw [repeated_cons_large longTurn_passesLarge ends large, inductionHypothesis endsRest,
        lineBehind_of_large large]
      simp [notBracket]

/-- A long bracket that opens is read up to what closes it. -/
theorem longEnd_before (opened : longOpening? letters = some (level, body))
    (ends : letters <:+ content.toList) :
    longEnd content level cause (before content line letters) =
      landed content (longRest level cause line body) := by
  have whole : ('[' :: (List.replicate level '=' ++ ['['])) ++ body = letters := by
    rw [← longLetters_of_longOpening? opened]
    simp [longLetters]
  have counted : ('[' :: (List.replicate level '=' ++ ['['])).length = level + 2 := by
    simp
  rw [← whole] at ends ⊢
  rw [longEnd, advance_ascii ends (small_opening level) counted, ok_bind]
  exact longTurn_before ((List.suffix_append _ _).trans ends)

/-! ## Gaps -/

/-- What follows a comment, given what stands after its two dashes, and the line
that is reached. -/
def commentRest (line : Nat) (letters : List Char) : Except Fault (Nat × List Char) :=
  match longOpening? letters with
  | some (level, body) => longRest level .unfinishedLongComment line body
  | none => .ok (line, letters.dropWhile (· ≠ '\n'))

theorem suffix_of_commentRest {reached : Nat}
    (passed : commentRest line letters = .ok (reached, rest)) : rest <:+ letters := by
  unfold commentRest at passed
  split at passed
  · rename_i level body opened
    unfold longRest at passed
    split at passed
    · cases passed
    · rename_i inside after found
      cases passed
      exact (suffix_of_untilClosing? found).trans (suffix_of_longOpening? opened).2
  · cases passed
    exact List.dropWhile_suffix _

/-- Behind a comment a gap goes on. -/
theorem afterGap_commentRest (line : Nat) (rest : List Char) :
    afterGap line ('-' :: '-' :: rest) =
      match commentRest line rest with
      | .error fault => .error fault
      | .ok (reached, after) => afterGap reached after := by
  rw [afterGap_comment, commentRest]
  cases longOpening? rest with
  | none => rfl
  | some opened =>
    simp only [longRest]
    cases untilClosing? opened.1 opened.2 <;> rfl

theorem longOpening?_eq_none (noBracket : rest.head? ≠ some '[') : longOpening? rest = none := by
  unfold longOpening?
  split
  · exact absurd rfl noBracket
  · rfl

/-- A comment is passed over. -/
theorem commentEnd_before (ends : '-' :: '-' :: rest <:+ content.toList) :
    commentEnd content (before content line ('-' :: '-' :: rest)) =
      landed content (commentRest line rest) := by
  have endsRest : rest <:+ content.toList := (List.suffix_append ['-', '-'] rest).trans ends
  have seen := peek_eq_some_iff line (by decide : '['.toNat < 128) endsRest
  have lineComment : span content (· ≠ '\n') (before content line rest) =
      .ok (before content line (rest.dropWhile (· ≠ '\n'))) := by
    apply span_before _ endsRest
    intro letter byte large beyond
    simp [ne_of_large large (by decide : '\n'.toNat < 128),
      ne_of_large beyond (by decide : '\n'.toNat < 128)]
  rw [commentEnd, advance_two ends (by decide) (by decide), ok_bind, commentLevel?]
  by_cases bracket : rest.head? = some '['
  · rcases List.head?_eq_some_iff.mp bracket with ⟨tail, same⟩
    subst same
    rw [if_pos (seen.mpr bracket), level?_before endsRest, ok_bind, commentRest]
    cases opened : longOpening? ('[' :: tail) with
    | none => exact lineComment
    | some pair => exact longEnd_before opened endsRest
  · rw [if_neg (mt seen.mp bracket), ok_bind, commentRest, longOpening?_eq_none bracket]
    exact lineComment

theorem gapTurn_comment (line : Nat) (ends : '-' :: '-' :: rest <:+ content.toList) :
    gapTurn content (before content line ('-' :: '-' :: rest)) =
      (landed content (commentRest line rest)).map .again := by
  have endsNext := (List.suffix_cons '-' _).trans ends
  have seen := peek_ascii line ends (by decide)
  have next : (before content line ('-' :: '-' :: rest)).peek content 1 = some '-' := by
    rw [peek_succ ends (by decide), peek_ascii line endsNext (by decide)]
  have noBlank : isBlank '-' = false := by decide
  simp only [gapTurn, seen, next, noBlank, decide_true, Bool.true_and, Bool.false_eq_true, if_true,
    if_false, commentEnd_before ends]
  cases landed content (commentRest line rest) <;> rfl

theorem gapTurn_blank (ends : letter :: rest <:+ content.toList) (blank : isBlank letter = true) :
    gapTurn content (before content line (letter :: rest)) =
      .ok (.again (before content (lineBehind line letter) rest)) := by
  have small := ascii_isBlank letter blank
  simp only [gapTurn, peek_ascii line ends small, blank, if_true, passedOver_cons ends small]

/-- Letters that begin with no blank and no comment end a gap. -/
theorem gapTurn_token (ends : letter :: rest <:+ content.toList)
    (noComment : startsComment (letter :: rest) = false) (noBlank : isBlank letter = false) :
    gapTurn content (before content line (letter :: rest)) =
      .ok (.done (before content line (letter :: rest))) := by
  have endsRest := (List.suffix_cons letter rest).trans ends
  rcases Nat.lt_or_ge letter.toNat 128 with small | large
  · have next := peek_eq_some_iff line (by decide : '-'.toNat < 128) endsRest
    simp only [startsComment_cons, ← next] at noComment
    simp only [gapTurn, peek_ascii line ends small, peek_succ ends small, noBlank, noComment,
      Bool.false_eq_true, if_false]
  · rcases peek_large line ends large letter.utf8Size_pos with ⟨byte, beyond, seen⟩
    have noDash : byte ≠ '-' := ne_of_large beyond (by decide)
    simp only [gapTurn, seen, ascii_isBlank.eq_false beyond, noDash, decide_false,
      Bool.false_and, Bool.false_eq_true, if_false]

theorem afterGap_blank (blank : isBlank letter = true) :
    afterGap line (letter :: rest) = afterGap (lineBehind line letter) rest := by
  have noComment : startsComment (letter :: rest) = false := by
    rw [startsComment_cons, Bool.and_eq_false_iff]
    left
    apply decide_eq_false
    rintro rfl
    revert blank
    decide
  rw [afterGap_cons noComment, if_pos blank, lineBehind]
  split <;> rfl

/-- The blanks and comments in front of a token are passed over. -/
theorem gap_before (ends : letters <:+ content.toList) :
    gap content (before content line letters) = landed content (afterGap line letters) := by
  unfold gap
  -- A turn may pass over a whole comment, so the induction is on the length.
  induction size : letters.length using Nat.strong_induction_on generalizing line letters with
  | _ size inductionHypothesis =>
  subst size
  cases letters with
  | nil =>
    rw [afterGap]
    apply repeated_of_done
    rw [gapTurn, peek_nil]
  | cons first rest =>
    have endsRest := (List.suffix_cons first rest).trans ends
    cases dashes : startsComment (first :: rest) with
    | true =>
      rcases startsComment_iff.mp dashes with ⟨tail, same⟩
      cases same
      have turned := gapTurn_comment line ends
      rw [afterGap_commentRest]
      cases passed : commentRest line tail with
      | error fault =>
        rw [passed] at turned
        exact repeated_of_error turned
      | ok pair =>
        rcases pair with ⟨reached, after⟩
        have left := (suffix_of_commentRest passed).trans (List.suffix_append ['-', '-'] tail)
        have shorter : after.length < ('-' :: '-' :: tail).length := by
          have notLonger := (suffix_of_commentRest passed).length_le
          simp only [List.length_cons]
          omega
        rw [passed] at turned
        rw [repeated_before ends left shorter turned]
        exact inductionHypothesis _ shorter (left.trans ends) rfl
    | false =>
      cases blank : isBlank first with
      | true =>
        rw [repeated_cons ends (gapTurn_blank ends blank), afterGap_blank blank]
        exact inductionHypothesis _ (Nat.lt_succ_self _) endsRest rfl
      | false =>
        rw [afterGap_token dashes blank]
        exact repeated_of_done (gapTurn_token ends dashes blank)

end Scanner

end Lua

end LogPipeline
