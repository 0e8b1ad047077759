import LogPipeline.Proofs.Lua.GapScanning

namespace LogPipeline

namespace Lua

namespace Scanner

/-!
# Scanning short strings and numerals

In a short string the scanner passes over a backslash together with the byte
behind it, which may be the first of several bytes of a character.  The other
bytes of that character are no quote, no backslash and no break, so the scanner
is between two characters again where the string closes or its reading halts.

A numeral is made of ASCII letters alone.
-/

variable {content : String} {line : Nat} {letter quote : Char} {rest letters : List Char}

/-! ## Short strings -/

/-- What follows a short string from a state on, and the line that is reached. -/
def shortRest (quote : Char) (state : StringState) (line : Nat) (letters : List Char) :
    Except Fault (Nat × List Char) :=
  (stringTail quote state line letters).map fun (_, after, last) => (last, after)

theorem shortRest_cons (state : StringState) :
    shortRest quote state line (letter :: rest) =
      match stringStep quote state line letter with
      | .refuse => .error { line := line, cause := .unfinishedString }
      | .close => .ok (line, rest)
      | .proceed next reached => shortRest quote next reached rest := by
  unfold shortRest
  rw [stringTail]
  cases stringStep quote state line letter with
  | refuse => rfl
  | close => rfl
  | proceed next reached =>
    simp only
    cases stringTail quote next reached rest <;> rfl

theorem shortRest_plain_cons :
    shortRest quote .plain line (letter :: rest) =
      if isBreak letter then .error { line := line, cause := .unfinishedString }
      else if letter = '\\' then shortRest quote .escaped line rest
      else if letter = quote then .ok (line, rest)
      else shortRest quote .plain line rest := by
  rw [shortRest_cons, stringStep, plainStep]
  by_cases isLineBreak : isBreak letter = true
  · simp only [if_pos isLineBreak]
  by_cases escape : letter = '\\'
  · simp only [if_neg isLineBreak, if_pos escape]
  by_cases closes : letter = quote
  · simp only [if_neg isLineBreak, if_neg escape, if_pos closes]
  · simp only [if_neg isLineBreak, if_neg escape, if_neg closes]

/-- A break may be the second half of the one before it, and else stands for itself. -/
theorem shortRest_broken (first : Char) :
    shortRest quote (.broken first) line letters =
      shortRest quote .plain line
        (if letters.head?.any (fun second => isBreak second && second ≠ first) then letters.tail
        else letters) := by
  cases letters with
  | nil => rfl
  | cons letter rest =>
    rw [shortRest_cons, stringStep, List.head?_cons, Option.any_some, List.tail_cons]
    by_cases pairs : (isBreak letter && decide (letter ≠ first)) = true
    · simp only [if_pos pairs]
    · rw [if_neg pairs, if_neg pairs, shortRest_cons]
      rfl

/-- The blanks after `\z` do not count. -/
theorem shortRest_skipping :
    shortRest quote .skipping line letters =
      shortRest quote .plain (line + (letters.takeWhile isBlank).count '\n')
        (letters.dropWhile isBlank) := by
  induction letters generalizing line with
  | nil => rfl
  | cons letter rest inductionHypothesis =>
    rw [shortRest_cons, stringStep]
    cases blank : isBlank letter with
    | true =>
      rw [List.takeWhile_cons_of_pos blank, List.dropWhile_cons_of_pos blank,
        ← lineBehind_add_count, ← inductionHypothesis, lineBehind]
      by_cases feed : letter = '\n'
      · simp only [if_pos feed]
      · simp only [if_neg feed, if_true]
    | false =>
      have notFeed : letter ≠ '\n' := by
        rintro rfl
        revert blank
        decide
      have notBlank := Bool.eq_false_iff.mp blank
      rw [List.takeWhile_cons_of_neg notBlank, List.dropWhile_cons_of_neg notBlank, if_neg notFeed,
        if_neg Bool.false_ne_true, shortRest_cons]
      rfl

/-- The line and the letters that an escape leads to, given the letter after its
backslash. -/
def escapeRest (line : Nat) (letter : Char) (rest : List Char) : Nat × List Char :=
  if isBreak letter then
    (line + 1, if rest.head?.any (fun second => isBreak second && second ≠ letter) then rest.tail
      else rest)
  else if letter = 'z' then
    (line + (rest.takeWhile isBlank).count '\n', rest.dropWhile isBlank)
  else (line, rest)

theorem suffix_escapeRest (line : Nat) (letter : Char) (rest : List Char) :
    (escapeRest line letter rest).2 <:+ rest := by
  unfold escapeRest
  split
  · dsimp only
    split
    · exact List.tail_suffix rest
    · exact List.suffix_refl rest
  · split
    · exact List.dropWhile_suffix _
    · exact List.suffix_refl rest

theorem escapeRest_of_large (large : 128 ≤ letter.toNat) :
    escapeRest line letter rest = (line, rest) := by
  have notZ : letter ≠ 'z' := ne_of_large large (by decide)
  rw [escapeRest, ascii_isBreak.eq_false large, if_neg Bool.false_ne_true, if_neg notZ]

/-- Behind an escape a short string goes on. -/
theorem shortRest_escaped_cons :
    shortRest quote .escaped line (letter :: rest) =
      shortRest quote .plain (escapeRest line letter rest).1 (escapeRest line letter rest).2 := by
  rw [shortRest_cons, stringStep, escapeRest]
  by_cases isLineBreak : isBreak letter = true
  · simp only [if_pos isLineBreak, shortRest_broken]
  by_cases skips : letter = 'z'
  · simp only [if_neg isLineBreak, if_pos skips, shortRest_skipping]
  · simp only [if_neg isLineBreak, if_neg skips]

theorem breakEnd_before {first : Char} (ends : letters <:+ content.toList) :
    breakEnd content first (before content line letters) =
      .ok (before content line
        (if letters.head?.any (fun second => isBreak second && second ≠ first) then letters.tail
        else letters)) := by
  have ascii : Ascii fun second => isBreak second && decide (second ≠ first) := by
    intro second member
    exact ascii_isBreak second (Bool.and_eq_true_iff.mp member).1
  rw [breakEnd, any_peek ascii ends]
  split
  · rename_i pairs
    cases letters with
    | nil => cases pairs
    | cons second rest => exact advance_one ends (ascii second pairs)
  · rfl

/-- An escape of an ASCII letter is passed over. -/
theorem escapeTurn_before (ends : '\\' :: letter :: rest <:+ content.toList)
    (small : letter.toNat < 128) :
    escapeTurn content (before content line ('\\' :: letter :: rest)) =
      .ok (.again (before content (escapeRest line letter rest).1
        (escapeRest line letter rest).2)) := by
  have endsLetter := (List.suffix_cons '\\' _).trans ends
  have endsRest := (List.suffix_cons letter rest).trans endsLetter
  have seen : (before content line ('\\' :: letter :: rest)).peek content 1 = some letter := by
    rw [peek_succ ends (by decide), peek_ascii line endsLetter small]
  have moved : (before content line ('\\' :: letter :: rest)).advance content 2 = _ :=
    advance_two ends (by decide) small
  unfold escapeRest
  by_cases isLineBreak : isBreak letter = true
  · simp only [escapeTurn, seen, if_pos isLineBreak, moved, ok_bind, breakEnd_before endsRest]
    rfl
  by_cases skips : letter = 'z'
  · simp only [escapeTurn, seen, if_neg isLineBreak, if_pos skips, moved, ok_bind,
      blanks_before endsRest]
    rfl
  · simp only [escapeTurn, seen, if_neg isLineBreak, if_neg skips, moved, ok_bind]
    rfl

/-- An escape of a character beyond ASCII passes over its first byte alone. -/
theorem escapeTurn_large (line : Nat) (ends : '\\' :: letter :: rest <:+ content.toList)
    (large : 128 ≤ letter.toNat) :
    escapeTurn content (before content line ('\\' :: letter :: rest)) =
      .ok (.again { position := offset content (letter :: rest) + 1, line := line }) := by
  have endsLetter := (List.suffix_cons '\\' _).trans ends
  rcases peek_large line endsLetter large letter.utf8Size_pos with ⟨byte, beyond, isByte⟩
  have seen : (before content line ('\\' :: letter :: rest)).peek content 1 = some byte := by
    rw [peek_succ ends (by decide), isByte]
  have notZ : byte ≠ 'z' := ne_of_large beyond (by decide)
  have behind : offset content (letter :: rest) = offset content ('\\' :: letter :: rest) + 1 :=
    offset_cons ends
  have after := offset_cons endsLetter
  have positive := letter.utf8Size_pos
  have inside : offset content rest ≤ content.utf8ByteSize := offset_le
  have room : offset content ('\\' :: letter :: rest) + 2 ≤ content.utf8ByteSize := by omega
  have moved : (before content line ('\\' :: letter :: rest)).advance content 2 =
      .ok { position := offset content (letter :: rest) + 1, line := line } := by
    rw [Cursor.advance, before, behind, if_pos room]
  simp only [escapeTurn, seen, ascii_isBreak.eq_false beyond, notZ, Bool.false_eq_true, if_false,
    moved, ok_bind]
  rfl

theorem shortTurn_passesLarge (quoteSmall : quote.toNat < 128) :
    PassesLarge content (shortTurn content quote) := by
  intro cursor byte seen large
  have notBackslash : byte ≠ '\\' := ne_of_large large (by decide)
  have notQuote : byte ≠ quote := ne_of_large large quoteSmall
  simp only [shortTurn, seen, ascii_isBreak.eq_false large, notBackslash, notQuote,
    Bool.false_eq_true, if_false]

theorem shortTurn_backslash (line : Nat) (quote : Char) (ends : '\\' :: rest <:+ content.toList) :
    shortTurn content quote (before content line ('\\' :: rest)) =
      escapeTurn content (before content line ('\\' :: rest)) := by
  have noBreak : isBreak '\\' = false := by decide
  simp only [shortTurn, peek_ascii line ends (by decide), noBreak, Bool.false_eq_true, if_false,
    if_true]

/-- Behind a backslash two bytes are passed over at once.  What that leaves of a
character beyond ASCII is passed over as well. -/
theorem repeated_escape (quoteSmall : quote.toNat < 128)
    (ends : '\\' :: letter :: rest <:+ content.toList) :
    repeated content (shortTurn content quote) (before content line ('\\' :: letter :: rest)) =
      repeated content (shortTurn content quote)
        (before content (escapeRest line letter rest).1 (escapeRest line letter rest).2) := by
  have turned := shortTurn_backslash line quote ends
  rcases Nat.lt_or_ge letter.toNat 128 with small | large
  · have left := suffix_escapeRest line letter rest
    rw [escapeTurn_before ends small] at turned
    apply repeated_before ends _ _ turned
    · exact left.trans (List.suffix_append ['\\', letter] rest)
    · have notLonger := left.length_le
      simp only [List.length_cons]
      omega
  · have endsLetter := (List.suffix_cons '\\' _).trans ends
    have behind : offset content (letter :: rest) = offset content ('\\' :: letter :: rest) + 1 :=
      offset_cons ends
    have after := offset_cons endsLetter
    have atLeastTwo := two_le_utf8Size large
    have inside : offset content rest ≤ content.utf8ByteSize := offset_le
    rw [escapeTurn_large line ends large] at turned
    rw [escapeRest_of_large large, repeated_of_again turned]
    · exact repeated_large (shortTurn_passesLarge quoteSmall) endsLetter large line (by omega)
    · change offset content ('\\' :: letter :: rest) < offset content (letter :: rest) + 1
      omega
    · change offset content (letter :: rest) + 1 ≤ content.utf8ByteSize
      omega

/-- The inside of a short string is read up to its closing quote. -/
theorem shortTurn_before (quoteSmall : quote.toNat < 128) (ends : letters <:+ content.toList) :
    repeated content (shortTurn content quote) (before content line letters) =
      landed content (shortRest quote .plain line letters) := by
  -- A turn may pass over more than a letter, so the induction is on the length.
  induction size : letters.length using Nat.strong_induction_on generalizing line letters with
  | _ size inductionHypothesis =>
  subst size
  cases letters with
  | nil =>
    apply repeated_of_error
    rw [shortTurn, peek_nil]
    rfl
  | cons letter rest =>
    have endsRest := (List.suffix_cons letter rest).trans ends
    rw [shortRest_plain_cons]
    rcases Nat.lt_or_ge letter.toNat 128 with small | large
    · have seen := peek_ascii line ends small
      by_cases isLineBreak : isBreak letter = true
      · rw [if_pos isLineBreak]
        apply repeated_of_error
        simp only [shortTurn, seen, if_pos isLineBreak]
        rfl
      by_cases escape : letter = '\\'
      · subst escape
        rw [if_neg isLineBreak, if_pos rfl]
        cases rest with
        | nil =>
          apply repeated_of_error
          rw [shortTurn_backslash line quote ends, escapeTurn, peek_succ ends (by decide), peek_nil]
          rfl
        | cons second more =>
          have left := suffix_escapeRest line second more
          rw [repeated_escape quoteSmall ends, shortRest_escaped_cons]
          apply inductionHypothesis _ _ _ rfl
          · have notLonger := left.length_le
            simp only [List.length_cons]
            omega
          · exact left.trans ((List.suffix_cons second more).trans endsRest)
      by_cases closes : letter = quote
      · rw [if_neg isLineBreak, if_neg escape, if_pos closes]
        apply repeated_of_done
        simp only [shortTurn, seen, if_neg isLineBreak, if_neg escape, if_pos closes,
          advance_one ends small, ok_bind]
        rfl
      · rw [if_neg isLineBreak, if_neg escape, if_neg closes,
          ← inductionHypothesis _ (Nat.lt_succ_self _) endsRest rfl]
        apply repeated_cons ends
        simp only [shortTurn, seen, if_neg isLineBreak, if_neg escape, if_neg closes,
          passed_cons ends small]
    · have notBackslash : letter ≠ '\\' := ne_of_large large (by decide)
      have notQuote : letter ≠ quote := ne_of_large large quoteSmall
      rw [ascii_isBreak.eq_false large, if_neg Bool.false_ne_true, if_neg notBackslash,
        if_neg notQuote, repeated_cons_large (shortTurn_passesLarge quoteSmall) ends large]
      exact inductionHypothesis _ (Nat.lt_succ_self _) endsRest rfl

/-- A short string that opens is read up to its closing quote. -/
theorem shortEnd_before (quoteSmall : quote.toNat < 128) (ends : quote :: rest <:+ content.toList) :
    shortEnd content quote (before content line (quote :: rest)) =
      landed content (shortRest quote .plain line rest) := by
  rw [shortEnd, advance_one ends quoteSmall, ok_bind]
  exact shortTurn_before quoteSmall ((List.suffix_cons quote rest).trans ends)

/-! ## Numerals -/

def afterSign (letters : List Char) : List Char :=
  if letters.head?.any isSign then letters.tail else letters

theorem suffix_afterSign (letters : List Char) : afterSign letters <:+ letters := by
  unfold afterSign
  split
  · exact List.tail_suffix letters
  · exact List.suffix_refl letters

theorem numeralTail_true (marks letters : List Char) :
    (numeralTail marks true letters).2 = (numeralTail marks false (afterSign letters)).2 := by
  cases letters with
  | nil => rfl
  | cons letter rest =>
    rw [afterSign, List.head?_cons, Option.any_some, isSign, List.tail_cons, numeralTail]
    by_cases sign : (decide (letter = '+') || decide (letter = '-')) = true
    · simp only [sign, Bool.true_and, if_true]
    · simp only [sign, Bool.and_false, Bool.false_eq_true, if_false, numeralTail]

theorem numeralTail_false_cons (marks : List Char) (letter : Char) (rest : List Char) :
    (numeralTail marks false (letter :: rest)).2 =
      if marks.contains letter then (numeralTail marks false (afterSign rest)).2
      else if Digits.isHexadecimal letter || letter = '.' then (numeralTail marks false rest).2
      else letter :: rest := by
  rw [numeralTail, ← numeralTail_true]
  simp only [Bool.false_and, Bool.false_eq_true, if_false]
  split
  · rfl
  · split <;> rfl

theorem ascii_isSign : Ascii isSign :=
  (ascii_eq '+' (by decide)).or (ascii_eq '-' (by decide))

theorem ascii_digitOrPoint : Ascii fun letter => Digits.isHexadecimal letter || letter = '.' :=
  ascii_isHexadecimal.or (ascii_eq '.' (by decide))

/-- A mark is passed over with the sign behind it. -/
theorem numeralTurn_mark {marks : List Char} (ends : letter :: rest <:+ content.toList)
    (small : letter.toNat < 128) (isMark : marks.contains letter = true) :
    numeralTurn content marks (before content line (letter :: rest)) =
      .ok (.again (before content line (afterSign rest))) := by
  have endsRest := (List.suffix_cons letter rest).trans ends
  simp only [numeralTurn, peek_ascii line ends small, isMark, if_true, advance_one ends small,
    ok_bind, any_peek ascii_isSign endsRest, afterSign]
  split
  · rename_i signed
    cases rest with
    | nil => cases signed
    | cons sign rest => exact passed_cons endsRest (ascii_isSign sign signed)
  · rfl

/-- The letters of a numeral are passed over. -/
theorem numeralTurn_before {marks : List Char} (ascii : Ascii marks.contains)
    (ends : letters <:+ content.toList) :
    repeated content (numeralTurn content marks) (before content line letters) =
      .ok (before content line (numeralTail marks false letters).2) := by
  -- A mark and its sign are passed over in one turn, so the induction is on the length.
  induction size : letters.length using Nat.strong_induction_on generalizing letters with
  | _ size inductionHypothesis =>
  subst size
  cases letters with
  | nil =>
    apply repeated_of_done
    rw [numeralTurn, peek_nil]
    rfl
  | cons letter rest =>
    have endsRest := (List.suffix_cons letter rest).trans ends
    rw [numeralTail_false_cons]
    by_cases isMark : marks.contains letter = true
    · have small := ascii letter isMark
      have left := suffix_afterSign rest
      have shorter : (afterSign rest).length < (letter :: rest).length :=
        Nat.lt_succ_of_le left.length_le
      rw [if_pos isMark, repeated_before ends (left.trans (List.suffix_cons letter rest)) shorter
        (numeralTurn_mark ends small isMark)]
      exact inductionHypothesis _ shorter (left.trans endsRest) rfl
    by_cases goesOn : (Digits.isHexadecimal letter || decide (letter = '.')) = true
    · have small := ascii_digitOrPoint letter goesOn
      rw [if_neg isMark, if_pos goesOn,
        ← inductionHypothesis _ (Nat.lt_succ_self _) endsRest rfl]
      apply repeated_cons ends
      simp only [numeralTurn, peek_ascii line ends small, if_neg isMark, if_pos goesOn,
        passed_cons ends small]
    · rw [if_neg isMark, if_neg goesOn]
      apply repeated_of_done
      rcases Nat.lt_or_ge letter.toNat 128 with small | large
      · simp only [numeralTurn, peek_ascii line ends small, if_neg isMark, if_neg goesOn]
      · rcases peek_large line ends large letter.utf8Size_pos with ⟨byte, beyond, seen⟩
        have stops := ascii_digitOrPoint.eq_false beyond
        simp only [numeralTurn, seen, ascii.eq_false beyond, stops, Bool.false_eq_true, if_false]

theorem ascii_contains {marks : List Char} (small : ∀ letter ∈ marks, letter.toNat < 128) :
    Ascii marks.contains := by
  intro letter member
  exact small letter (List.contains_iff_mem.mp member)

theorem ascii_binaryMarks : Ascii ['P', 'p'].contains :=
  ascii_contains (by simp)

theorem ascii_decimalMarks : Ascii ['E', 'e'].contains :=
  ascii_contains (by simp)

theorem startsHexadecimal_before (ends : letters <:+ content.toList) :
    startsHexadecimal content (before content line letters) = isHexadecimalStart letters := by
  have ascii := (ascii_eq 'x' (by decide)).or (ascii_eq 'X' (by decide))
  have seen := peek_eq_some_iff line (by decide : '0'.toNat < 128) ends
  cases letters with
  | nil => simp [startsHexadecimal, seen, isHexadecimalStart]
  | cons first rest =>
    have endsRest := (List.suffix_cons first rest).trans ends
    by_cases zero : first = '0'
    · subst zero
      simp only [startsHexadecimal, seen, List.head?_cons, decide_true, Bool.true_and,
        peek_succ ends (by decide), any_peek ascii endsRest]
      cases rest with
      | nil => rfl
      | cons mark rest => simp [isHexadecimalStart_cons_cons]
    · have noStart : isHexadecimalStart (first :: rest) = false := by
        rw [Bool.eq_false_iff, Ne, isHexadecimalStart_iff]
        rintro ⟨mark, tail, same, -⟩
        exact zero (List.cons.inj same).1
      simp [startsHexadecimal, seen, zero, noStart]

theorem numeralBody_before (ends : letters <:+ content.toList) :
    numeralBody content (before content line letters) =
      .ok (before content line (numeralParts letters).2) := by
  rw [numeralBody, startsHexadecimal_before ends, numeralParts]
  split
  · rename_i hexadecimal
    rcases isHexadecimalStart_iff.mp hexadecimal with ⟨mark, tail, whole, isX⟩
    subst whole
    have small : mark.toNat < 128 := by
      rcases isX with rfl | rfl <;> decide
    have endsTail := (List.suffix_append ['0', mark] tail).trans ends
    rw [advance_two ends (by decide) small, ok_bind]
    exact numeralTurn_before ascii_binaryMarks endsTail
  · exact numeralTurn_before ascii_decimalMarks ends

/-- All letters of a numeral are ASCII. -/
theorem small_numeralTail {marks : List Char} (ascii : Ascii marks.contains) (afterMark : Bool)
    (letters : List Char) :
    ∀ letter ∈ (numeralTail marks afterMark letters).1, letter.toNat < 128 := by
  induction letters generalizing afterMark with
  | nil => exact List.forall_mem_nil _
  | cons letter rest inductionHypothesis =>
    rw [numeralTail]
    split
    · rename_i signed
      rw [List.forall_mem_cons]
      exact ⟨ascii_isSign letter (Bool.and_eq_true_iff.mp signed).2, inductionHypothesis false⟩
    · split
      · rename_i isMark
        rw [List.forall_mem_cons]
        exact ⟨ascii letter isMark, inductionHypothesis true⟩
      · split
        · rename_i goesOn
          rw [List.forall_mem_cons]
          exact ⟨ascii_digitOrPoint letter goesOn, inductionHypothesis false⟩
        · exact List.forall_mem_nil _

theorem small_numeralParts (letters : List Char) :
    ∀ letter ∈ (numeralParts letters).1, letter.toNat < 128 := by
  rw [numeralParts]
  split
  · rename_i hexadecimal
    rcases isHexadecimalStart_iff.mp hexadecimal with ⟨mark, tail, whole, isX⟩
    subst whole
    rw [List.forall_mem_append]
    constructor
    · rcases isX with rfl | rfl <;> simp
    · exact small_numeralTail ascii_binaryMarks false tail
  · exact small_numeralTail ascii_decimalMarks false letters

def numeralRest (line : Nat) (letters : List Char) : Except Fault (Nat × List Char) :=
  (numeralAt line letters).map fun (_, after) => (line, after)

/-- A numeral is read to its end. -/
theorem numeralEnd_before (ends : letters <:+ content.toList) :
    numeralEnd content (before content line letters) =
      landed content (numeralRest line letters) := by
  have split := append_numeralParts letters
  have endsAfter : (numeralParts letters).2 <:+ content.toList := by
    rw [← split] at ends
    exact (List.suffix_append _ _).trans ends
  have text : (before content line letters).bytes content
      (offset content (numeralParts letters).2) = .ok (numeralParts letters).1 := by
    rw [← split] at ends
    have between : (before content line (_ ++ _)).bytes content _ = _ :=
      bytes_before ends (small_numeralParts letters)
    rwa [split] at between
  rw [numeralEnd, numeralBody_before ends, ok_bind, any_peek ascii_isNamePart endsAfter]
  unfold numeralRest numeralAt
  dsimp only
  cases (numeralParts letters).2.head?.any isNamePart with
  | true => rfl
  | false =>
    change Cursor.bytes content _ (offset content _) >>= _ = _
    rw [text, ok_bind]
    cases isNumeral (numeralParts letters).1 <;> rfl

end Scanner

end Lua

end LogPipeline
