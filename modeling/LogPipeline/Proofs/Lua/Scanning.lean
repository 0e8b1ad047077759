import LogPipeline.Proofs.Lua.LiteralScanning

namespace LogPipeline

namespace Lua

namespace Scanner

/-!
# Scanning a script comes to an end

A token begins between two characters and ends between two characters, so its
letters can be taken from the text.  Followed token by token, the scanner finds
the tokens of the letters of a text, or the fault that they have, and none of
its own checks ever fails.
-/

variable {content : String} {line : Nat} {first : Char} {rest letters : List Char}

/-! ## Tokens -/

/-- The kind of a token and where it leaves the cursor. -/
def ended (content : String) :
    Except Fault (Token × List Char × Nat) → Except Halt (TokenKind × Cursor)
  | .ok (token, after, last) => .ok (token.kind, before content last after)
  | .error fault => .error (.fault fault)

theorem wordEnd_before (ends : letters <:+ content.toList) :
    wordEnd content (before content line letters) =
      ended content (.ok ((wordAt letters).1, (wordAt letters).2, line)) := by
  have split : letters.takeWhile isNamePart ++ letters.dropWhile isNamePart = letters :=
    List.takeWhile_append_dropWhile
  have word : (before content line letters).slice content
      (before content line (letters.dropWhile isNamePart)).position =
        .ok (letters.takeWhile isNamePart) := by
    rw [← split] at ends
    have between : (before content line (_ ++ _)).slice content _ = _ := slice_before ends
    rwa [split] at between
  rw [wordEnd, ascii_isNamePart.span_before ends, ok_bind, word]
  rfl

theorem bracketAt_of_none (notOpened : longOpening? ('[' :: rest) = none) :
    bracketAt line rest =
      if rest.head? = some '=' then .error { line := line, cause := .invalidLongDelimiter }
      else .ok ({ kind := .symbol, letters := ['['] }, rest, line) := by
  unfold bracketAt
  rw [notOpened]
  dsimp only
  split
  · rfl
  · rename_i noEquals
    rw [if_neg]
    intro equals
    rcases List.head?_eq_some_iff.mp equals with ⟨tail, same⟩
    exact noEquals tail same

theorem bracketEnd_before (ends : '[' :: rest <:+ content.toList) :
    bracketEnd content (before content line ('[' :: rest)) =
      ended content (bracketAt line rest) := by
  have endsRest := (List.suffix_cons '[' rest).trans ends
  have next := peek_eq_some_iff line (by decide : '='.toNat < 128) endsRest
  rw [bracketEnd, level?_before ends, ok_bind]
  cases opened : longOpening? ('[' :: rest) with
  | some pair =>
    rcases pair with ⟨level, body⟩
    unfold bracketAt
    rw [opened]
    change longEnd _ level _ _ >>= _ = _
    rw [longEnd_before opened ends, longRest]
    dsimp only
    cases untilClosing? level body <;> rfl
  | none =>
    rw [bracketAt_of_none opened]
    simp only [Option.map_none, peek_succ ends (by decide), next, advance_one ends (by decide)]
    split <;> rfl

theorem symbolEnd_before (ends : first :: rest <:+ content.toList) :
    symbolEnd content (before content line (first :: rest)) =
      ended content
        ((symbolAt line first rest).map fun (token, after) => (token, after, line)) := by
  have whole : (before content line (first :: rest)).slice content content.utf8ByteSize =
      .ok (first :: rest) := by
    rw [← List.append_nil (first :: rest)] at ends
    have between : (before content line ((first :: rest) ++ [])).slice content _ = _ :=
      slice_before ends
    rwa [offset_nil, List.append_nil] at between
  rw [symbolEnd, whole, ok_bind, symbolAt]
  cases found : symbols.find? fun symbol => symbol.toList.isPrefixOf (first :: rest) with
  | none => rfl
  | some symbol =>
    have fits := List.find?_some found
    have isPrefix := List.prefix_iff_eq_append.mp (List.isPrefixOf_iff_prefix.mp fits)
    have moved : (before content line (first :: rest)).advance content symbol.utf8ByteSize =
        .ok (before content line ((first :: rest).drop symbol.toList.length)) := by
      rw [← isPrefix] at ends
      have moved : (before content line (_ ++ _)).advance content _ = _ := advance_before ends
      rwa [isPrefix, String.utf8Len_toList] at moved
    simp only [moved]
    rfl

theorem numeral_before (ends : letters <:+ content.toList) :
    (numeralEnd content (before content line letters)).map (TokenKind.number, ·) =
      ended content ((numeralAt line letters).map fun (token, after) => (token, after, line)) := by
  rw [numeralEnd_before ends, numeralRest, numeralAt]
  dsimp only
  split <;> rfl

theorem short_before (quoteSmall : first.toNat < 128) (ends : first :: rest <:+ content.toList) :
    (shortEnd content first (before content line (first :: rest))).map (TokenKind.string, ·) =
      ended content ((stringTail first .plain line rest).map fun (inside, after, reached) =>
        ({ kind := .string, letters := first :: inside }, after, reached)) := by
  rw [shortEnd_before quoteSmall ends, shortRest]
  cases stringTail first .plain line rest <;> rfl

theorem noMark_of_large {letter : Char} (large : 128 ≤ letter.toNat) :
    letter ≠ '.' ∧ letter ≠ '"' ∧ letter ≠ '\'' ∧ letter ≠ '[' := by
  refine ⟨?_, ?_, ?_, ?_⟩ <;> exact ne_of_large large (by decide)

theorem tokenEnd_of_large {byte : Char} (large : 128 ≤ byte.toNat) (cursor : Cursor) :
    tokenEnd content byte cursor = symbolEnd content cursor := by
  simp [tokenEnd, ascii_isNameStart.eq_false large, ascii_isDecimal.eq_false large,
    noMark_of_large large]

theorem tokenAt_of_large (large : 128 ≤ first.toNat) :
    tokenAt line first rest =
      (symbolAt line first rest).map fun (token, after) => (token, after, line) := by
  simp [tokenAt, ascii_isNameStart.eq_false large, ascii_isDecimal.eq_false large,
    noMark_of_large large]

/-- The token that begins with a letter is found at the first byte of that letter. -/
theorem tokenEnd_before {byte : Char} (ends : first :: rest <:+ content.toList)
    (seen : (before content line (first :: rest)).peek content 0 = some byte) :
    tokenEnd content byte (before content line (first :: rest)) =
      ended content (tokenAt line first rest) := by
  rcases Nat.lt_or_ge first.toNat 128 with small | large
  · have endsRest := (List.suffix_cons first rest).trans ends
    rw [peek_ascii line ends small] at seen
    cases seen
    unfold tokenEnd tokenAt
    rw [peek_succ ends small, any_peek ascii_isDecimal endsRest]
    split
    · exact wordEnd_before ends
    split
    · exact numeral_before ends
    split
    · exact short_before small ends
    split
    · rename_i bracket
      subst bracket
      exact bracketEnd_before ends
    · exact symbolEnd_before ends
  · -- No kind of token but a symbol takes such a letter or its first byte.
    rcases peek_large line ends large first.utf8Size_pos with ⟨high, beyond, isHigh⟩
    rw [isHigh] at seen
    cases seen
    rw [tokenEnd_of_large beyond, tokenAt_of_large large]
    exact symbolEnd_before ends

/-! ## Token after token -/

/-- The first token of letters, the line that is reached and what follows it, or
nothing where there is none. -/
def firstToken (line : Nat) (letters : List Char) :
    Except Fault (Option (Token × Nat × List Char)) :=
  match afterGap line letters with
  | .error fault => .error fault
  | .ok (_, []) => .ok none
  | .ok (reached, first :: rest) =>
    (tokenAt reached first rest).map fun (token, after, last) => some (token, last, after)

theorem tokensFrom_firstToken (line : Nat) (letters : List Char) :
    tokensFrom line letters =
      match firstToken line letters with
      | .error fault => .error fault
      | .ok none => .ok []
      | .ok (some (token, last, after)) => (tokensFrom last after).map (token :: ·) := by
  rw [tokensFrom_eq, firstToken]
  cases afterGap line letters with
  | error fault => rfl
  | ok pair =>
    rcases pair with ⟨reached, left⟩
    cases left with
    | nil => rfl
    | cons first rest =>
      dsimp only
      cases tokenAt reached first rest <;> rfl

/-- A token takes at least a letter. -/
theorem suffix_of_firstToken {token : Token} {last : Nat} {after : List Char}
    (found : firstToken line letters = .ok (some (token, last, after))) :
    after <:+ letters ∧ after.length < letters.length := by
  unfold firstToken at found
  split at found
  · cases found
  · cases found
  · rename_i reached first rest skipped
    have left := suffix_of_afterGap skipped
    cases taken : tokenAt reached first rest with
    | error fault =>
      rw [taken] at found
      cases found
    | ok triple =>
      rw [taken] at found
      cases found
      rcases append_of_tokenAt taken with ⟨whole, nonempty⟩
      have counted := congrArg List.length whole
      have positive := List.length_pos_iff.mpr nonempty
      have notLonger := left.length_le
      rw [List.length_append] at counted
      constructor
      · exact List.IsSuffix.trans ⟨_, whole⟩ left
      · omega

/-- The scanner finds the first token of the letters behind it, or the fault there. -/
theorem nextToken_before (ends : letters <:+ content.toList) :
    nextToken content (before content line letters) =
      match firstToken line letters with
      | .error fault => .error (.fault fault)
      | .ok none => .ok none
      | .ok (some (token, last, after)) => .ok (some (token, before content last after)) := by
  rw [nextToken, gap_before ends, firstToken]
  cases skipped : afterGap line letters with
  | error fault => rfl
  | ok pair =>
    rcases pair with ⟨reached, left⟩
    have endsLeft := (suffix_of_afterGap skipped).trans ends
    rw [landed, ok_bind]
    cases left with
    | nil =>
      rw [peek_nil]
      rfl
    | cons first rest =>
      rcases peek_cons reached endsLeft with ⟨byte, seen⟩
      simp only [seen, tokenEnd_before endsLeft seen]
      cases taken : tokenAt reached first rest with
      | error fault => rfl
      | ok triple =>
        rcases triple with ⟨token, after, last⟩
        have whole := (append_of_tokenAt taken).1
        have letters : (before content reached (first :: rest)).slice content
            (offset content after) = .ok token.letters := by
          rw [← whole] at endsLeft ⊢
          exact slice_before endsLeft
        rw [ended, ok_bind]
        change Cursor.slice content _ (offset content after) >>= _ = _
        rw [letters]
        rfl

/-- A token that is found ends between two characters, and further on. -/
theorem before_of_nextToken {token : Token} {next : Cursor} (ends : letters <:+ content.toList)
    (found : nextToken content (before content line letters) = .ok (some (token, next))) :
    ∃ last after, next = before content last after ∧ after <:+ letters ∧
      offset content letters < offset content after := by
  rw [nextToken_before ends] at found
  split at found
  · cases found
  · cases found
  · rename_i read last after taken
    cases found
    rcases suffix_of_firstToken taken with ⟨left, shorter⟩
    exact ⟨last, after, rfl, left, offset_lt ends left shorter⟩

/-- From between two characters the scanner finds the tokens of the letters that
are left, or their fault. -/
theorem scanFrom_before (ends : letters <:+ content.toList) :
    scanFrom content (before content line letters) =
      (tokensFrom line letters).mapError Halt.fault := by
  induction size : letters.length using Nat.strong_induction_on generalizing line letters with
  | _ size inductionHypothesis =>
  subst size
  have next : nextToken content (before content line letters) = _ := nextToken_before ends
  rw [scanFrom, next, tokensFrom_firstToken]
  cases found : firstToken line letters with
  | error fault => rfl
  | ok option =>
    cases option with
    | none => rfl
    | some triple =>
      rcases triple with ⟨token, last, after⟩
      rcases suffix_of_firstToken found with ⟨left, shorter⟩
      have onward : (before content line letters).position < (before content last after).position ∧
          (before content last after).position ≤ content.utf8ByteSize :=
        ⟨offset_lt ends left shorter, offset_le⟩
      dsimp only
      rw [dif_pos onward, inductionHypothesis _ shorter (left.trans ends) rfl]
      cases tokensFrom last after <;> rfl

theorem start_eq_before (content : String) : start = before content 1 content.toList := by
  rw [before, offset, String.utf8Len_toList, Nat.sub_self]
  rfl

/-- The scanner looks for tokens between characters only. -/
theorem Reached.eq_before {cursor : Cursor} (reached : Reached content cursor) :
    ∃ line letters, letters <:+ content.toList ∧ cursor = before content line letters := by
  induction reached with
  | start => exact ⟨1, content.toList, List.suffix_refl _, start_eq_before content⟩
  | next reached found inductionHypothesis =>
    rcases inductionHypothesis with ⟨line, letters, ends, same⟩
    rw [same] at found
    rcases before_of_nextToken ends found with ⟨last, after, behind, left, -⟩
    exact ⟨last, after, left.trans ends, behind⟩

/-- Every script is scanned to an end: the scanner finds the tokens of its
letters or the fault that they have, so it never takes a piece of the text whose
ends are not between characters, never moves past the end of the text, and never
goes on with a loop without having moved on.  Wherever it looks for a token it
stands between two characters of the text, and a token that it finds takes it
further on. -/
theorem scan_ends (content : String) :
    scan content = (tokens content.toList).mapError Halt.fault ∧
      ∀ cursor, Reached content cursor →
        String.Pos.Raw.IsValid content ⟨cursor.position⟩ ∧
          ∀ token next, nextToken content cursor = .ok (some (token, next)) →
            cursor.position < next.position ∧ next.position ≤ content.utf8ByteSize := by
  constructor
  · rw [scan, start_eq_before, tokens]
    exact scanFrom_before (List.suffix_refl _)
  · intro cursor reached
    rcases reached.eq_before with ⟨line, letters, ends, same⟩
    subst same
    constructor
    · exact isValid_offset ends
    · intro token next found
      rcases before_of_nextToken ends found with ⟨last, after, behind, -, onward⟩
      rw [behind]
      exact ⟨onward, offset_le⟩

/-- Two bytes on from the backslash of this script is the inside of a character. -/
theorem scan_ends_escapedLetter :
    Reached "'\\é'" start ∧
      nextToken "'\\é'" start =
        .ok (some ({ kind := .string, letters := ['\'', '\\', 'é', '\''] },
          { position := 5, line := 1 })) ∧
      start.position < 5 ∧ 5 ≤ "'\\é'".utf8ByteSize := by
  have reached : Reached "'\\é'" start := Reached.start
  have found : nextToken "'\\é'" start =
      .ok (some ({ kind := .string, letters := ['\'', '\\', 'é', '\''] },
        { position := 5, line := 1 })) := by
    have letters : "'\\é'".toList = ['\'', '\\', 'é', '\''] := by decide
    have noGap : afterGap 1 ['\'', '\\', 'é', '\''] = .ok (1, ['\'', '\\', 'é', '\'']) :=
      afterGap_token (by decide) (by decide)
    rw [start_eq_before, nextToken_before (List.suffix_refl _), firstToken, letters, noGap]
    rfl
  exact ⟨reached, found, ((scan_ends _).2 start reached).2 _ _ found⟩

end Scanner

end Lua

end LogPipeline
