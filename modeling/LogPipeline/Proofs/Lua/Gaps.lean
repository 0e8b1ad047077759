import LogPipeline.Proofs.Lua.RoundTrip

namespace LogPipeline

namespace Lua

/-!
# The shortest text of a script

A text is its gaps and its tokens in turn, so of all texts with the same tokens
the one with the shortest gaps is the shortest.  Where two tokens touch, the
first ends before the second, and whether it does depends on these two tokens
alone.  So two tokens that cannot stand next to each other in one text cannot do
so in any other, and these are the ones between which a script on one line keeps
its single spaces.
-/

/-- The letters that are passed over in front of the token at a place, or behind
the last token at the place after it, in letters that are reached on a line. -/
def gapFrom (line : Nat) (letters : List Char) : Nat → List Char
  | 0 =>
    match afterGap line letters with
    | .ok (_, rest) => letters.take (letters.length - rest.length)
    | .error _ => []
  | index + 1 =>
    match afterGap line letters with
    | .ok (reached, first :: rest) =>
      match tokenAt reached first rest with
      | .ok (_, after, last) => gapFrom last after index
      | .error _ => []
    | _ => []

/-- The gap in front of the token at a place of a script, or behind the last
token at the place after it. -/
def gap (source : String) (index : Nat) : List Char :=
  gapFrom 1 source.toList index

/-- Tokens with a gap in front of each and one behind the last. -/
def woven (gaps : Nat → List Char) : List Token → List Char
  | [] => gaps 0
  | token :: read => gaps 0 ++ (token.letters ++ woven (fun index => gaps (index + 1)) read)

/-! ## The gaps of any text -/

theorem gapFrom_zero {line reached : Nat} {letters rest : List Char}
    (passed : afterGap line letters = .ok (reached, rest)) :
    gapFrom line letters 0 = letters.take (letters.length - rest.length) := by
  rw [gapFrom, passed]

/-- A gap and what follows it are the letters. -/
theorem gapFrom_zero_append {line reached : Nat} {letters rest : List Char}
    (passed : afterGap line letters = .ok (reached, rest)) :
    gapFrom line letters 0 ++ rest = letters := by
  rcases suffix_of_afterGap passed with ⟨skipped, rfl⟩
  rw [gapFrom_zero passed, List.length_append, Nat.add_sub_cancel, List.take_left]

theorem gapFrom_succ {line reached last : Nat} {first : Char} {letters rest after : List Char}
    {token : Token} (passed : afterGap line letters = .ok (reached, first :: rest))
    (taken : tokenAt reached first rest = .ok (token, after, last)) (index : Nat) :
    gapFrom line letters (index + 1) = gapFrom last after index := by
  rw [gapFrom, passed]
  simp only [taken]

theorem noComment_of_afterGap {line reached : Nat} {first : Char} {letters rest : List Char}
    (passed : afterGap line letters = .ok (reached, first :: rest)) :
    startsComment (first :: rest) = false := by
  fun_induction afterGap line letters with
  | case1 => cases passed
  | case2 => cases passed
  | case3 line inner level body opened inside after found inductionHypothesis =>
    exact inductionHypothesis passed
  | case4 line inner notOpened inductionHypothesis => exact inductionHypothesis passed
  | case5 line inner notComment inductionHypothesis => exact inductionHypothesis passed
  | case6 line letter inner notComment notFeed blank inductionHypothesis =>
    exact inductionHypothesis passed
  | case7 _ _ _ notComment =>
    cases passed
    cases dashes : startsComment (first :: rest) with
    | false => rfl
    | true =>
      rcases startsComment_iff.mp dashes with ⟨tail, same⟩
      rcases List.cons.inj same with ⟨rfl, rfl⟩
      exact (notComment tail rfl rfl).elim

/-- A text without tokens is a single gap. -/
theorem gapFrom_of_noTokens {line : Nat} {letters : List Char}
    (split : tokensFrom line letters = .ok []) : gapFrom line letters 0 = letters := by
  rw [tokensFrom_eq] at split
  split at split
  · cases split
  · rename_i reached passed
    rw [gapFrom_zero passed, List.length_nil, Nat.sub_zero, List.take_length]
  · split at split
    · cases split
    · rename_i token after last taken
      cases rest : tokensFrom last after <;> rw [rest] at split <;> cases split

/-- A text with tokens is a gap, the first token, which ends there, and a text
with the other tokens, whose gaps are the later ones. -/
theorem first_of_tokensFrom {line : Nat} {letters : List Char} {token : Token} {read : List Token}
    (split : tokensFrom line letters = .ok (token :: read)) :
    ∃ after last, letters = gapFrom line letters 0 ++ (token.letters ++ after) ∧
      token.EndsBefore after ∧ tokensFrom last after = .ok read ∧
      ∀ index, gapFrom line letters (index + 1) = gapFrom last after index := by
  rw [tokensFrom_eq] at split
  split at split
  · cases split
  · cases split
  · rename_i reached first rest passed
    split at split
    · cases split
    · rename_i found after last taken
      cases splitRest : tokensFrom last after with
      | error fault =>
        rw [splitRest] at split
        cases split
      | ok others =>
        rw [splitRest] at split
        cases split
        have whole := (append_of_tokenAt taken).1
        have isTaken := readToken?_eq_some_iff.mpr (tokenAt_eq_ok_iff.mp ⟨last, taken⟩)
        have noBlank := visible_of_readToken? isTaken
        have isPart : splitting.partAt? first rest = some (.token token, after) := by
          rw [Splitter.partAt?_of_noComment (noComment_of_afterGap passed),
            if_neg (by simp [noBlank])]
          simp only [splitting, isTaken, Option.map_some]
        refine ⟨after, last, ?_, (standsAlone_of_partAt? isPart).2, splitRest,
          gapFrom_succ passed taken⟩
        rw [whole, gapFrom_zero_append passed]

/-- A text is its gaps and its tokens in turn. -/
theorem woven_gapFrom {line : Nat} {letters : List Char} {read : List Token}
    (split : tokensFrom line letters = .ok read) : letters = woven (gapFrom line letters) read := by
  induction read generalizing line letters with
  | nil => exact (gapFrom_of_noTokens split).symm
  | cons token read inductionHypothesis =>
    rcases first_of_tokensFrom split with ⟨after, last, whole, -, splitRest, later⟩
    have same : (fun index => gapFrom line letters (index + 1)) = gapFrom last after :=
      funext later
    rw [woven, same, ← inductionHypothesis splitRest]
    exact whole

theorem gapFrom_nil (line index : Nat) : gapFrom line [] index = [] := by
  cases index <;> simp [gapFrom, afterGap]

/-- A token ends before what stands behind it. -/
theorem endsBefore_woven {line : Nat} {letters : List Char} {read : List Token}
    (split : tokensFrom line letters = .ok read) {place : Nat} {token : Token}
    (here : read[place]? = some token) :
    token.EndsBefore
      (woven (fun index => gapFrom line letters (place + 1 + index)) (read.drop (place + 1))) := by
  induction place generalizing line letters read with
  | zero =>
    cases read with
    | nil => cases here
    | cons found read =>
      cases here
      rcases first_of_tokensFrom split with ⟨after, last, -, ends, splitRest, later⟩
      have same : (fun index => gapFrom line letters (0 + 1 + index)) = gapFrom last after := by
        funext index
        rw [Nat.zero_add, Nat.add_comm, later]
      rw [same, List.drop_one, List.tail_cons, ← woven_gapFrom splitRest]
      exact ends
  | succ place inductionHypothesis =>
    cases read with
    | nil => cases here
    | cons found read =>
      rcases first_of_tokensFrom split with ⟨after, last, -, -, splitRest, later⟩
      have same : (fun index => gapFrom line letters (place + 1 + 1 + index)) =
          fun index => gapFrom last after (place + 1 + index) := by
        funext index
        rw [Nat.add_right_comm, later]
      rw [same, List.drop_succ_cons]
      exact inductionHypothesis splitRest here

/-- Where no gap stands between two tokens, the first ends before the second. -/
theorem endsBefore_of_gapFrom {line : Nat} {letters : List Char} {read : List Token}
    (split : tokensFrom line letters = .ok read) {index : Nat} {first second : Token}
    (isFirst : read[index]? = some first) (isSecond : read[index + 1]? = some second)
    (nonempty : second.letters ≠ []) (touch : gapFrom line letters (index + 1) = []) :
    first.EndsBefore second.letters := by
  have ends := endsBefore_woven split isFirst
  rcases List.getElem?_eq_some_iff.mp isSecond with ⟨inside, same⟩
  rw [List.drop_eq_getElem_cons inside, same, woven, Nat.add_zero, touch, List.nil_append] at ends
  exact (Token.endsBefore_append nonempty _).mp ends

theorem gapFrom_zero_of_stays {line : Nat} {letters : List Char}
    (stays : afterGap line letters = .ok (line, letters)) : gapFrom line letters 0 = [] := by
  rw [gapFrom_zero stays, Nat.sub_self, List.take_zero]

/-! ## The gaps of a script on one line -/

/-- Nothing is passed over in front of a token that starts the letters, and the
later gaps are those of what follows it. -/
theorem gapFrom_of_standsAlone {token : Token} {rest : List Char} (alone : token.StandsAlone)
    (ends : token.EndsBefore rest) (line : Nat) :
    afterGap line (token.letters ++ rest) = .ok (line, token.letters ++ rest) ∧
      ∃ last, ∀ index,
        gapFrom line (token.letters ++ rest) (index + 1) = gapFrom last rest index := by
  rcases partAt?_of_standsAlone alone ends with ⟨first, tail, spelled, isPart⟩
  rcases tokenAt_of_partAt? isPart line with ⟨stays, last, taken⟩
  rw [spelled, List.cons_append]
  exact ⟨stays, last, gapFrom_succ stays taken⟩

/-- A space in front of a token, where one is written, is all of the gap there,
and no later gap depends on it. -/
theorem gapFrom_spaced (isSpaced : Bool) {line : Nat} {letters : List Char}
    (stays : afterGap line letters = .ok (line, letters)) :
    gapFrom line ((if isSpaced then [' '] else []) ++ letters) 0 =
        (if isSpaced then [' '] else []) ∧
      ∀ index, gapFrom line ((if isSpaced then [' '] else []) ++ letters) (index + 1) =
        gapFrom line letters (index + 1) := by
  cases isSpaced with
  | false => exact ⟨gapFrom_zero_of_stays stays, fun _ => rfl⟩
  | true =>
    change gapFrom line (' ' :: letters) 0 = [' '] ∧
      ∀ index, gapFrom line (' ' :: letters) (index + 1) = gapFrom line letters (index + 1)
    have noComment : startsComment (' ' :: letters) = false := by
      rw [startsComment_cons]
      rfl
    have passed : afterGap line (' ' :: letters) = afterGap line letters := by
      rw [afterGap_cons noComment, if_neg (by decide), if_pos (by decide)]
    constructor
    · have whole := gapFrom_zero_append (passed.trans stays)
      exact List.append_cancel_right (whole.trans List.singleton_append.symm)
    · intro index
      rw [gapFrom, gapFrom, passed]

def NeedSpaceAt (read : List Token) (place : Nat) (first second : Token) : Prop :=
  read[place]? = some first ∧ read[place + 1]? = some second ∧ needsSpace first second = true

theorem NeedSpaceAt.cons {read : List Token} {place : Nat} {first second : Token}
    (need : NeedSpaceAt read place first second) (token : Token) :
    NeedSpaceAt (token :: read) (place + 1) first second :=
  need

/-- Joined tokens begin with the first one. -/
theorem joined_stays {read : List Token} (alone : ∀ token ∈ read, token.StandsAlone)
    (line : Nat) : afterGap line (joined read) = .ok (line, joined read) := by
  cases read with
  | nil => rw [joined, afterGap]
  | cons first rest =>
    have firstAlone := alone first List.mem_cons_self
    cases rest with
    | nil =>
      have stays := (gapFrom_of_standsAlone firstAlone first.endsBefore_nil line).1
      rwa [List.append_nil] at stays
    | cons second rest =>
      have secondAlone := alone second (List.mem_cons_of_mem first List.mem_cons_self)
      have ends := endsBefore_joined firstAlone secondAlone rest
      exact (gapFrom_of_standsAlone firstAlone ends line).1

/-- Between joined tokens stands no gap, or a single space where they need one. -/
theorem gapFrom_joined {read : List Token} (alone : ∀ token ∈ read, token.StandsAlone)
    (line index : Nat) :
    gapFrom line (joined read) index = [] ∨
      gapFrom line (joined read) index = [' '] ∧
        ∃ place, index = place + 1 ∧ ∃ first second, NeedSpaceAt read place first second := by
  induction read generalizing line index with
  | nil => exact .inl (gapFrom_nil line index)
  | cons first rest inductionHypothesis =>
    have firstAlone := alone first List.mem_cons_self
    have restAlone : ∀ token ∈ rest, token.StandsAlone :=
      fun token member => alone token (List.mem_cons_of_mem first member)
    cases index with
    | zero => exact .inl (gapFrom_zero_of_stays (joined_stays alone line))
    | succ index =>
      cases rest with
      | nil =>
        rcases (gapFrom_of_standsAlone firstAlone first.endsBefore_nil line).2 with ⟨last, later⟩
        have same := (later index).trans (gapFrom_nil last index)
        rw [List.append_nil] at same
        exact .inl same
      | cons second rest =>
        have ends := endsBefore_joined firstAlone (restAlone second List.mem_cons_self) rest
        rcases (gapFrom_of_standsAlone firstAlone ends line).2 with ⟨last, later⟩
        rcases gapFrom_spaced (needsSpace first second) (joined_stays restAlone last) with
          ⟨own, others⟩
        rw [joined, later]
        cases index with
        | zero =>
          rw [own]
          cases apart : needsSpace first second with
          | false => exact .inl rfl
          | true => exact .inr ⟨rfl, 0, rfl, first, second, rfl, rfl, apart⟩
        | succ place =>
          rw [others]
          rcases inductionHypothesis restAlone last (place + 1) with
            none | ⟨space, next, same, left, right, need⟩
          · exact .inl none
          · exact .inr ⟨space, next + 1, by omega, left, right, need.cons first⟩

/-! ## The shortest text -/

/-- Of two texts with the same tokens, the one whose gaps are nowhere longer is
no longer, however letters are measured. -/
theorem size_woven_le {size : List Char → Nat}
    (size_append : ∀ first second, size (first ++ second) = size first + size second)
    {gaps others : Nat → List Char} (each : ∀ index, size (gaps index) ≤ size (others index))
    (read : List Token) : size (woven gaps read) ≤ size (woven others read) := by
  induction read generalizing gaps others with
  | nil => exact each 0
  | cons token read inductionHypothesis =>
    have first := each 0
    have later := inductionHypothesis fun index => each (index + 1)
    simp only [woven, size_append]
    omega

section OneLine

variable {source small : String} {read : List Token}

theorem tokenize_small (split : tokenize source = .ok read)
    (written : small = String.ofList (compactLetters read)) :
    tokenize small = .ok (read.map singleLine) := by
  rw [written]
  exact tokenize_of_spells (spells_compactLetters (standsAlone_of_tokenize split))

/-- A gap of a script on one line is empty, or it is a single space and no text
with the same tokens is without a gap there. -/
theorem gap_small (split : tokenize source = .ok read)
    (written : small = String.ofList (compactLetters read)) (index : Nat) :
    gap small index = [] ∨
      gap small index = [' '] ∧
        ∀ other, tokenize other = .ok (read.map singleLine) → gap other index ≠ [] := by
  have alone := standsAlone_map_singleLine (standsAlone_of_tokenize split)
  rw [gap, written, String.toList_ofList]
  rcases gapFrom_joined alone 1 index with none | ⟨space, place, rfl, first, second, need⟩
  · exact .inl none
  · refine .inr ⟨space, fun other splitOther touch => ?_⟩
    rcases need with ⟨isFirst, isSecond, needed⟩
    have firstAlone := alone first (List.mem_of_getElem? isFirst)
    have secondAlone := alone second (List.mem_of_getElem? isSecond)
    have ends := endsBefore_of_gapFrom (tokenize_eq_ok_iff.mp splitOther) isFirst isSecond
      secondAlone.ne_nil touch
    rw [(needsSpace_eq_false_iff firstAlone secondAlone).mpr ends] at needed
    cases needed

/-- A script on one line is no longer than any text with the same tokens, for any
measure that adds up and gives no letters less than a space. -/
theorem size_small_le {size : List Char → Nat}
    (size_append : ∀ first second, size (first ++ second) = size first + size second)
    (least : ∀ letters, letters ≠ [] → size [' '] ≤ size letters)
    (split : tokenize source = .ok read) (written : small = String.ofList (compactLetters read))
    {other : String} (splitOther : tokenize other = .ok (read.map singleLine)) :
    size small.toList ≤ size other.toList := by
  have size_nil : size [] = 0 := by
    have twice := size_append [] []
    rw [List.append_nil] at twice
    omega
  rw [woven_gapFrom (tokenize_eq_ok_iff.mp (tokenize_small split written)),
    woven_gapFrom (tokenize_eq_ok_iff.mp splitOther)]
  refine size_woven_le size_append (fun index => ?_) _
  change size (gap small index) ≤ size (gap other index)
  rcases gap_small split written index with none | ⟨space, needed⟩
  · rw [none, size_nil]
    exact Nat.zero_le _
  · rw [space]
    exact least _ (needed other splitOther)

/-- The tokens of a script on one line have no shorter text, neither in letters
nor in bytes: every text with these tokens is its gaps and the tokens in turn, and
the line has a single space exactly where no such text is without a gap. -/
theorem shortest_of_tokenize (split : tokenize source = .ok read)
    (written : small = String.ofList (compactLetters read)) :
    (∀ other, tokenize other = tokenize small →
        small.length ≤ other.length ∧ small.utf8ByteSize ≤ other.utf8ByteSize) ∧
      (∀ other, tokenize other = tokenize small →
        other.toList = woven (gap other) (read.map singleLine)) ∧
      ∀ index, (gap small index = [] ∨ gap small index = [' ']) ∧
        (gap small index = [' '] ↔
          ∀ other, tokenize other = tokenize small → gap other index ≠ []) := by
  have splitSmall := tokenize_small split written
  rw [splitSmall]
  refine ⟨fun other splitOther => ⟨?_, ?_⟩, fun other splitOther => ?_, fun index => ⟨?_, ?_, ?_⟩⟩
  · have letters := size_small_le (fun _ _ => List.length_append)
      (fun _ nonempty => List.length_pos_iff.mpr nonempty) split written splitOther
    rwa [String.length_toList, String.length_toList] at letters
  · have bytes := @size_small_le _ _ _ (fun letters => (String.ofList letters).utf8ByteSize)
      (fun _ _ => by rw [String.ofList_append, String.utf8ByteSize_append])
      (fun _ nonempty => Nat.pos_of_ne_zero
        (mt String.utf8ByteSize_eq_zero_iff.mp (mt String.ofList_eq_empty_iff.mp nonempty)))
      split written _ splitOther
    rwa [String.ofList_toList, String.ofList_toList] at bytes
  · exact woven_gapFrom (tokenize_eq_ok_iff.mp splitOther)
  · rcases gap_small split written index with none | ⟨space, -⟩
    · exact .inl none
    · exact .inr space
  · intro space
    rcases gap_small split written index with none | ⟨-, needed⟩
    · rw [none] at space
      cases space
    · exact needed
  · intro needed
    rcases gap_small split written index with none | ⟨space, -⟩
    · exact absurd none (needed small splitSmall)
    · exact space

end OneLine

def difference : List Token :=
  [.ofWord "return", .ofName ['a'], .ofSymbol "-", .ofSymbol "-", .ofName ['b']]

/-- A comment would begin where the two signs touch, so the space between them
stays, unlike the one before them. -/
theorem shortest_of_tokenize_difference :
    tokenize "return a - -b -- c" = .ok difference ∧
      "return a- -b" = String.ofList (compactLetters difference) ∧
      gap "return a- -b" 2 = [] ∧ gap "return a- -b" 3 = [' '] ∧
      ∀ other, tokenize other = tokenize "return a- -b" →
        12 ≤ other.length ∧ gap other 3 ≠ [] := by
  have split : tokenize "return a - -b -- c" = .ok difference :=
    toOption_eq_some_iff.mp (by decide +kernel)
  have written : "return a- -b" = String.ofList (compactLetters difference) := by decide +kernel
  have space : gap "return a- -b" 3 = [' '] := by decide +kernel
  rcases shortest_of_tokenize split written with ⟨shorter, -, spaces⟩
  refine ⟨split, written, by decide +kernel, space, fun other same => ⟨?_, ?_⟩⟩
  · exact (shorter other same).1
  · exact (spaces 3).2.mp space other same

end Lua

end LogPipeline
