import LogPipeline.Lua.Script
import LogPipeline.Proofs.Lua.Interpreting
import LogPipeline.Proofs.Lua.Spreading

namespace LogPipeline

namespace Lua

/-!
# Compacting and spreading a script

What is written from the tokens of a script is split into the same tokens
again, each on one line where the script was compacted.  So a compacted script
is compacted to itself, and spreading it in between changes nothing.

A checker may look at the texts as well.  A compacted script has passed it, and
the only other text that is checked has the same tokens and no comments.
-/

/-- Whether the checker accepts a text without comments depends on its tokens only. -/
def Checker.ReadsTokens (accepts : Checker) : Prop :=
  ∀ (first second : String) (read : List Token),
    holdsComment first.toList = false → tokens first.toList = .ok read →
      holdsComment second.toList = false → tokens second.toList = .ok read →
        accepts first = accepts second

/-- A text is compacted to itself, also after it has been spread over lines. -/
def Survives (accepts : Checker) (text : String) : Prop :=
  compact accepts text = .ok text ∧
    ∃ wide, spread accepts text = .ok wide ∧ compact accepts wide = .ok text

theorem acceptAll_readsTokens : acceptAll.ReadsTokens := by
  intro first second read _ _ _ _
  rfl

/-- The interpreter reads a text without comments by its tokens. -/
theorem isChunk_readsTokens : Checker.ReadsTokens isChunk := by
  intro first second read noComment split noComment' split'
  exact isChunk_congr (spells_iff.mpr ⟨split, noComment⟩) (spells_iff.mpr ⟨split', noComment'⟩)

theorem checked_eq_ok_iff {accepts : Checker} {source text : String} :
    checked accepts source = .ok text ↔ text = source ∧ accepts source = true := by
  rw [checked]
  split
  · rename_i accepted
    simp [accepted, eq_comm]
  · rename_i refused
    simp [refused]

theorem tokenize_eq_ok_iff {source : String} {read : List Token} :
    tokenize source = .ok read ↔ tokens source.toList = .ok read := by
  rw [tokenize]
  cases tokens source.toList <;> simp [Except.mapError]

/-- What is spelled is split again. -/
theorem tokenize_of_spells {letters : List Char} {read : List Token}
    (spells : Spells letters read) : tokenize (String.ofList letters) = .ok read := by
  rw [tokenize_eq_ok_iff, String.toList_ofList]
  exact (spells_iff.mp spells).1

theorem standsAlone_of_tokenize {source : String} {read : List Token}
    (split : tokenize source = .ok read) : ∀ token ∈ read, token.StandsAlone :=
  standsAlone_of_tokens (tokenize_eq_ok_iff.mp split)

/-- A script on one line is split into its tokens, each with its letters on one
line.  Looking at neighbours is enough for that: tokens of any scripts, written
without spaces, are split into the same tokens if no two neighbours need a space. -/
theorem tokenize_compactLetters :
    (∀ source read, tokenize source = .ok read →
      tokenize (String.ofList (compactLetters read)) =
        .ok (read.map fun token =>
          { kind := token.kind, letters := singleLineLetters token })) ∧
      ∀ read : List Token,
        (∀ token ∈ read, ∃ source others, tokenize source = .ok others ∧ token ∈ others) →
          (read.IsChain fun first second => needsSpace first second = false) →
            tokenize (String.ofList (read.flatMap Token.letters)) = .ok read := by
  constructor
  · intro source read split
    exact tokenize_of_spells (spells_compactLetters (standsAlone_of_tokenize split))
  · intro read found apart
    rw [← joined_of_isChain apart]
    refine tokenize_of_spells (spells_joined fun token member => ?_)
    rcases found token member with ⟨source, others, split, listed⟩
    exact standsAlone_of_tokenize split token listed

def assignment : List Token :=
  [.ofName ['x'], .ofSymbol "=", { kind := .string, letters := "[[a\nb]]".toList }, .ofSymbol "..",
    { kind := .number, letters := ['1'] }]

def assignmentOnOneLine : List Token :=
  [.ofName ['x'], .ofSymbol "=", { kind := .string, letters := "\"a\\nb\"".toList },
    .ofSymbol "..", { kind := .number, letters := ['1'] }]

theorem tokenize_compactLetters_assignment :
    tokenize "x = [[a\nb]] .. 1 -- c" = .ok assignment ∧
      String.ofList (compactLetters assignment) = "x=\"a\\nb\"..1" ∧
      tokenize "x=\"a\\nb\"..1" = .ok assignmentOnOneLine ∧
      (assignmentOnOneLine.IsChain fun first second => needsSpace first second = false) ∧
      tokenize (String.ofList (assignmentOnOneLine.flatMap Token.letters)) =
        .ok assignmentOnOneLine := by
  have split : tokenize "x = [[a\nb]] .. 1 -- c" = .ok assignment :=
    toOption_eq_some_iff.mp (by decide +kernel)
  have written : String.ofList (compactLetters assignment) = "x=\"a\\nb\"..1" := by decide +kernel
  have again := tokenize_compactLetters.1 _ _ split
  rw [written] at again
  have apart : assignmentOnOneLine.IsChain fun first second => needsSpace first second = false := by
    decide +kernel
  refine ⟨split, written, again, apart, tokenize_compactLetters.2 _ (fun token member => ?_) apart⟩
  exact ⟨_, assignmentOnOneLine, again, member⟩

/-- A script spread over lines is split into the same tokens, also if it begins
inside any blocks and brackets, with a function or a label pending. -/
theorem tokenize_layoutLetters {source : String} {read : List Token}
    (split : tokenize source = .ok read) :
    tokenize (String.ofList (layoutLetters read)) = .ok read ∧
      ∀ start : Layout, start.lines = [] → start.current = [] →
        tokenize (String.ofList (start.pushAll none read).letters) = .ok read := by
  have alone := standsAlone_of_tokenize split
  refine ⟨tokenize_of_spells (spells_layoutLetters alone), fun start noLines noCurrent => ?_⟩
  have empty : start.text = [] := by
    rw [Layout.text, noLines, noCurrent]
    rfl
  exact tokenize_of_spells (spells_pushAll alone empty)

/-- Tokens of no chunk: closings without openings, an open label and a long string
with an empty line. -/
def fragment : List Token :=
  [.ofWord "end", .ofSymbol ")", .ofSymbol "::", .ofName ['a'],
    { kind := .string, letters := "[[\n]]".toList }, .ofSymbol "]"]

theorem tokenize_layoutLetters_fragment :
    tokenize "end ) :: a [[\n]] ]" = .ok fragment ∧
      String.ofList (layoutLetters fragment) = "end)\n::a [[\n]]]\n" ∧
      tokenize "end)\n::a [[\n]]]\n" = .ok fragment ∧
      tokenize (String.ofList
        (Layout.pushAll { blocks := [4, 1], functionPending := true, inLabel := true } none
          fragment).letters) = .ok fragment := by
  have split : tokenize "end ) :: a [[\n]] ]" = .ok fragment :=
    toOption_eq_some_iff.mp (by decide +kernel)
  have written : String.ofList (layoutLetters fragment) = "end)\n::a [[\n]]]\n" := by
    decide +kernel
  rcases tokenize_layoutLetters split with ⟨again, fromAny⟩
  rw [written] at again
  exact ⟨split, written, again, fromAny _ rfl rfl⟩

/-- A script is written anew if it passes the checker, has tokens, and what is
written from these passes the checker as well. -/
theorem reformatted_eq_ok_iff {accepts : Checker} {write : List Token → List Char}
    {source text : String} :
    reformatted accepts write source = .ok text ↔
      accepts source = true ∧ ∃ read, tokens source.toList = .ok read ∧
        text = String.ofList (write read) ∧ accepts text = true := by
  constructor
  · intro written
    rw [reformatted] at written
    cases accepted : checked accepts source with
    | error failure =>
      rw [accepted] at written
      cases written
    | ok first =>
      rcases checked_eq_ok_iff.mp accepted with ⟨rfl, passes⟩
      rw [accepted] at written
      change (tokenize first >>= fun read => checked accepts (String.ofList (write read))) =
        .ok text at written
      cases split : tokenize first with
      | error failure =>
        rw [split] at written
        cases written
      | ok read =>
        rw [split] at written
        rcases checked_eq_ok_iff.mp written with ⟨rfl, passesAfter⟩
        exact ⟨passes, read, tokenize_eq_ok_iff.mp split, rfl, passesAfter⟩
  · rintro ⟨passes, read, split, rfl, passesAfter⟩
    rw [reformatted, checked_eq_ok_iff.mpr ⟨rfl, passes⟩]
    change (tokenize source >>= fun read => checked accepts (String.ofList (write read))) = _
    rw [tokenize_eq_ok_iff.mpr split]
    exact checked_eq_ok_iff.mpr ⟨rfl, passesAfter⟩

/-- A script that is not written anew has no tokens, or a text is refused. -/
theorem kind_of_reformatted {accepts : Checker} {write : List Token → List Char} {source : String}
    {failure : Failure} (fails : reformatted accepts write source = .error failure) :
    failure.kind = .minifier := by
  rw [reformatted, checked] at fails
  by_cases accepted : accepts source = true
  · rw [if_pos accepted] at fails
    change (tokenize source >>= fun read => checked accepts (String.ofList (write read))) =
      .error failure at fails
    rw [tokenize] at fails
    cases split : tokens source.toList with
    | error fault =>
      rw [split] at fails
      cases fails
      rfl
    | ok read =>
      rw [split] at fails
      change checked accepts (String.ofList (write read)) = .error failure at fails
      rw [checked] at fails
      split at fails <;> cases fails
      rfl
  · rw [if_neg accepted] at fails
    cases fails
    rfl

/-- A compacted script stands on one line. -/
theorem noBreak_of_compact {accepts : Checker} {source small : String}
    (compacted : compact accepts source = .ok small) : small.toList.any isBreak = false := by
  rcases reformatted_eq_ok_iff.mp compacted with ⟨-, read, split, rfl, -⟩
  rw [String.toList_ofList]
  exact noBreak_compactLetters (standsAlone_of_tokens split)

/-- A compacted script survives being compacted and spread. -/
theorem survives_of_compact {accepts : Checker} (readsTokens : accepts.ReadsTokens)
    {source small : String} (compacted : compact accepts source = .ok small) :
    Survives accepts small := by
  rcases reformatted_eq_ok_iff.mp compacted with ⟨-, read, split, rfl, accepted⟩
  have alone := standsAlone_of_tokens split
  have sameSmall := compactLetters_map_singleLine alone
  have smallSpells := spells_compactLetters alone
  have wideSpells := spells_layoutLetters (standsAlone_map_singleLine alone)
  rw [← @String.toList_ofList (compactLetters read)] at smallSpells
  rw [← @String.toList_ofList (layoutLetters (read.map singleLine))] at wideSpells
  rcases spells_iff.mp smallSpells with ⟨smallSplit, smallNoComment⟩
  rcases spells_iff.mp wideSpells with ⟨wideSplit, wideNoComment⟩
  have wideAccepted : accepts (String.ofList (layoutLetters (read.map singleLine))) = true :=
    (readsTokens _ _ _ wideNoComment wideSplit smallNoComment smallSplit).trans accepted
  refine ⟨reformatted_eq_ok_iff.mpr ?_, String.ofList (layoutLetters (read.map singleLine)),
    reformatted_eq_ok_iff.mpr ?_, reformatted_eq_ok_iff.mpr ?_⟩
  · exact ⟨accepted, _, smallSplit, by rw [sameSmall], accepted⟩
  · exact ⟨accepted, _, smallSplit, rfl, wideAccepted⟩
  · exact ⟨wideAccepted, _, wideSplit, by rw [sameSmall], accepted⟩

/-- Whatever is compacted survives being compacted and spread: without a check,
with any check that reads comment-free texts by their tokens, and with the rules
of the interpreter. -/
theorem compact_survives :
    (∀ source small, compact acceptAll source = .ok small → Survives acceptAll small) ∧
      (∀ accepts : Checker, accepts.ReadsTokens → ∀ source small,
        compact accepts source = .ok small → Survives accepts small) ∧
      (∀ source small, compact isChunk source = .ok small → Survives isChunk small) := by
  refine ⟨?_, ?_, ?_⟩
  · intro source small compacted
    exact survives_of_compact acceptAll_readsTokens compacted
  · intro accepts readsTokens source small compacted
    exact survives_of_compact readsTokens compacted
  · intro source small compacted
    exact survives_of_compact isChunk_readsTokens compacted

theorem compact_survives_local :
    compact isChunk "local x = 'a\\\nb' -- note" = .ok "local x='a\\nb'" ∧
      Survives isChunk "local x='a\\nb'" := by
  have compacted : compact isChunk "local x = 'a\\\nb' -- note" = .ok "local x='a\\nb'" :=
    toOption_eq_some_iff.mp (by decide +kernel)
  exact ⟨compacted, compact_survives.2.1 isChunk isChunk_readsTokens _ _ compacted⟩

end Lua

end LogPipeline
