import LogPipeline.Lua.Layout
import LogPipeline.Proofs.Lua.Joining

namespace LogPipeline

namespace Lua

/-!
# Scripts over lines are split into the same tokens

Whatever the blocks and brackets are, writing one more token adds nothing to
the text of a layout but blanks and the letters of the token.  Where it adds no
blank, the token before ends there by itself.  Hence the lines spell the tokens
from which they were made.
-/

namespace Layout

/-- The text of the finished lines and of the one that is being written. -/
def text (layout : Layout) : List Char :=
  layout.lines.flatMap (· ++ ['\n']) ++ layout.current

/-- Nothing is written before the first token, and after it the current line is
never blank. -/
def Follows (layout : Layout) (before : Option Token) : Prop :=
  match before with
  | none => layout.text = []
  | some _ => isVisible layout.current = true

/-- White space of any alphabet lies outside the printing characters of ASCII. -/
theorem isWhite_of_graphic {letter : Char} (graphic : 32 < letter.toNat ∧ letter.toNat < 127) :
    isWhite letter = false := by
  have notListed : whiteCodes.contains letter.toNat = false := by
    simp only [whiteCodes, List.contains_cons, List.contains_nil, Bool.or_eq_false_iff,
      beq_eq_false_iff_ne, and_true]
    omega
  have notControl : ¬ letter.toNat ≤ 13 := by omega
  have notFixed : ¬ 0x2000 ≤ letter.toNat := by omega
  simp only [isWhite, notListed, notControl, notFixed, decide_false, Bool.and_false,
    Bool.false_and, Bool.or_false]

/-- A line with a token on it is never dropped. -/
theorem isVisible_of_standsAlone {token : Token} (alone : token.StandsAlone)
    (line : List Char) : isVisible (line ++ token.letters) = true := by
  rcases alone with ⟨first, tail, spelled, taken⟩
  have notWhite := isWhite_of_graphic (graphic_of_readToken? taken)
  rw [isVisible, List.any_append, spelled, List.any_cons]
  simp [notWhite]

theorem closeBlock_written (layout : Layout) (token : Token) :
    (layout.closeBlock token).lines = layout.lines ∧
      (layout.closeBlock token).current = layout.current := by
  unfold closeBlock
  split <;> exact ⟨rfl, rfl⟩

theorem openBracket_written (layout : Layout) (round : Bool) :
    (layout.openBracket round).lines = layout.lines ∧
      (layout.openBracket round).current = layout.current := by
  unfold openBracket
  split <;> exact ⟨rfl, rfl⟩

theorem closeBracket_written (layout : Layout) (round : Bool) :
    (layout.closeBracket round).lines = layout.lines ∧
      (layout.closeBracket round).current = layout.current := by
  unfold closeBracket
  split <;> exact ⟨rfl, rfl⟩

/-- What a token opens and closes leaves the text alone. -/
theorem note_written (layout : Layout) (token : Token) :
    (layout.note token).lines = layout.lines ∧ (layout.note token).current = layout.current := by
  unfold note
  split
  · exact ⟨rfl, rfl⟩
  split
  · exact ⟨rfl, rfl⟩
  split
  · exact layout.openBracket_written true
  split
  · exact layout.closeBracket_written true
  split
  · exact layout.openBracket_written false
  split
  · exact layout.closeBracket_written false
  split <;> exact ⟨rfl, rfl⟩

/-- What is written before a token, given the token before it. -/
def gap (layout : Layout) (before : Option Token) (token : Token) : List Char :=
  match before with
  | none => layout.indentation
  | some before =>
    if layout.breaksBefore before token then '\n' :: layout.indentation
    else if (!(token.isSymbol "::" && layout.inLabel) && wantsSpace before token) ||
        needsSpace before token then [' ']
    else []

theorem isBlank_gap (layout : Layout) (before : Option Token) (token : Token) :
    ∀ letter ∈ layout.gap before token, isBlank letter = true := by
  have indented : ∀ letter ∈ layout.indentation, isBlank letter = true := by
    intro letter member
    rw [List.eq_of_mem_replicate member]
    rfl
  unfold gap
  split
  · exact indented
  · split
    · rw [List.forall_mem_cons]
      exact ⟨rfl, indented⟩
    · split <;> simp [isBlank]

/-- Where nothing is written between two tokens, the first ends by itself. -/
theorem endsBefore_of_gap {layout : Layout} {before token : Token}
    (beforeAlone : before.StandsAlone) (alone : token.StandsAlone)
    (noGap : layout.gap (some before) token = []) : before.EndsBefore token.letters := by
  rw [gap] at noGap
  split at noGap
  · cases noGap
  · split at noGap
    · cases noGap
    case isFalse spaced =>
      rw [Bool.not_eq_true, Bool.or_eq_false_iff] at spaced
      exact (needsSpace_eq_false_iff beforeAlone alone).mp spaced.2

/-- Writing a token adds a gap and the token. -/
theorem text_write {layout : Layout} {before : Option Token} {token : Token}
    (follows : layout.Follows before) (alone : token.StandsAlone) :
    (layout.write before token).text = layout.text ++ (layout.gap before token ++ token.letters) ∧
      isVisible (layout.write before token).current = true := by
  cases before with
  | none =>
    rcases List.append_eq_nil_iff.mp follows with ⟨noLines, noCurrent⟩
    refine ⟨?_, isVisible_of_standsAlone alone _⟩
    rw [text, text, write, noLines, noCurrent]
    rfl
  | some word =>
    have visible : isVisible layout.current = true := follows
    rw [write, gap]
    split
    · refine ⟨?_, isVisible_of_standsAlone alone _⟩
      simp [text, endedLines, visible]
    · dsimp only
      rw [← List.append_assoc]
      refine ⟨?_, isVisible_of_standsAlone alone _⟩
      simp [text]

theorem text_push {layout : Layout} {before : Option Token} {token : Token}
    (follows : layout.Follows before) (alone : token.StandsAlone) :
    (layout.push before token).text =
        layout.text ++ ((layout.closeBlock token).gap before token ++ token.letters) ∧
      (layout.push before token).Follows (some token) := by
  rcases layout.closeBlock_written token with ⟨closedLines, closedCurrent⟩
  have sameText : (layout.closeBlock token).text = layout.text := by
    rw [text, text, closedLines, closedCurrent]
  have closedFollows : (layout.closeBlock token).Follows before := by
    cases before with
    | none => exact sameText.trans follows
    | some word => exact (congrArg isVisible closedCurrent).trans follows
  rcases text_write closedFollows alone with ⟨written, visible⟩
  rcases note_written { (layout.closeBlock token).write before token with blockOpened := false }
    token with ⟨notedLines, notedCurrent⟩
  refine ⟨?_, (congrArg isVisible notedCurrent).trans visible⟩
  rw [← sameText, ← written, push, text, notedLines, notedCurrent, text]

/-- What is written before each token of a row, given the token before them. -/
def gaps (layout : Layout) (before : Option Token) : List Token → List (List Char)
  | [] => []
  | token :: rest =>
    (layout.closeBlock token).gap before token :: (layout.push before token).gaps (some token) rest

/-- The text of tokens, each behind what is written before it. -/
def spaced (gaps : List (List Char)) (read : List Token) : List Char :=
  (List.zipWith (fun gap token => gap ++ token.letters) gaps read).flatten

/-- The text of a layout once it is ended behind a row of tokens. -/
theorem letters_pushAll {read : List Token} (alone : ∀ token ∈ read, token.StandsAlone)
    {layout : Layout} {before : Token} (follows : layout.Follows (some before)) :
    (layout.pushAll (some before) read).letters =
      layout.text ++ (spaced (layout.gaps (some before) read) read ++ ['\n']) := by
  induction read generalizing layout before with
  | nil =>
    have visible : isVisible layout.current = true := follows
    simp [pushAll, letters, endedLines, visible, text, gaps, spaced]
  | cons token read inductionHypothesis =>
    rw [List.forall_mem_cons] at alone
    rcases text_push follows alone.1 with ⟨pushed, followsToken⟩
    rw [pushAll, inductionHypothesis alone.2 followsToken, pushed, gaps, spaced, spaced,
      List.zipWith_cons_cons, List.flatten_cons]
    simp only [List.append_assoc]

end Layout

/-- Blanks before what is spelled spell nothing. -/
theorem spells_blanks {gap rest : List Char} {read : List Token}
    (blank : ∀ letter ∈ gap, isBlank letter = true) (spells : Spells rest read) :
    Spells (gap ++ rest) read := by
  induction gap with
  | nil => exact spells
  | cons letter gap inductionHypothesis =>
    refine .blank (blank letter List.mem_cons_self) (inductionHypothesis ?_)
    exact fun other member => blank other (List.mem_cons_of_mem letter member)

namespace Layout

/-- What is written after a layout spells the tokens that are pushed, and the
token before them ends there. -/
theorem pushAll_spells {read : List Token} (alone : ∀ token ∈ read, token.StandsAlone)
    {layout : Layout} {before : Option Token} (follows : layout.Follows before)
    (beforeAlone : ∀ word ∈ before, word.StandsAlone) :
    ∃ rest, (layout.pushAll before read).letters = layout.text ++ rest ∧ Spells rest read ∧
      ∀ word ∈ before, word.EndsBefore rest := by
  induction read generalizing layout before with
  | nil =>
    cases before with
    | none =>
      rcases List.append_eq_nil_iff.mp follows with ⟨noLines, noCurrent⟩
      refine ⟨[], ?_, .nil, by simp⟩
      have notVisible : isVisible layout.current = false := by rw [noCurrent]; rfl
      rw [pushAll, letters, endedLines, notVisible, List.append_nil, text, noCurrent]
      simp
    | some word =>
      have visible : isVisible layout.current = true := follows
      refine ⟨['\n'], ?_, .blank rfl .nil, ?_⟩
      · simp [pushAll, letters, endedLines, visible, text]
      · intro found member
        exact found.endsBefore_blank rfl []
  | cons token read inductionHypothesis =>
    have tokenAlone := alone token List.mem_cons_self
    have restAlone : ∀ other ∈ read, other.StandsAlone :=
      fun other member => alone other (List.mem_cons_of_mem token member)
    rcases text_push follows tokenAlone with ⟨pushed, followsToken⟩
    rcases inductionHypothesis restAlone followsToken (by simpa using tokenAlone) with
      ⟨rest, written, spells, tokenEnds⟩
    have blank := (layout.closeBlock token).isBlank_gap before token
    refine ⟨(layout.closeBlock token).gap before token ++ (token.letters ++ rest), ?_, ?_, ?_⟩
    · rw [pushAll, written, pushed, List.append_assoc, List.append_assoc]
    · exact spells_blanks blank (.token tokenAlone (tokenEnds token rfl) spells)
    · rintro word ⟨⟩
      cases written : (layout.closeBlock token).gap (some word) token with
      | nil =>
        exact (Token.endsBefore_append tokenAlone.ne_nil rest).mpr
          (endsBefore_of_gap (beforeAlone word rfl) tokenAlone written)
      | cons letter letters =>
        rw [written] at blank
        exact word.endsBefore_blank (blank letter List.mem_cons_self) _

end Layout

/-- Whatever blocks and brackets are open at the start, and whatever is pending
there, a script spread over lines spells the tokens from which it was made. -/
theorem spells_pushAll {read : List Token} (alone : ∀ token ∈ read, token.StandsAlone)
    {start : Layout} (empty : start.text = []) : Spells (start.pushAll none read).letters read := by
  have follows : start.Follows none := empty
  rcases Layout.pushAll_spells alone follows (by simp) with ⟨rest, written, spells, -⟩
  rw [written, empty]
  exact spells

/-- A script spread over lines spells the tokens from which it was made. -/
theorem spells_layoutLetters {read : List Token} (alone : ∀ token ∈ read, token.StandsAlone) :
    Spells (layoutLetters read) read :=
  spells_pushAll alone rfl

end Lua

end LogPipeline
