import LogPipeline.Proofs.Lua.Nesting
import LogPipeline.Proofs.Lua.Reading
import LogPipeline.Proofs.Lua.RoundTrip

namespace LogPipeline

namespace Lua

/-!
# Lines are indented by the blocks around them

What a layout writes before a token is nothing, one space, or a line break and
the spaces for the blocks that it knows to be open.  For the tokens of a block
of statements these are the blocks that enclose the token, and the tokens of each
script that the interpreter reads are those of a block.
-/

/-- What may stand before a token: nothing, a space, or a line break and two
spaces for each block around the token. -/
def Placed.Indented (placed : Placed) (gap : List Char) : Prop :=
  gap = [] ∨ gap = [' '] ∨ gap = '\n' :: List.replicate (2 * placed.around.count .block) ' '

def openBehind (front : List Placed) : List Enclosure :=
  front.getLast?.elim [] Placed.behind

namespace Nesting

variable {row : List Placed} {finish : Nesting} {layout : Layout}

theorem indentation_of_knows {placed : Placed} (knows : layout.nesting.Knows placed) :
    (layout.closeBlock placed.token).indentation =
      List.replicate (2 * placed.around.count .block) ' ' := by
  rw [Layout.indentation, layout.blocks_closeBlock, knows.blocksAround, length_blockDepths]

theorem indented_gap {placed : Placed} (knows : layout.nesting.Knows placed) (before : Token) :
    placed.Indented ((layout.closeBlock placed.token).gap (some before) placed.token) := by
  rw [Layout.gap]
  split
  · rw [indentation_of_knows knows]
    exact .inr (.inr rfl)
  · split
    · exact .inr (.inl rfl)
    · exact .inl rfl

/-- Each gap between tokens whose surroundings are known is indented by them. -/
theorem Tracks.gaps (tracks : Tracks layout.nesting row finish) (before : Token) :
    List.Forall₂ Placed.Indented row (layout.gaps (some before) (row.map Placed.token)) := by
  induction row generalizing layout before with
  | nil => exact .nil
  | cons placed row inductionHypothesis =>
    cases tracks with
    | cons knows others =>
      rw [← layout.nesting_push (some before)] at others
      exact .cons (indented_gap knows before) (inductionHypothesis others placed.token)

/-- Where nothing is open at first, nothing is written before the first token. -/
theorem Tracks.gaps_none (tracks : Tracks layout.nesting row finish) (empty : layout.blocks = []) :
    List.Forall₂ Placed.Indented row (layout.gaps none (row.map Placed.token)) := by
  cases tracks with
  | nil => exact .nil
  | @cons _ _ placed row knows others =>
    rw [← layout.nesting_push none] at others
    have noBlock : (layout.closeBlock placed.token).blocks = [] := by
      unfold Layout.closeBlock
      split
      · exact congrArg List.tail empty
      · exact empty
    refine .cons (.inl ?_) (others.gaps placed.token)
    rw [Layout.gap, Layout.indentation, noBlock]
    rfl

end Nesting

/-- The text of a layout that starts with nothing written. -/
theorem layoutLetters_eq_spaced {read : List Token} (alone : ∀ token ∈ read, token.StandsAlone) :
    layoutLetters read = Layout.spaced (Layout.gaps {} none read) read ++
      if read = [] then [] else ['\n'] := by
  cases read with
  | nil => rfl
  | cons token read =>
    have follows : Layout.Follows {} none := rfl
    rw [List.forall_mem_cons] at alone
    rcases Layout.text_push follows alone.1 with ⟨pushed, followsToken⟩
    rw [layoutLetters, Layout.pushAll, Layout.letters_pushAll alone.2 followsToken, pushed,
      if_neg (List.cons_ne_nil token read), Layout.gaps, Layout.spaced, Layout.spaced,
      List.zipWith_cons_cons, List.flatten_cons, ← List.append_assoc]
    rfl

/-- What a layout knows behind some of the tokens of a block of statements. -/
theorem shows_take (block : Block) (count : Nat) :
    (Layout.pushAll {} none (block.tokens.take count)).nesting.Shows
      (openBehind ((block.placed []).take count)) := by
  have tracks := block.tracks []
  rw [Layout.nesting_pushAll, ← block.map_placed [], ← List.map_take]
  rcases List.eq_nil_or_concat ((block.placed []).take count) with none | ⟨front, placed, some⟩
  · rw [none]
    exact ⟨rfl, rfl⟩
  · rw [some, openBehind, List.concat_eq_append, List.getLast?_concat]
    rw [← List.take_append_drop count (block.placed []), some, List.concat_eq_append,
      List.append_assoc, List.singleton_append] at tracks
    exact tracks.shows

/-- The blocks of a layout follow the grammar.  Whatever tokens are read as a block
of statements are the tokens of that block, and behind any number of them a layout
knows for each block that is open there in how many brackets it stands, and how
many brackets are open.  Behind all of them nothing is open and nothing pending.
So in a script that is spread over lines each line break between tokens is followed
by two spaces for each block around the next token, and nothing else stands between
tokens but single spaces. -/
theorem indented_layoutLetters (block : Block) :
    (∀ read, Block.ofTokens? read = some block → block.tokens = read) ∧
    (∀ count,
      let layout := Layout.pushAll {} none (block.tokens.take count)
      let enclosures := openBehind ((block.placed []).take count)
      layout.blocks = blockDepths enclosures ∧ layout.depth = enclosures.count .bracket) ∧
    (let layout := Layout.pushAll {} none block.tokens
     layout.blocks = [] ∧ layout.parameters = [] ∧ layout.depth = 0 ∧
      layout.functionPending = false ∧ layout.inLabel = false) ∧
    ∀ source, tokenize source = .ok block.tokens →
      layoutLetters block.tokens =
          Layout.spaced (Layout.gaps {} none block.tokens) block.tokens ++
            (if block.tokens = [] then [] else ['\n']) ∧
        List.Forall₂ Placed.Indented (block.placed []) (Layout.gaps {} none block.tokens) := by
  refine ⟨fun read => Block.tokens_of_ofTokens?, fun count => shows_take block count, ?_,
    fun source split => ⟨?_, ?_⟩⟩
  · have finished : (Layout.pushAll {} none block.tokens).nesting = Nesting.inside [] := by
      rw [Layout.nesting_pushAll, ← block.map_placed []]
      exact (block.tracks []).foldl_push
    exact ⟨congrArg Nesting.blocks finished, congrArg Nesting.parameters finished,
      congrArg Nesting.depth finished, congrArg Nesting.functionPending finished,
      congrArg Nesting.inLabel finished⟩
  · exact layoutLetters_eq_spaced (standsAlone_of_tokenize split)
  · rw [← block.map_placed []]
    have start : Layout.nesting {} = Nesting.inside [] := rfl
    have tracks := block.tracks []
    rw [← start] at tracks
    exact tracks.gaps_none rfl

/-- A call with a function for its argument, and a conditional in that function. -/
def callback : Block :=
  .next (.call (.function (.place (.named ['f'])) (.listed (.last (.closure {}
    (.next (.conditional (.primary (.place (.named ['a'])))
      (.next (.assign (.last (.named ['b'])) (.last (.number ['1']))) .finished)
      .finished) .finished)))))) .finished

theorem indented_layoutLetters_callback :
    tokenize "f(function()if a then b=1 end end)" = .ok callback.tokens ∧
      String.ofList (layoutLetters callback.tokens) =
        "f(function()\n  if a then\n    b = 1\n  end\nend)\n" ∧
      (Layout.pushAll {} none (callback.tokens.take 8)).blocks = [1, 1] ∧
      blockDepths (openBehind ((callback.placed []).take 8)) = [1, 1] ∧
      List.Forall₂ Placed.Indented (callback.placed []) (Layout.gaps {} none callback.tokens) := by
  have split : tokenize "f(function()if a then b=1 end end)" = .ok callback.tokens :=
    toOption_eq_some_iff.mp (by decide +kernel)
  have depths : blockDepths (openBehind ((callback.placed []).take 8)) = [1, 1] := by decide
  obtain ⟨-, onTheWay, -, written⟩ := indented_layoutLetters callback
  refine ⟨split, by decide +kernel, ?_, depths, (written _ split).2⟩
  rw [← depths]
  exact (onTheWay 8).1

end Lua

end LogPipeline
