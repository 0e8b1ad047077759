import LogPipeline.Proofs.Lua.Lines
import LogPipeline.Proofs.Lua.Neighbours

namespace LogPipeline

namespace Lua

/-!
# Lines begin with statements

A layout that knows what is open behind a token decides about the next one as the
grammar does.  So a line begins with the first token of a statement or with a word
that closes a block, and never inside a statement.  Most statements have a line of
their own; the exceptions are those behind a semicolon or behind the attribute of a
variable, and those that begin with `do` or with a bracket.
-/

namespace Layout

/-- Whether a line begins with a token depends on little of what is known. -/
theorem breaksBefore_congr {first second : Layout} {before token : Token}
    (sameOpened : first.blockOpened = second.blockOpened) (sameLabel : first.inLabel = second.inLabel)
    (sameDepth : first.localDepth = second.localDepth) :
    first.breaksBefore before token = second.breaksBefore before token := by
  unfold breaksBefore
  rw [sameOpened, sameLabel, sameDepth]

theorem lineBreak_mem_gap_iff (layout : Layout) (before token : Token) :
    '\n' ∈ layout.gap (some before) token ↔ layout.breaksBefore before token = true := by
  rw [gap]
  split
  case isTrue breaks => exact iff_of_true List.mem_cons_self breaks
  case isFalse inner =>
    refine iff_of_false ?_ inner
    split <;> simp

/-! ## What a token changes -/

section Note

variable (layout : Layout) (token : Token)

/-- A token that is noted opens one block or none. -/
theorem length_blocks_note (closed : layout.blockOpened = false) :
    (layout.note token).blocks.length =
      layout.blocks.length + (layout.note token).blockOpened.toNat := by
  have bracket (round : Bool) : (layout.openBracket round).blocks.length =
      layout.blocks.length + (layout.openBracket round).blockOpened.toNat := by
    unfold openBracket
    split <;> simp [closed]
  have closing (round : Bool) : (layout.closeBracket round).blocks.length =
      layout.blocks.length + (layout.closeBracket round).blockOpened.toNat := by
    unfold closeBracket
    split <;> simp [openBlock, closed]
  unfold note
  split
  · simp [openBlock]
  split
  · simp [closed]
  split
  · exact bracket true
  split
  · exact closing true
  split
  · exact bracket false
  split
  · exact closing false
  split <;> simp [closed]

theorem inLabel_note :
    (layout.note token).inLabel = (layout.inLabel != token.isSymbol "::") := by
  have bracket (round : Bool) : (layout.openBracket round).inLabel = layout.inLabel := by
    unfold openBracket
    split <;> rfl
  have closing (round : Bool) : (layout.closeBracket round).inLabel = layout.inLabel := by
    unfold closeBracket
    split <;> rfl
  cases colons : token.isSymbol "::" with
  | true =>
    rw [Token.isSymbol_iff.mp colons, Bool.bne_true]
    rfl
  | false =>
    rw [Bool.bne_false]
    unfold note
    rw [colons]
    split
    · rfl
    split
    · rfl
    split
    · exact bracket true
    split
    · exact closing true
    split
    · exact bracket false
    split
    · exact closing false
    · rfl

end Note

end Layout

namespace Marked

/-- What a layout knows behind a token is what the marks of the token say. -/
structure Matches (before : Marked) (layout : Layout) : Prop where
  shows : layout.nesting.Shows before.behind
  opened : layout.blockOpened = decide (before.opens = some .block)
  label : layout.inLabel = before.labelBehind

variable {before next : Marked} {layout : Layout}

theorem Matches.breaksBefore (same : before.Matches layout) (next : Marked) :
    (layout.closeBlock next.token).breaksBefore before.token next.token = before.breaks next := by
  have flags := layout.closeBlock_flags next.token
  have ownFlags := before.layout.closeBlock_flags next.token
  apply Layout.breaksBefore_congr
  · rw [flags.1, ownFlags.1, same.opened]
    rfl
  · rw [flags.2, ownFlags.2, same.label]
    rfl
  · have blocks : layout.blocks = before.layout.blocks := same.shows.1
    have depth : layout.depth = before.layout.depth := same.shows.2
    unfold Layout.localDepth Layout.closeBlock
    split <;> simp only [blocks, depth]

/-- Where the brackets and blocks around a token are known, and whether it stands in
a label, all is known behind it. -/
theorem matches_push (before : Option Token) (knows : layout.nesting.Knows next.toPlaced)
    (label : layout.inLabel = next.inLabel) : next.Matches (layout.push before next.token) where
  shows := by
    rw [Layout.nesting_push]
    exact knows.behind
  opened := by
    have grown := Layout.length_blocks_note
      { (layout.closeBlock next.token).write before next.token with blockOpened := false }
      next.token rfl
    have blocks : ((layout.closeBlock next.token).write before next.token).blocks =
        (layout.closeBlock next.token).blocks :=
      congrArg Nesting.blocks (Layout.nesting_write _ before next.token)
    have behind : (layout.push before next.token).blocks = blockDepths next.behind := by
      have shown := knows.behind.1
      rwa [← Layout.nesting_push layout before] at shown
    change (layout.push before next.token).blocks.length = _ +
      (layout.push before next.token).blockOpened.toNat at grown
    rw [behind, blocks, layout.blocks_closeBlock, knows.blocksAround, length_blockDepths,
      length_blockDepths, Placed.behind, List.count_append, Nat.add_comm,
      Nat.add_left_cancel_iff] at grown
    cases opens : next.opens with
    | none => simpa [opens] using grown.symm
    | some enclosure =>
      cases enclosure with
      | bracket => simpa [opens] using grown.symm
      | block => simpa [opens] using grown.symm
  label := by
    have toggled := Layout.inLabel_note
      { (layout.closeBlock next.token).write before next.token with blockOpened := false }
      next.token
    have kept : ((layout.closeBlock next.token).write before next.token).inLabel =
        layout.inLabel :=
      (congrArg Nesting.inLabel (Layout.nesting_write _ before next.token)).trans
        (layout.closeBlock_flags next.token).2
    rw [Layout.push, toggled, kept, label]
    rfl

end Marked

/-- Each token of a row behind the first, and the one before it. -/
def neighbours (row : List Marked) : List (Marked × Marked) :=
  row.zip row.tail

/-- Whether what is written between two neighbours of the grammar breaks the line
where the grammar says. -/
def BreaksAsMarked (pair : Marked × Marked) (gap : List Char) : Prop :=
  pair.1.Step pair.2 ∧ ('\n' ∈ gap ↔ pair.1.leads pair.2 = true)

/-- Along a row of neighbours a line begins where the grammar says. -/
theorem Joined.gaps {before last : Marked} {row : List Marked} {layout : Layout}
    {finish : Nesting} (joined : Joined before row last)
    (tracks : Nesting.Tracks layout.nesting (row.map Marked.toPlaced) finish)
    (same : before.Matches layout) :
    List.Forall₂ BreaksAsMarked (neighbours (before :: row))
      (layout.gaps (some before.token) (row.map fun marked => marked.token)) := by
  induction joined generalizing layout with
  | nil => exact .nil
  | @cons before next last rest step others inductionHypothesis =>
    cases tracks with
    | cons knows tracked =>
      rw [← layout.nesting_push (some before.token)] at tracked
      refine .cons ⟨step, ?_⟩ (inductionHypothesis tracked
        (Marked.matches_push _ knows (same.label.trans step.inLabel.symm)))
      rw [Layout.lineBreak_mem_gap_iff, same.breaksBefore, step.breaks]

/-! ## The tokens of a block -/

theorem map_marked (block : Block) :
    ((block.marked []).map fun marked => marked.token) = block.tokens := by
  rw [← block.map_placed [], ← block.toPlaced_marked [], List.map_map]
  rfl

/-- A block is joined behind its first token. -/
theorem joined_marked (block : Block) {first : Marked} {rest : List Marked}
    (row : block.marked [] = first :: rest) :
    first.inLabel = false ∧ ∃ last, Joined first rest last := by
  have settled : Marked.Settled [] { token := .ofSymbol ";", around := [] } :=
    .inr (.inr ⟨(ready_plain rfl).toCalm, rfl⟩)
  have outside : ([] : List Enclosure).head? ≠ some .bracket := nofun
  have carries := block.carries outside
  rw [row] at carries
  obtain ⟨last, joined, -⟩ := carries _ settled
  cases joined with
  | cons step others => exact ⟨step.inLabel, last, others⟩

/-- Behind the first token a layout begins a line where the grammar says. -/
theorem gaps_neighbours (block : Block) :
    List.Forall₂ BreaksAsMarked (neighbours (block.marked []))
      (Layout.gaps {} none block.tokens).tail := by
  have tracks := block.tracks []
  rw [← block.toPlaced_marked []] at tracks
  rw [← map_marked block]
  cases row : block.marked [] with
  | nil => exact .nil
  | cons first rest =>
    obtain ⟨noLabel, last, joined⟩ := joined_marked block row
    rw [row] at tracks
    cases tracks with
    | cons knows tracked =>
      have start : Nesting.inside [] = Layout.nesting {} := rfl
      rw [start] at knows tracked
      rw [← Layout.nesting_push {} none] at tracked
      exact joined.gaps tracked (Marked.matches_push none knows noLabel.symm)

/-- Before the first token of a script nothing is written. -/
theorem head?_gaps (read : List Token) : ∀ gap ∈ (Layout.gaps {} none read).head?, gap = [] := by
  cases read with
  | nil => nofun
  | cons token rest =>
    have noBlocks : (Layout.closeBlock {} token).blocks = [] := by
      unfold Layout.closeBlock
      split <;> rfl
    intro gap member
    obtain rfl : (Layout.closeBlock {} token).gap none token = gap := by
      simpa [Layout.gaps] using member
    rw [Layout.gap, Layout.indentation, noBlocks]
    rfl

/-- What holds of neighbours and of a first gap holds of a row and its gaps. -/
theorem forall₂_of_neighbours {row : List Marked} {gaps : List (List Char)}
    {fits : Marked → List Char → Prop} (sameLength : gaps.length = row.length)
    (first : ∀ marked, ∀ gap ∈ gaps.head?, fits marked gap)
    (others : List.Forall₂ (fun pair gap => fits pair.2 gap) (neighbours row) gaps.tail) :
    List.Forall₂ fits row gaps := by
  cases row with
  | nil =>
    rw [List.eq_nil_of_length_eq_zero sameLength]
    exact .nil
  | cons marked rest =>
    cases gaps with
    | nil => cases sameLength
    | cons gap gaps =>
      refine .cons (first marked gap rfl) ?_
      have seconds : (neighbours (marked :: rest)).map Prod.snd = rest := by
        apply List.map_snd_zip
        simp
      rw [← seconds, List.forall₂_map_left_iff]
      exact others

theorem length_gaps (layout : Layout) (before : Option Token) (read : List Token) :
    (layout.gaps before read).length = read.length := by
  induction read generalizing layout before with
  | nil => rfl
  | cons token rest inductionHypothesis => simp [Layout.gaps, inductionHypothesis]

/-- No line begins inside a statement.  Whatever tokens are read as a block of statements
are the tokens of that block.  In the lines over which they are spread, a line break stands
before the first token of a statement or before a word that closes a block, and nowhere
else but at the end of the text.  So what stands first behind the opening of a block is one
of these, and expressions and the headers of statements stay on their line. -/
theorem breaks_of_layoutLetters (block : Block) :
    (∀ read, Block.ofTokens? read = some block → block.tokens = read) ∧
    ((block.marked []).map fun marked => marked.token) = block.tokens ∧
    (∀ source, tokenize source = .ok block.tokens →
      layoutLetters block.tokens =
        Layout.spaced (Layout.gaps {} none block.tokens) block.tokens ++
          if block.tokens = [] then [] else ['\n']) ∧
    List.Forall₂ (fun marked gap => '\n' ∈ gap →
        marked.begins = true ∨ marked.token.isAnyWord ["end", "else", "elseif", "until"] = true)
      (block.marked []) (Layout.gaps {} none block.tokens) := by
  refine ⟨fun read => Block.tokens_of_ofTokens?, map_marked block,
    fun source split => layoutLetters_eq_spaced (standsAlone_of_tokenize split), ?_⟩
  apply forall₂_of_neighbours
  · rw [length_gaps, ← map_marked block, List.length_map]
  · intro marked gap member broken
    rw [head?_gaps block.tokens gap member] at broken
    cases broken
  · refine (gaps_neighbours block).imp fun pair gap ⟨step, breaks⟩ broken => ?_
    have leads := breaks.mp broken
    rw [Marked.leads, Bool.or_eq_true, Bool.or_eq_true, decide_eq_true_eq, Bool.and_eq_true,
      Bool.and_eq_true] at leads
    rcases leads with (opened | closes) | begins
    · exact step.first opened
    · exact .inr closes
    · exact .inl begins.1.1

/-- A label, a loop, a function in a table, and a jump. -/
def tableOfFunctions : Block :=
  .next (.label ['l']) (.next (.numericLoop ['i'] (.number ['1']) (.number ['2'])
    (.next (.assign (.last (.named ['t'])) (.last (.table (.last (.named ['f'] (.closure {}
        (.returningValues (.last (.primary (.place (.named ['i'])))) false)))))))
      (.next (.jump ['l']) .finished))) .finished)

theorem breaks_of_layoutLetters_tableOfFunctions :
    tokenize "::l:: for i=1,2 do t={f=function()return i end}goto l end" =
        .ok tableOfFunctions.tokens ∧
      String.ofList (layoutLetters tableOfFunctions.tokens) =
        "::l::\nfor i = 1, 2 do\n  t = \x7bf = function()\n    return i\n  end\x7d\n  goto l\nend\n" ∧
      List.Forall₂ (fun marked gap => '\n' ∈ gap →
          marked.begins = true ∨ marked.token.isAnyWord ["end", "else", "elseif", "until"] = true)
        (tableOfFunctions.marked []) (Layout.gaps {} none tableOfFunctions.tokens) := by
  have split : tokenize "::l:: for i=1,2 do t={f=function()return i end}goto l end" =
      .ok tableOfFunctions.tokens := toOption_eq_some_iff.mp (by decide +kernel)
  obtain ⟨-, -, -, breaks⟩ := breaks_of_layoutLetters tableOfFunctions
  exact ⟨split, by decide +kernel, breaks⟩

/-! ## Statements on lines of their own -/

theorem endsStatement_eq_false_iff {token : Token} :
    endsStatement token = false ↔ token ∉ [.ofSymbol ";", .ofSymbol ">"] := by
  rw [← Bool.not_eq_true]
  simp [endsStatement, Token.isAnySymbol, Token.isSymbol_iff]

theorem beginsUnseen_eq_false_iff {token : Token} :
    beginsUnseen token = false ↔ token ∉ [.ofWord "do", .ofSymbol "(", .ofSymbol ";"] := by
  rw [← Bool.not_eq_true]
  simp [beginsUnseen, Token.isAnySymbol, Token.isSymbol_iff, Token.isWord_iff]

/-- Which statements have a line of their own.  The first token of a script stands first
on its line.  With the first token of any further statement, but for the empty one, a line
begins exactly where the statement is the first in its block, or where it begins neither
with `do` nor with a bracket and the token before it is neither a semicolon nor the sign
behind the attribute of a variable. -/
theorem ownLine_iff (block : Block) :
    (∀ read, Block.ofTokens? read = some block → block.tokens = read) ∧
    ((block.marked []).map fun marked => marked.token) = block.tokens ∧
    (∀ source, tokenize source = .ok block.tokens →
      layoutLetters block.tokens =
        Layout.spaced (Layout.gaps {} none block.tokens) block.tokens ++
          if block.tokens = [] then [] else ['\n']) ∧
    (∀ gap ∈ (Layout.gaps {} none block.tokens).head?, gap = []) ∧
    List.Forall₂ (fun pair gap => pair.2.begins = true → pair.2.token ≠ .ofSymbol ";" →
        ('\n' ∈ gap ↔ pair.1.opens = some .block ∨
          pair.1.token ∉ [.ofSymbol ";", .ofSymbol ">"] ∧
            pair.2.token ∉ [.ofWord "do", .ofSymbol "("]))
      (neighbours (block.marked [])) (Layout.gaps {} none block.tokens).tail := by
  refine ⟨fun read => Block.tokens_of_ofTokens?, map_marked block,
    fun source split => layoutLetters_eq_spaced (standsAlone_of_tokenize split),
    head?_gaps block.tokens, ?_⟩
  refine (gaps_neighbours block).imp fun pair gap ⟨step, breaks⟩ begins notEmpty => ?_
  have leads : pair.1.leads pair.2 = true ↔ pair.1.opens = some .block ∨
      endsStatement pair.1.token = false ∧ beginsUnseen pair.2.token = false := by
    simp [Marked.leads, begins, step.notClosing begins]
  have unseen : pair.2.token ∉ [.ofWord "do", .ofSymbol "(", .ofSymbol ";"] ↔
      pair.2.token ∉ [.ofWord "do", .ofSymbol "("] := by
    simp [notEmpty]
  rw [breaks, leads, endsStatement_eq_false_iff, beginsUnseen_eq_false_iff, unseen]

/-- A variable with an attribute, an assignment, and a block of its own. -/
def attributeAndBlock : Block :=
  .next (.declare { name := ['x'], restriction := some .constant } [])
    (.next (.assign (.last (.named ['y'])) (.last (.number ['1'])))
      (.next (.enclosed (.next (.call (.function (.place (.named ['z'])) .empty)) .finished))
        .finished))

theorem ownLine_iff_attributeAndBlock :
    tokenize "local x<const> y=1 do z()end" = .ok attributeAndBlock.tokens ∧
      String.ofList (layoutLetters attributeAndBlock.tokens) =
        "local x < const > y = 1 do\n  z()\nend\n" ∧
      List.Forall₂ (fun pair gap => pair.2.begins = true → pair.2.token ≠ .ofSymbol ";" →
          ('\n' ∈ gap ↔ pair.1.opens = some .block ∨
            pair.1.token ∉ [.ofSymbol ";", .ofSymbol ">"] ∧
              pair.2.token ∉ [.ofWord "do", .ofSymbol "("]))
        (neighbours (attributeAndBlock.marked []))
        (Layout.gaps {} none attributeAndBlock.tokens).tail := by
  have split : tokenize "local x<const> y=1 do z()end" = .ok attributeAndBlock.tokens :=
    toOption_eq_some_iff.mp (by decide +kernel)
  obtain ⟨-, -, -, -, lines⟩ := ownLine_iff attributeAndBlock
  exact ⟨split, by decide +kernel, lines⟩

def twoAssignments : Block :=
  .next (.assign (.last (.named ['a'])) (.last (.number ['1'])))
    (.next .empty (.next (.assign (.last (.named ['b'])) (.last (.number ['2']))) .finished))

/-- The statement behind the semicolon stays on the line of the one before it. -/
theorem ownLine_iff_twoAssignments :
    tokenize "a=1;b=2" = .ok twoAssignments.tokens ∧
      Block.ofTokens? twoAssignments.tokens = some twoAssignments ∧
      String.ofList (layoutLetters twoAssignments.tokens) = "a = 1; b = 2\n" ∧
      ∃ before next gap,
        ((before, next), gap) ∈ (neighbours (twoAssignments.marked [])).zip
          (Layout.gaps {} none twoAssignments.tokens).tail ∧
        next.begins = true ∧ next.token ≠ .ofSymbol ";" ∧ '\n' ∉ gap := by
  refine ⟨toOption_eq_some_iff.mp (by decide +kernel), by rfl, by decide +kernel, ?_⟩
  refine ⟨{ token := .ofSymbol ";", around := [], begins := true },
    { token := .ofName ['b'], around := [], begins := true }, [' '], ?_, rfl, by decide, by decide⟩
  exact List.mem_of_getElem? (i := 3) rfl

end Lua

end LogPipeline
