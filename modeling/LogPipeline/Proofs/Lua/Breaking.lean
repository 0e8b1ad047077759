import LogPipeline.Proofs.Lua.Nesting
import LogPipeline.Proofs.Lua.Statements

namespace LogPipeline

namespace Lua

/-!
# Where a layout breaks the line

A layout decides from two tokens and from what is open whether it begins a line.
For each two neighbours of a block of statements the grammar says what it decides:
a line begins behind the opening of a block, before a word that closes one, and
with the first token of a statement, but for those that the layout does not see.
Inside a statement no line begins.
-/

theorem Token.isSymbol_iff {token : Token} {symbol : String} :
    token.isSymbol symbol = true ↔ token = .ofSymbol symbol := by
  cases token
  simp [Token.isSymbol, Token.ofSymbol]

theorem Token.isWord_iff {token : Token} {word : String} :
    token.isWord word = true ↔ token = .ofWord word := by
  cases token
  simp [Token.isWord, Token.ofWord]

/-- Whether a token behind the end of an expression looks like the beginning of a
statement. -/
def suggestsStatement (token : Token) : Bool :=
  match token.kind with
  | .keyword => token.isAnyWord statementWords
  | .name => true
  | .symbol => token.isSymbol "::"
  | _ => false

/-- Whether a token ends a statement without ending an expression. -/
def endsStatement (token : Token) : Bool :=
  token.isAnySymbol [";", ">"]

/-- Whether a token can begin a statement without looking like it. -/
def beginsUnseen (token : Token) : Bool :=
  token.isWord "do" || token.isAnySymbol ["(", ";"]

namespace Layout

variable {layout : Layout} {before token : Token}

theorem breaksBefore_of_opened (opened : layout.blockOpened = true) :
    layout.breaksBefore before token = true :=
  if_pos opened

theorem breaksBefore_of_closes (noLabel : layout.inLabel = false)
    (closes : token.isAnyWord closingWords = true) : layout.breaksBefore before token = true := by
  unfold breaksBefore
  simp only [noLabel, closes, Bool.false_and, Bool.false_eq_true, if_false, if_true, ite_self]

/-- No line begins with the colons that close a label. -/
theorem breaksBefore_colons (notOpened : layout.blockOpened = false)
    (label : layout.inLabel = true) : layout.breaksBefore before (.ofSymbol "::") = false := by
  have notClosing : (Token.ofSymbol "::").isAnyWord closingWords = false := rfl
  have symbol : (Token.ofSymbol "::").kind = .symbol := rfl
  unfold breaksBefore
  simp only [notOpened, label, notClosing, symbol, Bool.true_and, Bool.false_eq_true, if_false,
    Bool.not_true, Bool.and_false, ite_self]

/-- The rule that is left where no block was opened or closed, outside labels. -/
theorem breaksBefore_eq (notOpened : layout.blockOpened = false) (noLabel : layout.inLabel = false)
    (notClosing : token.isAnyWord closingWords = false) :
    layout.breaksBefore before token =
      (!decide (0 < layout.localDepth) && endsExpression before && suggestsStatement token) := by
  unfold breaksBefore suggestsStatement
  simp only [notOpened, noLabel, notClosing, Bool.false_and, Bool.false_eq_true, if_false,
    Bool.not_false, Bool.and_true]
  cases decide (0 < layout.localDepth) <;> cases endsExpression before <;> rfl

theorem closeBlock_of_not_closes (notClosing : token.isAnyWord closingWords = false) :
    layout.closeBlock token = layout :=
  if_neg (by rw [notClosing]; exact Bool.false_ne_true)

theorem closeBlock_flags (layout : Layout) (token : Token) :
    (layout.closeBlock token).blockOpened = layout.blockOpened ∧
      (layout.closeBlock token).inLabel = layout.inLabel := by
  unfold closeBlock
  split <;> exact ⟨rfl, rfl⟩

end Layout

namespace Marked

/-- Whether the place behind a token is inside a label. -/
def labelBehind (marked : Marked) : Bool :=
  marked.inLabel != marked.token.isSymbol "::"

/-- What a layout knows behind a token, without what is written. -/
def layout (marked : Marked) : Layout where
  blocks := blockDepths marked.behind
  depth := marked.behind.count .bracket
  blockOpened := marked.opens = some .block
  inLabel := marked.labelBehind

/-- Whether a layout begins a line with a token, given the one before it. -/
def breaks (before next : Marked) : Bool :=
  (before.layout.closeBlock next.token).breaksBefore before.token next.token

/-- Whether the grammar says that a line begins with a token, given the one before it. -/
def leads (before next : Marked) : Bool :=
  decide (before.opens = some .block) || next.token.isAnyWord closingWords ||
    (next.begins && !endsStatement before.token && !beginsUnseen next.token)

/-- What holds of two neighbours: whether the second stands in a label, what stands
first in a block, what cannot begin a statement, and whether a line begins with the
second. -/
structure Step (before next : Marked) : Prop where
  inLabel : next.inLabel = before.labelBehind
  first : before.opens = some .block →
    next.begins = true ∨ next.token.isAnyWord closingWords = true
  notClosing : next.begins = true → next.token.isAnyWord closingWords = false
  breaks : before.breaks next = before.leads next

/-- A place outside labels where no block has been opened. -/
structure Calm (marked : Marked) : Prop where
  noLabel : marked.labelBehind = false
  noBlock : marked.opens ≠ some .block

/-- A place where an expression can begin. -/
structure Ready (marked : Marked) : Prop extends Calm marked where
  open' : endsExpression marked.token = false

/-- A place where an expression can end, and what encloses it. -/
structure Ended (around : List Enclosure) (marked : Marked) : Prop extends Calm marked where
  ends : endsExpression marked.token = true
  behind : marked.behind = around

/-- A place where a statement can end. -/
def Rested (around : List Enclosure) (marked : Marked) : Prop :=
  marked.Ended around ∨ marked.Calm ∧ endsStatement marked.token = true

/-- A place where a statement can begin. -/
def Settled (around : List Enclosure) (marked : Marked) : Prop :=
  marked.labelBehind = false ∧ marked.opens = some .block ∨ marked.Rested around

variable {before next : Marked} {around : List Enclosure}

theorem Rested.calm (rested : before.Rested around) : before.Calm := by
  rcases rested with ended | ⟨calm, -⟩
  · exact ended.toCalm
  · exact calm

theorem Settled.noLabel (settled : before.Settled around) : before.labelBehind = false := by
  rcases settled with ⟨noLabel, -⟩ | rested
  · exact noLabel
  · exact rested.calm.noLabel

theorem breaks_of_opened (opened : before.opens = some .block) : before.breaks next = true := by
  apply Layout.breaksBefore_of_opened
  rw [(before.layout.closeBlock_flags next.token).1]
  exact decide_eq_true opened

theorem breaks_of_closes (noLabel : before.labelBehind = false)
    (closes : next.token.isAnyWord closingWords = true) : before.breaks next = true := by
  refine Layout.breaksBefore_of_closes ?_ closes
  rw [(before.layout.closeBlock_flags next.token).2]
  exact noLabel

theorem breaks_of_calm (calm : before.Calm)
    (notClosing : next.token.isAnyWord closingWords = false) :
    before.breaks next = (!decide (0 < before.layout.localDepth) &&
      endsExpression before.token && suggestsStatement next.token) := by
  rw [breaks, Layout.closeBlock_of_not_closes notClosing]
  exact Layout.breaksBefore_eq (decide_eq_false calm.noBlock) calm.noLabel notClosing

theorem leads_of_calm (calm : before.Calm)
    (notClosing : next.token.isAnyWord closingWords = false) :
    before.leads next =
      (next.begins && !endsStatement before.token && !beginsUnseen next.token) := by
  rw [leads, notClosing, decide_eq_false calm.noBlock, Bool.or_self, Bool.false_or]

/-- Outside the brackets of a block none is open that was opened in it. -/
theorem localDepth_layout (behind : before.behind = around)
    (outside : around.head? ≠ some .bracket) : before.layout.localDepth = 0 := by
  rw [Layout.localDepth, layout, behind]
  cases around with
  | nil => rfl
  | cons enclosure outer =>
    cases enclosure with
    | bracket => exact absurd rfl outside
    | block => simp [blockDepths]

/-! ## Single steps -/

/-- Where an expression can begin, no line does. -/
theorem step_of_ready (ready : before.Ready) (noLabel : next.inLabel = false)
    (begins : next.begins = false) (notClosing : next.token.isAnyWord closingWords = false) :
    before.Step next where
  inLabel := noLabel.trans ready.noLabel.symm
  first opened := absurd opened ready.noBlock
  notClosing _ := notClosing
  breaks := by
    rw [breaks_of_calm ready.toCalm notClosing, leads_of_calm ready.toCalm notClosing,
      ready.open', begins, Bool.and_false, Bool.false_and, Bool.false_and, Bool.false_and]

/-- No line begins with what does not look like a statement. -/
theorem step_of_calm (calm : before.Calm) (noLabel : next.inLabel = false)
    (begins : next.begins = false) (notClosing : next.token.isAnyWord closingWords = false)
    (inner : suggestsStatement next.token = false) : before.Step next where
  inLabel := noLabel.trans calm.noLabel.symm
  first opened := absurd opened calm.noBlock
  notClosing _ := notClosing
  breaks := by
    rw [breaks_of_calm calm notClosing, leads_of_calm calm notClosing, inner, begins,
      Bool.and_false, Bool.false_and, Bool.false_and]

theorem step_of_closes (outside : before.labelBehind = false) (noLabel : next.inLabel = false)
    (begins : next.begins = false) (closes : next.token.isAnyWord closingWords = true) :
    before.Step next where
  inLabel := noLabel.trans outside.symm
  first _ := .inr closes
  notClosing begun := absurd (begun.symm.trans begins) Bool.false_ne_true.symm
  breaks := by
    rw [breaks_of_closes outside closes, leads, closes, Bool.or_true, Bool.true_or]

end Marked

/-! ## The first tokens of statements -/

def beginners : List Token :=
  ("do" :: statementWords).map Token.ofWord ++ ["(", ";", "::"].map Token.ofSymbol

def CanBegin (token : Token) : Prop :=
  token.kind = .name ∨ token ∈ beginners

theorem isAnyWord_of_name {token : Token} (isName : token.kind = .name) (words : List String) :
    token.isAnyWord words = false := by
  simp [Token.isAnyWord, Token.isWord, isName]

theorem isAnySymbol_of_name {token : Token} (isName : token.kind = .name)
    (symbols : List String) : token.isAnySymbol symbols = false := by
  simp [Token.isAnySymbol, Token.isSymbol, isName]

theorem CanBegin.notClosing {token : Token} (can : CanBegin token) :
    token.isAnyWord closingWords = false := by
  rcases can with isName | listed
  · exact isAnyWord_of_name isName closingWords
  · have all : ∀ token ∈ beginners, token.isAnyWord closingWords = false := by decide
    exact all token listed

/-- A beginning looks like a statement, but for those that a layout does not see. -/
theorem CanBegin.suggests {token : Token} (can : CanBegin token) :
    suggestsStatement token = !beginsUnseen token := by
  rcases can with isName | listed
  · have noWord : token.isWord "do" = false := by simp [Token.isWord, isName]
    rw [suggestsStatement, isName, beginsUnseen, noWord, isAnySymbol_of_name isName]
    rfl
  · have all : ∀ token ∈ beginners, suggestsStatement token = !beginsUnseen token := by decide
    exact all token listed

/-- What ends a statement ends no expression. -/
theorem endsExpression_of_endsStatement {token : Token} (ends : endsStatement token = true) :
    endsExpression token = false := by
  have either : token = .ofSymbol ";" ∨ token = .ofSymbol ">" := by
    simpa [endsStatement, Token.isAnySymbol, Token.isSymbol_iff] using ends
  rcases either with rfl | rfl <;> rfl

theorem endsStatement_of_endsExpression {token : Token} (ends : endsExpression token = true) :
    endsStatement token = false := by
  cases statement : endsStatement token with
  | false => rfl
  | true => exact ends.symm.trans (endsExpression_of_endsStatement statement)

theorem Marked.step_of_settled {before next : Marked} {around : List Enclosure}
    (settled : before.Settled around) (outside : around.head? ≠ some .bracket)
    (begins : next.begins = true) (noLabel : next.inLabel = false)
    (can : CanBegin next.token) : before.Step next where
  inLabel := noLabel.trans settled.noLabel.symm
  first _ := .inl begins
  notClosing _ := can.notClosing
  breaks := by
    rcases settled with ⟨-, opened⟩ | ended | ⟨calm, ends⟩
    · rw [breaks_of_opened opened, leads, decide_eq_true opened, Bool.true_or, Bool.true_or]
    · rw [breaks_of_calm ended.toCalm can.notClosing, leads_of_calm ended.toCalm can.notClosing,
        begins, can.suggests, ended.ends, endsStatement_of_endsExpression ended.ends,
        localDepth_layout ended.behind outside]
      rfl
    · rw [breaks_of_calm calm can.notClosing, leads_of_calm calm can.notClosing, ends,
        endsExpression_of_endsStatement ends, Bool.and_false, Bool.false_and, Bool.not_true,
        Bool.and_false, Bool.false_and]

/-! ## Rows -/

/-- Each token of a row and the one before it are neighbours of the grammar.  The
row leads from the token before it to its last one. -/
inductive Joined : Marked → List Marked → Marked → Prop
  | nil {before : Marked} : Joined before [] before
  | cons {before next last : Marked} {rest : List Marked} :
      before.Step next → Joined next rest last → Joined before (next :: rest) last

/-- Behind any token of one kind a row is joined and leads to a token of another kind. -/
def Carries (start : Marked → Prop) (row : List Marked) (finish : Marked → Prop) : Prop :=
  ∀ before, start before → ∃ last, Joined before row last ∧ finish last

section Rows

variable {start middle finish : Marked → Prop} {row rest : List Marked}
  {around : List Enclosure} {token : Token}

theorem Joined.append {before between last : Marked} (first : Joined before row between)
    (second : Joined between rest last) : Joined before (row ++ rest) last := by
  induction first with
  | nil => exact second
  | cons step _ inductionHypothesis => exact .cons step (inductionHypothesis second)

theorem carries_nil (imply : ∀ marked, start marked → finish marked) :
    Carries start [] finish := by
  intro before starts
  exact ⟨before, .nil, imply before starts⟩

theorem Carries.append (first : Carries start row middle) (second : Carries middle rest finish) :
    Carries start (row ++ rest) finish := by
  intro before starts
  obtain ⟨between, joined, holds⟩ := first before starts
  obtain ⟨last, others, ends⟩ := second between holds
  exact ⟨last, joined.append others, ends⟩

theorem Carries.before (carries : Carries middle row finish)
    (imply : ∀ marked, start marked → middle marked) : Carries start row finish := by
  intro before starts
  exact carries before (imply before starts)

theorem Carries.behind (carries : Carries start row middle)
    (imply : ∀ marked, middle marked → finish marked) : Carries start row finish := by
  intro before starts
  obtain ⟨last, joined, holds⟩ := carries before starts
  exact ⟨last, joined, imply last holds⟩

theorem Carries.ofReady (carries : Carries Marked.Calm row finish) :
    Carries Marked.Ready row finish :=
  carries.before fun _ ready => ready.toCalm

theorem Carries.ofEnded (carries : Carries Marked.Calm row finish) :
    Carries (Marked.Ended around) row finish :=
  carries.before fun _ ended => ended.toCalm

theorem Carries.toCalm (carries : Carries start row (Marked.Ended around)) :
    Carries start row Marked.Calm :=
  carries.behind fun _ ended => ended.toCalm

theorem Carries.toRested (carries : Carries start row (Marked.Ended around)) :
    Carries start row (Marked.Rested around) :=
  carries.behind fun _ ended => .inl ended

theorem carries_single {next : Marked} (step : ∀ before, start before → before.Step next)
    (ends : finish next) : Carries start [next] finish := by
  intro before starts
  exact ⟨next, .cons (step before starts) .nil, ends⟩

/-! ### Single tokens -/

theorem carries_ready {placed : Placed} (notClosing : placed.token.isAnyWord closingWords = false)
    (ends : finish { toPlaced := placed }) : Carries Marked.Ready (unmarked [placed]) finish :=
  carries_single (fun _ ready => Marked.step_of_ready ready rfl rfl notClosing) ends

theorem carries_calm {placed : Placed} (notClosing : placed.token.isAnyWord closingWords = false)
    (inner : suggestsStatement placed.token = false) (ends : finish { toPlaced := placed }) :
    Carries Marked.Calm (unmarked [placed]) finish :=
  carries_single (fun _ calm => Marked.step_of_calm calm rfl rfl notClosing inner) ends

theorem carries_closes {placed : Placed} (closes : placed.token.isAnyWord closingWords = true)
    (ends : finish { toPlaced := placed }) :
    Carries (fun marked => marked.labelBehind = false) (unmarked [placed]) finish :=
  carries_single (fun _ noLabel => Marked.step_of_closes noLabel rfl rfl closes) ends

theorem isSymbol_colons_of_not_ends (open' : endsExpression token = false) :
    token.isSymbol "::" = false := by
  cases colons : token.isSymbol "::" with
  | false => rfl
  | true =>
    rw [Token.isSymbol_iff.mp colons] at open'
    cases open'

theorem ready_placed {placed : Placed} (open' : endsExpression placed.token = false)
    (noBlock : placed.opens ≠ some .block) : Marked.Ready { toPlaced := placed } where
  noLabel := by
    rw [Marked.labelBehind, isSymbol_colons_of_not_ends open']
    rfl
  noBlock := noBlock
  open' := open'

theorem ready_plain (open' : endsExpression token = false) :
    Marked.Ready { token := token, around := around } :=
  ready_placed open' nofun

theorem ended_plain (ends : endsExpression token = true) (notColons : token.isSymbol "::" = false) :
    Marked.Ended around { token := token, around := around } where
  noLabel := by
    rw [Marked.labelBehind, notColons]
    rfl
  noBlock := nofun
  ends := ends
  behind := rfl

theorem settled_opening (notColons : token.isSymbol "::" = false) :
    Marked.Settled (.block :: around)
      { token := token, around := around, opens := some .block } := by
  refine .inl ⟨?_, rfl⟩
  rw [Marked.labelBehind, notColons]
  rfl

end Rows

end Lua

end LogPipeline
