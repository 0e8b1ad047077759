import LogPipeline.Yaml.Token

namespace LogPipeline

namespace Yaml

/-!
# The nodes of a document

The tokens of a document form a tree of scalars, sequences and mappings.  A
node may carry a tag and an anchor, and an alias stands for the node of an
anchor.  Where a node is left out, an empty plain scalar stands in its place.

An anchor is known by a number: how many different names had been given before
it.  A name that is given again therefore takes a new number, which the next
new name takes as well; an alias refers to the last node with its number.
-/

/-- What is written in front of a node: where the node starts, its tag and the
number of its anchor. -/
structure NodeHead where
  mark : Mark
  tag : Option Tag := none
  anchor : Option Nat := none

/-- A node. -/
inductive Node where
  | scalar (head : NodeHead) (style : ScalarStyle) (content : String)
  | sequence (head : NodeHead) (items : List Node)
  | mapping (head : NodeHead) (entries : List (Node × Node))
  | alias (anchor : Nat)

/-- What is left of the tokens, the anchors that have been given by name, and
the handles of tags. -/
structure NodeReader where
  tokens : List Token
  anchors : List (List Char × Nat) := []
  handles : List (List Char × List UInt8) := []

namespace NodeReader

/-- Reading that takes tokens and fails on a misplaced one. -/
abbrev Read (Result : Type) := StateT NodeReader Option Result

def peek : Read Token := do
  match (← get).tokens with
  | token :: _ => pure token
  | [] => failure

def advance : Read Unit :=
  modify fun reader => { reader with tokens := reader.tokens.tail }

/-- The number of an anchor that is given by name now. -/
def giveAnchor (name : List Char) : Read Nat := do
  let reader ← get
  let number := reader.anchors.length
  let others := reader.anchors.filter (·.1 ≠ name)
  set { reader with anchors := (name, number) :: others }
  pure number

/-- The number of the anchor that a name refers to. -/
def findAnchor (name : List Char) : Read Nat := do
  match (← get).anchors.find? (·.1 = name) with
  | some (_, number) => pure number
  | none => failure

/-- The whole tag of a handle and a suffix. -/
def wholeTag (handle : List Char) (suffix : List UInt8) : Read Tag := do
  if handle.isEmpty then pure (.ofParts [] suffix)
  else
    match (← get).handles.find? (·.1 = handle) with
    | some (_, leading) => pure (.ofParts leading suffix)
    | none => failure

/-! ## What stands in front of a node -/

def anchorName : Read (Option (List Char)) := do
  match (← peek).kind with
  | .anchor name => advance; pure (some name)
  | _ => pure none

def wholeTag? : Read (Option Tag) := do
  match (← peek).kind with
  | .tag handle suffix => advance; pure (some (← wholeTag handle suffix))
  | _ => pure none

/-- What stands in front of a node: an anchor and a tag, in either order. -/
structure Leading where
  mark : Mark
  anchorName : Option (List Char)
  tag : Option Tag

/-- What stands in front of the next node. -/
def leading : Read Leading := do
  let mark := (← peek).start
  match ← anchorName with
  | some name => pure { mark := mark, anchorName := some name, tag := ← wholeTag? }
  | none => do
    let tag ← wholeTag?
    match tag with
    | some _ => pure { mark := mark, anchorName := ← anchorName, tag := tag }
    | none => pure { mark := mark, anchorName := none, tag := none }

/-- The head of a node, with its anchor given now. -/
def head (before : Leading) : Read NodeHead := do
  match before.anchorName with
  | some name =>
    pure { mark := before.mark, tag := before.tag, anchor := some (← giveAnchor name) }
  | none => pure { mark := before.mark, tag := before.tag }

/-- A node that is left out. -/
def absent (mark : Mark) : Node :=
  .scalar { mark := mark } .plain ""

/-! ## Nodes -/

def isEntryPart (kind : TokenKind) : Bool :=
  kind = .key || kind = .value

mutual

/-- A node.  In a block it may be a block collection, and in a block mapping a
sequence at the column of the key. -/
def node (fuel : Nat) (block indentless : Bool) : Read Node := do
  match fuel with
  | 0 => failure
  | fuel + 1 =>
    match (← peek).kind with
    | .alias name => do
      advance
      pure (.alias (← findAnchor name))
    | _ => do
      let before ← leading
      match (← peek).kind with
      | .scalar style content => do
        advance
        pure (.scalar (← head before) style (String.ofList content))
      | .flowSequenceStart => do
        advance
        let front ← head before
        pure (.sequence front (← flowItems fuel true))
      | .flowMappingStart => do
        advance
        let front ← head before
        pure (.mapping front (← flowEntries fuel true))
      | .blockEntry =>
        if indentless then do
          let front ← head before
          pure (.sequence front (← indentlessItems fuel))
        else unwritten before
      | .blockSequenceStart =>
        if block then do
          advance
          let front ← head before
          pure (.sequence front (← blockItems fuel))
        else unwritten before
      | .blockMappingStart =>
        if block then do
          advance
          let front ← head before
          pure (.mapping front (← blockEntries fuel))
        else unwritten before
      | _ => unwritten before

/-- A node of which only a tag or an anchor is written. -/
def unwritten (before : Leading) : Read Node := do
  if before.tag.isSome || before.anchorName.isSome then
    pure (.scalar (← head before) .plain "")
  else failure

/-- A node unless a token with a property comes next, which leaves it out. -/
def nodeUnless (fuel : Nat) (block indentless : Bool) (mark : Mark)
    (leavesOut : TokenKind → Bool) : Read Node := do
  match fuel with
  | 0 => failure
  | fuel + 1 =>
    if leavesOut (← peek).kind then pure (absent mark) else node fuel block indentless

/-- The items of a block sequence up to its end. -/
def blockItems (fuel : Nat) : Read (List Node) := do
  match fuel with
  | 0 => failure
  | fuel + 1 =>
    let token ← peek
    match token.kind with
    | .blockEntry => do
      advance
      let item ← nodeUnless fuel true false token.stop fun kind =>
        kind = .blockEntry || kind = .blockEnd
      pure (item :: (← blockItems fuel))
    | .blockEnd => advance; pure []
    | _ => failure

/-- The items of a sequence at the column of its key. -/
def indentlessItems (fuel : Nat) : Read (List Node) := do
  match fuel with
  | 0 => failure
  | fuel + 1 =>
    let token ← peek
    match token.kind with
    | .blockEntry => do
      advance
      let item ← nodeUnless fuel true false token.stop fun kind =>
        kind = .blockEntry || isEntryPart kind || kind = .blockEnd
      pure (item :: (← indentlessItems fuel))
    | _ => pure []

/-- The value of a block mapping's entry. -/
def blockValue (fuel : Nat) : Read Node := do
  match fuel with
  | 0 => failure
  | fuel + 1 =>
    let token ← peek
    match token.kind with
    | .value => do
      advance
      nodeUnless fuel true true token.stop fun kind => isEntryPart kind || kind = .blockEnd
    | _ => pure (absent token.start)

/-- The entries of a block mapping up to its end. -/
def blockEntries (fuel : Nat) : Read (List (Node × Node)) := do
  match fuel with
  | 0 => failure
  | fuel + 1 =>
    let token ← peek
    match token.kind with
    | .key => do
      advance
      let key ← nodeUnless fuel true true token.stop fun kind =>
        isEntryPart kind || kind = .blockEnd
      let value ← blockValue fuel
      pure ((key, value) :: (← blockEntries fuel))
    | .blockEnd => advance; pure []
    | _ => failure

/-- The items of a flow sequence up to its end. -/
def flowItems (fuel : Nat) (first : Bool) : Read (List Node) := do
  match fuel with
  | 0 => failure
  | fuel + 1 =>
    if (← peek).kind = .flowSequenceEnd then do advance; pure []
    else do
      if !first then
        if (← peek).kind = .flowEntry then advance else failure
      let token ← peek
      match token.kind with
      | .key => do
        advance
        let entry ← flowPair fuel
        let item := Node.mapping { mark := token.start } [entry]
        pure (item :: (← flowItems fuel false))
      | .flowSequenceEnd => advance; pure []
      | _ => do
        let item ← node fuel false false
        pure (item :: (← flowItems fuel false))

/-- The single entry of a mapping that is an item of a flow sequence.  Where
its key is left out, the token that shows this is passed. -/
def flowPair (fuel : Nat) : Read (Node × Node) := do
  match fuel with
  | 0 => failure
  | fuel + 1 =>
    let ends (kind : TokenKind) : Bool := kind = .flowEntry || kind = .flowSequenceEnd
    let token ← peek
    let key ←
      if token.kind = .value || ends token.kind then do
        advance
        pure (absent token.stop)
      else node fuel false false
    if (← peek).kind = .value then do
      advance
      let value ← nodeUnless fuel false false (← peek).start ends
      pure (key, value)
    else pure (key, absent (← peek).start)

/-- The entries of a flow mapping up to its end. -/
def flowEntries (fuel : Nat) (first : Bool) : Read (List (Node × Node)) := do
  match fuel with
  | 0 => failure
  | fuel + 1 =>
    if (← peek).kind = .flowMappingEnd then do advance; pure []
    else do
      if !first then
        if (← peek).kind = .flowEntry then advance else failure
      let ends (kind : TokenKind) : Bool := kind = .flowEntry || kind = .flowMappingEnd
      match (← peek).kind with
      | .key => do
        advance
        let key ← nodeUnless fuel false false (← peek).start fun kind =>
          kind = .value || ends kind
        let value ←
          if (← peek).kind = .value then do
            advance
            nodeUnless fuel false false (← peek).start ends
          else pure (absent (← peek).start)
        pure ((key, value) :: (← flowEntries fuel false))
      | .flowMappingEnd => advance; pure []
      | _ => do
        let key ← node fuel false false
        let mark := (← peek).start
        pure ((key, absent mark) :: (← flowEntries fuel false))

end

/-! ## Documents -/

/-- The directives in front of a document: at most one version, which must be
1.1 or 1.2, and handles that differ. -/
def directives (fuel : Nat) (versionGiven : Bool) : Read Unit := do
  match fuel with
  | 0 => failure
  | fuel + 1 =>
    match (← peek).kind with
    | .versionDirective major minor =>
      if versionGiven || major ≠ 1 || (minor ≠ 1 && minor ≠ 2) then failure
      else do
        advance
        directives fuel true
    | .tagDirective handle leading => do
      let reader ← get
      if reader.handles.any (·.1 = handle) then failure
      else do
        set { reader with handles := (handle, leading) :: reader.handles }
        advance
        directives fuel versionGiven
    | _ => pure ()

def knownHandles : List (List Char × List UInt8) :=
  [(['!'], [Tag.mark]), (['!', '!'], Tag.kindLeading)]

/-- Handles that need no directive are known unless a directive gave them. -/
def addKnownHandles : Read Unit :=
  modify fun reader => { reader with handles := reader.handles ++ knownHandles }

/-- Whether a token ends a document whose content is left out. -/
def endsContent (kind : TokenKind) : Bool :=
  match kind with
  | .versionDirective _ _ => true
  | .tagDirective _ _ => true
  | .documentStart => true
  | .documentEnd => true
  | .streamEnd => true
  | _ => false

/-- The node of a document that begins with directives or a line of its own. -/
def explicitDocument (fuel : Nat) : Read Node := do
  directives fuel false
  addKnownHandles
  if (← peek).kind ≠ .documentStart then failure
  else do
    advance
    nodeUnless fuel true false (← peek).start endsContent

def onlyEnds (tokens : List Token) : Bool :=
  (tokens.dropWhile (·.kind = .documentEnd)).map (·.kind) = [.streamEnd]

/-- The node of the only document, or nothing where there is no document. -/
def stream (fuel : Nat) : Read (Option Node) := do
  let found ← match (← peek).kind with
    | .streamEnd => pure none
    | .versionDirective _ _ => some <$> explicitDocument fuel
    | .tagDirective _ _ => some <$> explicitDocument fuel
    | .documentStart => some <$> explicitDocument fuel
    | _ => do
      addKnownHandles
      some <$> node fuel true false
  if onlyEnds (← get).tokens then pure found else failure

end NodeReader

/-- The node of the only document among tokens: nothing where the tokens are
misplaced or hold several documents, and no node where they hold none. -/
def Node.ofTokens? (tokens : List Token) : Option (Option Node) :=
  ((NodeReader.stream (8 * tokens.length + 8)).run { tokens := tokens }).map (·.1)

end Yaml

end LogPipeline
