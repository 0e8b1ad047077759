import LogPipeline.Yaml.Node

namespace LogPipeline

namespace Yaml

/-!
# Trees without aliases

A document is understood once every alias has been replaced by the node of its
anchor.  Two bounds keep that finite: collections nest at most 128 deep, also
through aliases, and no more aliases are followed than a hundred for each
start or end of a node.
-/

/-- A node with its aliases replaced.  `shared` marks a node that an alias
stood for. -/
inductive Tree where
  | scalar (mark : Mark) (tag : Option Tag) (style : ScalarStyle) (content : String)
  | sequence (mark : Mark) (tag : Option Tag) (items : List Tree)
  | mapping (mark : Mark) (tag : Option Tag) (entries : List (Tree × Tree))
  | shared (target : Tree)

namespace Node

mutual

/-- How many starts and ends of nodes there are: a collection has both, a
scalar or an alias counts once. -/
def eventCount : Node → Nat
  | .scalar _ _ _ => 1
  | .alias _ => 1
  | .sequence _ items => 2 + itemsEventCount items
  | .mapping _ entries => 2 + entriesEventCount entries

def itemsEventCount : List Node → Nat
  | [] => 0
  | item :: items => eventCount item + itemsEventCount items

def entriesEventCount : List (Node × Node) → Nat
  | [] => 0
  | (key, value) :: entries => eventCount key + eventCount value + entriesEventCount entries

end

def later (first second : Option Node) : Option Node :=
  second.or first

mutual

/-- The last node with an anchor of a number. -/
def anchored? (number : Nat) : Node → Option Node
  | .scalar head style content =>
    if head.anchor = some number then some (.scalar head style content) else none
  | .alias _ => none
  | .sequence head items =>
    later (if head.anchor = some number then some (.sequence head items) else none)
      (itemsAnchored? number items)
  | .mapping head entries =>
    later (if head.anchor = some number then some (.mapping head entries) else none)
      (entriesAnchored? number entries)

def itemsAnchored? (number : Nat) : List Node → Option Node
  | [] => none
  | item :: items => later (anchored? number item) (itemsAnchored? number items)

def entriesAnchored? (number : Nat) : List (Node × Node) → Option Node
  | [] => none
  | (key, value) :: entries =>
    later (later (anchored? number key) (anchored? number value))
      (entriesAnchored? number entries)

end

/-- How many aliases may still be followed. -/
abbrev Following (Result : Type) := StateT Nat Option Result

/-- One more alias is followed, where one may be. -/
def follow : Following Unit := do
  match ← get with
  | 0 => failure
  | left + 1 => set left

/-- A scalar or a collection without aliases, given how the parts of a
collection are freed of them.  Without such a way there is no collection. -/
def contents (parts? : Option (Node → Following Tree)) : Node → Following Tree
  | .scalar head style content => pure (.scalar head.mark head.tag style content)
  | .sequence head items => do
    match parts? with
    | none => failure
    | some part => pure (.sequence head.mark head.tag (← items.mapM part))
  | .mapping head entries => do
    match parts? with
    | none => failure
    | some part =>
      pure (.mapping head.mark head.tag
        (← entries.mapM fun (key, value) => do pure (← part key, ← part value)))
  | .alias _ => failure

/-- A node below a root without aliases, with a bound on how deep its
collections nest. -/
def withoutAliases (root : Node) (depth : Nat) (node : Node) : Following Tree :=
  let parts? : Option (Node → Following Tree) :=
    match depth with
    | 0 => none
    | depth + 1 => some (withoutAliases root depth)
  match node with
  | .alias number =>
    match anchored? number root with
    | none => failure
    | some target => do
      follow
      pure (.shared (← contents parts? target))
  | other => contents parts? other

end Node

namespace Tree

/-- How deep collections may nest. -/
def deepest : Nat := 128

/-- How many aliases are followed for each start or end of a node. -/
def aliasesPerEvent : Nat := 100

/-- The tree of a document's node, where its aliases stay within the bounds. -/
def ofNode? (root : Node) : Option Tree :=
  ((Node.withoutAliases root deepest root).run (aliasesPerEvent * root.eventCount)).map (·.1)

def mark : Tree → Mark
  | .scalar mark _ _ _ => mark
  | .sequence mark _ _ => mark
  | .mapping mark _ _ => mark
  | .shared target => target.mark

/-- A tree without the note that an alias stood for it. -/
def unshared : Tree → Tree
  | .shared target => target.unshared
  | tree => tree

end Tree

end Yaml

end LogPipeline
