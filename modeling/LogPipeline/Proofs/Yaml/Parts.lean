import LogPipeline.Yaml.Generic

namespace LogPipeline

namespace Yaml

/-!
# The parts of a tree

The parts of a tree are the tree itself and the parts of its items, keys and
contents, also behind an alias.  A tree that makes sense makes sense in all its
parts, and no mapping in it has two keys that mean the same.  Keys that are
scalars of one tag and one style mean the same as soon as their letters are the
same, so such keys differ in their letters.
-/

namespace Tree

/-- The letters of a scalar, also behind an alias. -/
def letters? (tree : Tree) : Option String :=
  match tree.unshared with
  | .scalar _ _ _ content => some content
  | _ => none

/-- One tree is a part of another. -/
inductive IsPart : Tree → Tree → Prop
  | self (tree : Tree) : IsPart tree tree
  | target {part target : Tree} (inside : IsPart part target) : IsPart part (.shared target)
  | item {mark : Mark} {tag : Option Tag} {items : List Tree} {part item : Tree}
      (member : item ∈ items) (inside : IsPart part item) : IsPart part (.sequence mark tag items)
  | key {mark : Mark} {tag : Option Tag} {entries : List (Tree × Tree)} {part : Tree}
      {entry : Tree × Tree} (member : entry ∈ entries) (inside : IsPart part entry.1) :
      IsPart part (.mapping mark tag entries)
  | content {mark : Mark} {tag : Option Tag} {entries : List (Tree × Tree)} {part : Tree}
      {entry : Tree × Tree} (member : entry ∈ entries) (inside : IsPart part entry.2) :
      IsPart part (.mapping mark tag entries)

theorem IsPart.trans {first second third : Tree} (inner : IsPart first second)
    (outer : IsPart second third) : IsPart first third := by
  induction outer with
  | self => exact inner
  | target _ inductionHypothesis => exact .target (inductionHypothesis inner)
  | item member _ inductionHypothesis => exact .item member (inductionHypothesis inner)
  | key member _ inductionHypothesis => exact .key member (inductionHypothesis inner)
  | content member _ inductionHypothesis => exact .content member (inductionHypothesis inner)

/-- What holds of every tree that is not shared, and of a shared one if it holds
of its target, holds of all trees. -/
@[elab_as_elim]
theorem sharedInduction {motive : Tree → Prop}
    (shared : ∀ target, motive target → motive (.shared target))
    (bare : ∀ tree, (∀ target, tree = .shared target → False) → motive tree) (tree : Tree) :
    motive tree :=
  unshared.induct motive shared bare tree

theorem unshared_of_bare {tree : Tree} (bare : ∀ target, tree = .shared target → False) :
    tree.unshared = tree := by
  rw [unshared]
  exact bare

theorem isPart_unshared (tree : Tree) : IsPart tree.unshared tree := by
  induction tree using sharedInduction with
  | shared target inductionHypothesis => exact .target inductionHypothesis
  | bare tree bare =>
    rw [unshared_of_bare bare]
    exact .self tree

/-- No mapping is a part of a scalar. -/
theorem not_isPart_of_letters? {mark : Mark} {tag : Option Tag} {entries : List (Tree × Tree)}
    {whole : Tree} {content : String} (scalar : whole.letters? = some content) :
    ¬ IsPart (.mapping mark tag entries) whole := by
  intro inside
  generalize sameMapping : Tree.mapping mark tag entries = part at inside
  induction inside with
  | self tree =>
    rw [← sameMapping] at scalar
    cases scalar
  | target _ inductionHypothesis => exact inductionHypothesis scalar sameMapping
  | item | key | content => cases scalar

end Tree

namespace Generic

theorem ofTree?_unshared (tree : Tree) : ofTree? tree.unshared = ofTree? tree := by
  induction tree using Tree.sharedInduction with
  | shared target inductionHypothesis => rw [Tree.unshared, inductionHypothesis, ofTree?]
  | bare tree bare => rw [Tree.unshared_of_bare bare]

/-- Two trees that do not mean the same. -/
def Differ (first second : Tree) : Prop :=
  ∀ firstValue secondValue, ofTree? first = some firstValue → ofTree? second = some secondValue →
    firstValue.same secondValue = false

theorem ofItems?_eq_some {items : List Tree} {values : List Generic}
    (sense : ofItems? items = some values) :
    ∀ item ∈ items, ∃ value, ofTree? item = some value := by
  induction items generalizing values with
  | nil => exact List.forall_mem_nil _
  | cons item items inductionHypothesis =>
    simp only [ofItems?, Option.bind_eq_bind, Option.bind_eq_some_iff] at sense
    rcases sense with ⟨value, itemSense, values, othersSense, -⟩
    rw [List.forall_mem_cons]
    exact ⟨⟨value, itemSense⟩, inductionHypothesis othersSense⟩

/-- The entries of a mapping that makes sense: every key and every content does,
and no key means what an earlier one means. -/
theorem ofEntries?_eq_some {before : List (Generic × Generic)} {entries : List (Tree × Tree)}
    {values : List (Generic × Generic)} (sense : ofEntries? before entries = some values) :
    (∀ entry ∈ entries, (∃ value, ofTree? entry.1 = some value) ∧
        ∃ value, ofTree? entry.2 = some value) ∧
      (∀ known ∈ before, ∀ entry ∈ entries, ∀ value, ofTree? entry.1 = some value →
        known.1.same value = false) ∧
      entries.Pairwise fun earlier later => Differ earlier.1 later.1 := by
  induction entries generalizing before values with
  | nil => exact ⟨List.forall_mem_nil _, fun _ _ => List.forall_mem_nil _, .nil⟩
  | cons entry entries inductionHypothesis =>
    rcases entry with ⟨key, content⟩
    simp only [ofEntries?, Option.bind_eq_bind, Option.bind_eq_some_iff] at sense
    rcases sense with ⟨keyValue, keySense, sense⟩
    split at sense
    · cases sense
    rename_i newKey
    rcases Option.bind_eq_some_iff.mp sense with ⟨contentValue, contentSense, sense⟩
    rcases Option.bind_eq_some_iff.mp sense with ⟨others, othersSense, -⟩
    rcases inductionHypothesis othersSense with ⟨each, differ, pairwise⟩
    rw [List.forall_mem_cons] at differ
    refine ⟨?_, ?_, ?_⟩
    · rw [List.forall_mem_cons]
      exact ⟨⟨⟨keyValue, keySense⟩, ⟨contentValue, contentSense⟩⟩, each⟩
    · intro known member
      rw [List.forall_mem_cons]
      refine ⟨?_, differ.2 known member⟩
      intro value ownSense
      obtain rfl : keyValue = value := Option.some.inj (keySense.symm.trans ownSense)
      rw [← Bool.not_eq_true]
      intro same
      exact newKey (List.any_eq_true.mpr ⟨known, member, same⟩)
    · refine .cons ?_ pairwise
      intro later member firstValue secondValue firstSense secondSense
      obtain rfl : keyValue = firstValue := Option.some.inj (keySense.symm.trans firstSense)
      exact differ.1 later member secondValue secondSense

/-- What makes sense as a whole makes sense in its parts. -/
theorem ofTree?_of_isPart {part whole : Tree} (inside : Tree.IsPart part whole) {generic : Generic}
    (sense : ofTree? whole = some generic) : ∃ partGeneric, ofTree? part = some partGeneric := by
  induction inside generalizing generic with
  | self tree => exact ⟨generic, sense⟩
  | target _ inductionHypothesis => exact inductionHypothesis sense
  | item member _ inductionHypothesis =>
    rw [ofTree?, Option.map_eq_some_iff] at sense
    rcases sense with ⟨values, itemsSense, -⟩
    rcases ofItems?_eq_some itemsSense _ member with ⟨value, itemSense⟩
    exact inductionHypothesis itemSense
  | key member _ inductionHypothesis =>
    rw [ofTree?, Option.map_eq_some_iff] at sense
    rcases sense with ⟨values, entriesSense, -⟩
    rcases (ofEntries?_eq_some entriesSense).1 _ member with ⟨⟨value, keySense⟩, -⟩
    exact inductionHypothesis keySense
  | content member _ inductionHypothesis =>
    rw [ofTree?, Option.map_eq_some_iff] at sense
    rcases sense with ⟨values, entriesSense, -⟩
    rcases (ofEntries?_eq_some entriesSense).1 _ member with ⟨-, ⟨value, contentSense⟩⟩
    exact inductionHypothesis contentSense

theorem differ_of_mapping {mark : Mark} {tag : Option Tag} {entries : List (Tree × Tree)}
    {generic : Generic} (sense : ofTree? (.mapping mark tag entries) = some generic) :
    entries.Pairwise fun earlier later => Differ earlier.1 later.1 := by
  rw [ofTree?, Option.map_eq_some_iff] at sense
  rcases sense with ⟨values, entriesSense, -⟩
  exact (ofEntries?_eq_some entriesSense).2.2

/-! ## Keys that mean the same -/

theorem sameReal_self (number : Binary64) : sameReal number number = true := by
  rw [sameReal, Binary64.equal, decide_eq_true rfl, Bool.true_or, Bool.and_true, Bool.and_self,
    Bool.and_self, Bool.or_not_self]

/-- What a scalar means equals itself. -/
theorem same_self_of_scalar {mark : Mark} {tag : Option Tag} {style : ScalarStyle}
    {content : String} {generic : Generic}
    (sense : ofTree? (.scalar mark tag style content) = some generic) :
    generic.same generic = true := by
  simp only [ofTree?, Option.bind_eq_bind, Option.bind_eq_some_iff, Option.map_eq_some_iff] at sense
  rcases sense with ⟨meaning, -, own, fits, rfl⟩
  have sameOwn : own.same own = true := by
    cases meaning with
    | integer number =>
      rw [ofMeaning?] at fits
      split at fits
      · cases fits
        rw [same, beq_self_eq_true]
      · cases fits
    | real number =>
      cases fits
      rw [same, sameReal_self]
    | nothing =>
      cases fits
      rw [same]
    | truth | text =>
      cases fits
      rw [same, beq_self_eq_true]
  cases tag with
  | none => exact sameOwn
  | some given =>
    rw [underTag]
    split
    · rw [same, beq_self_eq_true, sameOwn, Bool.true_and]
    · exact sameOwn

/-- Scalars of one tag, one style and the same letters do not differ. -/
theorem not_differ_of_unshared {first second : Tree} {firstMark secondMark : Mark}
    {tag : Option Tag} {style : ScalarStyle} {content : String}
    (firstScalar : first.unshared = .scalar firstMark tag style content)
    (secondScalar : second.unshared = .scalar secondMark tag style content) {generic : Generic}
    (sense : ofTree? first = some generic) : ¬ Differ first second := by
  intro differ
  have sameSense : ofTree? second = some generic := by
    rw [← sense, ← ofTree?_unshared first, ← ofTree?_unshared second, firstScalar, secondScalar,
      ofTree?, ofTree?]
  rw [← ofTree?_unshared first, firstScalar] at sense
  have same := same_self_of_scalar sense
  rw [← firstScalar, ofTree?_unshared] at sense
  rw [differ generic generic sense sameSense] at same
  cases same

end Generic

end Yaml

end LogPipeline
