import LogPipeline.Proofs.Yaml.Parts
import Mathlib.Data.List.Forall2

namespace LogPipeline

namespace Yaml

/-!
# Values with their tags left aside

A tag of the document's own changes nothing in what a value holds.  With such
tags left aside a mapping that makes sense has the keys and contents of its tree,
one by one and in their order, and so has a sequence its items.  A scalar means
the text of its letters, whatever its style and its tag, if the letters are those
of no other kind of scalar; only then can a key be recognised by its letters.
-/

namespace Meaning

/-- Letters that no style and no tag turn into anything but a text. -/
def isWord (content : String) : Bool :=
  !content.isEmpty && !isNothing content && (truth? content).isNone &&
    (integer? content.toList).isNone && (real? content).isNone

theorem isWord_iff {content : String} :
    isWord content = true ↔ content.isEmpty = false ∧ isNothing content = false ∧
      truth? content = none ∧ integer? content.toList = none ∧ real? content = none := by
  rw [isWord, Bool.and_eq_true, Bool.and_eq_true, Bool.and_eq_true, Bool.and_eq_true,
    Bool.not_eq_true', Bool.not_eq_true', Option.isNone_iff_eq_none, Option.isNone_iff_eq_none,
    Option.isNone_iff_eq_none, and_assoc, and_assoc, and_assoc]

theorem ofStyle_of_isWord {content : String} (word : isWord content = true) (style : ScalarStyle) :
    ofStyle style content = .text content := by
  rcases isWord_iff.mp word with ⟨notEmpty, notNothing, noTruth, noInteger, noReal⟩
  have plain : ofPlain content = .text content := by
    rw [ofPlain, notEmpty, notNothing, noTruth, noInteger, noReal, if_neg (by decide)]
    exact ite_self _
  rw [ofStyle, plain, ite_self]

/-- A word means itself or, under a tag that asks for another kind, nothing at
all. -/
theorem eq_text_of_isWord {content : String} (word : isWord content = true) {tag : Option Tag}
    {style : ScalarStyle} {meaning : Meaning}
    (means : ofTagged? tag style content = some meaning) : meaning = .text content := by
  rcases isWord_iff.mp word with ⟨-, notNothing, noTruth, noInteger, noReal⟩
  cases tag with
  | none => exact (Option.some.inj means).symm.trans (ofStyle_of_isWord word style)
  | some asked =>
    simp only [ofTagged?, notNothing, noTruth, noInteger, noReal, Option.map_none,
      ofStyle_of_isWord word style, Bool.false_eq_true, if_false] at means
    split_ifs at means
    all_goals exact (Option.some.inj means).symm

end Meaning

namespace Generic

/-- A value with the document's own tags left aside. -/
def untagged : Generic → Generic
  | .tagged _ content => content.untagged
  | value => value

def text? (value : Generic) : Option String :=
  match value.untagged with
  | .text content => some content
  | _ => none

/-- The entries of a mapping, none of any other value. -/
def entries (value : Generic) : List (Generic × Generic) :=
  match value.untagged with
  | .mapping entries => entries
  | _ => []

/-- The items of a sequence, none of any other value. -/
def items (value : Generic) : List Generic :=
  match value.untagged with
  | .sequence items => items
  | _ => []

def field? (name : String) (value : Generic) : Option Generic :=
  (value.entries.find? fun entry => entry.1.text? = some name).map (·.2)

theorem untagged_underTag (tag : Option Tag) (content : Generic) :
    (underTag tag content).untagged = content.untagged := by
  cases tag with
  | none => rfl
  | some given =>
    rw [underTag]
    split
    · rw [untagged]
    · rfl

theorem isNothing_iff (value : Generic) : value.isNothing = true ↔ value.untagged = .nothing := by
  induction value using untagged.induct with
  | case1 tag content inductionHypothesis => rw [isNothing, untagged, inductionHypothesis]
  | case2 value notTagged =>
    cases value with
    | tagged tag content => exact absurd rfl (notTagged tag content)
    | nothing => exact iff_of_true rfl rfl
    | _ =>
      constructor
      · rintro ⟨⟩
      · rintro ⟨⟩

/-! ## What trees mean -/

theorem ofTree?_scalar {mark : Mark} {tag : Option Tag} {style : ScalarStyle} {content : String}
    {value : Generic} (sense : ofTree? (.scalar mark tag style content) = some value) :
    ∃ meaning own, Meaning.ofTagged? tag style content = some meaning ∧
      ofMeaning? meaning = some own ∧ value.untagged = own.untagged := by
  simp only [ofTree?, Option.bind_eq_bind, Option.bind_eq_some_iff, Option.map_eq_some_iff] at sense
  rcases sense with ⟨meaning, means, own, fits, rfl⟩
  exact ⟨meaning, own, means, fits, untagged_underTag tag own⟩

theorem forall₂_of_ofItems? {items : List Tree} {values : List Generic}
    (sense : ofItems? items = some values) :
    List.Forall₂ (fun item value => ofTree? item = some value) items values := by
  induction items generalizing values with
  | nil =>
    cases sense
    exact .nil
  | cons item items inductionHypothesis =>
    simp only [ofItems?, Option.bind_eq_bind, Option.bind_eq_some_iff] at sense
    rcases sense with ⟨value, itemSense, others, othersSense, ⟨⟩⟩
    exact .cons itemSense (inductionHypothesis othersSense)

def MeansEntry (entry : Tree × Tree) (value : Generic × Generic) : Prop :=
  ofTree? entry.1 = some value.1 ∧ ofTree? entry.2 = some value.2

theorem forall₂_of_ofEntries? {before : List (Generic × Generic)} {entries : List (Tree × Tree)}
    {values : List (Generic × Generic)} (sense : ofEntries? before entries = some values) :
    List.Forall₂ MeansEntry entries values := by
  induction entries generalizing before values with
  | nil =>
    cases sense
    exact .nil
  | cons entry entries inductionHypothesis =>
    simp only [ofEntries?, Option.bind_eq_bind, Option.bind_eq_some_iff] at sense
    rcases sense with ⟨keyValue, keySense, sense⟩
    split at sense
    · cases sense
    rcases Option.bind_eq_some_iff.mp sense with ⟨contentValue, contentSense, sense⟩
    rcases Option.bind_eq_some_iff.mp sense with ⟨others, othersSense, ⟨⟩⟩
    exact .cons ⟨keySense, contentSense⟩ (inductionHypothesis othersSense)

theorem ofTree?_sequence {mark : Mark} {tag : Option Tag} {items : List Tree} {value : Generic}
    (sense : ofTree? (.sequence mark tag items) = some value) :
    ∃ values, value.untagged = .sequence values ∧
      List.Forall₂ (fun item value => ofTree? item = some value) items values := by
  rw [ofTree?, Option.map_eq_some_iff] at sense
  rcases sense with ⟨values, itemsSense, rfl⟩
  exact ⟨values, untagged_underTag tag _, forall₂_of_ofItems? itemsSense⟩

theorem ofTree?_mapping {mark : Mark} {tag : Option Tag} {entries : List (Tree × Tree)}
    {value : Generic} (sense : ofTree? (.mapping mark tag entries) = some value) :
    ∃ values, value.untagged = .mapping values ∧ List.Forall₂ MeansEntry entries values := by
  rw [ofTree?, Option.map_eq_some_iff] at sense
  rcases sense with ⟨values, entriesSense, rfl⟩
  exact ⟨values, untagged_underTag tag _, forall₂_of_ofEntries? entriesSense⟩

/-- A key whose letters are a word is the text of them. -/
theorem text?_of_isWord {name : String} (word : Meaning.isWord name = true) {key : Tree}
    (letters : key.letters? = some name) {value : Generic} (sense : ofTree? key = some value) :
    value.text? = some name := by
  rw [← ofTree?_unshared] at sense
  rw [Tree.letters?] at letters
  split at letters
  · rename_i isScalar
    cases letters
    rw [isScalar] at sense
    rcases ofTree?_scalar sense with ⟨meaning, own, means, fits, same⟩
    rw [Meaning.eq_text_of_isWord word means] at fits
    cases fits
    rw [text?, same, untagged]
    exact fun _ _ => by simp
  · cases letters

end Generic

end Yaml

end LogPipeline
