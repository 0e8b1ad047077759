import LogPipeline.Decoding
import LogPipeline.Proofs.Outcomes
import LogPipeline.Proofs.Value.Entries
import LogPipeline.Proofs.Yaml.Parts
import Mathlib.Data.List.Forall2

namespace LogPipeline

namespace Decoding

open Yaml (Mark Tree Tag Meaning Generic)

/-!
# The value that a tree holds

The way to a tree only shows in reports, so a tree holds one value or none.  A
list has the values of its items.  A map is made of the entries as they are
written, each with the letters of its key and the value of its content, put one
after the other: an entry whose key has the letters of an earlier one takes its
place.  Hence a map has all entries as they are written exactly if no two keys
have the same letters.
-/

/-! ## Reading that succeeds -/

theorem text_eq_ok_iff {expected : Expected} {path : Path} {tree : Tree} {content : String} :
    text expected path tree = .ok content ↔ tree.letters? = some content := by
  rw [text, Tree.letters?]
  cases tree.unshared with
  | scalar mark tag style letters =>
    dsimp only
    rw [Except.ok.injEq, Option.some.injEq]
  | sequence | mapping | shared => constructor <;> rintro ⟨⟩

theorem refuseLocalTag_bind_eq_ok_iff {tag : Option Tag} {path : Path} {mark : Mark}
    {Next : Type} {next : Unit → Read Next} {last : Next} :
    refuseLocalTag tag path mark >>= next = .ok last ↔
      tag.any Tag.isLocal = false ∧ next () = .ok last := by
  rw [refuseLocalTag]
  cases tag.any Tag.isLocal with
  | true =>
    rw [if_pos rfl]
    constructor
    · rintro ⟨⟩
    · rintro ⟨⟨⟩, _⟩
  | false =>
    rw [if_neg Bool.false_ne_true]
    exact (and_iff_right rfl).symm

/-! ## The way to a tree -/

mutual

theorem value_of_path {path : Path} {tree : Tree} {held : Value} (read : value path tree = .ok held)
    (other : Path) : value other tree = .ok held := by
  cases tree with
  | scalar mark tag style content =>
    rw [value, refuseLocalTag_bind_eq_ok_iff] at read ⊢
    exact read
  | sequence mark tag items =>
    rw [value, refuseLocalTag_bind_eq_ok_iff, map_eq_ok_iff] at read ⊢
    rcases read with ⟨allowed, list, itemsRead, same⟩
    exact ⟨allowed, list, values_of_path itemsRead other 0, same⟩
  | mapping mark tag entries =>
    rw [value, refuseLocalTag_bind_eq_ok_iff, map_eq_ok_iff] at read ⊢
    rcases read with ⟨allowed, list, entriesRead, same⟩
    exact ⟨allowed, list, mapEntries_of_path entriesRead other, same⟩
  | shared target =>
    rw [value] at read ⊢
    exact value_of_path read other

theorem values_of_path {path : Path} {index : Nat} {items : List Tree} {held : List Value}
    (read : values path index items = .ok held) (other : Path) (start : Nat) :
    values other start items = .ok held := by
  match items with
  | [] =>
    rw [values] at read ⊢
    exact read
  | item :: items =>
    rw [values, bind_eq_ok_iff] at read ⊢
    rcases read with ⟨first, itemRead, read⟩
    rcases bind_eq_ok_iff.mp read with ⟨others, othersRead, same⟩
    exact ⟨first, value_of_path itemRead _,
      bind_eq_ok_iff.mpr ⟨others, values_of_path othersRead other _, same⟩⟩

theorem mapEntries_of_path {path : Path} {before : List (String × Value)}
    {entries : List (Tree × Tree)} {held : List (String × Value)}
    (read : mapEntries path before entries = .ok held) (other : Path) :
    mapEntries other before entries = .ok held := by
  match entries with
  | [] =>
    rw [mapEntries] at read ⊢
    exact read
  | (key, content) :: entries =>
    rw [mapEntries, bind_eq_ok_iff] at read ⊢
    rcases read with ⟨name, keyRead, read⟩
    rcases bind_eq_ok_iff.mp read with ⟨own, contentRead, read⟩
    exact ⟨name, text_eq_ok_iff.mpr (text_eq_ok_iff.mp keyRead),
      bind_eq_ok_iff.mpr ⟨own, value_of_path contentRead _, mapEntries_of_path read other⟩⟩

end

/-- A tree holds a value, on whatever way it is reached. -/
def Holds (tree : Tree) (held : Value) : Prop :=
  ∀ path, value path tree = .ok held

theorem value_eq_ok_iff {path : Path} {tree : Tree} {held : Value} :
    value path tree = .ok held ↔ Holds tree held :=
  ⟨fun read => value_of_path read, fun holds => holds path⟩

/-! ## What each kind of tree holds -/

theorem holds_scalar_iff {mark : Mark} {tag : Option Tag} {style : Yaml.ScalarStyle}
    {content : String} {held : Value} :
    Holds (.scalar mark tag style content) held ↔ tag.any Tag.isLocal = false ∧
      meaningValue ((Meaning.ofTagged? tag style content).getD (.text content)) = held := by
  rw [← @value_eq_ok_iff .root, value, refuseLocalTag_bind_eq_ok_iff, Except.ok.injEq]

theorem holds_shared_iff {target : Tree} {held : Value} :
    Holds (.shared target) held ↔ Holds target held := by
  rw [← @value_eq_ok_iff .root, value, value_eq_ok_iff]

theorem holds_unshared_iff {tree : Tree} {held : Value} :
    Holds tree.unshared held ↔ Holds tree held := by
  induction tree using Tree.sharedInduction with
  | shared target inductionHypothesis =>
    rw [Tree.unshared, inductionHypothesis, holds_shared_iff]
  | bare tree bare => rw [Tree.unshared_of_bare bare]

theorem values_eq_ok_iff {path : Path} {index : Nat} {items : List Tree} {held : List Value} :
    values path index items = .ok held ↔ List.Forall₂ Holds items held := by
  induction items generalizing index held with
  | nil =>
    rw [values, Except.ok.injEq, List.forall₂_nil_left_iff]
    exact eq_comm
  | cons item items inductionHypothesis =>
    rw [values, bind_eq_ok_iff]
    constructor
    · rintro ⟨first, itemRead, read⟩
      rcases bind_eq_ok_iff.mp read with ⟨others, othersRead, ⟨⟩⟩
      exact .cons (value_eq_ok_iff.mp itemRead) (inductionHypothesis.mp othersRead)
    · rintro (_ | ⟨itemHolds, othersHold⟩)
      exact ⟨_, value_eq_ok_iff.mpr itemHolds,
        bind_eq_ok_iff.mpr ⟨_, inductionHypothesis.mpr othersHold, rfl⟩⟩

theorem holds_sequence_iff {mark : Mark} {tag : Option Tag} {items : List Tree} {held : Value} :
    Holds (.sequence mark tag items) held ↔ tag.any Tag.isLocal = false ∧
      ∃ list, List.Forall₂ Holds items list ∧ .list list = held := by
  rw [← @value_eq_ok_iff .root, value, refuseLocalTag_bind_eq_ok_iff, map_eq_ok_iff]
  simp only [values_eq_ok_iff]

/-- An entry as it is written: the letters of its key and the value of its
content. -/
def HoldsEntry (entry : Tree × Tree) (written : String × Value) : Prop :=
  entry.1.letters? = some written.1 ∧ Holds entry.2 written.2

theorem mapEntries_eq_ok_iff {path : Path} {before : List (String × Value)}
    {entries : List (Tree × Tree)} {held : List (String × Value)} :
    mapEntries path before entries = .ok held ↔
      ∃ written, List.Forall₂ HoldsEntry entries written ∧ held = Value.putAll before written := by
  induction entries generalizing before with
  | nil =>
    rw [mapEntries, Except.ok.injEq]
    constructor
    · rintro rfl
      exact ⟨[], .nil, rfl⟩
    · rintro ⟨_, ⟨⟩, rfl⟩
      rfl
  | cons entry entries inductionHypothesis =>
    rcases entry with ⟨key, content⟩
    rw [mapEntries, bind_eq_ok_iff]
    constructor
    · rintro ⟨name, keyRead, read⟩
      rcases bind_eq_ok_iff.mp read with ⟨own, contentRead, read⟩
      rcases inductionHypothesis.mp read with ⟨written, entriesHold, rfl⟩
      exact ⟨(name, own) :: written,
        .cons ⟨text_eq_ok_iff.mp keyRead, value_eq_ok_iff.mp contentRead⟩ entriesHold, rfl⟩
    · rintro ⟨_, _ | ⟨⟨keyLetters, contentHolds⟩, entriesHold⟩, rfl⟩
      exact ⟨_, text_eq_ok_iff.mpr keyLetters, bind_eq_ok_iff.mpr
        ⟨_, value_eq_ok_iff.mpr contentHolds, inductionHypothesis.mpr ⟨_, entriesHold, rfl⟩⟩⟩

theorem holds_mapping_iff {mark : Mark} {tag : Option Tag} {entries : List (Tree × Tree)}
    {held : Value} :
    Holds (.mapping mark tag entries) held ↔ tag.any Tag.isLocal = false ∧
      ∃ written, List.Forall₂ HoldsEntry entries written ∧ .map (Value.putAll [] written) = held := by
  rw [← @value_eq_ok_iff .root, value, refuseLocalTag_bind_eq_ok_iff, map_eq_ok_iff]
  constructor
  · rintro ⟨allowed, list, entriesRead, rfl⟩
    rcases mapEntries_eq_ok_iff.mp entriesRead with ⟨written, entriesHold, rfl⟩
    exact ⟨allowed, written, entriesHold, rfl⟩
  · rintro ⟨allowed, written, entriesHold, rfl⟩
    exact ⟨allowed, _, mapEntries_eq_ok_iff.mpr ⟨written, entriesHold, rfl⟩, rfl⟩

theorem exists_of_mem_of_forall₂ {α β : Type} {Related : α → β → Prop} {left : List α}
    {right : List β} (related : List.Forall₂ Related left right) {item : α}
    (member : item ∈ left) : ∃ other, Related item other := by
  induction related with
  | nil => cases member
  | cons here _ inductionHypothesis =>
    rcases List.mem_cons.mp member with rfl | later
    · exact ⟨_, here⟩
    · exact inductionHypothesis later

/-- A mapping inside a tree that holds a value holds one. -/
theorem holds_of_isPart {mark : Mark} {tag : Option Tag} {entries : List (Tree × Tree)}
    {whole : Tree} (inside : Tree.IsPart (.mapping mark tag entries) whole) {held : Value}
    (holds : Holds whole held) : ∃ own, Holds (.mapping mark tag entries) own := by
  generalize sameMapping : Tree.mapping mark tag entries = part at inside ⊢
  induction inside generalizing held with
  | self tree => exact ⟨held, holds⟩
  | target _ inductionHypothesis => exact inductionHypothesis (holds_shared_iff.mp holds) sameMapping
  | item member _ inductionHypothesis =>
    rcases holds_sequence_iff.mp holds with ⟨-, list, itemsHold, -⟩
    rcases exists_of_mem_of_forall₂ itemsHold member with ⟨own, itemHolds⟩
    exact inductionHypothesis itemHolds sameMapping
  | key member inside _ =>
    rcases holds_mapping_iff.mp holds with ⟨-, written, entriesHold, -⟩
    rcases exists_of_mem_of_forall₂ entriesHold member with ⟨own, keyLetters, -⟩
    rw [← sameMapping] at inside
    exact absurd inside (Tree.not_isPart_of_letters? keyLetters)
  | content member _ inductionHypothesis =>
    rcases holds_mapping_iff.mp holds with ⟨-, written, entriesHold, -⟩
    rcases exists_of_mem_of_forall₂ entriesHold member with ⟨own, -, contentHolds⟩
    exact inductionHypothesis contentHolds sameMapping

end Decoding

end LogPipeline
