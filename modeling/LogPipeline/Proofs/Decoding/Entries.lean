import LogPipeline.Proofs.Decoding.Sections
import LogPipeline.Value.Json

namespace LogPipeline

namespace Decoding

open Yaml (Mark Tree Tag Generic ScalarStyle)

/-!
# The entries of nested maps

A document in which a mapping has two keys that mean the same is refused.  But
the keys of a map are the letters of the keys, whatever these mean, and letters
may be the same where the meanings differ: a whole number and the text of its
digits.  Of such entries only the last is kept.  So a map has all the entries of
its mapping exactly if the letters of the keys differ, and it always has them
where the keys are written in one form.
-/

/-- All keys are scalars of one tag and one style. -/
def HasOneForm (entries : List (Tree × Tree)) : Prop :=
  ∃ tag style, ∀ entry ∈ entries, ∃ mark content,
    entry.1.unshared = .scalar mark tag style content

/-- What a map holds of the entries of a mapping that makes sense. -/
structure MapOf (entries : List (Tree × Tree)) (written held : List (String × Value)) : Prop where
  /-- The entries as they are written. -/
  asWritten : List.Forall₂ HoldsEntry entries written
  /-- No two keys mean the same. -/
  differ : entries.Pairwise fun earlier later => Generic.Differ earlier.1 later.1
  /-- No two entries of the map have one key. -/
  distinct : (held.map (·.1)).Nodup
  /-- Each key has the value of the last entry with its letters. -/
  last : ∀ key, Value.entry? held key = Value.entry? written.reverse key
  /-- The map has the entries as they are written if the letters differ. -/
  kept_iff : held = written ↔
    entries.Pairwise fun earlier later => earlier.1.letters? ≠ later.1.letters?
  /-- Nothing is lost where the keys are written in one form. -/
  kept : HasOneForm entries → held = written

theorem letters?_of_holdsEntry {entries : List (Tree × Tree)} {written : List (String × Value)}
    (asWritten : List.Forall₂ HoldsEntry entries written) :
    entries.map (·.1.letters?) = (written.map (·.1)).map some := by
  induction asWritten with
  | nil => rfl
  | cons here _ inductionHypothesis =>
    rw [List.map_cons, List.map_cons, List.map_cons, here.1, inductionHypothesis]

theorem nodup_iff_letters_differ {entries : List (Tree × Tree)} {written : List (String × Value)}
    (asWritten : List.Forall₂ HoldsEntry entries written) :
    (written.map (·.1)).Nodup ↔
      entries.Pairwise fun earlier later => earlier.1.letters? ≠ later.1.letters? := by
  have someInjective : Function.Injective (@some String) := fun _ _ => Option.some.inj
  rw [← List.nodup_map_iff someInjective, ← letters?_of_holdsEntry asWritten, List.Nodup,
    List.pairwise_map]

/-- Keys of one form that do not mean the same have different letters. -/
theorem letters_differ_of_hasOneForm {entries : List (Tree × Tree)}
    (sense : ∀ entry ∈ entries, ∃ generic, Generic.ofTree? entry.1 = some generic)
    (differ : entries.Pairwise fun earlier later => Generic.Differ earlier.1 later.1)
    (oneForm : HasOneForm entries) :
    entries.Pairwise fun earlier later => earlier.1.letters? ≠ later.1.letters? := by
  rcases oneForm with ⟨tag, style, form⟩
  refine differ.imp_of_mem ?_
  intro earlier later earlierMember laterMember differ same
  rcases form earlier earlierMember with ⟨earlierMark, content, earlierScalar⟩
  rcases form later laterMember with ⟨laterMark, laterContent, laterScalar⟩
  rw [Tree.letters?, Tree.letters?, earlierScalar, laterScalar] at same
  obtain rfl : content = laterContent := Option.some.inj same
  rcases sense earlier earlierMember with ⟨generic, earlierSense⟩
  exact Generic.not_differ_of_unshared earlierScalar laterScalar earlierSense differ

/-- A mapping that makes sense and holds a value holds a map of its entries. -/
theorem mapOf_of_holds {mark : Mark} {tag : Option Tag} {entries : List (Tree × Tree)}
    {own : Value} (holds : Holds (.mapping mark tag entries) own) {generic : Generic}
    (sense : Generic.ofTree? (.mapping mark tag entries) = some generic) :
    ∃ written held, Holds (.mapping mark tag entries) (.map held) ∧ MapOf entries written held := by
  rcases holds_mapping_iff.mp holds with ⟨-, written, asWritten, rfl⟩
  have differ := Generic.differ_of_mapping sense
  have keysSense : ∀ entry ∈ entries, ∃ keyGeneric, Generic.ofTree? entry.1 = some keyGeneric :=
    fun entry member => Generic.ofTree?_of_isPart (.key member (.self entry.1)) sense
  have keptIff : Value.putAll [] written = written ↔
      entries.Pairwise fun earlier later => earlier.1.letters? ≠ later.1.letters? := by
    rw [Value.putAll_eq_self_iff, nodup_iff_letters_differ asWritten]
  refine ⟨written, Value.putAll [] written, holds, asWritten, differ, ?_, ?_, keptIff, ?_⟩
  · exact @Value.nodup_putAll [] .nil written
  · intro key
    rw [Value.entry?_putAll]
    exact Option.or_none
  · intro oneForm
    exact keptIff.mpr (letters_differ_of_hasOneForm keysSense differ oneForm)

/-- In a text that is read as a document every mapping that is a property value
or stands inside one, at any depth, is read as a map of its entries: in their
order, each under the letters of its key and with the value of its content, and
all of them exactly if no two keys have the same letters. -/
theorem maps_of_ofText {content : String} {document : Document}
    (read : ofText content = .ok document) :
    ∃ tree generic, tree? content = some (some (tree, generic)) ∧
      List.Forall₂ HoldsProperty (propertyEntries tree) (allProperties document) ∧
      ∀ entry ∈ propertyEntries tree, ∀ mark tag entries,
        Tree.IsPart (.mapping mark tag entries) entry.2 →
          ∃ written held, Holds (.mapping mark tag entries) (.map held) ∧
            MapOf entries written held := by
  rcases holdsProperty_of_ofText read with ⟨tree, generic, found, sense, properties⟩
  refine ⟨tree, generic, found, properties, ?_⟩
  intro entry member mark tag entries inside
  rcases exists_of_mem_of_forall₂ properties member with ⟨property, -, contentHolds⟩
  rcases holds_of_isPart inside contentHolds with ⟨own, holds⟩
  have inTree := inside.trans (isPart_of_mem_propertyEntries tree entry member)
  rcases Generic.ofTree?_of_isPart inTree sense with ⟨ownGeneric, ownSense⟩
  exact mapOf_of_holds holds ownSense

def nestedMaps : String :=
  "service:\n  outer: \x7ba: 1, b: [x, \x7bc: 2, d: \x7d]\x7d\n"

theorem maps_of_ofText_nestedMaps :
    ∃ document, ofText nestedMaps = .ok document ∧
      (allProperties document).map (fun property => Json.text property.value) =
        ["\x7b\"a\":1,\"b\":[\"x\",\x7b\"c\":2,\"d\":\"\"\x7d]\x7d"] ∧
      ∃ tree generic, tree? nestedMaps = some (some (tree, generic)) ∧
        List.Forall₂ HoldsProperty (propertyEntries tree) (allProperties document) ∧
        ∀ entry ∈ propertyEntries tree, ∀ mark tag entries,
          Tree.IsPart (.mapping mark tag entries) entry.2 →
            ∃ written held, Holds (.mapping mark tag entries) (.map held) ∧
              MapOf entries written held := by
  have texts : (ofText nestedMaps).toOption.map
      (fun document => (allProperties document).map fun property => Json.text property.value) =
        some ["\x7b\"a\":1,\"b\":[\"x\",\x7b\"c\":2,\"d\":\"\"\x7d]\x7d"] := by
    decide +kernel
  rcases exists_ok_of_toOption_map texts with ⟨document, read, texts⟩
  exact ⟨document, read, texts, maps_of_ofText read⟩

/-- A map whose keys are a whole number and the text of its digits. -/
def equalLetters : String :=
  "service:\n  o: \x7b1: a, \"1\": b\x7d\n"

/-- The text makes sense, and of its two entries the map has the last. -/
theorem maps_of_ofText_equalLetters :
    ∃ document tree generic, ofText equalLetters = .ok document ∧
      tree? equalLetters = some (some (tree, generic)) ∧
      ((propertyEntries tree).map fun entry =>
        (entriesIn entry.2).map fun inner => (inner.1.letters?, inner.2.letters?)) =
          [[(some "1", some "a"), (some "1", some "b")]] ∧
      ((allProperties document).map fun property =>
        property.value.asMap?.map fun entries =>
          entries.map fun inner => (inner.1, inner.2.asText?)) = [some [("1", some "b")]] := by
  have nodes : (tree? equalLetters).join.map
      (fun parsed => (propertyEntries parsed.1).map fun entry =>
        (entriesIn entry.2).map fun inner => (inner.1.letters?, inner.2.letters?)) =
          some [[(some "1", some "a"), (some "1", some "b")]] := by
    decide +kernel
  have values : (ofText equalLetters).toOption.map
      (fun document => (allProperties document).map fun property =>
        property.value.asMap?.map fun entries =>
          entries.map fun inner => (inner.1, inner.2.asText?)) =
            some [some [("1", some "b")]] := by
    decide +kernel
  rcases Option.map_eq_some_iff.mp nodes with ⟨⟨tree, generic⟩, found, nodes⟩
  rcases exists_ok_of_toOption_map values with ⟨document, read, values⟩
  exact ⟨document, tree, generic, read, Option.join_eq_some_iff.mp found, nodes, values⟩

end Decoding

end LogPipeline
