import LogPipeline.Proofs.Decoding.Sections
import LogPipeline.Proofs.Yaml.Untagged

namespace LogPipeline

namespace Decoding

open Yaml (Mark Tree Tag Meaning Generic ScalarStyle)

/-!
# What is authored and what is held

A text says one thing without a schema, the value of its tree, and as a document
it holds another.  Both come from the same tree, and here they are compared part
by part, with the document's own tags left aside.

Every key of an accepted document names a section, and no two name the same.  A
section that the text does not have, or that it has as nothing, holds nothing.
Any other section holds its properties, instances or texts one by one in their
order: as many as the text says, none left out and none added.  Keys appear by
their letters, so two keys that mean different things may be kept under the same
letters.
-/

/-! ## Three lists side by side -/

/-- Three lists whose items are related one by one; they are equally long. -/
inductive OneByOne {First Second Third : Type} (Related : First → Second → Third → Prop) :
    List First → List Second → List Third → Prop
  | nil : OneByOne Related [] [] []
  | cons {first : First} {second : Second} {third : Third} {firsts : List First}
      {seconds : List Second} {thirds : List Third} (here : Related first second third)
      (later : OneByOne Related firsts seconds thirds) :
      OneByOne Related (first :: firsts) (second :: seconds) (third :: thirds)

section Lists

variable {First Second Third : Type} {Related : First → Second → Third → Prop}
  {firsts : List First} {seconds : List Second} {thirds : List Third}

theorem oneByOne_of_forall₂ {Left : First → Second → Prop} {Right : First → Third → Prop}
    (both : ∀ first second third, Left first second → Right first third →
      Related first second third)
    (left : List.Forall₂ Left firsts seconds) (right : List.Forall₂ Right firsts thirds) :
    OneByOne Related firsts seconds thirds := by
  induction left generalizing thirds with
  | nil =>
    cases right
    exact .nil
  | cons here _ inductionHypothesis =>
    cases right with
    | cons there later => exact .cons (both _ _ _ here there) (inductionHypothesis later)

theorem OneByOne.eq_nil (related : OneByOne Related firsts [] thirds) : thirds = [] := by
  cases related
  rfl

end Lists

/-! ## Parts of trees and of their values -/

/-- The entries of a mapping, none where an empty plain scalar stands for it.  No
other tree can be read as a mapping. -/
def entries? (tree : Tree) : Option (List (Tree × Tree)) :=
  match tree.unshared with
  | .mapping _ _ entries => some entries
  | .scalar _ _ .plain "" => some []
  | _ => none

/-- The items of a sequence, none where an empty plain scalar stands for it.  No
other tree can be read as a sequence. -/
def items? (tree : Tree) : Option (List Tree) :=
  match tree.unshared with
  | .sequence _ _ items => some items
  | .scalar _ _ .plain "" => some []
  | _ => none

def IsBlank (tree : Tree) : Prop :=
  ∃ mark tag, tree.unshared = .scalar mark tag .plain ""

theorem entries?_of_ok {expected : Expected} {path : Path} {tree : Tree}
    {list : List (Tree × Tree)} (read : entries expected path tree = .ok list) :
    entries? tree = some list := by
  rw [entries] at read
  split at read
  · rename_i isMapping
    rw [entries?, isMapping]
    exact congrArg some (Except.ok.inj read)
  · rename_i isScalar
    rw [entries?, isScalar]
    exact congrArg some (Except.ok.inj read)
  · cases read

theorem items?_of_ok {path : Path} {tree : Tree} {list : List Tree}
    (read : items path tree = .ok list) : items? tree = some list := by
  rw [items] at read
  split at read
  · rename_i isSequence
    rw [items?, isSequence]
    exact congrArg some (Except.ok.inj read)
  · rename_i isScalar
    rw [items?, isScalar]
    exact congrArg some (Except.ok.inj read)
  · cases read

theorem entries_of_isBlank {tree : Tree} (blank : IsBlank tree) (expected : Expected)
    (path : Path) : entries expected path tree = .ok [] := by
  rcases blank with ⟨mark, tag, isScalar⟩
  rw [entries, isScalar]
  rfl

theorem items_of_isBlank {tree : Tree} (blank : IsBlank tree) (path : Path) :
    items path tree = .ok [] := by
  rcases blank with ⟨mark, tag, isScalar⟩
  rw [items, isScalar]
  rfl

/-- What is left empty means nothing, or it is an empty plain scalar under a tag
that makes a text of it. -/
theorem isNothing_or_isBlank {tree : Tree} {value : Generic} (empty : isLeftEmpty tree = true)
    (sense : Generic.ofTree? tree = some value) : value.isNothing = true ∨ IsBlank tree := by
  induction tree using Tree.sharedInduction with
  | shared target inductionHypothesis => exact inductionHypothesis empty sense
  | bare tree bare =>
    cases tree with
    | sequence | mapping => cases empty
    | shared target => exact absurd rfl (bare target)
    | scalar mark tag style content =>
      rw [isLeftEmpty, Bool.and_eq_true, Bool.or_eq_true, Bool.and_eq_true, Bool.or_eq_true,
        decide_eq_true_eq, decide_eq_true_eq, String.isEmpty_iff, Option.isNone_iff_eq_none]
        at empty
      rcases empty with ⟨rfl, rfl | ⟨noKind, isNothing⟩⟩
      · exact .inr ⟨mark, tag, Tree.unshared_of_bare bare⟩
      · left
        have means : Meaning.ofTagged? tag .plain content = some .nothing := by
          rcases noKind with rfl | rfl
          · rw [Meaning.ofTagged?, Meaning.ofStyle, if_pos rfl, Meaning.ofPlain, isNothing,
              Bool.or_true, if_pos rfl]
          · rw [Meaning.ofTagged?, if_neg (by decide +kernel), if_neg (by decide +kernel),
              if_neg (by decide +kernel), if_pos rfl, isNothing, if_pos rfl]
        rcases Generic.ofTree?_scalar sense with ⟨meaning, own, ownMeans, fits, same⟩
        obtain rfl : meaning = .nothing := Option.some.inj (ownMeans.symm.trans means)
        cases fits
        rw [Generic.isNothing_iff, same, Generic.untagged]
        exact fun _ _ => Generic.noConfusion

theorem parts_of_isNothing {value : Generic} (isNothing : value.isNothing = true) :
    value.entries = [] ∧ value.items = [] := by
  rw [Generic.isNothing_iff] at isNothing
  rw [Generic.entries, Generic.items, isNothing]
  exact ⟨rfl, rfl⟩

def MeansItem (item : Tree) (value : Generic) : Prop :=
  Generic.ofTree? item = some value

/-- The parts of a tree mean the parts of its value. -/
theorem parts_of_sense {tree : Tree} {value : Generic}
    (sense : Generic.ofTree? tree = some value) :
    List.Forall₂ Generic.MeansEntry (entriesIn tree) value.entries ∧
      List.Forall₂ MeansItem (itemsIn tree) value.items := by
  induction tree using Tree.sharedInduction with
  | shared target inductionHypothesis => exact inductionHypothesis sense
  | bare tree bare =>
    rw [entriesIn, itemsIn, Tree.unshared_of_bare bare, Generic.entries, Generic.items]
    cases tree with
    | shared target => exact absurd rfl (bare target)
    | sequence mark tag items =>
      rcases Generic.ofTree?_sequence sense with ⟨values, same, means⟩
      rw [same]
      exact ⟨.nil, means⟩
    | mapping mark tag entries =>
      rcases Generic.ofTree?_mapping sense with ⟨values, same, means⟩
      rw [same]
      exact ⟨means, .nil⟩
    | scalar mark tag style content =>
      rcases Generic.ofTree?_scalar sense with ⟨meaning, own, -, fits, same⟩
      rw [same]
      cases meaning with
      | integer number =>
        rw [Generic.ofMeaning?, Option.ite_none_right_eq_some] at fits
        obtain rfl := Option.some.inj fits.2
        exact ⟨.nil, .nil⟩
      | nothing | truth flag | real number | text letters =>
        cases fits
        exact ⟨.nil, .nil⟩

/-! ## Keys and the names of sections -/

def documentNames : List String :=
  ["env", "includes", "service", "customs", "pipeline", "parsers", "multiline_parsers"]

def pipelineNames : List String :=
  ["inputs", "parsers", "multiline_parsers", "filters", "outputs"]

theorem names_documentFields : documentFields.map (·.1) = documentNames :=
  rfl

theorem names_pipelineFields : pipelineFields.map (·.1) = pipelineNames :=
  rfl

/-- All keys of a value are texts, each of them one of some names and none of
them twice. -/
def KeysAmong (known : List String) (value : Generic) : Prop :=
  ∃ names : List String, value.entries.map (·.1.text?) = names.map some ∧ names.Nodup ∧
    names ⊆ known

/-- The keys of sections that are read one after the other: each names one of
the sections, and none names one that came before. -/
theorem names_of_eachField {Whole : Type} {fields : List (Field Whole)} {path : Path} {mark : Mark}
    {seen : List String} {whole result : Whole} {entries : List (Tree × Tree)}
    (run : eachField fields path mark seen whole entries = .ok result) :
    ∃ names : List String, entries.map (·.1.letters?) = names.map some ∧ names.Nodup ∧
      ∀ name ∈ names, name ∈ fields.map (·.1) ∧ name ∉ seen := by
  induction entries generalizing seen whole with
  | nil => exact ⟨[], rfl, .nil, List.forall_mem_nil _⟩
  | cons entry entries inductionHypothesis =>
    rcases eachField_cons_of_ok run with
      ⟨given, own, filled, ownLetters, notSeen, ownName, found, -, run⟩
    rcases inductionHypothesis run with ⟨names, letters, distinct, known⟩
    have ownKnown : given ∈ fields.map (·.1) :=
      List.mem_map.mpr ⟨own, List.mem_of_find?_eq_some found, ownName⟩
    refine ⟨given :: names, ?_, ?_, ?_⟩
    · rw [List.map_cons, List.map_cons, letters, ownLetters]
    · exact List.nodup_cons.mpr ⟨fun again => (known given again).2 List.mem_cons_self, distinct⟩
    · rw [List.forall_mem_cons]
      refine ⟨⟨ownKnown, notSeen⟩, fun name member => ?_⟩
      exact ⟨(known name member).1, fun earlier =>
        (known name member).2 (List.mem_cons_of_mem _ earlier)⟩

/-- An entry of a tree under a key of some letters, and the same entry of its
value under the text of them. -/
def SameEntry (entry : Tree × Tree) (value : Generic × Generic) : Prop :=
  value.1.text? = entry.1.letters? ∧ MeansItem entry.2 value.2

theorem sameEntry_of_means {entries : List (Tree × Tree)} {values : List (Generic × Generic)}
    (means : List.Forall₂ Generic.MeansEntry entries values)
    (words : ∀ entry ∈ entries, ∃ name, entry.1.letters? = some name ∧ Meaning.isWord name = true) :
    List.Forall₂ SameEntry entries values := by
  induction means with
  | nil => exact .nil
  | cons here _ inductionHypothesis =>
    rw [List.forall_mem_cons] at words
    rcases words with ⟨⟨name, letters, word⟩, words⟩
    have key := Generic.text?_of_isWord word letters here.1
    exact .cons ⟨key.trans letters.symm, here.2⟩ (inductionHypothesis words)

theorem texts_of_sameEntry {entries : List (Tree × Tree)} {values : List (Generic × Generic)}
    (same : List.Forall₂ SameEntry entries values) :
    values.map (·.1.text?) = entries.map (·.1.letters?) := by
  induction same with
  | nil => rfl
  | cons here _ inductionHypothesis =>
    rw [List.map_cons, List.map_cons, inductionHypothesis, here.1]

/-- Under keys that are the same, a name finds the same content. -/
theorem content_of_sameEntry {entries : List (Tree × Tree)} {values : List (Generic × Generic)}
    (same : List.Forall₂ SameEntry entries values) (name : String) :
    Option.Rel MeansItem (contentOf? name entries)
      ((values.find? fun value => value.1.text? = some name).map (·.2)) := by
  induction same with
  | nil => exact .none
  | cons here _ inductionHypothesis =>
    rw [contentOf?_cons, List.find?_cons, here.1]
    split_ifs with named
    · rw [decide_eq_true named]
      exact .some here.2
    · rw [decide_eq_false named]
      exact inductionHypothesis

/-- A mapping of sections: its tree can be read as a mapping, its value has keys
that name sections, and both have the same content under each name. -/
theorem keys_of_structured {Whole : Type} {fields : List (Field Whole)} {known : List String}
    (names : fields.map (·.1) = known) (words : known.all Meaning.isWord = true)
    {expected : Expected} {empty result : Whole} {path : Path} {tree : Tree} {value : Generic}
    (sense : MeansItem tree value)
    (run : structured expected fields empty path tree = .ok result) :
    (∃ entries, entries? tree = some entries) ∧ KeysAmong known value ∧
      ∀ name, Option.Rel MeansItem (sectionNode? name tree) (value.field? name) := by
  rw [structured, bind_eq_ok_iff] at run
  rcases run with ⟨list, entriesRead, run⟩
  have own := entries_of_ok entriesRead
  rcases names_of_eachField run with ⟨given, letters, distinct, among⟩
  rw [names] at among
  rw [own] at letters
  -- The names of sections are words, so keys of their letters are texts under any style and tag.
  have wordKeys : ∀ entry ∈ entriesIn tree,
      ∃ name, entry.1.letters? = some name ∧ Meaning.isWord name = true := by
    intro entry member
    have keyMember := List.mem_map_of_mem (f := fun entry : Tree × Tree => entry.1.letters?) member
    rw [letters] at keyMember
    rcases List.mem_map.mp keyMember with ⟨name, nameMember, same⟩
    exact ⟨name, same.symm, List.all_eq_true.mp words name (among name nameMember).1⟩
  have same := sameEntry_of_means (parts_of_sense sense).1 wordKeys
  refine ⟨⟨list, entries?_of_ok entriesRead⟩, ⟨given, ?_, distinct, ?_⟩, ?_⟩
  · rw [texts_of_sameEntry same, letters]
  · exact fun name member => (among name member).1
  · exact content_of_sameEntry same

/-! ## What is written in a section -/

/-- A property as it is written, in the tree and in its value. -/
def PropertyWritten (entry : Tree × Tree) (value : Generic × Generic) (property : Property) :
    Prop :=
  Generic.MeansEntry entry value ∧ HoldsProperty entry property

/-- The properties of a mapping, one for each of its entries and in their
order. -/
def PropertiesWritten (tree : Tree) (value : Generic) (held : Properties) : Prop :=
  ∃ entries, entries? tree = some entries ∧ OneByOne PropertyWritten entries value.entries held

/-- What is written in a sequence, one part for each of its items and in their
order. -/
def ListWritten {Part : Type} (Written : Tree → Generic → Part → Prop) (tree : Tree)
    (value : Generic) (held : List Part) : Prop :=
  ∃ items, items? tree = some items ∧
    OneByOne (fun item own part => MeansItem item own ∧ Written item own part)
      items value.items held

/-- A text by its letters, whatever they mean. -/
def TextWritten (tree : Tree) (_ : Generic) (held : String) : Prop :=
  tree.letters? = some held

/-- The name that follows from properties: the text of the first one under the
name key, and none where that is no text or where there is no such property. -/
inductive NameOf : Properties → String → Prop
  | first (before after : Properties) (property : Property)
      (others : ∀ other ∈ before, sameKey other.key Plugin.nameKey = false)
      (own : sameKey property.key Plugin.nameKey = true) :
      NameOf (before ++ property :: after) (property.value.asText?.getD "")
  | none (properties : Properties)
      (others : ∀ other ∈ properties, sameKey other.key Plugin.nameKey = false) :
      NameOf properties ""

theorem nameOf_ofProperties (properties : Properties) :
    NameOf properties (Plugin.ofProperties properties).name := by
  rw [Plugin.ofProperties, Properties.get?]
  cases found : properties.find? fun property => sameKey property.key Plugin.nameKey with
  | none =>
    rw [List.find?_eq_none] at found
    exact .none properties fun other member => Bool.eq_false_iff.mpr (found other member)
  | some property =>
    rcases List.find?_eq_some_iff_append.mp found with ⟨own, before, after, rfl, others⟩
    refine .first before after property (fun other member => ?_) own
    exact (Bool.not_eq_true' _).mp (others other member)

/-- An instance: all its properties, and the name that follows from them. -/
def PluginWritten (tree : Tree) (value : Generic) (held : Plugin) : Prop :=
  PropertiesWritten tree value held.properties ∧ NameOf held.properties held.name

/-- What a place holds of the section of a name: its default if the section is
missing or nothing, and what is written in it otherwise. -/
inductive SectionHeld {Part : Type} (default : Part) (Written : Tree → Generic → Part → Prop)
    (name : String) (tree : Tree) (value : Generic) : Part → Prop
  | missing (absent : value.field? name = none) :
      SectionHeld default Written name tree value default
  | nothing {content : Generic} (found : value.field? name = some content)
      (isNothing : content.isNothing = true) : SectionHeld default Written name tree value default
  | written {content : Generic} {node : Tree} {part : Part}
      (found : value.field? name = some content) (isSomething : content.isNothing = false)
      (own : sectionNode? name tree = some node) (sense : MeansItem node content)
      (written : Written node content part) : SectionHeld default Written name tree value part

/-- A place that holds the properties of a section. -/
abbrev PropertiesHeld := SectionHeld ([] : Properties) PropertiesWritten

/-- A place that holds the instances of a section. -/
abbrev PluginsHeld := SectionHeld ([] : List Plugin) (ListWritten PluginWritten)

/-- A pipeline as it is written: a mapping with no keys but the names of its
sections, and what these hold. -/
structure PipelineWritten (tree : Tree) (value : Generic) (held : Pipeline) : Prop where
  mapping : ∃ entries, entries? tree = some entries
  keys : KeysAmong pipelineNames value
  inputs : PluginsHeld "inputs" tree value held.inputs
  parsers : PluginsHeld "parsers" tree value held.parsers
  multilineParsers : PluginsHeld "multiline_parsers" tree value held.multilineParsers
  filters : PluginsHeld "filters" tree value held.filters
  outputs : PluginsHeld "outputs" tree value held.outputs

/-- A document as it is written: a mapping with no keys but the names of its
sections, and what these hold. -/
structure DocumentWritten (tree : Tree) (value : Generic) (held : Document) : Prop where
  mapping : ∃ entries, entries? tree = some entries
  keys : KeysAmong documentNames value
  environment : PropertiesHeld "env" tree value held.environment
  includes : SectionHeld [] (ListWritten TextWritten) "includes" tree value held.includes
  service : PropertiesHeld "service" tree value held.service
  customs : PluginsHeld "customs" tree value held.customs
  pipeline : SectionHeld {} PipelineWritten "pipeline" tree value held.pipeline
  parsers : PluginsHeld "parsers" tree value held.parsers
  multilineParsers : PluginsHeld "multiline_parsers" tree value held.multilineParsers

/-! ## Reading what is written -/

/-- A way of reading gives what is written.  Where nothing is written that is a
default, which is also what an empty plain scalar is read as. -/
structure ReadsWritten {Part : Type} (default : Part) (read : Path → Tree → Read Part)
    (Written : Tree → Generic → Part → Prop) : Prop where
  written : ∀ {path tree value part}, MeansItem tree value → read path tree = .ok part →
    Written tree value part
  nothing : ∀ {tree value part}, value.isNothing = true → Written tree value part → part = default
  blank : ∀ {tree}, IsBlank tree → ∀ path, read path tree = .ok default

theorem sectionHeld_of_sectionRead {Part : Type} {default : Part} {read : Path → Tree → Read Part}
    {Written : Tree → Generic → Part → Prop} (reads : ReadsWritten default read Written)
    {name : String} {tree : Tree} {value : Generic} {part : Part}
    (same : Option.Rel MeansItem (sectionNode? name tree) (value.field? name))
    (run : SectionRead default read (sectionNode? name tree) part) :
    SectionHeld default Written name tree value part := by
  generalize own : sectionNode? name tree = node at same run
  generalize found : value.field? name = content at same
  cases same with
  | none =>
    rw [show part = default from run]
    exact .missing found
  | @some node content sense =>
    rcases run with ⟨path, run⟩
    rw [section?] at run
    cases isNothing : content.isNothing with
    | true =>
      have isDefault : part = default := by
        split at run
        · exact (Except.ok.inj run).symm
        · exact reads.nothing isNothing (reads.written sense run)
      rw [isDefault]
      exact .nothing found isNothing
    | false =>
      refine .written found isNothing own sense ?_
      split at run
      · rename_i empty
        rcases isNothing_or_isBlank empty sense with nothing | blank
        · exact absurd nothing (Bool.eq_false_iff.mp isNothing)
        · rw [← Except.ok.inj run]
          exact reads.written sense (reads.blank blank path)
      · exact reads.written sense run

theorem propertiesWritten_of_ok {path : Path} {tree : Tree} {value : Generic} {held : Properties}
    (sense : MeansItem tree value) (run : properties path tree = .ok held) :
    PropertiesWritten tree value held := by
  rcases bind_eq_ok_iff.mp run with ⟨list, entriesRead, run⟩
  obtain rfl := entries_of_ok entriesRead
  exact ⟨_, entries?_of_ok entriesRead, oneByOne_of_forall₂ (fun _ _ _ => And.intro)
    (parts_of_sense sense).1 (propertiesOf_eq_ok_iff.mp run)⟩

theorem readsWritten_properties : ReadsWritten [] properties PropertiesWritten where
  written := propertiesWritten_of_ok
  nothing := by
    rintro tree value held isNothing ⟨entries, -, one⟩
    rw [(parts_of_isNothing isNothing).1] at one
    exact one.eq_nil
  blank := by
    intro tree blank path
    rw [properties, entries_of_isBlank blank]
    rfl

/-- A list is read as it is written if its items are. -/
theorem readsWritten_eachItem {Part : Type} {read : Path → Tree → Read Part}
    {Written : Tree → Generic → Part → Prop}
    (each : ∀ {path item own part}, MeansItem item own → read path item = .ok part →
      Written item own part) :
    ReadsWritten [] (fun path tree => do eachItem read path 0 (← items path tree))
      (ListWritten Written) where
  written := by
    intro path tree value held sense run
    rcases bind_eq_ok_iff.mp run with ⟨list, itemsRead, run⟩
    obtain rfl := items_of_ok itemsRead
    have reads := @forall₂_of_eachItem _ read
      (fun item part => ∀ own, MeansItem item own → Written item own part)
      (fun _ _ _ itemRead _ sense => each sense itemRead) _ _ _ _ run
    refine ⟨_, items?_of_ok itemsRead, oneByOne_of_forall₂ ?_ (parts_of_sense sense).2 reads⟩
    exact fun item own part means written => ⟨means, written own means⟩
  nothing := by
    rintro tree value held isNothing ⟨items, -, one⟩
    rw [(parts_of_isNothing isNothing).2] at one
    exact one.eq_nil
  blank := by
    intro tree blank path
    rw [items_of_isBlank blank]
    rfl

theorem readsWritten_texts : ReadsWritten [] texts (ListWritten TextWritten) :=
  readsWritten_eachItem fun _ run => text_eq_ok_iff.mp run

theorem readsWritten_plugins : ReadsWritten [] plugins (ListWritten PluginWritten) := by
  refine readsWritten_eachItem ?_
  intro path item own plugin sense run
  rcases map_eq_ok_iff.mp run with ⟨list, propertiesRead, rfl⟩
  exact ⟨propertiesWritten_of_ok sense propertiesRead, nameOf_ofProperties list⟩

theorem pipelineWritten_of_ok {path : Path} {tree : Tree} {value : Generic} {held : Pipeline}
    (sense : MeansItem tree value) (run : pipeline path tree = .ok held) :
    PipelineWritten tree value held := by
  rcases keys_of_structured names_pipelineFields (by decide +kernel) sense run with
    ⟨mapping, keys, same⟩
  have sections := pipelineRead_of_ok run
  exact {
    mapping := mapping
    keys := keys
    inputs := sectionHeld_of_sectionRead readsWritten_plugins (same _) sections.inputs
    parsers := sectionHeld_of_sectionRead readsWritten_plugins (same _) sections.parsers
    multilineParsers :=
      sectionHeld_of_sectionRead readsWritten_plugins (same _) sections.multilineParsers
    filters := sectionHeld_of_sectionRead readsWritten_plugins (same _) sections.filters
    outputs := sectionHeld_of_sectionRead readsWritten_plugins (same _) sections.outputs }

/-- What is nothing has no sections. -/
theorem SectionHeld.eq_default {Part : Type} {default : Part}
    {Written : Tree → Generic → Part → Prop} {name : String} {tree : Tree} {value : Generic}
    {part : Part} (held : SectionHeld default Written name tree value part)
    (isNothing : value.isNothing = true) : part = default := by
  have absent : value.field? name = none := by
    rw [Generic.field?, (parts_of_isNothing isNothing).1]
    rfl
  cases held with
  | missing | nothing => rfl
  | written found => cases absent.symm.trans found

theorem readsWritten_pipeline : ReadsWritten {} pipeline PipelineWritten where
  written := pipelineWritten_of_ok
  nothing := by
    rintro tree value ⟨inputs, parsers, multilineParsers, filters, outputs⟩ isNothing written
    obtain rfl : inputs = [] := written.inputs.eq_default isNothing
    obtain rfl : parsers = [] := written.parsers.eq_default isNothing
    obtain rfl : multilineParsers = [] := written.multilineParsers.eq_default isNothing
    obtain rfl : filters = [] := written.filters.eq_default isNothing
    obtain rfl : outputs = [] := written.outputs.eq_default isNothing
    rfl
  blank := by
    intro tree blank path
    rw [pipeline, structured, entries_of_isBlank blank]
    rfl

theorem documentWritten_of_ok {tree : Tree} {value : Generic} {held : Document}
    (sense : MeansItem tree value) (run : ofTree tree = .ok held) :
    DocumentWritten tree value held := by
  rcases keys_of_structured names_documentFields (by decide +kernel) sense run with
    ⟨mapping, keys, same⟩
  have sections := documentRead_of_ok run
  exact {
    mapping := mapping
    keys := keys
    environment := sectionHeld_of_sectionRead readsWritten_properties (same _) sections.environment
    includes := sectionHeld_of_sectionRead readsWritten_texts (same _) sections.includes
    service := sectionHeld_of_sectionRead readsWritten_properties (same _) sections.service
    customs := sectionHeld_of_sectionRead readsWritten_plugins (same _) sections.customs
    pipeline := sectionHeld_of_sectionRead readsWritten_pipeline (same _) sections.pipeline
    parsers := sectionHeld_of_sectionRead readsWritten_plugins (same _) sections.parsers
    multilineParsers :=
      sectionHeld_of_sectionRead readsWritten_plugins (same _) sections.multilineParsers }

/-- A text that is read as a document has no keys but the names of sections, and
the document holds what is written in it: nothing for a section that is missing or
nothing, and otherwise the parts of the section one by one. -/
theorem sections_of_ofText {content : String} {document : Document}
    (read : ofText content = .ok document) :
    ∃ tree value, tree? content = some (some (tree, value)) ∧
      DocumentWritten tree value document := by
  rcases ofTree_of_ofText read with ⟨tree, value, found, sense, run⟩
  exact ⟨tree, value, found, documentWritten_of_ok sense run⟩

/-- Sections of which one is nothing, with keys of equal letters, a name in another
case and an instance without properties. -/
def unevenSections : String :=
  "includes: [a, 1]\npipeline:\n  outputs:\n  inputs: [\x7bName: t, 1: a, \"1\": b\x7d, \x7b\x7d]\n"

theorem sections_of_ofText_unevenSections :
    ∃ document, ofText unevenSections = .ok document ∧
      document.includes = ["a", "1"] ∧
      (document.pipeline.inputs.map fun input => input.name :: input.properties.map (·.key)) =
        [["t", "Name", "1", "1"], [""]] ∧
      ∃ tree value, tree? unevenSections = some (some (tree, value)) ∧
        DocumentWritten tree value document := by
  have parts : (ofText unevenSections).toOption.map
      (fun document => (document.includes, document.pipeline.inputs.map fun input =>
        input.name :: input.properties.map (·.key))) =
          some (["a", "1"], [["t", "Name", "1", "1"], [""]]) := by
    decide +kernel
  rcases exists_ok_of_toOption_map parts with ⟨document, read, parts⟩
  rcases Prod.mk.inj parts with ⟨includes, inputs⟩
  exact ⟨document, read, includes, inputs, sections_of_ofText read⟩

end Decoding

end LogPipeline
