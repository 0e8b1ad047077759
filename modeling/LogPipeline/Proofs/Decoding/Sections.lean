import LogPipeline.Proofs.Decoding.Values

namespace LogPipeline

namespace Decoding

open Yaml (Mark Tree Tag Meaning Generic)

/-!
# The sections of a document

The sections of a mapping are read one after the other into a whole.  Each goes
to a place of its own, which no other section touches, and none comes twice; so
in the end every place holds what its section was read as, or its default where
the section is missing.

A document thus has, in the order of its sections, the properties that are
written in its tree: each under the letters of its key, with the value that its
content holds.
-/

/-! ## The parts of mappings and sequences -/

/-- The entries of a mapping, also behind an alias; none of any other tree. -/
def entriesIn (tree : Tree) : List (Tree × Tree) :=
  match tree.unshared with
  | .mapping _ _ entries => entries
  | _ => []

/-- The items of a sequence, also behind an alias; none of any other tree. -/
def itemsIn (tree : Tree) : List Tree :=
  match tree.unshared with
  | .sequence _ _ items => items
  | _ => []

def contentOf? (name : String) (entries : List (Tree × Tree)) : Option Tree :=
  (entries.find? fun entry => entry.1.letters? = some name).map (·.2)

theorem contentOf?_cons (name : String) (entry : Tree × Tree) (entries : List (Tree × Tree)) :
    contentOf? name (entry :: entries) =
      if entry.1.letters? = some name then some entry.2 else contentOf? name entries := by
  rw [contentOf?, List.find?_cons]
  by_cases same : entry.1.letters? = some name
  · rw [decide_eq_true same, if_pos same, Option.map_some]
  · rw [decide_eq_false same, if_neg same, contentOf?]

/-- A section of a tree by its name. -/
def sectionNode? (name : String) (tree : Tree) : Option Tree :=
  contentOf? name (entriesIn tree)

theorem entries_of_ok {expected : Expected} {path : Path} {tree : Tree}
    {list : List (Tree × Tree)} (read : entries expected path tree = .ok list) :
    list = entriesIn tree := by
  rw [entries] at read
  rw [entriesIn]
  split at read
  · rename_i isMapping
    rw [isMapping]
    exact (Except.ok.inj read).symm
  · rename_i isScalar
    rw [isScalar]
    exact (Except.ok.inj read).symm
  · cases read

theorem items_of_ok {path : Path} {tree : Tree} {list : List Tree}
    (read : items path tree = .ok list) : list = itemsIn tree := by
  rw [items] at read
  rw [itemsIn]
  split at read
  · rename_i isSequence
    rw [isSequence]
    exact (Except.ok.inj read).symm
  · rename_i isScalar
    rw [isScalar]
    exact (Except.ok.inj read).symm
  · cases read

/-- What is left empty has no parts. -/
theorem parts_of_isLeftEmpty {tree : Tree} (empty : isLeftEmpty tree = true) :
    entriesIn tree = [] ∧ itemsIn tree = [] := by
  have isScalar : ∃ mark tag style content, tree.unshared = .scalar mark tag style content := by
    induction tree using Tree.sharedInduction with
    | shared target inductionHypothesis =>
      rw [Tree.unshared]
      exact inductionHypothesis empty
    | bare tree bare =>
      rw [Tree.unshared_of_bare bare]
      cases tree with
      | scalar mark tag style content => exact ⟨mark, tag, style, content, rfl⟩
      | sequence | mapping => cases empty
      | shared target => exact absurd rfl (bare target)
  rcases isScalar with ⟨mark, tag, style, content, same⟩
  rw [entriesIn, itemsIn, same]
  exact ⟨rfl, rfl⟩

/-! ## Places of sections -/

section Places

variable {Whole Part : Type}

/-- What a section, if there is one, was read as. -/
def SectionRead (default : Part) (read : Path → Tree → Read Part) : Option Tree → Part → Prop
  | none, part => part = default
  | some node, part => ∃ path, section? default read path node = .ok part

/-- A section leaves a place in a whole as it is. -/
def Keeps (get : Whole → Part) (other : Field Whole) : Prop :=
  ∀ path tree before after, other.2 path tree before = .ok after → get after = get before

/-- A place in a whole that a section of a name fills and no other section
touches. -/
structure IsPlace (fields : List (Field Whole)) (name : String) (default : Part)
    (read : Path → Tree → Read Part) (get : Whole → Part) : Prop where
  filled : ∃ put : Whole → Part → Whole, (∀ whole part, get (put whole part) = part) ∧
    fields.find? (·.1 = name) = some (field name default read put)
  kept : ∀ other ∈ fields, other.1 = name ∨ Keeps get other

theorem keeps_field {Other : Type} {name : String} {default : Other}
    {read : Path → Tree → Read Other} {put : Whole → Other → Whole} {get : Whole → Part}
    (untouched : ∀ whole part, get (put whole part) = get whole) :
    Keeps get (field name default read put) := by
  intro path tree before after run
  rcases map_eq_ok_iff.mp run with ⟨part, -, rfl⟩
  exact untouched before part

variable {fields : List (Field Whole)} {name : String} {default : Part}
  {read : Path → Tree → Read Part} {get : Whole → Part}

/-- What reading one more section does: its key names a section that has not come
yet, and that section is read into the whole before the others. -/
theorem eachField_cons_of_ok {path : Path} {mark : Mark} {seen : List String}
    {whole result : Whole} {entry : Tree × Tree} {entries : List (Tree × Tree)}
    (run : eachField fields path mark seen whole (entry :: entries) = .ok result) :
    ∃ given own filled, entry.1.letters? = some given ∧ given ∉ seen ∧ own.1 = given ∧
      fields.find? (·.1 = given) = some own ∧
      own.2 (entryPath path entry.1) entry.2 whole = .ok filled ∧
      eachField fields path mark (given :: seen) filled entries = .ok result := by
  rcases entry with ⟨key, content⟩
  rw [eachField, bind_eq_ok_iff] at run
  rcases run with ⟨given, keyRead, run⟩
  split at run
  · cases run
  rename_i fieldName fieldRead found
  split at run
  · cases run
  rename_i notSeen
  rw [List.contains_eq_mem, decide_eq_true_eq] at notSeen
  rcases bind_eq_ok_iff.mp run with ⟨filled, fieldRun, run⟩
  have ownName := List.find?_some found
  rw [decide_eq_true_eq] at ownName
  exact ⟨given, _, filled, text_eq_ok_iff.mp keyRead, notSeen, ownName, found, fieldRun, run⟩

/-- Sections that are read into a whole: a place whose section has not come yet
holds in the end what its section was read as, and any other place what it
held. -/
theorem eachField_of_isPlace (place : IsPlace fields name default read get) {path : Path}
    {mark : Mark} {seen : List String} {whole result : Whole} {entries : List (Tree × Tree)}
    (run : eachField fields path mark seen whole entries = .ok result) :
    (name ∉ seen → get whole = default →
        SectionRead default read (contentOf? name entries) (get result)) ∧
      (name ∈ seen → get result = get whole) := by
  induction entries generalizing seen whole with
  | nil =>
    cases run
    exact ⟨fun _ untouched => untouched, fun _ => rfl⟩
  | cons entry entries inductionHypothesis =>
    rcases eachField_cons_of_ok run with
      ⟨given, own, filled, letters, notSeen, ownName, found, fieldRun, run⟩
    rcases inductionHypothesis run with ⟨coming, come⟩
    by_cases same : given = name
    · rw [same] at notSeen come letters found
      rcases place.filled with ⟨put, getPut, ownField⟩
      cases found.symm.trans ownField
      rcases map_eq_ok_iff.mp fieldRun with ⟨part, sectionRun, rfl⟩
      refine ⟨fun _ _ => ?_, fun seenBefore => absurd seenBefore notSeen⟩
      rw [contentOf?_cons, if_pos letters, come List.mem_cons_self, getPut]
      exact ⟨_, sectionRun⟩
    · have keptPlace : get filled = get whole := by
        rcases place.kept _ (List.mem_of_find?_eq_some found) with sameName | keeps
        · exact absurd (ownName.symm.trans sameName) same
        · exact keeps _ _ _ _ fieldRun
      have otherKey : ¬ entry.1.letters? = some name := by
        rw [letters, Option.some.injEq]
        exact same
      rw [List.mem_cons, not_or, keptPlace] at coming
      rw [contentOf?_cons, if_neg otherKey]
      refine ⟨fun notSeenBefore untouched => ?_, fun seenBefore => ?_⟩
      · exact coming ⟨Ne.symm same, notSeenBefore⟩ untouched
      · rw [come (List.mem_cons_of_mem _ seenBefore), keptPlace]

/-- A mapping of sections gives each place what its section was read as. -/
theorem structured_of_isPlace (place : IsPlace fields name default read get)
    {expected : Expected} {empty result : Whole} (untouched : get empty = default) {path : Path}
    {tree : Tree} (run : structured expected fields empty path tree = .ok result) :
    SectionRead default read (sectionNode? name tree) (get result) := by
  rw [structured, bind_eq_ok_iff] at run
  rcases run with ⟨list, entriesRead, run⟩
  rw [entries_of_ok entriesRead] at run
  exact (eachField_of_isPlace place run).1 List.not_mem_nil untouched

end Places

/-! ## The sections of pipelines and documents -/

/-- The places of a pipeline hold what its sections were read as. -/
structure PipelineRead (tree : Tree) (held : Pipeline) : Prop where
  inputs : SectionRead [] plugins (sectionNode? "inputs" tree) held.inputs
  parsers : SectionRead [] plugins (sectionNode? "parsers" tree) held.parsers
  multilineParsers :
    SectionRead [] plugins (sectionNode? "multiline_parsers" tree) held.multilineParsers
  filters : SectionRead [] plugins (sectionNode? "filters" tree) held.filters
  outputs : SectionRead [] plugins (sectionNode? "outputs" tree) held.outputs

/-- The places of a document hold what its sections were read as. -/
structure DocumentRead (tree : Tree) (held : Document) : Prop where
  environment : SectionRead [] properties (sectionNode? "env" tree) held.environment
  includes : SectionRead [] texts (sectionNode? "includes" tree) held.includes
  service : SectionRead [] properties (sectionNode? "service" tree) held.service
  customs : SectionRead [] plugins (sectionNode? "customs" tree) held.customs
  pipeline : SectionRead {} pipeline (sectionNode? "pipeline" tree) held.pipeline
  parsers : SectionRead [] plugins (sectionNode? "parsers" tree) held.parsers
  multilineParsers :
    SectionRead [] plugins (sectionNode? "multiline_parsers" tree) held.multilineParsers

theorem pipelineRead_of_ok {path : Path} {tree : Tree} {held : Pipeline}
    (run : pipeline path tree = .ok held) : PipelineRead tree held := by
  constructor
  all_goals
    refine structured_of_isPlace ⟨⟨_, fun _ _ => rfl, rfl⟩, ?_⟩ rfl run
    simp only [pipelineFields, List.forall_mem_cons]
    refine ⟨?_, ?_, ?_, ?_, ?_, List.forall_mem_nil _⟩
    all_goals first
      | exact .inl rfl
      | exact .inr (keeps_field fun _ _ => rfl)

theorem documentRead_of_ok {tree : Tree} {held : Document} (run : ofTree tree = .ok held) :
    DocumentRead tree held := by
  constructor
  all_goals
    refine structured_of_isPlace ⟨⟨_, fun _ _ => rfl, rfl⟩, ?_⟩ rfl run
    simp only [documentFields, List.forall_mem_cons]
    refine ⟨?_, ?_, ?_, ?_, ?_, ?_, ?_, List.forall_mem_nil _⟩
    all_goals first
      | exact .inl rfl
      | exact .inr (keeps_field fun _ _ => rfl)

/-! ## Properties -/

/-- A property as it is written: the letters of its key and the value of its
content. -/
def HoldsProperty (entry : Tree × Tree) (property : Property) : Prop :=
  HoldsEntry entry (property.key, property.value)

/-- An instance as it is written: its properties, and the name that follows from
them. -/
def HoldsPlugin (tree : Tree) (plugin : Plugin) : Prop :=
  List.Forall₂ HoldsProperty (entriesIn tree) plugin.properties ∧
    plugin = Plugin.ofProperties plugin.properties

theorem propertiesOf_eq_ok_iff {path : Path} {list : List (Tree × Tree)} {held : Properties} :
    propertiesOf path list = .ok held ↔ List.Forall₂ HoldsProperty list held := by
  induction list generalizing held with
  | nil =>
    rw [propertiesOf, Except.ok.injEq, List.forall₂_nil_left_iff]
    exact eq_comm
  | cons entry list inductionHypothesis =>
    rcases entry with ⟨key, content⟩
    rw [propertiesOf, bind_eq_ok_iff]
    constructor
    · rintro ⟨name, keyRead, run⟩
      rcases bind_eq_ok_iff.mp run with ⟨own, contentRead, run⟩
      rcases bind_eq_ok_iff.mp run with ⟨others, othersRead, ⟨⟩⟩
      exact .cons ⟨text_eq_ok_iff.mp keyRead, value_eq_ok_iff.mp contentRead⟩
        (inductionHypothesis.mp othersRead)
    · rintro (_ | ⟨⟨keyLetters, contentHolds⟩, othersHold⟩)
      exact ⟨_, text_eq_ok_iff.mpr keyLetters, bind_eq_ok_iff.mpr
        ⟨_, value_eq_ok_iff.mpr contentHolds, bind_eq_ok_iff.mpr
          ⟨_, inductionHypothesis.mpr othersHold, rfl⟩⟩⟩

theorem holdsProperty_of_properties {path : Path} {tree : Tree} {held : Properties}
    (run : properties path tree = .ok held) :
    List.Forall₂ HoldsProperty (entriesIn tree) held := by
  rcases bind_eq_ok_iff.mp run with ⟨list, entriesRead, run⟩
  rw [entries_of_ok entriesRead] at run
  exact propertiesOf_eq_ok_iff.mp run

theorem forall₂_of_eachItem {Result : Type} {read : Path → Tree → Read Result}
    {Related : Tree → Result → Prop}
    (each : ∀ path tree result, read path tree = .ok result → Related tree result) {path : Path}
    {index : Nat} {list : List Tree} {held : List Result}
    (run : eachItem read path index list = .ok held) : List.Forall₂ Related list held := by
  induction list generalizing index held with
  | nil =>
    cases run
    exact .nil
  | cons item list inductionHypothesis =>
    rcases bind_eq_ok_iff.mp run with ⟨first, itemRead, run⟩
    rcases bind_eq_ok_iff.mp run with ⟨others, othersRead, ⟨⟩⟩
    exact .cons (each _ _ _ itemRead) (inductionHypothesis othersRead)

theorem holdsPlugin_of_plugins {path : Path} {tree : Tree} {held : List Plugin}
    (run : plugins path tree = .ok held) : List.Forall₂ HoldsPlugin (itemsIn tree) held := by
  rcases bind_eq_ok_iff.mp run with ⟨list, itemsRead, run⟩
  rw [items_of_ok itemsRead] at run
  refine forall₂_of_eachItem ?_ run
  intro itemPath item plugin itemRead
  rcases map_eq_ok_iff.mp itemRead with ⟨list, propertiesRead, rfl⟩
  exact ⟨holdsProperty_of_properties propertiesRead, rfl⟩

/-! ## All properties of a document -/

/-- The entries of the properties of a section, given those of its node. -/
def sectionEntries (own : Tree → List (Tree × Tree)) (name : String) (tree : Tree) :
    List (Tree × Tree) :=
  (sectionNode? name tree).elim [] own

def instanceEntries (tree : Tree) : List (Tree × Tree) :=
  (itemsIn tree).flatMap entriesIn

def pipelineEntries (tree : Tree) : List (Tree × Tree) :=
  sectionEntries instanceEntries "inputs" tree ++
    (sectionEntries instanceEntries "parsers" tree ++
      (sectionEntries instanceEntries "multiline_parsers" tree ++
        (sectionEntries instanceEntries "filters" tree ++
          sectionEntries instanceEntries "outputs" tree)))

/-- The entries of all properties in the tree of a document, section by
section. -/
def propertyEntries (tree : Tree) : List (Tree × Tree) :=
  sectionEntries entriesIn "env" tree ++
    (sectionEntries entriesIn "service" tree ++
      (sectionEntries instanceEntries "customs" tree ++
        (sectionEntries pipelineEntries "pipeline" tree ++
          (sectionEntries instanceEntries "parsers" tree ++
            sectionEntries instanceEntries "multiline_parsers" tree))))

def instanceProperties (plugins : List Plugin) : Properties :=
  plugins.flatMap (·.properties)

def pipelineProperties (pipeline : Pipeline) : Properties :=
  instanceProperties pipeline.inputs ++
    (instanceProperties pipeline.parsers ++
      (instanceProperties pipeline.multilineParsers ++
        (instanceProperties pipeline.filters ++ instanceProperties pipeline.outputs)))

/-- All properties of a document, section by section. -/
def allProperties (document : Document) : Properties :=
  document.environment ++
    (document.service ++
      (instanceProperties document.customs ++
        (pipelineProperties document.pipeline ++
          (instanceProperties document.parsers ++
            instanceProperties document.multilineParsers))))

/-- A section has the properties that are written in its node; it has none where
it is missing or left empty. -/
theorem holdsProperty_of_sectionRead {Part : Type} {default : Part}
    {read : Path → Tree → Read Part} {own : Tree → List (Tree × Tree)} {held : Part → Properties}
    (nothing : held default = [])
    (empty : ∀ tree, isLeftEmpty tree = true → own tree = [])
    (written : ∀ path tree part, read path tree = .ok part →
      List.Forall₂ HoldsProperty (own tree) (held part))
    {name : String} {tree : Tree} {part : Part}
    (run : SectionRead default read (sectionNode? name tree) part) :
    List.Forall₂ HoldsProperty (sectionEntries own name tree) (held part) := by
  rw [sectionEntries]
  cases found : sectionNode? name tree with
  | none =>
    rw [found] at run
    rw [show part = default from run, nothing]
    exact .nil
  | some node =>
    rw [found] at run
    rcases run with ⟨path, run⟩
    rw [section?] at run
    split at run
    · rename_i leftEmpty
      cases run
      rw [Option.elim_some, empty node leftEmpty, nothing]
      exact .nil
    · exact written path node part run

theorem properties_of_sectionRead {name : String} {tree : Tree} {held : Properties}
    (run : SectionRead [] properties (sectionNode? name tree) held) :
    List.Forall₂ HoldsProperty (sectionEntries entriesIn name tree) held :=
  @holdsProperty_of_sectionRead _ _ _ entriesIn id rfl
    (fun _ leftEmpty => (parts_of_isLeftEmpty leftEmpty).1)
    (fun _ _ _ read => holdsProperty_of_properties read) _ _ _ run

theorem holdsProperty_of_plugins {path : Path} {tree : Tree} {held : List Plugin}
    (run : plugins path tree = .ok held) :
    List.Forall₂ HoldsProperty (instanceEntries tree) (instanceProperties held) := by
  have instances := holdsPlugin_of_plugins run
  rw [instanceEntries, instanceProperties]
  clear run
  generalize itemsIn tree = items at instances
  induction instances with
  | nil => exact .nil
  | cons here _ inductionHypothesis =>
    rw [List.flatMap_cons, List.flatMap_cons]
    exact List.rel_append here.1 inductionHypothesis

theorem plugins_of_sectionRead {name : String} {tree : Tree} {held : List Plugin}
    (run : SectionRead [] plugins (sectionNode? name tree) held) :
    List.Forall₂ HoldsProperty (sectionEntries instanceEntries name tree)
      (instanceProperties held) := by
  refine holdsProperty_of_sectionRead rfl ?_ (fun _ _ _ read => holdsProperty_of_plugins read) run
  intro node leftEmpty
  rw [instanceEntries, (parts_of_isLeftEmpty leftEmpty).2, List.flatMap_nil]

theorem holdsProperty_of_pipeline {path : Path} {tree : Tree} {held : Pipeline}
    (run : pipeline path tree = .ok held) :
    List.Forall₂ HoldsProperty (pipelineEntries tree) (pipelineProperties held) := by
  have sections := pipelineRead_of_ok run
  apply List.rel_append (plugins_of_sectionRead sections.inputs)
  apply List.rel_append (plugins_of_sectionRead sections.parsers)
  apply List.rel_append (plugins_of_sectionRead sections.multilineParsers)
  exact List.rel_append (plugins_of_sectionRead sections.filters)
    (plugins_of_sectionRead sections.outputs)

theorem pipeline_of_sectionRead {name : String} {tree : Tree} {held : Pipeline}
    (run : SectionRead {} pipeline (sectionNode? name tree) held) :
    List.Forall₂ HoldsProperty (sectionEntries pipelineEntries name tree)
      (pipelineProperties held) := by
  refine holdsProperty_of_sectionRead rfl ?_ (fun _ _ _ read => holdsProperty_of_pipeline read) run
  intro node leftEmpty
  have noSection : ∀ other, sectionEntries instanceEntries other node = [] := by
    intro other
    rw [sectionEntries, sectionNode?, (parts_of_isLeftEmpty leftEmpty).1]
    rfl
  simp only [pipelineEntries, noSection, List.append_nil]

/-- A document has the properties that are written in its tree. -/
theorem holdsProperty_of_ofTree {tree : Tree} {held : Document} (run : ofTree tree = .ok held) :
    List.Forall₂ HoldsProperty (propertyEntries tree) (allProperties held) := by
  have sections := documentRead_of_ok run
  apply List.rel_append (properties_of_sectionRead sections.environment)
  apply List.rel_append (properties_of_sectionRead sections.service)
  apply List.rel_append (plugins_of_sectionRead sections.customs)
  apply List.rel_append (pipeline_of_sectionRead sections.pipeline)
  exact List.rel_append (plugins_of_sectionRead sections.parsers)
    (plugins_of_sectionRead sections.multilineParsers)

/-! ## Where properties are written -/

theorem isPart_of_mem_entriesIn (tree : Tree) :
    ∀ entry ∈ entriesIn tree, Tree.IsPart entry.2 tree := by
  intro entry member
  refine Tree.IsPart.trans ?_ (Tree.isPart_unshared tree)
  rw [entriesIn] at member
  split at member
  · rename_i isMapping
    rw [isMapping]
    exact .content member (.self _)
  · cases member

theorem isPart_of_mem_itemsIn (tree : Tree) : ∀ item ∈ itemsIn tree, Tree.IsPart item tree := by
  intro item member
  refine Tree.IsPart.trans ?_ (Tree.isPart_unshared tree)
  rw [itemsIn] at member
  split at member
  · rename_i isSequence
    rw [isSequence]
    exact .item member (.self _)
  · cases member

theorem isPart_of_mem_instanceEntries (tree : Tree) :
    ∀ entry ∈ instanceEntries tree, Tree.IsPart entry.2 tree := by
  intro entry member
  rcases List.mem_flatMap.mp member with ⟨item, itemMember, entryMember⟩
  exact (isPart_of_mem_entriesIn item entry entryMember).trans
    (isPart_of_mem_itemsIn tree item itemMember)

/-- The parts of a section are parts of the tree. -/
theorem isPart_of_mem_sectionEntries {own : Tree → List (Tree × Tree)}
    (inside : ∀ node, ∀ entry ∈ own node, Tree.IsPart entry.2 node) {name : String} {tree : Tree} :
    ∀ entry ∈ sectionEntries own name tree, Tree.IsPart entry.2 tree := by
  intro entry member
  rw [sectionEntries, sectionNode?, contentOf?] at member
  cases found : (entriesIn tree).find? fun entry => entry.1.letters? = some name with
  | none =>
    rw [found] at member
    cases member
  | some node =>
    rw [found] at member
    exact (inside node.2 entry member).trans
      (isPart_of_mem_entriesIn tree node (List.mem_of_find?_eq_some found))

theorem isPart_of_mem_pipelineEntries (tree : Tree) :
    ∀ entry ∈ pipelineEntries tree, Tree.IsPart entry.2 tree := by
  have inside := fun name =>
    @isPart_of_mem_sectionEntries _ isPart_of_mem_instanceEntries name tree
  simp only [pipelineEntries, List.forall_mem_append]
  exact ⟨inside _, inside _, inside _, inside _, inside _⟩

theorem isPart_of_mem_propertyEntries (tree : Tree) :
    ∀ entry ∈ propertyEntries tree, Tree.IsPart entry.2 tree := by
  have own := fun name => @isPart_of_mem_sectionEntries _ isPart_of_mem_entriesIn name tree
  have inside := fun name =>
    @isPart_of_mem_sectionEntries _ isPart_of_mem_instanceEntries name tree
  simp only [propertyEntries, List.forall_mem_append]
  exact ⟨own _, own _, inside _, isPart_of_mem_sectionEntries isPart_of_mem_pipelineEntries,
    inside _, inside _⟩

/-! ## Documents of texts -/

theorem sense_of_tree? {content : String} {tree : Tree} {generic : Generic}
    (found : tree? content = some (some (tree, generic))) :
    Generic.ofTree? tree = some generic := by
  simp only [tree?, Option.bind_eq_bind, Option.bind_eq_some_iff] at found
  rcases found with ⟨tokens, -, node, -, found⟩
  cases node with
  | none => cases found
  | some node =>
    simp only [Option.bind_eq_some_iff] at found
    rcases found with ⟨given, -, value, sense, ⟨⟩⟩
    exact sense

/-- A text that is read as a document has a tree that makes sense and that is read
as the document. -/
theorem ofTree_of_ofText {content : String} {document : Document}
    (read : ofText content = .ok document) :
    ∃ tree generic, tree? content = some (some (tree, generic)) ∧
      Generic.ofTree? tree = some generic ∧ ofTree tree = .ok document := by
  rw [ofText] at read
  split at read
  · cases read
  · cases read
  · rename_i tree generic found
    split at read
    · cases read
    refine ⟨tree, generic, found, sense_of_tree? found, ?_⟩
    cases run : ofTree tree with
    | error problem =>
      rw [run] at read
      cases read
    | ok held =>
      rw [run] at read
      cases read
      rfl

/-- A text that is read as a document has a tree that makes sense, and the
document has the properties that are written in it. -/
theorem holdsProperty_of_ofText {content : String} {document : Document}
    (read : ofText content = .ok document) :
    ∃ tree generic, tree? content = some (some (tree, generic)) ∧
      Generic.ofTree? tree = some generic ∧
      List.Forall₂ HoldsProperty (propertyEntries tree) (allProperties document) := by
  rcases ofTree_of_ofText read with ⟨tree, generic, found, sense, run⟩
  exact ⟨tree, generic, found, sense, holdsProperty_of_ofTree run⟩

end Decoding

end LogPipeline
