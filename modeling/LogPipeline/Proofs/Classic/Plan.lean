import LogPipeline.Classic.Text
import LogPipeline.Proofs.Classic.Rendering
import LogPipeline.Proofs.Outcomes

namespace LogPipeline

namespace Classic

/-!
# The blocks of a document

The text of a document is found in two stages.  A plan says which blocks there
are and which entries stand in each; only planning fails, and it looks neither
at the indent nor at the columns.  The planned blocks are then laid out one by
one, and the text is their letters after those of the directives.
-/

/-! ## Gathering -/

section Gathering

variable {α β γ : Type}

/-- The lists that the items of a list give, joined, or the first failure. -/
def gather (each : α → Except Failure (List β)) : List α → Except Failure (List β)
  | [] => .ok []
  | item :: rest => do
    let own ← each item
    let others ← gather each rest
    .ok (own ++ others)

/-- What is done to the parts may be done to the whole. -/
theorem map_gather {write : List β → List γ} (writeNil : write [] = [])
    (writeAppend : ∀ own others, write (own ++ others) = write own ++ write others)
    (each : α → Except Failure (List β)) (items : List α) :
    (gather each items).map write = gather (fun item => (each item).map write) items := by
  induction items with
  | nil => exact congrArg Except.ok writeNil
  | cons item rest inductionHypothesis =>
    rw [gather, gather, ← inductionHypothesis]
    cases each item with
    | error failure => rfl
    | ok own =>
      cases gather each rest with
      | error failure => rfl
      | ok others => exact congrArg Except.ok (writeAppend own others)

theorem gather_append (each : α → Except Failure (List β)) (items later : List α) :
    gather each (items ++ later) = (do
      let own ← gather each items
      let others ← gather each later
      .ok (own ++ others)) := by
  induction items with
  | nil =>
    rw [List.nil_append]
    cases gather each later <;> rfl
  | cons item rest inductionHypothesis =>
    rw [List.cons_append, gather, gather, inductionHypothesis]
    cases each item with
    | error failure => rfl
    | ok own =>
      cases gather each rest with
      | error failure => rfl
      | ok others =>
        cases gather each later with
        | error failure => rfl
        | ok last =>
          dsimp only [bind, Except.bind]
          rw [List.append_assoc]

/-- Lists of items may be gathered one by one or all at once. -/
theorem gather_flatMap (each : β → Except Failure (List γ)) (itemsOf : α → List β)
    (sources : List α) :
    gather each (sources.flatMap itemsOf) =
      gather (fun source => gather each (itemsOf source)) sources := by
  induction sources with
  | nil => rfl
  | cons source rest inductionHypothesis =>
    rw [List.flatMap_cons, gather_append, inductionHypothesis, gather]

theorem gather_map (each : β → Except Failure (List γ)) (change : α → β) (items : List α) :
    gather each (items.map change) = gather (fun item => each (change item)) items := by
  induction items with
  | nil => rfl
  | cons item rest inductionHypothesis =>
    rw [List.map_cons, gather, gather, inductionHypothesis]

/-- Two lists are joined if there are both. -/
theorem bind_append_eq_ok_iff {first second : Except Failure (List β)} {all : List β} :
    (do
      let own ← first
      let others ← second
      Except.ok (own ++ others)) = .ok all ↔
      ∃ own others, first = .ok own ∧ second = .ok others ∧ all = own ++ others := by
  cases first with
  | error failure => simp [bind, Except.bind]
  | ok own =>
    cases second with
    | error failure => simp [bind, Except.bind]
    | ok others => simp [bind, Except.bind, eq_comm]

/-- What is sought among all that is gathered is found where an item gives it. -/
theorem exists_mem_gather_iff {each : α → Except Failure (List β)} {sought : β → Prop}
    {gives : α → Prop}
    (single : ∀ item own, each item = .ok own → ((∃ result ∈ own, sought result) ↔ gives item))
    {items : List α} {all : List β} (gathered : gather each items = .ok all) :
    (∃ result ∈ all, sought result) ↔ ∃ item ∈ items, gives item := by
  induction items generalizing all with
  | nil =>
    cases gathered
    simp
  | cons item rest inductionHypothesis =>
    rcases bind_append_eq_ok_iff.mp gathered with ⟨own, others, found, foundLater, rfl⟩
    simp only [List.mem_append, List.mem_cons, or_and_right, exists_or, exists_eq_left,
      single item own found, inductionHypothesis foundLater]

/-- What is gathered is what the items give, and each of them gives it. -/
theorem eq_flatMap_of_gather {each : α → Except Failure (List β)} {give : α → List β}
    (gives : ∀ item own, each item = .ok own → give item = own) {items : List α} {all : List β}
    (gathered : gather each items = .ok all) :
    all = items.flatMap give ∧ ∀ item ∈ items, each item = .ok (give item) := by
  induction items generalizing all with
  | nil =>
    cases gathered
    exact ⟨rfl, List.forall_mem_nil _⟩
  | cons item rest inductionHypothesis =>
    rcases bind_append_eq_ok_iff.mp gathered with ⟨own, others, found, foundLater, rfl⟩
    rcases inductionHypothesis foundLater with ⟨joined, later⟩
    rw [List.flatMap_cons, List.forall_mem_cons, gives item own found, ← joined]
    exact ⟨rfl, found, later⟩

end Gathering

theorem blockLines_eq_gather (accepts : Lua.Checker) (indent : Nat) (luaFilter : Bool)
    (properties : Properties) :
    blockLines accepts indent luaFilter properties =
      gather (propertyLines accepts indent luaFilter) properties := by
  induction properties with
  | nil => rfl
  | cons property rest inductionHypothesis => rw [blockLines, gather, inductionHypothesis]

theorem sectionText_eq_gather (accepts : Lua.Checker) (indent : Nat) (kind : Section)
    (plugins : List Plugin) :
    sectionText accepts indent kind plugins =
      gather (blockText accepts indent kind) plugins := by
  induction plugins with
  | nil => rfl
  | cons plugin rest inductionHypothesis => rw [sectionText, gather, inductionHypothesis]

theorem sectionsText_eq_gather (accepts : Lua.Checker) (indent : Nat)
    (sections : List (Section × List Plugin)) :
    sectionsText accepts indent sections =
      gather (fun (kind, plugins) => sectionText accepts indent kind plugins) sections := by
  induction sections with
  | nil => rfl
  | cons pair rest inductionHypothesis =>
    rw [sectionsText, gather, inductionHypothesis]

/-! ## Entries -/

/-- What a row of a block says: a rule, or a text under a key. -/
inductive Entry where
  | rule (line : String)
  | pair (key text : String)
deriving DecidableEq

/-- The line of an entry, before the columns are laid out. -/
def Entry.line (indent : Nat) : Entry → List Char
  | .rule line => ownLine indent line
  | .pair key text => entryLine indent key text

/-- The entry of one value under a key. -/
def itemEntry (key : String) (rulesExpected : Bool) (value : Value) : Entry :=
  match ruleLine? rulesExpected value with
  | some line => .rule line
  | none => .pair key (render rulesExpected value)

/-- The entries of a property: the compact code of a Lua filter, or an entry
for each of its values. -/
def propertyEntries (accepts : Lua.Checker) (luaFilter : Bool) (property : Property) :
    Except Failure (List Entry) :=
  if luaFilter && isCodeKey property.key then
    (codeText accepts property.value).map fun code => [.pair property.key code]
  else
    .ok ((rowValues property.value).map
      (itemEntry property.key (!luaFilter && isRulesKey property.key)))

/-- An entry has the line of its value: rendering leaves no break to take away. -/
theorem line_itemEntry (indent : Nat) (key : String) (rulesExpected : Bool) (value : Value) :
    (itemEntry key rulesExpected value).line indent =
      itemLine indent key rulesExpected value := by
  rw [itemEntry, itemLine]
  cases found : ruleLine? rulesExpected value with
  | some line => rfl
  | none =>
    dsimp only
    rw [withoutFinalBreak_of_oneLine (lineBreak_notMem_render found)]
    rfl

/-- Code is put on one line if it is a text that can be compacted. -/
theorem codeText_eq_ok_iff {accepts : Lua.Checker} {value : Value} {small : String} :
    codeText accepts value = .ok small ↔
      ∃ source, value = .text source ∧ Lua.compact accepts source = .ok small := by
  cases value with
  | text content => simp only [codeText, Value.text.injEq, exists_eq_left']
  | _ =>
    constructor
    · rintro ⟨⟩
    · rintro ⟨_, ⟨⟩, -⟩

theorem map_propertyEntries (accepts : Lua.Checker) (indent : Nat) (luaFilter : Bool)
    (property : Property) :
    (propertyEntries accepts luaFilter property).map (List.map (Entry.line indent)) =
      propertyLines accepts indent luaFilter property := by
  rw [propertyEntries, propertyLines]
  by_cases isCode : (luaFilter && isCodeKey property.key) = true
  · rw [if_pos isCode, if_pos isCode]
    cases codeText accepts property.value <;> rfl
  · rw [if_neg isCode, if_neg isCode, valueLines]
    apply congrArg Except.ok
    rw [List.map_map]
    apply List.map_congr_left
    intro value _
    exact line_itemEntry indent property.key _ value

/-! ## Blocks -/

/-- A header and the entries under it. -/
structure Block where
  header : String
  entries : List Entry
deriving DecidableEq

namespace Block

def rows (indent : Nat) (block : Block) : List (List Char) :=
  Columns.lines ((block.entries.map (Entry.line indent)).map Columns.cells)

def letters (indent : Nat) (block : Block) : List Char :=
  headerLine block.header ++ Columns.terminated (block.rows indent)

end Block

/-- The block of an instance, if it has one. -/
def pluginBlocks (accepts : Lua.Checker) (kind : Section) (plugin : Plugin) :
    Except Failure (List Block) :=
  match kind.header? with
  | none => .ok []
  | some header =>
    if plugin.properties.isEmpty then .ok []
    else
      (gather (propertyEntries accepts (isLuaFilter kind plugin)) plugin.properties).map
        fun entries => [{ header := header, entries := entries }]

/-- The blocks of a document in the order in which they are written. -/
def plan (accepts : Lua.Checker) (placement : Placement) (document : Document) :
    Except Failure (List Block) :=
  gather (fun (kind, plugins) => gather (pluginBlocks accepts kind) plugins)
    (sections placement document)

theorem map_pluginBlocks (accepts : Lua.Checker) (indent : Nat) (kind : Section)
    (plugin : Plugin) :
    (pluginBlocks accepts kind plugin).map (List.flatMap (Block.letters indent)) =
      blockText accepts indent kind plugin := by
  rw [pluginBlocks, blockText]
  cases kind.header? with
  | none => rfl
  | some header =>
    dsimp only
    by_cases noProperties : plugin.properties.isEmpty = true
    · rw [if_pos noProperties, if_pos noProperties]
      rfl
    · rw [if_neg noProperties, if_neg noProperties, blockLines_eq_gather]
      have lines := @map_gather Property Entry (List Char) (List.map (Entry.line indent)) rfl
        (fun _ _ => List.map_append)
        (propertyEntries accepts (isLuaFilter kind plugin)) plugin.properties
      simp only [map_propertyEntries] at lines
      rw [← lines]
      cases gather (propertyEntries accepts (isLuaFilter kind plugin)) plugin.properties with
      | error failure => rfl
      | ok entries => exact congrArg Except.ok (List.append_nil _)

/-- The text of a document is that of its directives and its planned blocks. -/
theorem letters_eq_plan (accepts : Lua.Checker) (options : Options) (document : Document) :
    letters accepts options document =
      (plan accepts options.placement document).map fun blocks =>
        document.environment.flatMap environmentLine ++
          (document.includes.flatMap includeLine ++
            blocks.flatMap (Block.letters options.indent)) := by
  have distributes : ∀ own others : List Block,
      List.flatMap (Block.letters options.indent) (own ++ others) =
        List.flatMap (Block.letters options.indent) own ++
          List.flatMap (Block.letters options.indent) others :=
    fun _ _ => List.flatMap_append
  have blocks : (plan accepts options.placement document).map
      (List.flatMap (Block.letters options.indent)) =
        sectionsText accepts options.indent (sections options.placement document) := by
    rw [plan, map_gather rfl distributes, sectionsText_eq_gather]
    congr 1
    funext pair
    rcases pair with ⟨kind, plugins⟩
    dsimp only
    rw [map_gather rfl distributes, sectionText_eq_gather]
    congr 1
    funext plugin
    exact map_pluginBlocks accepts options.indent kind plugin
  rw [letters, ← blocks]
  cases plan accepts options.placement document <;> rfl

end Classic

end LogPipeline
