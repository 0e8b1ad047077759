import LogPipeline.Classic.Writer

namespace LogPipeline

namespace Classic

/-!
# The writer and the text

Writing a document step by step gives its classic text, or the failure of the
text.  Between two blocks no row waits: a block that is written takes its rows
with it, and a block that fails leaves the writer as it was.
-/

namespace Writer

/-- A step that appends the letters of a text, or fails as the text does. -/
def Appends (writer : Writer) (step : Step) : Except Failure (List Char) → Prop
  | .ok letters => step = (writer.append letters, .ok ())
  | .error failure => step.2 = .error failure

theorem append_append (writer : Writer) (first second : List Char) :
    (writer.append first).append second = writer.append (first ++ second) := by
  simp only [append, List.append_assoc]

theorem writeEnvironment_eq (writer : Writer) (environment : Properties) :
    writer.writeEnvironment environment = writer.append (environment.flatMap environmentLine) := by
  rw [writeEnvironment]
  induction environment generalizing writer with
  | nil => simp only [List.foldl_nil, List.flatMap_nil, append, List.append_nil]
  | cons property rest inductionHypothesis =>
    rw [List.foldl_cons, inductionHypothesis, append_append, List.flatMap_cons]

theorem writeIncludes_eq (writer : Writer) (files : List String) :
    writer.writeIncludes files = writer.append (files.flatMap includeLine) := by
  rw [writeIncludes]
  induction files generalizing writer with
  | nil => simp only [List.foldl_nil, List.flatMap_nil, append, List.append_nil]
  | cons file rest inductionHypothesis =>
    rw [List.foldl_cons, inductionHypothesis, append_append, List.flatMap_cons]

/-! ## Blocks -/

theorem foldl_pushRow (writer : Writer) (rows : List (List Char)) :
    rows.foldl pushRow writer =
      { writer with aligner := { rows := writer.aligner.rows ++ rows.map Columns.cells } } := by
  induction rows generalizing writer with
  | nil => simp only [List.foldl_nil, List.map_nil, List.append_nil]
  | cons row rest inductionHypothesis =>
    rw [List.foldl_cons, inductionHypothesis]
    simp only [pushRow, Aligner.push, List.map_cons, List.append_assoc, List.singleton_append]

/-- All rows of the properties wait, or none at all once one has failed. -/
theorem pushProperties_eq (accepts : Lua.Checker) (luaFilter : Bool) (writer : Writer)
    (properties : Properties) :
    pushProperties accepts luaFilter writer properties =
      match blockLines accepts writer.indent luaFilter properties with
      | .ok lines =>
        ({ writer with aligner := { rows := writer.aligner.rows ++ lines.map Columns.cells } },
          .ok ())
      | .error failure => ({ writer with aligner := {} }, .error failure) := by
  induction properties generalizing writer with
  | nil => simp only [pushProperties, blockLines, List.map_nil, List.append_nil]
  | cons property rest inductionHypothesis =>
    rw [pushProperties, blockLines]
    cases propertyLines accepts writer.indent luaFilter property with
    | error failure => rfl
    | ok own =>
      dsimp only
      rw [foldl_pushRow, inductionHypothesis]
      dsimp only [bind, Except.bind]
      cases blockLines accepts writer.indent luaFilter rest with
      | error failure => rfl
      | ok others => simp only [List.map_append, List.append_assoc]

/-- A block is appended as a whole, or it leaves the writer as it was. -/
theorem writeBlock_eq (accepts : Lua.Checker) (kind : Section) (plugin : Plugin)
    {writer : Writer} (waits : writer.aligner = {}) :
    writeBlock accepts kind plugin.properties (isLuaFilter kind plugin) writer =
      match blockText accepts writer.indent kind plugin with
      | .ok letters => (writer.append letters, .ok ())
      | .error failure => (writer, .error failure) := by
  have unchanged : writer.append [] = writer := by
    simp only [append, List.append_nil]
  rw [writeBlock, blockText]
  cases kind.header? with
  | none =>
    dsimp only
    rw [unchanged]
  | some header =>
    dsimp only
    by_cases noProperties : plugin.properties.isEmpty = true
    · rw [if_pos noProperties, if_pos noProperties]
      dsimp only
      rw [unchanged]
    · rw [if_neg noProperties, if_neg noProperties]
      rw [pushProperties_eq]
      cases blockLines accepts writer.indent (isLuaFilter kind plugin) plugin.properties with
      | error failure => simp only [Except.map, ← waits]
      | ok lines =>
        simp only [Except.map, flushUnder, Aligner.flush, append, waits, List.nil_append,
          Columns.text]

/-! ## Sections and documents -/

def andThen (step : Step) (next : Writer → Step) : Step :=
  match step with
  | (written, .ok ()) => next written
  | (stopped, .error failure) => (stopped, .error failure)

theorem appends_andThen {writer : Writer} {step : Step} {next : Writer → Step}
    {first second : Except Failure (List Char)} (appends : Appends writer step first)
    (appendsNext : ∀ letters,
      Appends (writer.append letters) (next (writer.append letters)) second) :
    Appends writer (andThen step next) (do
      let block ← first
      let others ← second
      .ok (block ++ others)) := by
  cases first with
  | error failure =>
    rcases step with ⟨stopped, outcome⟩
    change outcome = .error failure at appends
    rw [appends]
    rfl
  | ok block =>
    change step = (writer.append block, .ok ()) at appends
    have later := appendsNext block
    rw [appends]
    cases second with
    | error failure => exact later
    | ok others =>
      change next (writer.append block) = ((writer.append block).append others, .ok ()) at later
      rw [append_append] at later
      exact later

theorem writeSection_appends (accepts : Lua.Checker) (kind : Section) (plugins : List Plugin)
    {writer : Writer} (waits : writer.aligner = {}) :
    Appends writer (writeSection accepts kind writer plugins)
      (sectionText accepts writer.indent kind plugins) := by
  induction plugins generalizing writer with
  | nil => simp only [Appends, writeSection, sectionText, append, List.append_nil]
  | cons plugin rest inductionHypothesis =>
    have block : Appends writer
        (writeBlock accepts kind plugin.properties (isLuaFilter kind plugin) writer)
        (blockText accepts writer.indent kind plugin) := by
      rw [writeBlock_eq accepts kind plugin waits]
      cases blockText accepts writer.indent kind plugin <;> rfl
    apply appends_andThen block
    intro letters
    exact @inductionHypothesis (writer.append letters) waits

theorem writeSections_appends (accepts : Lua.Checker) (sections : List (Section × List Plugin))
    {writer : Writer} (waits : writer.aligner = {}) :
    Appends writer (writeSections accepts writer sections)
      (sectionsText accepts writer.indent sections) := by
  induction sections generalizing writer with
  | nil => simp only [Appends, writeSections, sectionsText, append, List.append_nil]
  | cons pair rest inductionHypothesis =>
    rcases pair with ⟨kind, plugins⟩
    apply appends_andThen (writeSection_appends accepts kind plugins waits)
    intro letters
    exact @inductionHypothesis (writer.append letters) waits

end Writer

/-- Writing step by step gives the classic text, or fails as it does. -/
theorem write_eq_text (accepts : Lua.Checker) (options : Options) (document : Document) :
    write accepts options document = text accepts options document := by
  have appends := @Writer.writeSections_appends accepts (sections options.placement document)
    ((Writer.new options).append (document.environment.flatMap environmentLine ++
      document.includes.flatMap includeLine)) rfl
  rw [write, Writer.writeDocument, Writer.writeEnvironment_eq, Writer.writeIncludes_eq,
    Writer.append_append, text, letters]
  change Writer.Appends _ _ (sectionsText accepts options.indent _) at appends
  cases found : sectionsText accepts options.indent (sections options.placement document) with
  | error failure =>
    rw [found] at appends
    generalize Writer.writeSections accepts _ _ = step at appends ⊢
    rcases step with ⟨stopped, outcome⟩
    change outcome = .error failure at appends
    rw [appends]
    rfl
  | ok blocks =>
    rw [found] at appends
    change Writer.writeSections accepts _ _ = (Writer.append _ _, .ok ()) at appends
    rw [appends]
    simp only [Writer.append, Writer.new, Except.map, List.nil_append, List.append_assoc]

end Classic

end LogPipeline
