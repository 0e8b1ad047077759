import LogPipeline.Proofs.Classic.Writing

namespace LogPipeline

namespace Classic

/-!
# Calls to a writer

A writer takes calls in any order, also after one that has failed.  All blocks
gather their rows in the one aligner, and no block leaves a row behind there,
however it ends: a block that is written takes its rows along, and a block that
fails gives them up.  So nothing waits where a block begins, and a block adds to
the buffer as a whole or not at all.
-/

/-- A rule line begins with the word for rules. -/
theorem ruleWord_of_ruleLine? {rulesExpected : Bool} {value : Value} {line : String}
    (isRuleLine : ruleLine? rulesExpected value = some line) :
    ruleWord.toList <+: line.toList := by
  unfold ruleLine? at isRuleLine
  split at isRuleLine
  · rename_i entries
    unfold renderRule? at isRuleLine
    split at isRuleLine
    · cases isRuleLine
      simp only [String.toList_append, List.append_assoc, List.prefix_append]
    · cases isRuleLine
  · cases isRuleLine

namespace Writer

/-- The writers to which calls lead, whether or not they fail. -/
inductive Reachable (accepts : Lua.Checker) : Writer → Prop
  | new (options : Options) : Reachable accepts (new options)
  | environment {writer : Writer} (entries : Properties) :
      Reachable accepts writer → Reachable accepts (writer.writeEnvironment entries)
  | includes {writer : Writer} (files : List String) :
      Reachable accepts writer → Reachable accepts (writer.writeIncludes files)
  | properties {writer : Writer} (kind : Section) (properties : Properties) :
      Reachable accepts writer → Reachable accepts (writer.writeBlock accepts kind properties false).1
  | plugins {writer : Writer} (kind : Section) (plugins : List Plugin) :
      Reachable accepts writer → Reachable accepts (writer.writeSection accepts kind plugins).1

/-- The writers with which the blocks of a section begin: the one that is given,
and the one after every block that has been written. -/
inductive BlockBegins (accepts : Lua.Checker) (kind : Section) :
    Writer → List Plugin → Writer → Prop
  | first {writer : Writer} {plugin : Plugin} {rest : List Plugin} :
      BlockBegins accepts kind writer (plugin :: rest) writer
  | later {writer written start : Writer} {plugin : Plugin} {rest : List Plugin} :
      writer.writeBlock accepts kind plugin.properties (isLuaFilter kind plugin) =
          (written, .ok ()) →
        BlockBegins accepts kind written rest start →
          BlockBegins accepts kind writer (plugin :: rest) start

/-! ## Single blocks -/

/-- A block is passed over, written as a whole, or given up. -/
theorem writeBlock_cases (accepts : Lua.Checker) (kind : Section) (properties : Properties)
    (luaFilter : Bool) (writer : Writer) :
    writer.writeBlock accepts kind properties luaFilter = (writer, .ok ()) ∨
      (∃ letters, writer.writeBlock accepts kind properties luaFilter =
        ({ writer.append letters with aligner := {} }, .ok ())) ∨
      ∃ failure, writer.writeBlock accepts kind properties luaFilter =
        ({ writer with aligner := {} }, .error failure) := by
  rw [writeBlock]
  cases kind.header? with
  | none => exact .inl rfl
  | some header =>
    dsimp only
    by_cases noProperties : properties.isEmpty = true
    · rw [if_pos noProperties]
      exact .inl rfl
    · rw [if_neg noProperties, pushProperties_eq]
      cases blockLines accepts writer.indent luaFilter properties with
      | ok lines => exact .inr (.inl ⟨_, rfl⟩)
      | error failure => exact .inr (.inr ⟨failure, rfl⟩)

section Rows

variable {accepts : Lua.Checker} {writer : Writer}

/-- A block leaves no row behind. -/
theorem aligner_writeBlock (waits : writer.aligner = {}) (kind : Section)
    (properties : Properties) (luaFilter : Bool) :
    (writer.writeBlock accepts kind properties luaFilter).1.aligner = {} := by
  rcases writeBlock_cases accepts kind properties luaFilter writer with
    passed | ⟨letters, written⟩ | ⟨failure, givenUp⟩
  · rw [passed]
    exact waits
  · rw [written]
  · rw [givenUp]

theorem aligner_of_blockBegins {kind : Section} {plugins : List Plugin} {start : Writer}
    (waits : writer.aligner = {}) (begins : BlockBegins accepts kind writer plugins start) :
    start.aligner = {} := by
  induction begins with
  | first => exact waits
  | @later writer written start plugin rest block begins inductionHypothesis =>
    apply inductionHypothesis
    have stays := @aligner_writeBlock accepts writer waits kind plugin.properties
      (isLuaFilter kind plugin)
    rw [block] at stays
    exact stays

theorem aligner_writeSection (waits : writer.aligner = {}) (kind : Section)
    (plugins : List Plugin) : (writer.writeSection accepts kind plugins).1.aligner = {} := by
  induction plugins generalizing writer with
  | nil => exact waits
  | cons plugin rest inductionHypothesis =>
    have stays := @aligner_writeBlock accepts writer waits kind plugin.properties
      (isLuaFilter kind plugin)
    rw [writeSection]
    split
    · rename_i written block
      rw [block] at stays
      exact inductionHypothesis stays
    · rename_i stopped failure block
      rw [block] at stays
      exact stays

/-- No row waits between two calls. -/
theorem aligner_of_reachable (reached : Reachable accepts writer) : writer.aligner = {} := by
  induction reached with
  | new options => rfl
  | @environment writer entries _ waits =>
    rw [writeEnvironment_eq]
    exact waits
  | @includes writer files _ waits =>
    rw [writeIncludes_eq]
    exact waits
  | properties kind properties _ waits => exact aligner_writeBlock waits kind properties false
  | plugins kind plugins _ waits => exact aligner_writeSection waits kind plugins

end Rows

/-- No row waits after any calls, nor where any block of the next call begins, and
every line that is pushed without a key is a rule.  Whatever writer it is given, a
block that fails leaves the buffer as it was, and one that does not fail only
adds to it. -/
theorem isEmpty_of_reachable {accepts : Lua.Checker} {writer : Writer}
    (reached : Reachable accepts writer) :
    writer.aligner.isEmpty = true ∧
      (∀ kind plugins start, BlockBegins accepts kind writer plugins start →
        start.aligner.isEmpty = true) ∧
      (∀ rulesExpected value line, ruleLine? rulesExpected value = some line →
        ruleWord.toList <+: line.toList) ∧
      ∀ (start : Writer) kind properties luaFilter,
        (∀ failure, (start.writeBlock accepts kind properties luaFilter).2 = .error failure →
          (start.writeBlock accepts kind properties luaFilter).1.buffer = start.buffer) ∧
        ((start.writeBlock accepts kind properties luaFilter).2 = .ok () →
          start.buffer <+: (start.writeBlock accepts kind properties luaFilter).1.buffer) := by
  have waits := aligner_of_reachable reached
  refine ⟨?_, ?_, fun _ _ _ isRuleLine => ruleWord_of_ruleLine? isRuleLine, ?_⟩
  · rw [waits]
    rfl
  · intro kind plugins start begins
    rw [aligner_of_blockBegins waits begins]
    rfl
  · intro start kind properties luaFilter
    rcases writeBlock_cases accepts kind properties luaFilter start with
      passed | ⟨letters, written⟩ | ⟨failure, givenUp⟩
    · rw [passed]
      exact ⟨fun _ _ => rfl, fun _ => List.prefix_refl _⟩
    · rw [written]
      refine ⟨?_, fun _ => List.prefix_append _ _⟩
      rintro failure ⟨⟩
    · rw [givenUp]
      refine ⟨fun _ _ => rfl, ?_⟩
      rintro ⟨⟩

def numberedCode : Plugin :=
  Plugin.ofProperties
    [{ key := "name", value := .text "lua" }, { key := "match", value := .text "*" },
      { key := "code", value := .integer 42 }]

/-- The writer after a section of which the second block fails. -/
def afterFailure : Writer :=
  ((new {}).writeSection Lua.acceptAll .filter
    [Plugin.ofProperties [{ key := "name", value := .text "grep" }], numberedCode]).1

theorem isEmpty_of_reachable_afterFailure :
    ((new {}).writeSection Lua.acceptAll .filter
        [Plugin.ofProperties [{ key := "name", value := .text "grep" }], numberedCode]).2 =
      .error (.codeShape "integer") ∧
    String.ofList afterFailure.buffer = "[FILTER]\n    name grep\n" ∧
    Reachable Lua.acceptAll afterFailure ∧ afterFailure.aligner.isEmpty = true ∧
    (afterFailure.writeBlock Lua.acceptAll .filter numberedCode.properties true).1.buffer =
      afterFailure.buffer ∧
    afterFailure.buffer <+:
      (afterFailure.writeBlock Lua.acceptAll .output numberedCode.properties false).1.buffer := by
  have reached : Reachable Lua.acceptAll afterFailure := .plugins _ _ (.new {})
  rcases isEmpty_of_reachable reached with ⟨empty, -, -, block⟩
  refine ⟨rfl, ?_, reached, empty, ?_, ?_⟩
  · decide +kernel
  · exact (block afterFailure .filter numberedCode.properties true).1 (.codeShape "integer") rfl
  · exact (block afterFailure .output numberedCode.properties false).2 rfl

end Writer

end Classic

end LogPipeline
