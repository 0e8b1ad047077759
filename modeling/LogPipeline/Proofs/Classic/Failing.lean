import LogPipeline.Proofs.Classic.Plan
import LogPipeline.Proofs.Classic.Writing
import LogPipeline.Proofs.Lua.RoundTrip

namespace LogPipeline

namespace Classic

/-!
# What makes a document fail

Every value has a text, so only the code of a Lua filter can fail: where it is
no text, or where it is a script that cannot be compacted.  The filters are in
the document as they are, whatever stands around them, and their blocks are
planned without the indent.  Hence the first of the failures, in the order of
the filters and of their properties, is that of the whole document for all
options.
-/

/-! ## The failure of a result -/

section Failures

variable {α β : Type}

def failure? : Except Failure α → Option Failure
  | .ok _ => none
  | .error failure => some failure

theorem failure?_eq_some_iff {result : Except Failure α} {failure : Failure} :
    failure? result = some failure ↔ result = .error failure := by
  cases result <;> simp [failure?]

theorem failure?_map (write : α → β) (result : Except Failure α) :
    failure? (result.map write) = failure? result := by
  cases result <;> rfl

/-- What is gathered fails with the first item that fails. -/
theorem failure?_gather (each : α → Except Failure (List β)) (items : List α) :
    failure? (gather each items) = items.findSome? fun item => failure? (each item) := by
  induction items with
  | nil => rfl
  | cons item rest inductionHypothesis =>
    rw [gather, List.findSome?_cons, ← inductionHypothesis]
    cases each item with
    | error failure => rfl
    | ok own => cases gather each rest <;> rfl

end Failures

/-! ## Properties that fail -/

/-- How a value fails as the code of a Lua filter. -/
inductive CodeFails (accepts : Lua.Checker) : Value → Failure → Prop
  | shape {value : Value} : value.asText? = none →
      CodeFails accepts value (.codeShape value.shape)
  | script {code : String} {failure : Failure} : Lua.compact accepts code = .error failure →
      CodeFails accepts (.text code) failure

/-- A property of a Lua filter that holds code and fails. -/
def Rejected (accepts : Lua.Checker) (property : Property) (failure : Failure) : Prop :=
  isCodeKey property.key = true ∧ CodeFails accepts property.value failure

theorem codeText_eq_error_iff {accepts : Lua.Checker} {value : Value} {failure : Failure} :
    codeText accepts value = .error failure ↔ CodeFails accepts value failure := by
  constructor
  · intro fails
    cases value with
    | text code => exact .script fails
    | _ =>
      cases fails
      exact .shape rfl
  · intro fails
    cases fails with
    | @shape value noText => cases value <;> first | rfl | cases noText
    | script fails => exact fails

/-- A value that is no text fails by its shape, a text by the compacting of it. -/
theorem kind_of_codeFails {accepts : Lua.Checker} {value : Value} {failure : Failure}
    (fails : CodeFails accepts value failure) :
    failure.kind = if value.asText? = none then .typeMismatch else .minifier := by
  cases fails with
  | shape noText =>
    rw [if_pos noText]
    rfl
  | @script code failure fails =>
    rw [if_neg (show (Value.text code).asText? ≠ none from Option.some_ne_none code)]
    exact Lua.kind_of_reformatted fails

def codeFailure? (accepts : Lua.Checker) (property : Property) : Option Failure :=
  if isCodeKey property.key then failure? (codeText accepts property.value) else none

def scriptFailure? (accepts : Lua.Checker) (plugin : Plugin) : Option Failure :=
  if plugin.name = luaFilterName then plugin.properties.findSome? (codeFailure? accepts) else none

theorem codeFailure?_eq_some_iff {accepts : Lua.Checker} {property : Property} {failure : Failure} :
    codeFailure? accepts property = some failure ↔ Rejected accepts property failure := by
  rw [codeFailure?, Rejected, ← codeText_eq_error_iff, ← failure?_eq_some_iff]
  by_cases isCode : isCodeKey property.key = true <;> simp [isCode]

theorem codeFailure?_eq_none_iff {accepts : Lua.Checker} {property : Property} :
    codeFailure? accepts property = none ↔ ∀ failure, ¬ Rejected accepts property failure := by
  simp only [Option.eq_none_iff_forall_ne_some, ne_eq, codeFailure?_eq_some_iff]

/-! ## Documents that fail -/

theorem failure?_propertyEntries (accepts : Lua.Checker) (luaFilter : Bool) (property : Property) :
    failure? (propertyEntries accepts luaFilter property) =
      if luaFilter then codeFailure? accepts property else none := by
  rw [propertyEntries, codeFailure?]
  cases luaFilter with
  | false => rfl
  | true =>
    rw [Bool.true_and, if_pos rfl]
    by_cases isCode : isCodeKey property.key = true
    · rw [if_pos isCode, if_pos isCode, failure?_map]
    · rw [if_neg isCode, if_neg isCode]
      rfl

theorem failure?_pluginBlocks (accepts : Lua.Checker) (kind : Section) (plugin : Plugin) :
    failure? (pluginBlocks accepts kind plugin) =
      if kind = .filter then scriptFailure? accepts plugin else none := by
  have byProperty : failure? (gather (propertyEntries accepts (isLuaFilter kind plugin))
      plugin.properties) = if kind = .filter then scriptFailure? accepts plugin else none := by
    rw [failure?_gather]
    simp only [failure?_propertyEntries, scriptFailure?, isLuaFilter]
    by_cases isFilter : kind = .filter <;> by_cases isLua : plugin.name = luaFilterName <;>
      simp [isFilter, isLua]
  rw [pluginBlocks]
  cases header : kind.header? with
  | none =>
    rw [if_neg]
    · rfl
    · rintro rfl
      cases header
  | some word =>
    dsimp only
    by_cases noProperties : plugin.properties.isEmpty = true
    · rw [if_pos noProperties, ← byProperty, List.isEmpty_iff.mp noProperties]
      rfl
    · rw [if_neg noProperties, failure?_map, byProperty]

/-- A plan fails with the first failure among the filters, wherever they stand. -/
theorem failure?_plan (accepts : Lua.Checker) (placement : Placement) (document : Document) :
    failure? (plan accepts placement document) =
      document.pipeline.filters.findSome? (scriptFailure? accepts) := by
  have other : ∀ kind, kind ≠ Section.filter → ∀ plugins : List Plugin,
      failure? (gather (pluginBlocks accepts kind) plugins) = none := by
    intro kind noFilter plugins
    rw [failure?_gather, List.findSome?_eq_none_iff]
    intro plugin _
    rw [failure?_pluginBlocks, if_neg noFilter]
  have filters : failure? (gather (pluginBlocks accepts .filter) document.pipeline.filters) =
      document.pipeline.filters.findSome? (scriptFailure? accepts) := by
    rw [failure?_gather]
    simp only [failure?_pluginBlocks, if_pos]
  rw [plan, failure?_gather]
  cases placement <;> simp [sections, other, filters, List.findSome?_cons] <;>
    cases document.pipeline.filters.findSome? (scriptFailure? accepts) <;> rfl

theorem failure?_write (accepts : Lua.Checker) (options : Options) (document : Document) :
    failure? (write accepts options document) =
      document.pipeline.filters.findSome? (scriptFailure? accepts) := by
  rw [write_eq_text, text, letters_eq_plan, failure?_map, failure?_map, failure?_plan]

/-- A failure is that of the first rejected property of the first Lua filter
that has one. -/
def FirstRejected (accepts : Lua.Checker) (filters : List Plugin) (failure : Failure) : Prop :=
  ∃ before plugin after earlier property later,
    filters = before ++ plugin :: after ∧ plugin.name = luaFilterName ∧
      plugin.properties = earlier ++ property :: later ∧ Rejected accepts property failure ∧
      (∀ passed ∈ earlier, ∀ another, ¬ Rejected accepts passed another) ∧
      ∀ passed ∈ before, passed.name = luaFilterName →
        ∀ inner ∈ passed.properties, ∀ another, ¬ Rejected accepts inner another

theorem scriptFailure?_eq_some_iff {accepts : Lua.Checker} {plugin : Plugin} {failure : Failure} :
    scriptFailure? accepts plugin = some failure ↔
      plugin.name = luaFilterName ∧ ∃ earlier property later,
        plugin.properties = earlier ++ property :: later ∧ Rejected accepts property failure ∧
          ∀ passed ∈ earlier, ∀ another, ¬ Rejected accepts passed another := by
  rw [scriptFailure?]
  by_cases isLua : plugin.name = luaFilterName
  · rw [if_pos isLua, List.findSome?_eq_some_iff]
    simp only [isLua, true_and, codeFailure?_eq_some_iff, codeFailure?_eq_none_iff]
  · simp [isLua]

theorem scriptFailure?_eq_none_iff {accepts : Lua.Checker} {plugin : Plugin} :
    scriptFailure? accepts plugin = none ↔ (plugin.name = luaFilterName →
      ∀ property ∈ plugin.properties, ∀ failure, ¬ Rejected accepts property failure) := by
  rw [scriptFailure?]
  by_cases isLua : plugin.name = luaFilterName
  · rw [if_pos isLua, List.findSome?_eq_none_iff]
    simp only [isLua, true_implies, codeFailure?_eq_none_iff]
  · simp [isLua]

theorem write_eq_error_iff_firstRejected {accepts : Lua.Checker} {options : Options}
    {document : Document} {failure : Failure} :
    write accepts options document = .error failure ↔
      FirstRejected accepts document.pipeline.filters failure := by
  rw [← failure?_eq_some_iff, failure?_write, List.findSome?_eq_some_iff, FirstRejected]
  simp only [scriptFailure?_eq_some_iff, scriptFailure?_eq_none_iff]
  constructor
  · rintro ⟨before, plugin, after, parts, ⟨isLua, earlier, property, later, inside, rejected,
      passedEarlier⟩, passedBefore⟩
    exact ⟨before, plugin, after, earlier, property, later, parts, isLua, inside, rejected,
      passedEarlier, passedBefore⟩
  · rintro ⟨before, plugin, after, earlier, property, later, parts, isLua, inside, rejected,
      passedEarlier, passedBefore⟩
    exact ⟨before, plugin, after, parts, ⟨isLua, earlier, property, later, inside, rejected,
      passedEarlier⟩, passedBefore⟩

/-- A document has no text exactly if a property of a Lua filter is rejected.
The failure is then that of the first such property, of the kind that fits its
value, for all options alike. -/
theorem write_fails_iff (accepts : Lua.Checker) (document : Document) :
    (∀ options, (∃ failure, write accepts options document = .error failure) ↔
      ∃ plugin ∈ document.pipeline.filters, plugin.name = luaFilterName ∧
        ∃ property ∈ plugin.properties, ∃ failure, Rejected accepts property failure) ∧
      (∀ options failure, write accepts options document = .error failure ↔
        FirstRejected accepts document.pipeline.filters failure) ∧
      (∀ property failure, Rejected accepts property failure →
        failure.kind = if property.value.asText? = none then .typeMismatch else .minifier) ∧
      ∀ options other failure, write accepts options document = .error failure ↔
        write accepts other document = .error failure := by
  refine ⟨?_, ?_, ?_, ?_⟩
  · intro options
    constructor
    · rintro ⟨failure, fails⟩
      rcases write_eq_error_iff_firstRejected.mp fails with ⟨before, plugin, after, earlier, property,
        later, parts, isLua, inside, rejected, -, -⟩
      refine ⟨plugin, ?_, isLua, property, ?_, failure, rejected⟩
      · rw [parts]
        exact List.mem_append_right _ List.mem_cons_self
      · rw [inside]
        exact List.mem_append_right _ List.mem_cons_self
    · rintro ⟨plugin, listed, isLua, property, inside, failure, rejected⟩
      cases found : write accepts options document with
      | error first => exact ⟨first, rfl⟩
      | ok text =>
        have none : failure? (write accepts options document) = none := by
          rw [found]
          rfl
        rw [failure?_write, List.findSome?_eq_none_iff] at none
        have passes := scriptFailure?_eq_none_iff.mp (none plugin listed)
        exact absurd rejected (passes isLua property inside failure)
  · intro options failure
    exact write_eq_error_iff_firstRejected
  · rintro property failure ⟨-, fails⟩
    exact kind_of_codeFails fails
  · intro options other failure
    rw [write_eq_error_iff_firstRejected, write_eq_error_iff_firstRejected]

end Classic

end LogPipeline
