import LogPipeline.Sink
import LogPipeline.Proofs.Classic.Failing

namespace LogPipeline

namespace Sink

open Classic (FirstRejected)

/-!
# Documents written to one sink

Several documents are written to a sink one after the other, each with options
of its own.  A document that has a text puts the whole of it at the end of the
sink; one that fails, at whatever property and after however many blocks, gives
its failure and leaves the sink to the next.  So a sink without a limit holds in
the end the texts of the documents that have one, in their order.
-/

/-- A document to be written, and how. -/
structure Call where
  options : Classic.Options := {}
  document : Document

/-- The text that a call is to put into the sink. -/
def Call.text (accepts : Lua.Checker) (call : Call) : Except Failure String :=
  Classic.write accepts call.options call.document

/-- The sink after a call, and how the call ended. -/
def attempt (accepts : Lua.Checker) (sink : Sink) (call : Call) : Sink × Except Failure Unit :=
  match sink.write accepts call.options call.document with
  | .ok written => (written, .ok ())
  | .error failure => (sink, .error failure)

/-- The sink after calls one after the other, and how each of them ended. -/
def attempts (accepts : Lua.Checker) (sink : Sink) : List Call → Sink × List (Except Failure Unit)
  | [] => (sink, [])
  | call :: rest =>
    let (written, outcome) := sink.attempt accepts call
    let (last, outcomes) := written.attempts accepts rest
    (last, outcome :: outcomes)

/-! ## One call -/

/-- A sink with a text at its end, if there is one. -/
def extended (sink : Sink) : Except Failure String → Sink
  | .ok text => { sink with content := sink.content ++ text }
  | .error _ => sink

/-- A sink without a limit takes the whole text of a call that has one, and
nothing of any other. -/
theorem attempt_eq (accepts : Lua.Checker) {sink : Sink} (unlimited : sink.limit = none)
    (call : Call) :
    sink.attempt accepts call =
      (sink.extended (call.text accepts), (call.text accepts).map fun _ => ()) := by
  rcases sink with ⟨content, limit⟩
  cases unlimited
  rw [attempt, write, Call.text]
  cases Classic.write accepts call.options call.document <;> rfl

theorem limit_extended (sink : Sink) (text : Except Failure String) :
    (sink.extended text).limit = sink.limit := by
  cases text <;> rfl

theorem attempts_cons (accepts : Lua.Checker) {sink : Sink} (unlimited : sink.limit = none)
    (call : Call) (rest : List Call) :
    sink.attempts accepts (call :: rest) =
      (((sink.extended (call.text accepts)).attempts accepts rest).1,
        (call.text accepts).map (fun _ => ()) ::
          ((sink.extended (call.text accepts)).attempts accepts rest).2) := by
  rw [attempts, attempt_eq accepts unlimited]

/-! ## Runs of calls -/

theorem outcomes_attempts (accepts : Lua.Checker) {sink : Sink} (unlimited : sink.limit = none)
    (calls : List Call) :
    (sink.attempts accepts calls).2 =
      calls.map fun call => (call.text accepts).map fun _ => () := by
  induction calls generalizing sink with
  | nil => rfl
  | cons call rest inductionHypothesis =>
    rw [attempts_cons accepts unlimited, List.map_cons,
      inductionHypothesis ((limit_extended sink _).trans unlimited)]

theorem content_attempts (accepts : Lua.Checker) {sink : Sink} (unlimited : sink.limit = none)
    (calls : List Call) :
    (sink.attempts accepts calls).1.content =
      sink.content ++ String.join (calls.filterMap fun call => (call.text accepts).toOption) := by
  induction calls generalizing sink with
  | nil =>
    rw [List.filterMap_nil, String.join_nil, String.append_empty]
    rfl
  | cons call rest inductionHypothesis =>
    rw [attempts_cons accepts unlimited,
      inductionHypothesis ((limit_extended sink _).trans unlimited)]
    cases found : call.text accepts with
    | error failure => rw [extended, List.filterMap_cons_none (by rw [found]; rfl)]
    | ok text =>
      rw [extended, List.filterMap_cons_some (b := text) (by rw [found]; rfl), String.join_cons,
        String.append_assoc]

theorem attempts_append (accepts : Lua.Checker) (sink : Sink) (first later : List Call) :
    (sink.attempts accepts (first ++ later)).1 =
      ((sink.attempts accepts first).1.attempts accepts later).1 := by
  induction first generalizing sink with
  | nil => rfl
  | cons call rest inductionHypothesis =>
    rw [List.cons_append, attempts, attempts]
    exact inductionHypothesis (sink.attempt accepts call).1

/-- A call whose document fails changes nothing, whatever was written before. -/
theorem attempt_of_firstRejected {accepts : Lua.Checker} (sink : Sink) {call : Call}
    {failure : Failure} (rejected : FirstRejected accepts call.document.pipeline.filters failure) :
    sink.attempt accepts call = (sink, .error failure) := by
  rw [attempt, write, Classic.write_eq_error_iff_firstRejected.mpr rejected]
  rfl

/-- After any calls on a sink without a limit the sink holds, behind what it
held before, the texts of the calls that have one, in their order, and each call
ended as its text did.  A call whose document fails, wherever the first rejected
property stands among the filters, gives that failure and leaves the sink as it
was, so that the run ends as it would without the call. -/
theorem content_of_attempts (accepts : Lua.Checker) {sink : Sink} (unlimited : sink.limit = none)
    (calls : List Call) :
    (sink.attempts accepts calls).1.content =
        sink.content ++ String.join (calls.filterMap fun call => (call.text accepts).toOption) ∧
      (sink.attempts accepts calls).2 =
        (calls.map fun call => (call.text accepts).map fun _ => ()) ∧
      ∀ before call after failure, calls = before ++ call :: after →
        FirstRejected accepts call.document.pipeline.filters failure →
          (sink.attempts accepts before).1.attempt accepts call =
              ((sink.attempts accepts before).1, .error failure) ∧
            (sink.attempts accepts calls).1 = (sink.attempts accepts (before ++ after)).1 := by
  refine ⟨content_attempts accepts unlimited calls, outcomes_attempts accepts unlimited calls, ?_⟩
  intro before call after failure parts rejected
  have unchanged := attempt_of_firstRejected (sink.attempts accepts before).1 rejected
  refine ⟨unchanged, ?_⟩
  rw [parts, attempts_append, attempts_append, attempts, unchanged]

/-- A document with a service and a Lua filter whose code is a number. -/
def failingLate : Document where
  service := [{ key := "flush", value := .integer 1 }]
  pipeline := {
    inputs := [Plugin.ofProperties [{ key := "name", value := .text "dummy" }]]
    filters := [Plugin.ofProperties
      [{ key := "name", value := .text "lua" }, { key := "code", value := .integer 42 }]] }

def includeOnly : Document where
  includes := ["a.conf"]

/-- Two documents that have a text and one in between that fails. -/
def threeCalls : List Call :=
  [{ document := includeOnly }, { document := failingLate },
    { options := { indent := 2 }, document := { service := failingLate.service } }]

theorem content_of_attempts_threeCalls :
    (attempts Lua.acceptAll {} threeCalls).1.content =
        "@INCLUDE a.conf\n[SERVICE]\n  flush 1\n" ∧
      (attempts Lua.acceptAll {} threeCalls).2 =
        [.ok (), .error (.codeShape "integer"), .ok ()] ∧
      (attempts Lua.acceptAll {} threeCalls).1 =
        (attempts Lua.acceptAll {} [threeCalls[0], threeCalls[2]]).1 := by
  have included : Classic.write Lua.acceptAll {} includeOnly = .ok "@INCLUDE a.conf\n" := by
    rw [Classic.write_eq_text]
    exact Lua.toOption_eq_some_iff.mp (by decide +kernel)
  have served : Classic.write Lua.acceptAll { indent := 2 } { service := failingLate.service } =
      .ok "[SERVICE]\n  flush 1\n" := by
    rw [Classic.write_eq_text]
    exact Lua.toOption_eq_some_iff.mp (by decide +kernel)
  have rejected : FirstRejected Lua.acceptAll failingLate.pipeline.filters
      (.codeShape "integer") := by
    refine ⟨[], _, [], [{ key := "name", value := .text "lua" }], _, [], rfl, by decide, rfl,
      ⟨by decide, .shape rfl⟩, ?_, List.forall_mem_nil _⟩
    intro passed member another rejected
    rw [List.mem_singleton.mp member] at rejected
    exact absurd rejected.1 (by decide)
  have failed : Classic.write Lua.acceptAll {} failingLate = .error (.codeShape "integer") :=
    Classic.write_eq_error_iff_firstRejected.mpr rejected
  rcases @content_of_attempts Lua.acceptAll {} rfl threeCalls with ⟨content, outcomes, gone⟩
  refine ⟨?_, ?_, ?_⟩
  · rw [content]
    simp [threeCalls, Call.text, included, served, failed, Except.toOption]
  · rw [outcomes]
    simp [threeCalls, Call.text, included, served, failed, Except.map]
  · exact (gone [threeCalls[0]] threeCalls[1] [threeCalls[2]] _ rfl rejected).2

end Sink

end LogPipeline
