import LogPipeline.Lua.Chunk
import LogPipeline.Proofs.CommandLine.Files

namespace LogPipeline

namespace CommandLine

/-!
# All or nothing

A run reads its input and renders it before it touches any place of delivery.  So
it either delivers the whole text to one place, the standard output or the file
that the request names, or it fails with a report and delivers nothing anywhere.
That the file may be the one that the input was read from makes no difference,
since nothing is read once the file is written.
-/

section Runs

variable {State : Type} {system : System (StateM State)} {files : Files State}

/-! ## The input of a run -/

/-- The bytes that a request is given as its input. -/
def Request.given (request : Request) (system : System (StateM State)) (state : State) :
    Except FileFault ByteArray :=
  match request.source? with
  | none => (system.readInput.run state).1
  | some path => ((system.readFile path).run state).1

/-- The input of a request can be read and is a text. -/
def Request.Reads (request : Request) (system : System (StateM State)) (state : State)
    (content : String) : Prop :=
  ∃ bytes, request.given system state = .ok bytes ∧ Utf8.read bytes = .ok content

theorem textOf_eq_ok_iff {bytes : ByteArray} {content : String} :
    textOf bytes = .ok content ↔ Utf8.read bytes = .ok content := by
  rw [textOf]
  cases Utf8.read bytes with
  | error fault => constructor <;> rintro ⟨⟩
  | ok content => rw [Except.ok.injEq, Except.ok.injEq]

theorem content_eq_ok_iff {request : Request} {state : State} {content : String} :
    ((request.content system).run state).1 = .ok content ↔ request.Reads system state content := by
  rw [Request.Reads, Request.given, Request.content]
  cases request.source? with
  | none =>
    change (system.readInput.run state).1.mapError FileFault.message >>= textOf = .ok content ↔ _
    rw [bind_eq_ok_iff]
    simp only [mapError_eq_ok_iff, textOf_eq_ok_iff]
  | some path =>
    change (((system.readFile path).run state).1.mapError FileFault.message >>= textOf).mapError _ =
      .ok content ↔ _
    rw [mapError_eq_ok_iff, bind_eq_ok_iff]
    simp only [mapError_eq_ok_iff, textOf_eq_ok_iff]

theorem same_of_content (whole : system.WritesWhole files) (request : Request) (state : State) :
    files.Same state ((request.content system).run state).2 := by
  rw [Request.content]
  cases request.source? with
  | none => exact whole.readInput state
  | some path => exact whole.readFile path state

/-! ## Delivery -/

/-- A text has gone to one place: to the standard output while all files are as
they were, or to the file that the request names and to no other, with nothing on
the standard output. -/
inductive Delivered (files : Files State) (request : Request) (text : String)
    (before : State) (outcome : Outcome) (after : State) : Prop
  | printed (noTarget : request.target? = none) (output : outcome.output = text)
      (same : files.Same before after)
  | written {path : String} (target : request.target? = some path) (output : outcome.output = "")
      (replaced : files.Replaced path text.toUTF8 before after)

/-- The file that a request names cannot be written, with all files as they were
before. -/
def Unwritable (system : System (StateM State)) (files : Files State) (request : Request)
    (text : String) (before : State) : Prop :=
  ∃ path state fault, request.target? = some path ∧ files.Same before state ∧
    ((system.writeFile path text.toUTF8).run state).1 = .error fault

/-- A run that failed: a report and nothing else, and a reason for it. -/
structure Failed (system : System (StateM State)) (files : Files State) (accepts : Lua.Checker)
    (request : Request) (before : State) (outcome : Outcome) (after : State) : Prop where
  code : outcome.code = 1
  output : outcome.output = ""
  notice : ∃ message, outcome.notice = "ERROR  " ++ message
  same : files.Same before after
  reason : ∀ content text, request.Reads system before content →
    request.rendered accepts content = .ok text → Unwritable system files request text before

/-- A run that succeeded: its input was read and rendered, and the text of it was
delivered. -/
structure Succeeded (system : System (StateM State)) (files : Files State) (accepts : Lua.Checker)
    (request : Request) (before : State) (outcome : Outcome) (after : State) : Prop where
  code : outcome.code = 0
  delivered : ∃ content text, request.Reads system before content ∧
    request.rendered accepts content = .ok text ∧ Delivered files request text before outcome after

/-- Delivering a text, with all files still as they were at the start. -/
theorem run_deliver (whole : system.WritesWhole files) (request : Request) (text : String)
    {before state : State} (same : files.Same before state) :
    (∃ outcome after, (request.deliver system text).run state = (outcome, after) ∧
        outcome.code = 0 ∧ Delivered files request text before outcome after) ∨
      ∃ message after, (request.deliver system text).run state = (.failed message, after) ∧
        files.Same before after ∧ Unwritable system files request text before := by
  rw [Request.deliver]
  cases target : request.target? with
  | none => exact .inl ⟨_, state, rfl, rfl, .printed target rfl same⟩
  | some path =>
    dsimp only
    rw [StateT.run_bind]
    rcases written : (system.writeFile path text.toUTF8).run state with ⟨result, middle⟩
    cases result with
    | error fault =>
      right
      have failure : ((system.writeFile path text.toUTF8).run state).1 = .error fault :=
        congrArg Prod.fst written
      have unwritten := whole.unwritten path text.toUTF8 state fault failure
      rw [written] at unwritten
      exact ⟨fault.message, middle, rfl, same.trans unwritten, path, state, fault, target, same,
        failure⟩
    | ok done =>
      left
      have replaced := whole.written path text.toUTF8 state (congrArg Prod.fst written)
      rw [written] at replaced
      refine ⟨_, (system.directory.run middle).2, rfl, rfl, .written target rfl ?_⟩
      exact replaced.of_same same (whole.directory middle)

theorem failed_of_message {accepts : Lua.Checker} {request : Request} {before after : State}
    (message : String) (same : files.Same before after)
    (reason : ∀ content text, request.Reads system before content →
      request.rendered accepts content = .ok text →
        Unwritable system files request text before) :
    Failed system files accepts request before (.failed message) after where
  code := rfl
  output := rfl
  notice := ⟨message ++ "\n", String.append_assoc⟩
  same := same
  reason := reason

/-- A request is carried out or fails. -/
theorem succeeded_or_failed (whole : system.WritesWhole files) (accepts : Lua.Checker)
    (request : Request) {before after : State} {outcome : Outcome}
    (ended : (request.run system accepts).run before = (outcome, after)) :
    Succeeded system files accepts request before outcome after ∨
      Failed system files accepts request before outcome after := by
  rw [Request.run, StateT.run_bind] at ended
  have same := same_of_content whole request before
  have reads := @content_eq_ok_iff _ system request before
  -- Only what was read and the state after it matter from here on.
  generalize (request.content system).run before = ran at ended same reads
  rcases ran with ⟨result, middle⟩
  cases result with
  | error message =>
    right
    cases ended
    refine failed_of_message message same fun content text read _ => ?_
    cases reads.mpr read
  | ok content =>
    have read := reads.mp rfl
    dsimp only [bind] at ended
    cases made : request.rendered accepts content with
    | error failure =>
      right
      rw [made] at ended
      cases ended
      refine failed_of_message _ same fun other text otherRead otherMade => ?_
      cases reads.mpr otherRead
      cases made.symm.trans otherMade
    | ok text =>
      rw [made] at ended
      rcases run_deliver whole request text same with
        ⟨own, last, delivery, code, delivered⟩ | ⟨message, last, delivery, left, unwritable⟩
      · left
        cases ended.symm.trans delivery
        exact ⟨code, content, text, read, made, delivered⟩
      · right
        cases ended.symm.trans delivery
        refine failed_of_message message left fun other otherText otherRead otherMade => ?_
        cases reads.mpr otherRead
        cases made.symm.trans otherMade
        exact unwritable

/-- A run whose arguments make a request is all or nothing: it ends with the code
zero after the text of its input has gone to the one place that the request names,
or with the code one and a report after nothing was delivered anywhere. -/
theorem run_succeeds_or_fails (whole : system.WritesWhole files) (accepts : Lua.Checker)
    {arguments : List String} {request : Request}
    (accepted : Request.ofArguments arguments = .ok request) {before after : State}
    {outcome : Outcome} (ended : (run system accepts arguments).run before = (outcome, after)) :
    Succeeded system files accepts request before outcome after ∨
      Failed system files accepts request before outcome after := by
  rw [run, accepted] at ended
  exact succeeded_or_failed whole accepts request ended

end Runs

/-- A folder with one file, a document that names an included file. -/
def includingFolder : World where
  directory := [['w']]
  entries := [([['w'], ['i']], .file "includes:\n  - a\n".toUTF8)]

/-- The file is both read and written, under two paths. -/
theorem run_succeeds_or_fails_ownInput :
    ∃ request outcome after, Request.ofArguments ["i", "-o", "./i"] = .ok request ∧
      request.source? = some "i" ∧ request.target? = some "./i" ∧
      includingFolder.run Lua.isChunk ["i", "-o", "./i"] = (outcome, after) ∧
      outcome.code = 0 ∧ (after.read ['i']).toOption = some "@INCLUDE a\n".toUTF8 ∧
      (Succeeded World.system World.files Lua.isChunk request includingFolder outcome after ∨
        Failed World.system World.files Lua.isChunk request includingFolder outcome after) := by
  have accepted : Request.ofArguments ["i", "-o", "./i"] =
      .ok { input := some "i", output := some "./i" } := by
    rfl
  have code : (includingFolder.run Lua.isChunk ["i", "-o", "./i"]).1.code = 0 := by
    decide +kernel
  have content : ((includingFolder.run Lua.isChunk ["i", "-o", "./i"]).2.read ['i']).toOption =
      some "@INCLUDE a\n".toUTF8 := by
    decide +kernel
  exact ⟨_, _, _, accepted, by decide, by decide, rfl, code, content,
    run_succeeds_or_fails World.writesWhole Lua.isChunk accepted rfl⟩

end CommandLine

end LogPipeline
