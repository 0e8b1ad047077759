import LogPipeline.CommandLine.World
import LogPipeline.Proofs.Outcomes
import Mathlib.Tactic.SplitIfs

namespace LogPipeline

namespace CommandLine

/-!
# Files under the operations of a run

A run changes files by writing them and in no other way.  What it relies on is
stated of any operations: those that look leave all files as they are, and
writing replaces the whole content of the one file that the path names, or fails
and leaves all files as they are.

The world of files keeps to this.  A file is written where no folder stands, and
no path leads through such a place; so every path leads after the writing to
where it led before.
-/

/-! ## What is relied on -/

/-- A view of the files in the states of a system: the place that a path names,
where a file may stand or not, and the content of a file that stands there. -/
structure Files (State : Type) where
  Place : Type
  named? : State → String → Option Place
  content? : State → Place → Option ByteArray

namespace Files

variable {State : Type} (files : Files State)

/-- All files are as they were. -/
structure Same (before after : State) : Prop where
  named : ∀ path, files.named? after path = files.named? before path
  content : ∀ place, files.content? after place = files.content? before place

/-- The file that a path names has a new content, and all others are as they
were. -/
structure Replaced (path : String) (content : ByteArray) (before after : State) : Prop where
  named : ∀ other, files.named? after other = files.named? before other
  content : ∃ place, files.named? before path = some place ∧
    files.content? after place = some content ∧
    ∀ other, other ≠ place → files.content? after other = files.content? before other

variable {files}

theorem Same.refl (state : State) : files.Same state state :=
  ⟨fun _ => rfl, fun _ => rfl⟩

theorem Same.trans {first second third : State} (earlier : files.Same first second)
    (later : files.Same second third) : files.Same first third :=
  ⟨fun path => (later.named path).trans (earlier.named path),
    fun place => (later.content place).trans (earlier.content place)⟩

/-- A file is replaced also if nothing was changed before and nothing after. -/
theorem Replaced.of_same {path : String} {content : ByteArray} {first second third last : State}
    (earlier : files.Same first second) (replaced : files.Replaced path content second third)
    (later : files.Same third last) : files.Replaced path content first last := by
  rcases replaced.content with ⟨place, named, own, others⟩
  constructor
  · intro other
    rw [later.named, replaced.named, earlier.named]
  · refine ⟨place, ?_, ?_, fun other otherPlace => ?_⟩
    · rw [← earlier.named, named]
    · rw [later.content, own]
    · rw [later.content, others other otherPlace, earlier.content]

end Files

/-- Operations that leave files as they are, but for one that writes a file
entirely or fails before it changes any. -/
structure System.WritesWhole {State : Type} (system : System (StateM State))
    (files : Files State) : Prop where
  readInput : ∀ state, files.Same state (system.readInput.run state).2
  readFile : ∀ path state, files.Same state ((system.readFile path).run state).2
  directory : ∀ state, files.Same state (system.directory.run state).2
  written : ∀ path content state, ((system.writeFile path content).run state).1 = .ok () →
    files.Replaced path content state ((system.writeFile path content).run state).2
  unwritten : ∀ path content state fault,
    ((system.writeFile path content).run state).1 = .error fault →
      files.Same state ((system.writeFile path content).run state).2

/-! ## The world of files -/

namespace World

/-- The files of a world. -/
def files : Files World where
  Place := List (List Char)
  named? world path := (world.locate path.toList).toOption
  content? world place :=
    match world.entry? place with
    | some (.file content) => some content
    | _ => none

/-- Entries at another place do not matter for what stands at a place. -/
theorem lookup_filter {place other : List (List Char)} (differ : other ≠ place)
    (entries : List (List (List Char) × Entry)) :
    (entries.filter fun (taken, _) => taken ≠ place).lookup other = entries.lookup other := by
  induction entries with
  | nil => rfl
  | cons entry entries inductionHypothesis =>
    rcases entry with ⟨taken, held⟩
    rw [List.filter_cons, List.lookup_cons]
    split_ifs with kept
    · rw [List.lookup_cons, inductionHypothesis]
    · rw [decide_eq_true_eq, Decidable.not_not] at kept
      rw [inductionHypothesis, kept, beq_eq_false_iff_ne.mpr differ]

section Putting

variable {world : World} {place : List (List Char)} {entry : Entry}

theorem entry?_put_of_ne {other : List (List Char)} (differ : other ≠ place) :
    World.entry? (world.put place entry) other = world.entry? other := by
  rw [World.entry?, World.entry?, put]
  dsimp only
  rw [List.lookup_cons, beq_eq_false_iff_ne.mpr differ, lookup_filter differ]

theorem entry?_put_self (noFolder : world.entry? place ≠ some .folder) :
    World.entry? (world.put place entry) place = some entry := by
  have outside : ¬ place.isPrefixOf world.directory = true := by
    intro within
    rw [World.entry?, if_pos within] at noFolder
    exact noFolder rfl
  rw [World.entry?, put]
  dsimp only
  rw [if_neg outside, List.lookup_cons_self]

/-- No path leads through a place where no folder stands, so a file there leads
no path to another place. -/
theorem walk_put {content : ByteArray} (noFolder : world.entry? place ≠ some .folder)
    (start : List (List Char)) (names : List (List Char)) :
    ((world.put place (.file content)).walk start names).toOption =
      (world.walk start names).toOption := by
  induction names generalizing start with
  | nil => rfl
  | cons name rest inductionHypothesis =>
    rw [walk, walk]
    by_cases here : start = place
    · -- A path goes no further from here, neither before nor after the writing.
      rw [here, entry?_put_self noFolder]
      cases stands : world.entry? place with
      | none => rfl
      | some entry =>
        cases entry with
        | file => rfl
        | folder => exact absurd stands noFolder
    · rw [entry?_put_of_ne here]
      cases world.entry? start with
      | none => rfl
      | some entry =>
        cases entry with
        | file => rfl
        | folder =>
          dsimp only
          split_ifs
          all_goals exact inductionHypothesis _

theorem locate_put {content : ByteArray} (noFolder : world.entry? place ≠ some .folder)
    (path : List Char) :
    ((world.put place (.file content)).locate path).toOption = (world.locate path).toOption := by
  rw [locate, locate]
  split_ifs
  · rfl
  · exact walk_put noFolder _ _
  · exact walk_put noFolder _ _

end Putting

theorem put_of_write {world changed : World} {path : List Char} {content : ByteArray}
    (written : world.write path content = .ok changed) :
    ∃ place, world.locate path = .ok place ∧ world.entry? place ≠ some .folder ∧
      changed = world.put place (.file content) := by
  rw [write, bind_eq_ok_iff] at written
  rcases written with ⟨place, located, written⟩
  split at written
  · cases written
  · rename_i noFolder
    split at written
    · cases written
    · exact ⟨place, located, noFolder, (Except.ok.inj written).symm⟩

theorem replaced_of_write {world changed : World} {path : String} {content : ByteArray}
    (written : world.write path.toList content = .ok changed) :
    files.Replaced path content world changed := by
  rcases put_of_write written with ⟨place, located, noFolder, rfl⟩
  refine ⟨fun other => locate_put noFolder other.toList, place, ?_, ?_, fun other differ => ?_⟩
  · exact congrArg Except.toOption located
  · dsimp only [files]
    rw [entry?_put_self noFolder]
  · dsimp only [files]
    rw [entry?_put_of_ne differ]

/-- Writing in a world gives the world that was written to, and leaves it as it was
where that fails. -/
theorem run_writeFile (path : String) (content : ByteArray) (world : World) :
    (system.writeFile path content).run world =
      match world.write path.toList content with
      | .error fault => (.error fault, world)
      | .ok changed => (.ok (), changed) := by
  change (match world.write path.toList content with
    | .error fault => (pure (.error fault) : StateM World (Except FileFault Unit))
    | .ok changed => do
      set changed
      pure (.ok ())).run world = _
  cases world.write path.toList content with
  | error fault => rfl
  | ok changed => rfl

theorem writesWhole : System.WritesWhole system files where
  readInput := Files.Same.refl
  readFile _ := Files.Same.refl
  directory := Files.Same.refl
  written := by
    intro path content world success
    rw [run_writeFile] at success ⊢
    cases written : world.write path.toList content with
    | error fault =>
      rw [written] at success
      cases success
    | ok changed => exact replaced_of_write written
  unwritten := by
    intro path content world fault failure
    rw [run_writeFile] at failure ⊢
    cases written : world.write path.toList content with
    | error fault => exact Files.Same.refl world
    | ok changed =>
      rw [written] at failure
      cases failure

end World

end CommandLine

end LogPipeline
