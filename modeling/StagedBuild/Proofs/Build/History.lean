import StagedBuild.Build.Run
import StagedBuild.Proofs.Build.Plan

/-!
# What came before makes no difference

Between the runs of tools a build looks at the files and at the current directory, and never at the
events so far.  So it does the same in two worlds that differ in their events alone, and what it
adds to them is the same.
-/

namespace StagedBuild
namespace World

/-- The world as if some events had come before its own. -/
def recalling (world : World) (earlier : List Event) : World :=
  { world with trace := earlier ++ world.trace }

@[simp]
theorem tree_recalling (world : World) (earlier : List Event) :
    (world.recalling earlier).tree = world.tree := rfl

@[simp]
theorem cwd_recalling (world : World) (earlier : List Event) :
    (world.recalling earlier).cwd = world.cwd := rfl

@[simp]
theorem cwdPath_recalling (world : World) (earlier : List Event) :
    (world.recalling earlier).cwdPath = world.cwdPath := rfl

/-- What is done does not depend on earlier events. -/
def IgnoresHistory {α : Type} (act : World → α × World) : Prop :=
  ∀ world earlier, act (world.recalling earlier) =
    ((act world).1, (act world).2.recalling earlier)

theorem emit_recalling (world : World) (earlier events : List Event) :
    (world.recalling earlier).emit events = (world.emit events).recalling earlier := by
  simp [recalling, emit]

theorem change_recalling (world : World) (earlier : List Event) (tree : FileTree)
    (changes : List Change) :
    (world.recalling earlier).change tree changes =
      (world.change tree changes).recalling earlier := by
  simp [recalling, change]

theorem ignoresHistory_ensureDirectory (path : Path) :
    IgnoresHistory fun world => world.ensureDirectory path := by
  intro world earlier
  exact congrArg (Prod.mk _) (change_recalling world earlier _ _)

theorem ignoresHistory_removeFileIfExists (path : Path) :
    IgnoresHistory fun world => world.removeFileIfExists path := by
  intro world earlier
  simp only [removeFileIfExists, tree_recalling, cwd_recalling]
  cases world.tree.removeFile world.cwd path with
  | ok removed => exact congrArg (Prod.mk _) (change_recalling world earlier _ _)
  | error error =>
      dsimp only
      split <;> rfl

theorem ignoresHistory_moveFile (source destination : Path) :
    IgnoresHistory fun world => world.moveFile source destination := by
  intro world earlier
  simp only [moveFile, tree_recalling, cwd_recalling]
  cases world.tree.moveFile world.cwd source destination with
  | ok moved => exact congrArg (Prod.mk _) (change_recalling world earlier _ _)
  | error error => rfl

end World

namespace StagedArtifact

open World (IgnoresHistory)

theorem ignoresHistory_prepare (platform : Platform) (outDir : Path) (target : Target) :
    IgnoresHistory (prepare platform outDir target) := by
  intro world earlier
  simp only [prepare, World.cwdPath_recalling]
  split
  · rfl
  · cases Path.absoluteFrom world.cwdPath outDir with
    | error error => rfl
    | ok absolute =>
        have made := World.ignoresHistory_ensureDirectory (stagingOf absolute) world earlier
        dsimp only at made ⊢
        rw [made]
        rcases world.ensureDirectory (stagingOf absolute) with ⟨result, middle⟩
        cases result with
        | error error => rfl
        | ok done =>
            have removed := World.ignoresHistory_removeFileIfExists
              (locate platform absolute target).stagingPath middle earlier
            dsimp only at removed ⊢
            rw [removed]
            rcases middle.removeFileIfExists (locate platform absolute target).stagingPath with
              ⟨result, last⟩
            cases result <;> rfl

theorem ignoresHistory_promote (artifact : StagedArtifact) (staged : Path) :
    IgnoresHistory (artifact.promote staged) := by
  intro world earlier
  simp only [promote]
  cases staged.fileName? with
  | none => rfl
  | some name =>
      have moved :=
        World.ignoresHistory_moveFile staged (artifact.outDir.join name) world earlier
      dsimp only at moved ⊢
      rw [moved]
      rcases world.moveFile staged (artifact.outDir.join name) with ⟨result, after⟩
      cases result <;> rfl

theorem ignoresHistory_promoteAll (artifact : StagedArtifact) (staged : List Path) :
    IgnoresHistory (artifact.promoteAll staged) := by
  intro world earlier
  induction staged generalizing world with
  | nil => rfl
  | cons path rest induction =>
      simp only [promoteAll]
      rw [ignoresHistory_promote artifact path world earlier]
      rcases artifact.promote path world with ⟨result, middle⟩
      cases result with
      | ok done => exact induction middle
      | error error => rfl

theorem ignoresHistory_commit (artifact : StagedArtifact) : IgnoresHistory artifact.commit := by
  intro world earlier
  -- As hypotheses the two equations also rewrite how the condition is decided.
  have same_tree := world.tree_recalling earlier
  have same_cwd := world.cwd_recalling earlier
  simp only [commit, same_tree, same_cwd]
  split
  · rfl
  · cases artifact.companions world.tree world.cwd with
    | error error => rfl
    | ok companions =>
        dsimp only
        rw [ignoresHistory_promoteAll artifact (companions ++ [artifact.stagingPath]) world earlier]
        rcases artifact.promoteAll (companions ++ [artifact.stagingPath]) world with
          ⟨result, after⟩
        cases result with
        | ok done => exact congrArg (Prod.mk _) (World.emit_recalling after earlier _)
        | error error => rfl

theorem discardOne_recalling (world : World) (earlier : List Event) (path : Path) :
    discardOne (world.recalling earlier) path = (discardOne world path).recalling earlier := by
  have removed := World.ignoresHistory_removeFileIfExists path world earlier
  dsimp only at removed
  rw [discardOne, discardOne, removed]
  rcases world.removeFileIfExists path with ⟨result, after⟩
  cases result with
  | ok found => rfl
  | error error => exact World.emit_recalling after earlier _

theorem ignoresHistory_discard (artifact : StagedArtifact) :
    IgnoresHistory fun world => ((), artifact.discard world) := by
  intro world earlier
  have folded : ∀ (paths : List Path) (world : World),
      paths.foldl discardOne (world.recalling earlier) =
        (paths.foldl discardOne world).recalling earlier := by
    intro paths
    induction paths with
    | nil => exact fun _ => rfl
    | cons path paths induction =>
        intro world
        rw [List.foldl_cons, discardOne_recalling]
        exact induction (discardOne world path)
  exact congrArg (Prod.mk ()) (folded _ world)

end StagedArtifact

/-- The stream that is not this one. -/
def Stream.other : Stream → Stream
  | .stdout => .stderr
  | .stderr => .stdout

theorem Event.isLineOf_other {stream : Stream} {event : Event}
    (line : event.isLineOf stream.other = true) : event.isLineOf stream = false := by
  unfold isLineOf at line ⊢
  split at line
  · cases stream <;> simp_all [Stream.other]
  · simp at line

/-- The events without the lines of a stream. -/
def hide (stream : Stream) (trace : List Event) : List Event :=
  trace.filter fun event => !event.isLineOf stream

theorem hide_append (stream : Stream) (first second : List Event) :
    hide stream (first ++ second) = hide stream first ++ hide stream second :=
  List.filter_append first second

namespace World

/--
The worlds differ at most in the order in which lines of different streams have arrived: without
the lines of one stream their events are the same.
-/
structure Alike (world other : World) : Prop where
  tree : other.tree = world.tree
  cwd : other.cwd = world.cwd
  trace : ∀ stream, hide stream other.trace = hide stream world.trace

variable {world other : World}

theorem Alike.refl (world : World) : Alike world world :=
  ⟨rfl, rfl, fun _ => rfl⟩

theorem Alike.emit {events others : List Event} (alike : Alike world other)
    (same : ∀ stream, hide stream others = hide stream events) :
    Alike (world.emit events) (other.emit others) := by
  refine ⟨alike.tree, alike.cwd, fun stream => ?_⟩
  simp only [World.emit, hide_append, alike.trace stream, same stream]

/-- Where a view does not show the lines of a stream, alike worlds look the same. -/
theorem Alike.flatMap_eq {α : Type} {view : Event → List α} (stream : Stream)
    (alike : Alike world other)
    (unseen : ∀ event : Event, event.isLineOf stream = true → view event = []) :
    other.trace.flatMap view = world.trace.flatMap view := by
  have hidden : ∀ trace : List Event, trace.flatMap view = (hide stream trace).flatMap view := by
    intro trace
    induction trace with
    | nil => rfl
    | cons event trace induction =>
        rw [hide, List.filter_cons, List.flatMap_cons, induction]
        split
        · rfl
        · rename_i shown
          rw [unseen event (by simpa using shown), List.nil_append]
          rfl
  rw [hidden other.trace, hidden world.trace, alike.trace stream]

theorem Alike.calls (alike : Alike world other) : other.calls = world.calls := by
  rw [World.calls, World.calls, List.filterMap_eq_flatMap_toList, List.filterMap_eq_flatMap_toList]
  apply alike.flatMap_eq .stdout
  intro event line
  cases event <;> simp_all [Event.isLineOf, Event.invocation?]

theorem Alike.linesTaken (alike : Alike world other) (stream : Stream) :
    other.linesTaken stream = world.linesTaken stream := by
  have seen : ∀ trace : List Event, trace.filter (Event.isLineOf stream) =
      trace.flatMap fun event => (Option.guard (Event.isLineOf stream) event).toList := by
    intro trace
    rw [← List.filterMap_eq_filter, List.filterMap_eq_flatMap_toList]
  rw [World.linesTaken, World.linesTaken, seen, seen]
  congr 1
  apply alike.flatMap_eq stream.other
  intro event line
  have unseen : event.isLineOf stream = false := Event.isLineOf_other line
  simp [Option.guard, unseen]

/-- What ignores earlier events does the same in worlds that are alike. -/
theorem Alike.act {α : Type} {act : World → α × World} (ignores : IgnoresHistory act)
    (alike : Alike world other) :
    (act other).1 = (act world).1 ∧ Alike (act world).2 (act other).2 := by
  have world_eq : world = World.recalling ⟨world.tree, world.cwd, []⟩ world.trace := by
    simp [recalling]
  have other_eq : other = World.recalling ⟨world.tree, world.cwd, []⟩ other.trace := by
    simp [recalling, ← alike.tree, ← alike.cwd]
  have world_acts := ignores ⟨world.tree, world.cwd, []⟩ world.trace
  have other_acts := ignores ⟨world.tree, world.cwd, []⟩ other.trace
  rw [← world_eq] at world_acts
  rw [← other_eq] at other_acts
  rw [world_acts, other_acts]
  refine ⟨rfl, rfl, rfl, fun stream => ?_⟩
  simp only [recalling, hide_append, alike.trace stream]

end World
end StagedBuild
