import StagedBuild.Project.Build
import StagedBuild.Process.Execute
import StagedBuild.Proofs.Build.History
import StagedBuild.Proofs.Build.Progress

/-!
# A build whose shell is asked about every line

A run collects all its status lines, and the shell picks from them when they are shown.  A build
whose shell is asked about each line as it comes up, so that a hidden line never exists, does the
same: its world lacks the hidden lines and differs in nothing else.  Nothing that a build decides
depends on what its shell has shown.
-/

namespace StagedBuild

/-- The shell keeps nothing of the event to itself. -/
def Shell.passes (shell : Shell) : Event → Bool
  | .status line => shell.shows line
  | _ => true

/-- The observer whose lines are shown by the shell, or not at all. -/
def Observer.through (observer : Observer) (shell : Shell) : Observer where
  onStart target artifact := (observer.onStart target artifact).filter shell.shows
  onFinish result := (observer.onFinish result).filter shell.shows

/-- The build whose observer reports through the shell. -/
def Build.hushed (build : Build) (shell : Shell) : Build :=
  build.withObserver (build.observer.through shell)

namespace World

/-- The world after a status line, if the shell shows it. -/
def tell (shell : Shell) (line : StatusLine) (world : World) : World :=
  if shell.shows line then world.emit [.status line] else world

/-- The other world lacks the lines that the shell hides, and nothing else. -/
structure Hushed (shell : Shell) (world other : World) : Prop where
  tree : other.tree = world.tree
  cwd : other.cwd = world.cwd
  trace : other.trace = world.trace.filter shell.passes

/-- Both acts answer the same, and the world of the second lacks the hidden lines. -/
def Agree {α : Type} (shell : Shell) (act other : α × World) : Prop :=
  ∃ answer after other_after, act = (answer, after) ∧ other = (answer, other_after) ∧
    Hushed shell after other_after

variable {shell : Shell} {world other : World}

theorem passes_of_statusLine? {event : Event} (no_line : event.statusLine? = none) :
    shell.passes event = true := by
  cases event <;> simp_all [Shell.passes, Event.statusLine?]

theorem filter_passes {events : List Event} (no_lines : events.filterMap Event.statusLine? = []) :
    events.filter shell.passes = events := by
  rw [List.filterMap_eq_nil_iff] at no_lines
  rw [List.filter_eq_self]
  exact fun event member => passes_of_statusLine? (no_lines event member)

theorem filter_passes_status (lines : List StatusLine) :
    (lines.map Event.status).filter shell.passes = (lines.filter shell.shows).map .status :=
  List.filter_map

theorem filter_passes_tool (events : List ToolEvent) :
    (events.map Event.tool).filter shell.passes = events.map .tool :=
  filter_passes (filterMap_statusLine?_tool events)

namespace Hushed

theorem refl (fresh : world.statusLines = []) : Hushed shell world world :=
  ⟨rfl, rfl, (filter_passes fresh).symm⟩

theorem emit {events others : List Event} (hushed : Hushed shell world other)
    (same : others = events.filter shell.passes) :
    Hushed shell (world.emit events) (other.emit others) := by
  refine ⟨hushed.tree, hushed.cwd, ?_⟩
  simp only [World.emit, List.filter_append, hushed.trace, same]

theorem tell (hushed : Hushed shell world other) (line : StatusLine) :
    Hushed shell (world.emit [.status line]) (other.tell shell line) := by
  rw [World.tell]
  split
  · rename_i shown
    exact hushed.emit (by simp [Shell.passes, shown])
  · rename_i hidden
    refine ⟨hushed.tree, hushed.cwd, ?_⟩
    simp [World.emit, hushed.trace, Shell.passes, hidden]

/-- What ignores earlier events and shows no line does the same in both worlds. -/
theorem act {α : Type} {act : World → α × World} (hushed : Hushed shell world other)
    (ignores : IgnoresHistory act)
    (silent : ∀ world, (act world).2.statusLines = world.statusLines) :
    Agree shell (act world) (act other) := by
  have world_eq : world = World.recalling ⟨world.tree, world.cwd, []⟩ world.trace := by
    simp [recalling]
  have other_eq : other = World.recalling ⟨world.tree, world.cwd, []⟩ other.trace := by
    simp [recalling, ← hushed.tree, ← hushed.cwd]
  have world_acts := ignores ⟨world.tree, world.cwd, []⟩ world.trace
  have other_acts := ignores ⟨world.tree, world.cwd, []⟩ other.trace
  rw [← world_eq] at world_acts
  rw [← other_eq] at other_acts
  refine ⟨_, _, _, world_acts, other_acts, rfl, rfl, ?_⟩
  simp only [recalling, List.filter_append, hushed.trace]
  rw [filter_passes (silent ⟨world.tree, world.cwd, []⟩)]

end Hushed

end World

open World (Hushed Agree)

/-- The runner does not look at the status lines that were shown. -/
def Runner.Heedless (runner : Runner) : Prop :=
  ∀ shell world other, Hushed shell world other → runner.run other = runner.run world

/-- A tool that runs as a process cannot see the status lines. -/
theorem ProcessRunner.toRunner_heedless (runner : ProcessRunner) : runner.toRunner.Heedless := by
  intro shell world other hushed
  have taken : ∀ stream, other.linesTaken stream = world.linesTaken stream := by
    intro stream
    rw [World.linesTaken, World.linesTaken, hushed.trace, List.filter_filter]
    congr 1
    refine List.filter_congr fun event _ => ?_
    cases event <;> simp [Event.isLineOf, Shell.passes]
  simp only [toRunner, inWorld, taken, hushed.tree, hushed.cwd]

namespace Build

variable {build : Build} {shell : Shell} {target : Target} {world other : World}

/-- The run of a tool ends in the same way, whatever the shell hides. -/
theorem call_hushed (heedless : build.runner.Heedless) (invocation : Invocation)
    (hushed : Hushed shell world other) :
    Agree shell (build.call target invocation world)
      ((build.hushed shell).call target invocation other) := by
  have called : Hushed shell (world.emit [.called target invocation])
      (other.emit [.called target invocation]) := hushed.emit rfl
  refine ⟨_, _, _, rfl, congrArg (Prod.mk · _) ?_, ?_⟩
  · exact congrArg (fun run => (run target invocation).result) (heedless shell _ _ called)
  · rw [show (build.hushed shell).runner = build.runner from rfl, heedless shell _ _ called]
    refine Hushed.emit ⟨rfl, called.cwd, called.trace⟩ ?_
    exact (World.filter_passes_tool _).symm

/-- An attempt ends in the same way, whatever the shell hides. -/
theorem attempt_hushed (heedless : build.runner.Heedless) (hushed : Hushed shell world other) :
    Agree shell (build.attempt target world) ((build.hushed shell).attempt target other) := by
  obtain ⟨prepared, middle, other_middle, prepared_eq, other_eq, middle_hushed⟩ := hushed.act
    (StagedArtifact.ignoresHistory_prepare build.platform build.outDir target)
    (StagedArtifact.statusLines_prepare build.platform build.outDir target)
  have platform_eq : (build.hushed shell).platform = build.platform := rfl
  have outDir_eq : (build.hushed shell).outDir = build.outDir := rfl
  rw [attempt, attempt, platform_eq, outDir_eq, prepared_eq, other_eq]
  cases prepared with
  | error error => exact ⟨_, _, _, rfl, rfl, middle_hushed⟩
  | ok artifact =>
      have started : Hushed shell
          (middle.emit (.started target artifact.path
            :: (build.observer.onStart target artifact.path).map .status))
          (other_middle.emit (.started target artifact.path
            :: ((build.hushed shell).observer.onStart target artifact.path).map .status)) := by
        refine middle_hushed.emit ?_
        rw [List.filter_cons_of_pos rfl, World.filter_passes_status]
        rfl
      obtain ⟨result, left, other_left, called_eq, other_called_eq, left_hushed⟩ :=
        @call_hushed build shell target _ _ heedless (build.invocation target artifact) started
      have invocation_eq : (build.hushed shell).invocation target artifact =
          build.invocation target artifact := rfl
      simp only [invocation_eq, called_eq, other_called_eq]
      split
      · obtain ⟨done, after, other_after, discarded_eq, other_discarded_eq, after_hushed⟩ :=
          left_hushed.act (StagedArtifact.ignoresHistory_discard artifact)
            artifact.statusLines_discard
        rw [(Prod.mk.inj discarded_eq).2, (Prod.mk.inj other_discarded_eq).2]
        exact ⟨_, _, _, rfl, rfl, after_hushed⟩
      · obtain ⟨done, after, other_after, committed_eq, other_committed_eq, after_hushed⟩ :=
          left_hushed.act (StagedArtifact.ignoresHistory_commit artifact)
            artifact.statusLines_commit
        rw [committed_eq, other_committed_eq]
        cases done with
        | ok done => exact ⟨_, _, _, rfl, rfl, after_hushed⟩
        | error error => exact ⟨_, _, _, rfl, rfl, after_hushed⟩

/-- A run takes the same course, whatever the shell hides. -/
theorem runFrom_hushed (heedless : build.runner.Heedless) (index : Nat) (state : BuildState)
    (targets : List Target) (hushed : Hushed shell world other) :
    ∃ results succeeded final after other_after,
      build.runFrom index state targets world = (results, succeeded, final, after) ∧
        (build.hushed shell).runFrom index state targets other =
          (results, succeeded, final, other_after) ∧
        Hushed shell after other_after := by
  induction targets generalizing index state world other with
  | nil => exact ⟨_, _, _, _, _, rfl, rfl, hushed.emit rfl⟩
  | cons target rest induction =>
      have entered : Hushed shell (transition state (.running index) world)
          (transition state (.running index) other) := hushed.emit rfl
      obtain ⟨result, tried, other_tried, tried_eq, other_tried_eq, tried_hushed⟩ :=
        @attempt_hushed build shell target _ _ heedless entered
      have finished : Hushed shell
          (tried.emit (.finished result :: (build.observer.onFinish result).map .status))
          (other_tried.emit (.finished result
            :: ((build.hushed shell).observer.onFinish result).map .status)) := by
        refine tried_hushed.emit ?_
        rw [List.filter_cons_of_pos rfl, World.filter_passes_status]
        rfl
      rw [runFrom, runFrom, tried_eq, other_tried_eq]
      dsimp only
      split
      · exact ⟨_, _, _, _, _, rfl, rfl, finished.emit rfl⟩
      · obtain ⟨results, succeeded, final, last, other_last, rest_eq, other_rest_eq, last_hushed⟩ :=
          induction (index + 1) (.running index) finished
        rw [rest_eq, other_rest_eq]
        exact ⟨_, _, _, _, _, rfl, rfl, last_hushed⟩

theorem runAll_hushed (heedless : build.runner.Heedless) (targets : List Target)
    (hushed : Hushed shell world other) :
    Agree shell (build.runAll targets world) ((build.hushed shell).runAll targets other) := by
  obtain ⟨results, succeeded, final, after, other_after, ran, other_ran, after_hushed⟩ :=
    runFrom_hushed heedless 0 .pending targets hushed
  rw [runAll, runAll, ran, other_ran]
  exact ⟨_, _, _, rfl, rfl, after_hushed⟩

end Build
end StagedBuild
