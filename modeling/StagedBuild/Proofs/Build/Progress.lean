import StagedBuild.Proofs.Build.FirstFailure

/-!
# What a build shows

Status lines come from the observer alone: preparing, committing and discarding an artifact show
nothing, and neither does the tool.  A run therefore shows the lines of the turns that it takes, one
turn after the other.
-/

namespace StagedBuild

/-- The status line that an event shows. -/
def Event.statusLine? : Event → Option StatusLine
  | .status line => some line
  | _ => none

theorem filterMap_statusLine?_status (lines : List StatusLine) :
    (lines.map Event.status).filterMap Event.statusLine? = lines := by
  rw [List.filterMap_map]
  exact List.filterMap_some

theorem filterMap_statusLine?_tool (events : List ToolEvent) :
    (events.map Event.tool).filterMap Event.statusLine? = [] := by
  simp [List.filterMap_eq_nil_iff, Event.statusLine?]

namespace World

variable {path : Path}

/-- The status lines so far, in order. -/
def statusLines (world : World) : List StatusLine :=
  world.trace.filterMap Event.statusLine?

theorem statusLines_emit (world : World) (events : List Event) :
    (world.emit events).statusLines =
      world.statusLines ++ events.filterMap Event.statusLine? := by
  simp [statusLines, emit]

theorem statusLines_change (world : World) (tree : FileTree) (changes : List Change) :
    (world.change tree changes).statusLines = world.statusLines := by
  simp [statusLines, change, List.filterMap_eq_nil_iff, Event.statusLine?]

theorem statusLines_ensureDirectory (world : World) (path : Path) :
    (world.ensureDirectory path).2.statusLines = world.statusLines :=
  world.statusLines_change _ _

theorem statusLines_removeFileIfExists (world : World) (path : Path) :
    (world.removeFileIfExists path).2.statusLines = world.statusLines := by
  rw [removeFileIfExists]
  split
  · exact world.statusLines_change _ _
  · split <;> rfl

theorem statusLines_moveFile (world : World) (source destination : Path) :
    (world.moveFile source destination).2.statusLines = world.statusLines := by
  rw [moveFile]
  split
  · exact world.statusLines_change _ _
  · rfl

end World

namespace StagedArtifact

theorem statusLines_prepare (platform : Platform) (outDir : Path) (target : Target)
    (world : World) : (prepare platform outDir target world).2.statusLines = world.statusLines := by
  rw [prepare]
  simp only
  split
  · rfl
  · split
    · rfl
    · rename_i absolute _
      have created := world.statusLines_ensureDirectory (stagingOf absolute)
      split
      · rename_i made
        rwa [made] at created
      · rename_i middle made
        rw [made] at created
        rw [← created]
        have removed := middle.statusLines_removeFileIfExists
          (locate platform absolute target).stagingPath
        split <;>
        · rename_i removed_eq
          rwa [removed_eq] at removed

variable (artifact : StagedArtifact)

theorem statusLines_promoteAll (staged : List Path) (world : World) :
    (artifact.promoteAll staged world).2.statusLines = world.statusLines := by
  induction staged generalizing world with
  | nil => rfl
  | cons path rest induction =>
      have moved : (artifact.promote path world).2.statusLines = world.statusLines := by
        rw [promote]
        split
        · rfl
        · rename_i name _
          have moved := world.statusLines_moveFile path (artifact.outDir.join name)
          simp only
          split <;>
          · rename_i moved_eq
            rwa [moved_eq] at moved
      rw [promoteAll]
      split
      · rename_i middle moved_eq
        rw [moved_eq] at moved
        exact (induction middle).trans moved
      · rename_i moved_eq
        rwa [moved_eq] at moved

theorem statusLines_commit (world : World) :
    (artifact.commit world).2.statusLines = world.statusLines := by
  rw [commit]
  split
  · rfl
  · split
    · rfl
    · rename_i companions _
      have moved := artifact.statusLines_promoteAll (companions ++ [artifact.stagingPath]) world
      split
      · rename_i moved_eq
        rw [moved_eq] at moved
        rw [World.debug, World.statusLines_emit, moved]
        exact List.append_nil _
      · rename_i moved_eq
        rwa [moved_eq] at moved

theorem statusLines_discard (world : World) :
    (artifact.discard world).statusLines = world.statusLines := by
  rw [discard]
  generalize (artifact.companions world.tree world.cwd).toOption.getD [] ++ [artifact.stagingPath]
    = leftovers
  induction leftovers generalizing world with
  | nil => rfl
  | cons path rest induction =>
      rw [List.foldl_cons, induction, discardOne]
      have removed := world.statusLines_removeFileIfExists path
      split
      · rename_i removed_eq
        rwa [removed_eq] at removed
      · rename_i removed_eq
        rw [removed_eq] at removed
        rw [World.statusLines_emit, removed]
        exact List.append_nil _

end StagedArtifact

namespace Build

variable {build : Build}

/-- What an attempt shows before the tool runs, if it gets there. -/
def opening (build : Build) (target : Target) (world : World) : List StatusLine :=
  (build.toolRun? target world).elim [] fun run =>
    build.observer.onStart target run.artifact.path

/-- What a turn shows. -/
def progressOf (build : Build) (turn : Turn) : List StatusLine :=
  build.opening turn.target turn.start ++ build.observer.onFinish (build.resultOf turn)

theorem statusLines_attempt (build : Build) (target : Target) (world : World) :
    (build.attempt target world).2.statusLines =
      world.statusLines ++ build.opening target world := by
  have prepared := StagedArtifact.statusLines_prepare build.platform build.outDir target world
  cases ran : build.toolRun? target world with
  | none =>
      obtain ⟨error, refused⟩ := attempt_of_none ran
      rw [refused, opening, ran, Option.elim_none, List.append_nil]
      exact prepared
  | some run =>
      have left : run.left.statusLines = world.statusLines ++ build.opening target world := by
        rw [opening, ran, Option.elim_some]
        rw [toolRun?] at ran
        split at ran
        · simp at ran
        · rename_i artifact middle prepared_eq
          obtain rfl := Option.some.inj ran
          rw [prepared_eq] at prepared
          have start : (build.toolRun target artifact middle).start.statusLines =
              world.statusLines ++ build.observer.onStart target artifact.path := by
            simp only [toolRun]
            rw [World.statusLines_emit, World.statusLines_emit, prepared,
              List.filterMap_cons_none rfl, filterMap_statusLine?_status]
            exact List.append_nil _
          rw [ToolRun.left, World.statusLines_emit, filterMap_statusLine?_tool, List.append_nil]
          exact start
      rw [← left, world_attempt_of_toolRun ran]
      split
      · exact run.artifact.statusLines_commit run.left
      · exact run.artifact.statusLines_discard run.left

theorem statusLines_transition (before after : BuildState) (world : World) :
    (transition before after world).statusLines = world.statusLines := by
  rw [transition, World.statusLines_emit]
  exact List.append_nil _

theorem statusLines_finish (build : Build) (index : Nat) (target : Target) (world : World) :
    (build.finish (Turn.next index target world)).statusLines =
      world.statusLines ++ build.progressOf (Turn.next index target world) := by
  rw [finish, World.statusLines_emit, statusLines_attempt, List.filterMap_cons_none rfl,
    filterMap_statusLine?_status, Turn.next, statusLines_transition, List.append_assoc]
  rfl

/-- A run that goes on at an index shows what its turns show, up to the first that fails. -/
theorem statusLines_runFrom (build : Build) (index : Nat) (targets : List Target) (world : World) :
    (build.runFrom index (.before index) targets world).2.2.2.statusLines =
      world.statusLines
        ++ (build.taken (build.turnsFrom index targets world)).flatMap build.progressOf := by
  induction targets generalizing index world with
  | nil =>
      rw [runFrom, statusLines_transition]
      exact (List.append_nil _).symm
  | cons target rest induction =>
      have finished := build.statusLines_finish index target world
      rw [turnsFrom]
      cases failed : build.turnFails (Turn.next index target world) with
      | true =>
          rw [runFrom_cons_of_fails failed, taken_cons_of_fails failed, statusLines_transition,
            finished, List.flatMap_singleton]
      | false =>
          rw [runFrom_cons_of_succeeds failed, taken_cons_of_succeeds failed, induction, finished,
            List.flatMap_cons, List.append_assoc]

/-- A run shows what its turns show. -/
theorem statusLines_runAll (build : Build) (targets : List Target) (world : World) :
    (build.runAll targets world).2.statusLines =
      world.statusLines ++ (build.taken (build.turns targets world)).flatMap build.progressOf :=
  build.statusLines_runFrom 0 targets world

end Build
end StagedBuild
