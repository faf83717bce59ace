import StagedBuild.Proofs.Build.Attempt
import StagedBuild.Proofs.Build.Upkeep

/-!
# Milestones of a run

The milestones of a run are its changes of state, the announcements of artifacts, the calls of the
runner and the results.  What the build does by itself around an artifact leaves none, and neither
do the tool and the observer, so an attempt leaves those of its one run of the tool.
-/

namespace StagedBuild

/-- The event is a change of state, an announcement, a call of the runner or a result. -/
def Event.isMilestone : Event → Bool
  | .state _ _ | .started _ _ | .called _ _ | .finished _ => true
  | _ => false

theorem filter_isMilestone_status (lines : List StatusLine) :
    (lines.map Event.status).filter Event.isMilestone = [] := by
  simp [List.filter_eq_nil_iff, Event.isMilestone]

theorem filter_isMilestone_tool (events : List ToolEvent) :
    (events.map Event.tool).filter Event.isMilestone = [] := by
  simp [List.filter_eq_nil_iff, Event.isMilestone]

namespace World

/-- The milestones so far, in order. -/
def milestones (world : World) : List Event :=
  world.trace.filter Event.isMilestone

theorem milestones_emit (world : World) (events : List Event) :
    (world.emit events).milestones = world.milestones ++ events.filter Event.isMilestone := by
  simp [milestones, emit]

theorem Chores.milestones {allowed : Change → Prop} {world after : World}
    (chores : Chores allowed world after) : after.milestones = world.milestones := by
  obtain ⟨-, events, trace_eq, recorded⟩ := chores.recorded
  have none_left : events.filter Event.isMilestone = [] := by
    rw [List.filter_eq_nil_iff]
    intro event member
    rcases recorded event member with quiet | ⟨change, -, rfl⟩
    · cases event <;> simp_all [Event.isRemark, Event.isMilestone]
    · simp [Event.isMilestone]
  rw [World.milestones, trace_eq, List.filter_append, none_left, List.append_nil, World.milestones]

end World

namespace Build

variable {build : Build} {target : Target} {world : World}

/-- The milestones of an attempt: an announcement and a call, or none if nothing is prepared. -/
def announced (build : Build) (target : Target) (world : World) : List Event :=
  (build.toolRun? target world).elim [] fun run =>
    [.started target run.artifact.path, .called target (build.invocation target run.artifact)]

theorem milestones_left {run : ToolRun} (ran : build.toolRun? target world = some run) :
    run.left.milestones = world.milestones ++ build.announced target world := by
  have prepared :=
    (StagedArtifact.chores_prepare build.platform build.outDir target world).milestones
  rw [announced, ran, Option.elim_some]
  rw [toolRun?] at ran
  split at ran
  · simp at ran
  · rename_i artifact middle prepared_eq
    obtain rfl := Option.some.inj ran
    rw [prepared_eq] at prepared
    have start : (build.toolRun target artifact middle).start.milestones = world.milestones ++
        [.started target artifact.path,
          .called target (build.invocation target artifact)] := by
      simp only [toolRun]
      rw [World.milestones_emit, World.milestones_emit, prepared,
        List.filter_cons_of_pos (by rfl), filter_isMilestone_status, List.append_assoc]
      rfl
    rw [ToolRun.left, World.milestones_emit, filter_isMilestone_tool, List.append_nil]
    exact start

theorem milestones_transition (before after : BuildState) (world : World) :
    (transition before after world).milestones = world.milestones ++ [.state before after] := by
  rw [transition, World.milestones_emit]
  rfl

theorem milestones_attempt (build : Build) (target : Target) (world : World) :
    (build.attempt target world).2.milestones =
      world.milestones ++ build.announced target world := by
  cases ran : build.toolRun? target world with
  | none =>
      obtain ⟨error, refused⟩ := attempt_of_none ran
      rw [refused, announced, ran, Option.elim_none, List.append_nil]
      exact (StagedArtifact.chores_prepare build.platform build.outDir target world).milestones
  | some run =>
      rw [← milestones_left ran, world_attempt_of_toolRun ran]
      split
      · exact (run.artifact.chores_commit run.left).milestones
      · exact (run.artifact.chores_discard run.left).milestones

end Build
end StagedBuild
