import StagedBuild.Proofs.Build.FirstFailure
import StagedBuild.Proofs.Path.Absolute

/-!
# What a plan says about a run

A run makes its output directory absolute before it tells a tool where to write, and a plan does
not.  So the invocations of a run are those that the build with the absolute output directory plans,
up to the first failure, and they are the planned ones exactly when the output directory is settled.
-/

namespace StagedBuild

/-- The invocation that the runner was asked for. -/
def Event.invocation? : Event → Option Invocation
  | .called _ invocation => some invocation
  | _ => none

/-- The invocations that the runner was asked for so far, in order. -/
def World.calls (world : World) : List Invocation :=
  world.trace.filterMap Event.invocation?

theorem World.calls_eq_milestones (world : World) :
    world.calls = world.milestones.filterMap Event.invocation? := by
  rw [calls, milestones, List.filterMap_filter]
  congr 1
  funext event
  cases event <;> rfl

namespace Build

variable {build : Build} {target : Target} {world : World}

/-- The same build with its output directory made absolute. -/
def resolved (build : Build) (world : World) : Build :=
  { build with outDir := world.resolve build.outDir }

/-- The invocation of a turn, unless the artifact cannot be prepared. -/
def invocationOf? (build : Build) (turn : Turn) : Option Invocation :=
  (build.toolRun? turn.target turn.start).map fun run => build.invocation turn.target run.artifact

theorem resolved_of_cwd {after : World} (same : after.cwd = world.cwd) :
    build.resolved after = build.resolved world := by
  rw [resolved, resolved, resolve_of_cwd same]

theorem plan_resolved_cons {run : ToolRun} {rest : List Target}
    (ran : build.toolRun? target world = some run) :
    (build.resolved world).plan (target :: rest) =
      build.invocation target run.artifact :: (build.resolved world).plan rest := by
  rw [(toolRun_spec ran).1]
  rfl

theorem filterMap_milestonesOf (build : Build) (turns : List Turn) :
    (turns.flatMap build.milestonesOf).filterMap Event.invocation? =
      turns.filterMap build.invocationOf? := by
  induction turns with
  | nil => rfl
  | cons turn turns induction =>
      rw [List.flatMap_cons, List.filterMap_append, induction, milestonesOf, announced]
      cases ran : build.toolRun? turn.target turn.start with
      | none => simp [invocationOf?, ran, Event.invocation?]
      | some run =>
          rw [List.filterMap_cons_some (by rw [invocationOf?, ran]; rfl)]
          rfl

theorem calls_runAll (build : Build) (targets : List Target) (world : World) :
    (build.runAll targets world).2.calls = world.calls ++
      (build.taken (build.turns targets world)).filterMap build.invocationOf? := by
  obtain ⟨-, -, -, milestones⟩ := runFrom_spec (Prod.ext rfl (Prod.ext rfl (Prod.ext rfl rfl)) :
    build.runFrom 0 (.before 0) targets world = _)
  have after_eq : (build.runAll targets world).2 =
      (build.runFrom 0 (.before 0) targets world).2.2.2 := rfl
  rw [after_eq, World.calls_eq_milestones, milestones, World.calls_eq_milestones,
    List.filterMap_append, List.filterMap_append, filterMap_milestonesOf]
  simp [Event.invocation?, turns]

theorem taken_cons (build : Build) (turn : Turn) (turns : List Turn) :
    ∃ more, build.taken (turn :: turns) = turn :: more := by
  cases failed : build.turnFails turn with
  | true => exact ⟨[], taken_cons_of_fails failed⟩
  | false => exact ⟨_, taken_cons_of_succeeds failed⟩

/-- The turns taken make a beginning of the planned invocations, or all of them if none fails. -/
theorem invocations_taken {index : Nat} {targets : List Target} :
    (build.taken (build.turnsFrom index targets world)).filterMap build.invocationOf? <+:
        (build.resolved world).plan targets ∧
      ((build.turnsFrom index targets world).findIdx? build.turnFails = none →
        (build.taken (build.turnsFrom index targets world)).filterMap build.invocationOf? =
          (build.resolved world).plan targets) := by
  induction targets generalizing index world with
  | nil => exact ⟨List.prefix_rfl, fun _ => rfl⟩
  | cons target rest induction =>
      have planned : ∀ run, build.toolRun? target (Turn.next index target world).start = some run →
          build.invocationOf? (Turn.next index target world) =
              some (build.invocation target run.artifact) ∧
            (build.resolved world).plan (target :: rest) =
              build.invocation target run.artifact :: (build.resolved world).plan rest := by
        intro run ran
        refine ⟨congrArg (Option.map _) ran, ?_⟩
        exact @plan_resolved_cons build target (Turn.next index target world).start run rest ran
      rw [turnsFrom]
      cases failed : build.turnFails (Turn.next index target world) with
      | true =>
          rw [taken_cons_of_fails failed]
          refine ⟨?_, by simp [List.findIdx?_cons, failed]⟩
          cases ran : build.toolRun? target (Turn.next index target world).start with
          | none =>
              rw [List.filterMap_cons_none (by rw [invocationOf?]; exact congrArg (Option.map _) ran)]
              exact List.nil_prefix
          | some run =>
              obtain ⟨called, plan_eq⟩ := planned run ran
              rw [List.filterMap_cons_some called, plan_eq]
              exact List.prefix_append [_] _
      | false =>
          obtain ⟨run, ran⟩ : ∃ run,
              build.toolRun? target (Turn.next index target world).start = some run := by
            cases ran : build.toolRun? target (Turn.next index target world).start with
            | none =>
                rw [turnFails, fails, Turn.next] at failed
                rw [Turn.next] at ran
                simp [ran] at failed
            | some run => exact ⟨run, rfl⟩
          obtain ⟨called, plan_eq⟩ := planned run ran
          have same_build : build.resolved (build.finish (Turn.next index target world)) =
              build.resolved world :=
            resolved_of_cwd (cwd_attempt build target _)
          obtain ⟨begins, whole⟩ := @induction (build.finish (Turn.next index target world))
            (index + 1)
          rw [same_build] at begins whole
          rw [taken_cons_of_succeeds failed, List.filterMap_cons_some called, plan_eq]
          refine ⟨List.cons_prefix_cons.mpr ⟨rfl, begins⟩, fun none_fails => ?_⟩
          rw [List.findIdx?_cons, failed] at none_fails
          rw [whole (by simpa using none_fails)]

theorem stagingOf_resolve_iff {absolute : Path}
    (absolute_eq : Path.absoluteFrom world.cwdPath build.outDir = .ok absolute) :
    StagedArtifact.stagingOf (world.resolve build.outDir) =
        StagedArtifact.stagingOf build.outDir ↔ build.outDir.isSettled = true := by
  have resolved_eq : world.resolve build.outDir = absolute := by
    rw [World.resolve, absolute_eq]
  rw [resolved_eq]
  exact Path.join_absoluteFrom_eq_iff world.isAbsolute_cwdPath
    StagedArtifact.isName_stagingName.not_isAbsolute absolute_eq

theorem absolute_of_toolRun {run : ToolRun} (ran : build.toolRun? target world = some run) :
    ∃ absolute, Path.absoluteFrom world.cwdPath build.outDir = .ok absolute := by
  cases absolute_eq : Path.absoluteFrom world.cwdPath build.outDir with
  | ok absolute => exact ⟨absolute, rfl⟩
  | error error =>
      exfalso
      rw [toolRun?, StagedArtifact.prepare] at ran
      simp only [absolute_eq] at ran
      split at ran
      · simp at ran
      · rename_i prepared
        split at prepared <;> simp at prepared

/-- The planned invocation is the one of the run exactly when the output directory is settled. -/
theorem invocation_eq_planned_iff {run : ToolRun}
    (ran : build.toolRun? target world = some run) :
    build.invocation target run.artifact =
        build.invocation target (StagedArtifact.locate build.platform build.outDir target) ↔
      build.outDir.isSettled = true := by
  obtain ⟨absolute, absolute_eq⟩ := absolute_of_toolRun ran
  obtain ⟨artifact_eq, plain, -⟩ := toolRun_spec ran
  obtain ⟨relative, -⟩ := Path.segments_of_isPlainName plain
  have staging_name := StagedArtifact.isName_stagingName
  rw [← stagingOf_resolve_iff absolute_eq, artifact_eq]
  constructor
  · intro same
    have outputs : (StagedArtifact.locate build.platform (world.resolve build.outDir)
        target).stagingPath.text =
        (StagedArtifact.locate build.platform build.outDir target).stagingPath.text := by
      have args := congrArg Invocation.args same
      simpa [invocation, Toolchain.invocation] using args
    have cuts := congrArg (fun text => (Path.mk text).segments) outputs
    simp only [StagedArtifact.locate] at cuts
    rw [Path.segments_join _ relative, Path.segments_join _ relative] at cuts
    have fronts := List.append_cancel_right cuts
    rw [StagedArtifact.stagingOf, StagedArtifact.stagingOf, Path.front_join_name _ staging_name,
      Path.front_join_name _ staging_name] at fronts
    apply Path.eq_of_segments
    rw [StagedArtifact.stagingOf, StagedArtifact.stagingOf,
      Path.segments_join_name _ staging_name, Path.segments_join_name _ staging_name, fronts]
  · intro same
    simp only [invocation, StagedArtifact.locate, same]

theorem plan_resolved_of_settled (settled : build.outDir.isSettled = true)
    (targets : List Target) : (build.resolved world).plan targets = build.plan targets := by
  obtain ⟨absolute, absolute_eq⟩ :
      ∃ absolute, Path.absoluteFrom world.cwdPath build.outDir = .ok absolute := by
    rw [Path.isSettled, Bool.and_eq_true] at settled
    rw [Path.absoluteFrom, if_neg]
    · exact ⟨_, rfl⟩
    · intro empty
      have starts := settled.1
      simp [Path.isAbsolute, eq_of_beq empty] at starts
  have same_staging := (stagingOf_resolve_iff absolute_eq).mpr settled
  rw [plan, plan]
  apply List.map_congr_left
  intro target _
  simp only [invocation, StagedArtifact.locate, resolved, same_staging, workingDir]

/-- The invocations of a run begin the plan exactly when there are none or the output directory is
settled. -/
theorem begins_plan_iff {index : Nat} {targets : List Target} :
    (build.taken (build.turnsFrom index targets world)).filterMap build.invocationOf? <+:
        build.plan targets ↔
      (build.taken (build.turnsFrom index targets world)).filterMap build.invocationOf? = [] ∨
        build.outDir.isSettled = true := by
  constructor
  · intro begins
    cases targets with
    | nil => exact Or.inl rfl
    | cons target rest =>
        rw [turnsFrom] at begins ⊢
        cases ran : build.toolRun? target (Turn.next index target world).start with
        | none =>
            have failed : build.turnFails (Turn.next index target world) = true := by
              rw [turnFails, fails, Turn.next]
              rw [Turn.next] at ran
              simp [ran]
            rw [taken_cons_of_fails failed]
            exact Or.inl (List.filterMap_cons_none (by rw [invocationOf?]; exact congrArg _ ran))
        | some run =>
            obtain ⟨more, taken_eq⟩ := build.taken_cons (Turn.next index target world)
              (build.turnsFrom (index + 1) rest (build.finish (Turn.next index target world)))
            have called : build.invocationOf? (Turn.next index target world) =
                some (build.invocation target run.artifact) := congrArg (Option.map _) ran
            rw [taken_eq, List.filterMap_cons_some called] at begins
            exact Or.inr ((invocation_eq_planned_iff ran).mp (List.cons_prefix_cons.mp begins).1)
  · rintro (nothing | settled)
    · rw [nothing]
      exact List.nil_prefix
    · rw [← plan_resolved_of_settled settled]
      exact invocations_taken.1

/--
The invocations of a run are the first ones, and after a success all, that the build with the
absolute output directory plans.  They are the first ones of the plan itself exactly when there are
none or the output directory is settled.
-/
theorem calls_begin_plan_iff_settled (build : Build) (targets : List Target) (world : World) :
    ∃ calls, (build.runAll targets world).2.calls = world.calls ++ calls ∧
      calls <+: (build.resolved world).plan targets ∧
      ((build.runAll targets world).1.succeeded = true →
        calls = (build.resolved world).plan targets) ∧
      (calls <+: build.plan targets ↔ calls = [] ∨ build.outDir.isSettled = true) ∧
      ((build.runAll targets world).1.succeeded = true →
        (calls = build.plan targets ↔ targets = [] ∨ build.outDir.isSettled = true)) := by
  obtain ⟨begins, whole⟩ := @invocations_taken build world 0 targets
  have begins_iff := @begins_plan_iff build world 0 targets
  have none_fails : (build.runAll targets world).1.succeeded = true →
      (build.turnsFrom 0 targets world).findIdx? build.turnFails = none := by
    intro succeeded
    obtain ⟨-, succeeded_eq, -, -⟩ := runFrom_spec (Prod.ext rfl (Prod.ext rfl (Prod.ext rfl rfl)) :
      build.runFrom 0 (.before 0) targets world = _)
    have same : (build.runFrom 0 (.before 0) targets world).2.1 = true := succeeded
    rw [succeeded_eq, Option.isNone_iff_eq_none] at same
    exact same
  refine ⟨_, calls_runAll build targets world, begins, fun succeeded => whole (none_fails succeeded),
    begins_iff, fun succeeded => ?_⟩
  have all_called := whole (none_fails succeeded)
  have planned_length : ∀ other : Build, (other.plan targets).length = targets.length :=
    fun other => List.length_map ..
  rw [all_called] at begins_iff
  rw [turns, all_called]
  constructor
  · intro planned
    rcases begins_iff.mp (planned ▸ List.prefix_rfl) with nothing | settled
    · left
      rw [← List.length_eq_zero_iff, ← planned_length (build.resolved world), nothing]
      rfl
    · exact Or.inr settled
  · rintro (rfl | settled)
    · rfl
    · exact plan_resolved_of_settled settled targets

/-- A build that installs into a directory of the project spelled with a `.` in front. -/
def dottedBuild : Build :=
  (ofRoot (Runner.writing [(["p", "out", ".kiln-staging", "app"], ⟨Utf8.encode "app", true⟩)] true)
    .unix ⟨"/p"⟩).withOutDir ⟨"./out"⟩

/-- The plan keeps the `.` that the run drops, although the run succeeds. -/
theorem dotted_plan_differs_from_run :
    World.project.calls = [] ∧
      (dottedBuild.runAll [.application] World.project).1.succeeded = true ∧
      (dottedBuild.runAll [.application] World.project).2.calls.map Invocation.args =
        [["build", ".", "-out:/p/out/.kiln-staging/app"]] ∧
      (dottedBuild.plan [.application]).map Invocation.args =
        [["build", ".", "-out:/p/./out/.kiln-staging/app"]] ∧
      ¬ (dottedBuild.runAll [.application] World.project).2.calls <+:
          dottedBuild.plan [.application] := by
  refine ⟨by decide +kernel, by decide +kernel, by decide +kernel, by decide +kernel, ?_⟩
  decide +kernel

end Build
end StagedBuild
