import StagedBuild.Proofs.Build.FirstFailure
import StagedBuild.Proofs.Process.Precedence

/-!
# The exit code of a run

The tools of a build are processes.  A run of it answers with zero exactly when every target was
attempted and completed; otherwise the first target that did not complete decides, by the status in
which its process ended if that is why it failed, and by no code of its own if it failed for
anything else.
-/

namespace StagedBuild

namespace ExitStatus

/-- The status can be that of a process: exit codes have eight bits, and signals have seven. -/
def IsReportable : ExitStatus → Prop
  | exited code => code ≤ 255
  | signalled signal _ => 1 ≤ signal ∧ signal ≤ 127

theorem code_le_of_isReportable {status : ExitStatus} (reportable : status.IsReportable) :
    status.code ≤ 255 := by
  cases status with
  | exited code => exact reportable
  | signalled signal _ => exact Nat.add_le_add_left reportable.2 128

end ExitStatus

namespace ProcessRunner

variable {runner : ProcessRunner} {tree : FileTree} {cwd : Location} {target : Target}
  {invocation : Invocation} {status : ExitStatus}

/-- What awaiting a process answers is a status that a process can have. -/
def Reports (runner : ProcessRunner) : Prop :=
  ∀ tree cwd command child left,
    runner.launcher.launch tree cwd command = .ok (child, left) →
      ∀ told status, child.wait told = .ok status → status.IsReportable

theorem code_of_decidingStatus? (reports : runner.Reports)
    (decides : runner.decidingStatus? tree cwd target invocation = some status) :
    1 ≤ status.code ∧ status.code ≤ 255 := by
  rw [decidingStatus?, Option.bind_eq_some_iff] at decides
  obtain ⟨launch, launched, decides⟩ := decides
  have ended : launch.awaited = .ok status ∧ status ≠ .exited 0 := by
    rw [Launch.decidingStatus?] at decides
    split at decides
    · contradiction
    · rename_i answer awaited
      rw [Option.ite_none_left_eq_some, not_or] at decides
      obtain ⟨⟨failed, -⟩, same⟩ := decides
      obtain rfl := Option.some.inj same
      exact ⟨awaited, failed⟩
  have reportable : status.IsReportable := by
    simp only [launch?, Option.bind_eq_bind, Option.bind_eq_some_iff] at launched
    obtain ⟨program, -, ⟨child, left⟩, answer, launch_eq⟩ := launched
    obtain rfl := Option.some.inj launch_eq
    cases started : runner.launcher.launch tree cwd
        ⟨program, invocation.args, invocation.cwd⟩ with
    | error error => simp [started, Except.toOption] at answer
    | ok pair =>
        rw [started] at answer
        obtain rfl := Option.some.inj answer
        exact reports _ _ _ _ _ started _ _ ended.1
  exact ⟨ExitStatus.code_pos ended.2, ExitStatus.code_le_of_isReportable reportable⟩

end ProcessRunner

/-- The runner whose tools are processes, which may depend on everything that happened before. -/
def Runner.ofProcesses (processes : World → ProcessRunner) : Runner where
  run world target invocation := (processes world).run world.tree world.cwd target invocation

namespace StagedArtifact

/-- An artifact that cannot be prepared is a failure of files. -/
theorem kind_of_prepare {platform : Platform} {outDir : Path} {target : Target}
    {world after : World} {error : BuildError}
    (refused : prepare platform outDir target world = (.error error, after)) :
    error.kind = .io := by
  rw [prepare] at refused
  simp only at refused
  repeat' split at refused
  all_goals
    obtain ⟨same, -⟩ := Prod.mk.inj refused
    cases same <;> rfl

/-- Files that cannot be moved into place are a failure of files. -/
theorem kind_of_promoteAll {artifact : StagedArtifact} {staged : List Path} {world after : World}
    {error : BuildError} (stopped : artifact.promoteAll staged world = (.error error, after)) :
    error.kind = .io := by
  induction staged generalizing world with
  | nil => simp [promoteAll] at stopped
  | cons path rest induction =>
      rw [promoteAll] at stopped
      split at stopped
      · exact induction stopped
      · rename_i problem middle moved
        obtain ⟨same, -⟩ := Prod.mk.inj stopped
        obtain rfl := Except.error.inj same
        rw [promote] at moved
        simp only at moved
        repeat' split at moved
        all_goals
          obtain ⟨same, -⟩ := Prod.mk.inj moved
          cases same <;> rfl

/-- An artifact that cannot be installed is a failure of files. -/
theorem kind_of_commit {artifact : StagedArtifact} {world after : World} {error : BuildError}
    (stopped : artifact.commit world = (.error error, after)) : error.kind = .io := by
  rw [commit] at stopped
  repeat' split at stopped
  all_goals
    obtain ⟨same, -⟩ := Prod.mk.inj stopped
    cases same
  · rfl
  · rfl
  · rename_i moved
    exact kind_of_promoteAll moved

end StagedArtifact

namespace Build

variable {build : Build} {processes : World → ProcessRunner} {turn : Turn}

/-- The process that runs the tool of a turn, if one is launched. -/
def process? (build : Build) (processes : World → ProcessRunner) (turn : Turn) : Option Launch :=
  (build.toolRun? turn.target turn.start).bind fun run =>
    (processes run.start).launch? run.start.tree run.start.cwd turn.target
      (build.invocation turn.target run.artifact)

/-- The status of the process that decides about a turn, if one does. -/
def exitStatus? (build : Build) (processes : World → ProcessRunner) (turn : Turn) :
    Option ExitStatus :=
  (build.process? processes turn).bind Launch.decidingStatus?

/--
The turn gets through: its tool exits with code zero, both streams are relayed, and what it has
staged is installed.
-/
def Completes (build : Build) (processes : World → ProcessRunner) (turn : Turn) : Prop :=
  (∃ launch, build.process? processes turn = some launch ∧ launch.IsClean) ∧
    ∃ run, build.toolRun? turn.target turn.start = some run ∧
      (run.artifact.commit run.left).1 = .ok ()

/-- Without a run of the tool there is a failure of files. -/
theorem resultOf_of_none (refused : build.toolRun? turn.target turn.start = none) :
    ∃ error, build.resultOf turn = .ofError turn.target error 0 ∧ error.kind = .io := by
  rw [toolRun?] at refused
  split at refused
  · rename_i error after prepared_eq
    exact ⟨error, by simp only [resultOf, attempt, prepared_eq],
      StagedArtifact.kind_of_prepare prepared_eq⟩
  · contradiction

section Run

variable {run : ToolRun} (ran : build.toolRun? turn.target turn.start = some run)

include ran

theorem process?_of_toolRun :
    build.process? processes turn =
      (processes run.start).launch? run.start.tree run.start.cwd turn.target
        (build.invocation turn.target run.artifact) := by
  rw [process?, ran, Option.bind_some]

theorem exitStatus?_of_toolRun :
    build.exitStatus? processes turn =
      (processes run.start).decidingStatus? run.start.tree run.start.cwd turn.target
        (build.invocation turn.target run.artifact) := by
  rw [exitStatus?, process?_of_toolRun ran, ProcessRunner.decidingStatus?]

/-- The result of a run of the tool is that of the failure that counts. -/
theorem result_of_toolRun (through : build.runner = .ofProcesses processes) :
    ∃ duration, run.report.result =
      ((processes run.start).failure? run.start.tree run.start.cwd turn.target
        (build.invocation turn.target run.artifact)).elim
          (.success turn.target duration) (.ofError turn.target · duration) := by
  obtain ⟨-, -, -, -, -, report_eq⟩ := toolRun_spec ran
  rw [report_eq, through]
  exact ⟨_, ProcessRunner.result_run _ _ _ _ _⟩

/-- The tool reports success exactly when its process ends cleanly. -/
theorem succeeded_of_toolRun (through : build.runner = .ofProcesses processes) :
    run.report.result.succeeded = true ↔
      ∃ launch, build.process? processes turn = some launch ∧ launch.IsClean := by
  obtain ⟨duration, result_eq⟩ := result_of_toolRun ran through
  rw [process?_of_toolRun ran, ← ProcessRunner.failure?_eq_none_iff, result_eq]
  cases (processes run.start).failure? run.start.tree run.start.cwd turn.target
      (build.invocation turn.target run.artifact) <;>
    simp [BuildResult.success, BuildResult.ofError]

end Run

/-- A turn fails unless it gets through. -/
theorem turnFails_eq_false_iff (through : build.runner = .ofProcesses processes) :
    build.turnFails turn = false ↔ build.Completes processes turn := by
  rw [turnFails, fails, Completes]
  cases ran : build.toolRun? turn.target turn.start with
  | none => simp
  | some run =>
      rw [← succeeded_of_toolRun ran through]
      cases committed : (run.artifact.commit run.left).1 <;>
        simp [committed, Except.isOk, Except.toBool]

/-- A turn that fails has the exit code of its process if that decides, and otherwise none. -/
theorem resultOf_of_fails (through : build.runner = .ofProcesses processes)
    (failed : build.turnFails turn = true) :
    ∃ error duration, build.resultOf turn = .ofError turn.target error duration ∧
      error.exitCode = (build.exitStatus? processes turn).elim BuildError.noExitCode
        fun status => status.code := by
  cases ran : build.toolRun? turn.target turn.start with
  | none =>
      obtain ⟨error, result_eq, kind_eq⟩ := resultOf_of_none ran
      refine ⟨error, 0, result_eq, ?_⟩
      rw [exitStatus?, process?, ran]
      exact ProcessRunner.exitCode_of_codeless (by simp [kind_eq, ProcessRunner.codelessKinds])
  | some run =>
      obtain ⟨duration, report_eq⟩ := result_of_toolRun ran through
      have attempted := attempt_of_toolRun ran
      rw [exitStatus?_of_toolRun ran]
      cases failure : (processes run.start).failure? run.start.tree run.start.cwd turn.target
          (build.invocation turn.target run.artifact) with
      | some error =>
          rw [failure, Option.elim_some] at report_eq
          refine ⟨error, duration, ?_, ?_⟩
          · rw [resultOf, attempted, report_eq]
            rfl
          · obtain ⟨undecided, codeless⟩ | ⟨status, decides, ended⟩ :=
              ProcessRunner.failure?_cases failure
            · rw [undecided]
              exact ProcessRunner.exitCode_of_codeless codeless
            · rw [decides]
              exact (ExitStatus.of_failure? ended).1
      | none =>
          rw [failure, Option.elim_none] at report_eq
          rw [ProcessRunner.decidingStatus?_of_failure?_none failure]
          rw [turnFails, fails, ran, Option.elim_some, report_eq] at failed
          rw [report_eq] at attempted
          rcases committed : run.artifact.commit run.left with ⟨outcome, after⟩
          rw [committed] at failed attempted
          cases outcome with
          | ok done => contradiction
          | error error =>
              refine ⟨error, duration, congrArg Prod.fst attempted, ?_⟩
              have kind_eq := StagedArtifact.kind_of_commit committed
              exact ProcessRunner.exitCode_of_codeless
                (by simp [kind_eq, ProcessRunner.codelessKinds])

theorem code_of_exitStatus? (reports : ∀ world, (processes world).Reports) {status : ExitStatus}
    (decides : build.exitStatus? processes turn = some status) :
    1 ≤ status.code ∧ status.code ≤ 255 := by
  cases ran : build.toolRun? turn.target turn.start with
  | none => simp [exitStatus?, process?, ran] at decides
  | some run =>
      rw [exitStatus?_of_toolRun ran] at decides
      exact ProcessRunner.code_of_decidingStatus? (reports _) decides

end Build

/-- A process can exit with the code of a failure whose exit code is that of a process, or one. -/
theorem BuildStatus.exitCode_of_failed? {status : BuildStatus} {result : BuildResult}
    {code? : Option ExitStatus} (failed : status.failed? = some result)
    (result_code : result.exitCode = code?.elim BuildError.noExitCode fun status => status.code)
    (in_range : ∀ status, code? = some status → 1 ≤ status.code ∧ status.code ≤ 255) :
    1 ≤ status.exitCode ∧ status.exitCode ≤ 255 ∧
      status.exitCode = code?.elim 1 fun status => (status.code : Int) := by
  have exitCode_eq : status.exitCode = code?.elim 1 fun status => (status.code : Int) := by
    rw [exitCode, failed]
    simp only [result_code]
    cases code? with
    | none => rfl
    | some ended =>
        obtain ⟨positive, small⟩ := in_range ended rfl
        exact if_pos ⟨Int.ofNat_le.mpr positive, Int.ofNat_le.mpr small⟩
  rw [exitCode_eq]
  cases code? with
  | none => decide
  | some ended =>
      obtain ⟨positive, small⟩ := in_range ended rfl
      exact ⟨Int.ofNat_le.mpr positive, Int.ofNat_le.mpr small, rfl⟩

namespace Build

variable {build : Build} {processes : World → ProcessRunner}

/-- How a run can end: with all targets completed, or with the first turn that did not complete. -/
theorem runAll_outcome (through : build.runner = .ofProcesses processes)
    (reports : ∀ world, (processes world).Reports) (targets : List Target) (world : World) :
    let turns := build.taken (build.turns targets world)
    let status := (build.runAll targets world).1
    (turns.map Turn.target = targets ∧ (∀ turn ∈ turns, build.Completes processes turn) ∧
        status.failed? = none ∧ status.results.length = targets.length) ∨
      ∃ before last error duration, turns = before ++ [last] ∧
        (∀ turn ∈ before, build.Completes processes turn) ∧ ¬build.Completes processes last ∧
        status.failed? = some (.ofError last.target error duration) ∧
        1 ≤ status.exitCode ∧ status.exitCode ≤ 255 ∧
        status.exitCode =
          (build.exitStatus? processes last).elim 1 fun status => (status.code : Int) := by
  intro turns status
  rcases ran : build.runFrom 0 .pending targets world with ⟨results, succeeded, state, after⟩
  have results_eq : results = turns.map build.resultOf :=
    (@runFrom_spec build 0 targets world after results succeeded state ran).1
  have status_eq : status = ⟨succeeded, results, state⟩ := by
    change (build.runAll targets world).1 = _
    rw [runAll, ran]
  cases found : (build.turns targets world).findIdx? build.turnFails with
  | none =>
      obtain ⟨length_eq, -, no_failure⟩ := results_of_success found
      have all_taken : turns = build.turns targets world := by
        change build.taken _ = _
        rw [taken, found]
      have all_targets : turns.map Turn.target = targets := by
        rw [all_taken]
        exact build.targets_turnsFrom 0 targets world
      refine .inl ⟨all_targets, fun turn member => ?_, ?_, ?_⟩
      · exact (turnFails_eq_false_iff through).mp
          (List.findIdx?_eq_none_iff.mp found turn (all_taken ▸ member))
      · rw [status_eq, BuildStatus.failed?, results_eq]
        exact no_failure
      · rw [status_eq, results_eq, List.length_map, ← all_targets, List.length_map]
  | some first =>
      obtain ⟨before, last, taken_eq, before_length, last_fails, before_succeed⟩ :=
        taken_of_findIdx? found
      obtain ⟨-, -, result, at_first, -, failed⟩ := results_of_failure found
      have last_result : result = build.resultOf last := by
        rw [taken_eq, ← before_length] at at_first
        simpa using at_first.symm
      obtain ⟨error, duration, error_eq, code_eq⟩ := resultOf_of_fails through last_fails
      have failed? : status.failed? = some (.ofError last.target error duration) := by
        rw [status_eq, BuildStatus.failed?, results_eq, ← error_eq, ← last_result]
        exact failed
      refine .inr ⟨before, last, error, duration, taken_eq, fun turn member => ?_, ?_, failed?, ?_⟩
      · exact (turnFails_eq_false_iff through).mp (before_succeed turn member)
      · rw [← turnFails_eq_false_iff through, last_fails]
        exact Bool.noConfusion
      · exact BuildStatus.exitCode_of_failed? failed? code_eq fun _ => code_of_exitStatus? reports

end Build
end StagedBuild
