import StagedBuild.Proofs.Process.Account

/-!
# Which failure counts

Much can go wrong in one run of a tool, also several things at once.  The stages of a run are ranked:
the result is that of the first stage in this order that reports a failure, and success if none does.
The order is not that of time: the streams are read before the process is awaited, but an error of
waiting outranks a failed read, which outranks the exit status, which outranks a refused line.
-/

namespace StagedBuild

namespace ExitStatus

/-- The exit code that a shell shows for a process that ended in this way. -/
def code : ExitStatus → Nat
  | exited code => code
  | signalled signal _ => 128 + signal

/-- The kind of failure that an exit status stands for, when it is not success. -/
def kind : ExitStatus → FailureKind
  | exited _ => .toolExitedNonZero
  | signalled _ _ => .crashed

/-- Why a program that ended in this way has failed, if it has. -/
def failure? (program : String) : ExitStatus → Option BuildError
  | exited code => if code = 0 then none else some (.toolExitedNonZero program code)
  | signalled signal coreDumped =>
      some (.crashed program (ProcessRunner.signalCode signal)
        (ProcessRunner.signalDetail signal coreDumped))

theorem failure?_eq_none_iff {program : String} {status : ExitStatus} :
    status.failure? program = none ↔ status = .exited 0 := by
  cases status <;> simp [failure?]

theorem of_failure? {program : String} {status : ExitStatus} {error : BuildError}
    (failed : status.failure? program = some error) :
    error.exitCode = status.code ∧ error.kind = status.kind := by
  cases status with
  | exited code =>
      rw [failure?, Option.ite_none_left_eq_some] at failed
      obtain ⟨-, failed⟩ := failed
      obtain rfl := Option.some.inj failed
      exact ⟨rfl, rfl⟩
  | signalled signal coreDumped =>
      obtain rfl := Option.some.inj failed
      exact ⟨(Int.natCast_add 128 signal).symm, rfl⟩

theorem ne_zero_of_failure? {program : String} {status : ExitStatus} {error : BuildError}
    (failed : status.failure? program = some error) : status ≠ .exited 0 := by
  rintro rfl
  contradiction

theorem code_pos {status : ExitStatus} (failed : status ≠ .exited 0) : 0 < status.code := by
  cases status with
  | exited code =>
      apply Nat.pos_of_ne_zero
      rintro rfl
      exact failed rfl
  | signalled signal _ => exact Nat.lt_of_lt_of_le (by decide) (Nat.le_add_right 128 signal)

end ExitStatus

/-- The stages of a run of a tool that may report a failure. -/
inductive Stage where
  | resolving
  | launching
  | awaiting
  /-- A stream is read; a relay that breaks down counts as one that cannot read. -/
  | reading (stream : Stream)
  | ending
  | writing (stream : Stream)
  deriving DecidableEq, Repr

namespace Stage

/-- The stages that follow a launch, the one whose failure counts most first. -/
def afterLaunch : List Stage :=
  [.awaiting, .reading .stdout, .reading .stderr, .ending, .writing .stdout, .writing .stderr]

/-- All stages, the one whose failure counts most first. -/
def ranked : List Stage :=
  .resolving :: .launching :: afterLaunch

end Stage

namespace Launch

/-- How the relay of a stream ends. -/
def ended (launch : Launch) (stream : Stream) : RelayOutcome :=
  (Relay.run launch.sink stream (launch.child.pipe? stream)).2

/-- What awaiting the process answers; it was told to stop if a stream could not be read. -/
def awaited (launch : Launch) : Except IoError ExitStatus :=
  launch.child.wait
    (ProcessRunner.readFailure? (launch.ended .stdout) (launch.ended .stderr)).isSome

/-- The failure of the launched program that a stage reports. -/
def failureAt (launch : Launch) (program : String) : Stage → Option BuildError
  | .resolving | .launching => none
  | .awaiting =>
      match launch.awaited with
      | .error error => some (.io ("failed to wait for `" ++ program ++ "`") error)
      | .ok _ => none
  | .reading stream =>
      (launch.ended stream).readFailure?.map (ProcessRunner.readError program stream)
  | .ending => launch.awaited.toOption.bind (ExitStatus.failure? program)
  | .writing stream =>
      (launch.ended stream).writeFailure?.map (ProcessRunner.writeError program stream)

/-- The failure that counts among those of the launched program. -/
def failure? (launch : Launch) (program : String) : Option BuildError :=
  Stage.afterLaunch.findSome? (launch.failureAt program)

/-- The process ended regularly with exit code zero, and both of its streams were relayed. -/
def IsClean (launch : Launch) : Prop :=
  launch.awaited = .ok (.exited 0) ∧ ∀ stream, launch.ended stream = .completed

/--
The exit status that decides about the process: it is known and stands for a failure, and both
streams could be read.
-/
def decidingStatus? (launch : Launch) : Option ExitStatus :=
  match launch.awaited with
  | .error _ => none
  | .ok status =>
      if status = .exited 0
          ∨ (ProcessRunner.readFailure? (launch.ended .stdout) (launch.ended .stderr)).isSome then
        none
      else some status

end Launch

namespace RelayOutcome

theorem eq_completed_iff {outcome : RelayOutcome} :
    outcome = .completed ↔ outcome.readFailure? = none ∧ outcome.writeFailure? = none := by
  cases outcome <;> simp [readFailure?, writeFailure?]

end RelayOutcome

namespace ProcessRunner

variable {runner : ProcessRunner} {tree : FileTree} {cwd : Location} {target : Target}
  {invocation : Invocation} {launch : Launch} {program : String}

/-- The program that a tool is found to be. -/
def program? (runner : ProcessRunner) (tree : FileTree) (cwd : Location)
    (invocation : Invocation) : Option Path :=
  Tool.resolve runner.searchPath tree cwd invocation.program invocation.cwd

/-- The error in which the launch of the program ends, if it was found and could not be started. -/
def launchError? (runner : ProcessRunner) (tree : FileTree) (cwd : Location)
    (invocation : Invocation) : Option IoError := do
  let program ← runner.program? tree cwd invocation
  match runner.launcher.launch tree cwd ⟨program, invocation.args, invocation.cwd⟩ with
  | .error error => some error
  | .ok _ => none

/-- The failure that a stage reports, where the run of the tool gets to it. -/
def failureAt (runner : ProcessRunner) (tree : FileTree) (cwd : Location) (target : Target)
    (invocation : Invocation) : Stage → Option BuildError
  | .resolving =>
      if (runner.program? tree cwd invocation).isNone then some (.toolNotFound invocation.program)
      else none
  | .launching =>
      (runner.launchError? tree cwd invocation).map (.spawnFailed invocation.program)
  | stage =>
      (runner.launch? tree cwd target invocation).bind fun launch =>
        launch.failureAt invocation.program stage

/-- The failure that counts. -/
def failure? (runner : ProcessRunner) (tree : FileTree) (cwd : Location) (target : Target)
    (invocation : Invocation) : Option BuildError :=
  Stage.ranked.findSome? (runner.failureAt tree cwd target invocation)

/-- The exit status that decides about the run of a tool, if one does. -/
def decidingStatus? (runner : ProcessRunner) (tree : FileTree) (cwd : Location) (target : Target)
    (invocation : Invocation) : Option ExitStatus :=
  (runner.launch? tree cwd target invocation).bind Launch.decidingStatus?

/-- An outcome as the failure that it reports. -/
def outcomeOf : Option BuildError → Except BuildError Unit
  | some error => .error error
  | none => .ok ()

theorem map_readFailure? (program : String) (out err : RelayOutcome) :
    (readFailure? out err).map (fun item => readError program item.1 item.2) =
      (out.readFailure?.map (readError program .stdout)).or
        (err.readFailure?.map (readError program .stderr)) := by
  unfold readFailure?
  cases out.readFailure? <;> cases err.readFailure? <;> rfl

theorem map_writeFailure? (program : String) (out err : RelayOutcome) :
    (writeFailure? out err).map (fun item => writeError program item.1 item.2) =
      (out.writeFailure?.map (writeError program .stdout)).or
        (err.writeFailure?.map (writeError program .stderr)) := by
  unfold writeFailure?
  cases out.writeFailure? <;> cases err.writeFailure? <;> rfl

/-- The failure that counts is the first of these, of which two stand for both streams. -/
theorem failure?_eq_or (launch : Launch) (program : String) :
    launch.failure? program =
      (launch.failureAt program .awaiting).or
        (((readFailure? (launch.ended .stdout) (launch.ended .stderr)).map
            fun item => readError program item.1 item.2).or
          ((launch.failureAt program .ending).or
            ((writeFailure? (launch.ended .stdout) (launch.ended .stderr)).map
              fun item => writeError program item.1 item.2))) := by
  have first_of : ∀ (stage : Stage) (rest : List Stage),
      (stage :: rest).findSome? (launch.failureAt program) =
        (launch.failureAt program stage).or (rest.findSome? (launch.failureAt program)) := by
    intro stage rest
    rw [List.findSome?_cons]
    cases launch.failureAt program stage <;> rfl
  rw [map_readFailure?, map_writeFailure?, Launch.failure?, Stage.afterLaunch]
  simp only [first_of, List.findSome?_nil, Option.or_none, Option.or_assoc]
  rfl

/-- What is concluded about a launched process is the failure that counts. -/
theorem conclude_eq_outcomeOf (launch : Launch) (program : String) :
    conclude program (launch.ended .stdout) (launch.ended .stderr) launch.awaited =
      outcomeOf (launch.failure? program) := by
  rw [failure?_eq_or, Launch.failureAt, Launch.failureAt]
  unfold conclude
  cases launch.awaited with
  | error error => rfl
  | ok status =>
      cases readFailure? (launch.ended .stdout) (launch.ended .stderr) with
      | some failure => rfl
      | none =>
          cases status with
          | signalled signal coreDumped => rfl
          | exited code =>
              cases code with
              | succ code => rfl
              | zero =>
                  cases writeFailure? (launch.ended .stdout) (launch.ended .stderr) <;> rfl

section Answers

variable {path : Path}

section NotFound

variable (absent : runner.program? tree cwd invocation = none)

include absent

theorem launch?_of_not_found : runner.launch? tree cwd target invocation = none := by
  rw [launch?, ← program?, absent]
  rfl

theorem failure?_of_not_found :
    runner.failure? tree cwd target invocation = some (.toolNotFound invocation.program) := by
  rw [failure?, Stage.ranked, List.findSome?_cons, failureAt, absent]
  rfl

end NotFound

variable (found : runner.program? tree cwd invocation = some path)

include found

section NotStarted

variable {error : IoError}
  (refused : runner.launcher.launch tree cwd ⟨path, invocation.args, invocation.cwd⟩ =
    .error error)

include refused

theorem launch?_of_not_started : runner.launch? tree cwd target invocation = none := by
  rw [launch?, ← program?, found]
  simp only [Option.bind_eq_bind, Option.bind_some, refused]
  rfl

theorem failure?_of_not_started :
    runner.failure? tree cwd target invocation =
      some (.spawnFailed invocation.program error) := by
  have launch_error : runner.launchError? tree cwd invocation = some error := by
    rw [launchError?, found]
    simp only [Option.bind_eq_bind, Option.bind_some, refused]
  rw [failure?, Stage.ranked, List.findSome?_cons, List.findSome?_cons, failureAt, failureAt, found,
    launch_error]
  rfl

end NotStarted

variable {child : Child} {left : FileTree}
  (started : runner.launcher.launch tree cwd ⟨path, invocation.args, invocation.cwd⟩ =
    .ok (child, left))

include started

theorem failure?_of_started :
    runner.failure? tree cwd target invocation =
      Launch.failure? ⟨target, runner.sink, child⟩ invocation.program := by
  have launched : runner.launch? tree cwd target invocation = some ⟨target, runner.sink, child⟩ :=
    launch?_of_started found started
  have no_launch_error : runner.launchError? tree cwd invocation = none := by
    rw [launchError?, found]
    simp only [Option.bind_eq_bind, Option.bind_some, started]
  rw [failure?, Stage.ranked, List.findSome?_cons, List.findSome?_cons, failureAt, failureAt, found,
    no_launch_error, Launch.failure?, Stage.afterLaunch]
  simp only [List.findSome?_cons, failureAt, launched, Option.bind_some]
  rfl

end Answers

/-- What a run of a tool comes to is the failure that counts. -/
theorem outcome_execute (runner : ProcessRunner) (tree : FileTree) (cwd : Location)
    (target : Target) (invocation : Invocation) :
    (runner.execute tree cwd invocation).outcome =
      outcomeOf (runner.failure? tree cwd target invocation) := by
  rw [execute, ← program?]
  cases found : runner.program? tree cwd invocation with
  | none => rw [failure?_of_not_found found]; rfl
  | some path =>
      cases started : runner.launcher.launch tree cwd
          ⟨path, invocation.args, invocation.cwd⟩ with
      | error error =>
          rw [failure?_of_not_started found started]
          simp only [started, outcomeOf]
      | ok pair =>
          rw [failure?_of_started found started, ← conclude_eq_outcomeOf]
          simp only [started]
          rfl

/-- The result of a run of a tool is that of the failure that counts. -/
theorem result_run (runner : ProcessRunner) (tree : FileTree) (cwd : Location) (target : Target)
    (invocation : Invocation) :
    (runner.run tree cwd target invocation).result =
      (runner.failure? tree cwd target invocation).elim
        (.success target (runner.execute tree cwd invocation).milliseconds)
        (.ofError target · (runner.execute tree cwd invocation).milliseconds) := by
  have decided := runner.outcome_execute tree cwd target invocation
  rw [run]
  cases failed : runner.failure? tree cwd target invocation with
  | none =>
      rw [failed, outcomeOf] at decided
      simp only [decided, Option.elim_none]
  | some error =>
      rw [failed, outcomeOf] at decided
      simp only [decided, Option.elim_some]

/-- A process has no failure exactly when it ended cleanly. -/
theorem launch_failure?_eq_none_iff : launch.failure? program = none ↔ launch.IsClean := by
  rw [Launch.failure?, List.findSome?_eq_none_iff, Launch.IsClean]
  constructor
  · intro silent
    constructor
    · have waits := silent .awaiting (by decide)
      have ends := silent .ending (by decide)
      simp only [Launch.failureAt] at waits ends
      cases awaited : launch.awaited with
      | error error => simp [awaited] at waits
      | ok status =>
          rw [awaited] at ends
          exact congrArg Except.ok (ExitStatus.failure?_eq_none_iff.mp ends)
    · intro stream
      have reads := silent (.reading stream) (by cases stream <;> decide)
      have writes := silent (.writing stream) (by cases stream <;> decide)
      simp only [Launch.failureAt, Option.map_eq_none_iff] at reads writes
      exact RelayOutcome.eq_completed_iff.mpr ⟨reads, writes⟩
  · rintro ⟨ended, relayed⟩ stage -
    cases stage with
    | resolving | launching => rfl
    | awaiting => simp only [Launch.failureAt, ended]
    | ending => simp only [Launch.failureAt, ended]; rfl
    | reading stream | writing stream => simp only [Launch.failureAt, relayed stream]; rfl

/-- A failure of a process is one around it, unless an exit status decides. -/
theorem launch_failure?_cases {error : BuildError} (failed : launch.failure? program = some error) :
    launch.decidingStatus? = none ∧ error.kind = .io ∨
      ∃ status, launch.decidingStatus? = some status ∧ status.failure? program = some error := by
  rw [failure?_eq_or] at failed
  simp only [Launch.failureAt] at failed
  rw [Launch.decidingStatus?]
  cases awaited : launch.awaited with
  | error problem =>
      rw [awaited] at failed
      obtain rfl := Option.some.inj failed
      exact .inl ⟨rfl, rfl⟩
  | ok status =>
      rw [awaited] at failed
      cases unread : readFailure? (launch.ended .stdout) (launch.ended .stderr) with
      | some item =>
          rw [unread] at failed
          obtain rfl := Option.some.inj failed
          exact .inl ⟨by simp, rfl⟩
      | none =>
          rw [unread] at failed
          cases ended : status.failure? program with
          | some reason =>
              have decides : status ≠ .exited 0 := ExitStatus.ne_zero_of_failure? ended
              have same : some reason = some error := by simpa [Except.toOption, ended] using failed
              exact .inr ⟨status, by simp [decides], ended.trans same⟩
          | none =>
              have zero : status = .exited 0 := ExitStatus.failure?_eq_none_iff.mp ended
              have unwritten : ∃ item : Stream × IoError, writeError program item.1 item.2 = error := by
                simp only [Except.toOption, Option.bind_some, ended, Option.map_none,
                  Option.none_or, Option.map_eq_some_iff] at failed
                obtain ⟨item, -, error_eq⟩ := failed
                exact ⟨item, error_eq⟩
              obtain ⟨item, rfl⟩ := unwritten
              exact .inl ⟨by simp [zero], rfl⟩

/-- The kinds of failures for which there is no exit code. -/
def codelessKinds : List FailureKind :=
  [.toolNotFound, .spawnFailed, .io]

theorem exitCode_of_codeless {error : BuildError} (codeless : error.kind ∈ codelessKinds) :
    error.exitCode = BuildError.noExitCode := by
  cases error with
  | toolNotFound | spawnFailed | io => rfl
  | toolExitedNonZero | crashed => simp [codelessKinds, BuildError.kind] at codeless

/-- A failure is one of a kind without an exit code, unless an exit status decides. -/
theorem failure?_cases {error : BuildError}
    (failed : runner.failure? tree cwd target invocation = some error) :
    runner.decidingStatus? tree cwd target invocation = none ∧ error.kind ∈ codelessKinds ∨
      ∃ status, runner.decidingStatus? tree cwd target invocation = some status ∧
        status.failure? invocation.program = some error := by
  rw [decidingStatus?]
  cases found : runner.program? tree cwd invocation with
  | none =>
      rw [failure?_of_not_found found] at failed
      obtain rfl := Option.some.inj failed
      exact .inl ⟨by rw [launch?_of_not_found found, Option.bind_none],
        by simp [codelessKinds, BuildError.kind]⟩
  | some path =>
      cases started : runner.launcher.launch tree cwd
          ⟨path, invocation.args, invocation.cwd⟩ with
      | error problem =>
          rw [failure?_of_not_started found started] at failed
          obtain rfl := Option.some.inj failed
          exact .inl ⟨by rw [launch?_of_not_started found started, Option.bind_none],
            by simp [codelessKinds, BuildError.kind]⟩
      | ok pair =>
          rw [failure?_of_started found started] at failed
          rw [launch?_of_started found started, Option.bind_some]
          refine (launch_failure?_cases failed).imp_left fun around => ⟨around.1, ?_⟩
          simp [codelessKinds, around.2]

/-- Nothing fails exactly when a process is launched and ends cleanly. -/
theorem failure?_eq_none_iff :
    runner.failure? tree cwd target invocation = none ↔
      ∃ launch, runner.launch? tree cwd target invocation = some launch ∧ launch.IsClean := by
  cases found : runner.program? tree cwd invocation with
  | none => simp [failure?_of_not_found found, launch?_of_not_found found]
  | some path =>
      cases started : runner.launcher.launch tree cwd
          ⟨path, invocation.args, invocation.cwd⟩ with
      | error problem =>
          simp [failure?_of_not_started found started, launch?_of_not_started found started]
      | ok pair =>
          rw [failure?_of_started found started, launch?_of_started found started,
            launch_failure?_eq_none_iff]
          simp

theorem decidingStatus?_of_failure?_none
    (clean : runner.failure? tree cwd target invocation = none) :
    runner.decidingStatus? tree cwd target invocation = none := by
  obtain ⟨launch, launched, ended, -⟩ := failure?_eq_none_iff.mp clean
  simp [decidingStatus?, launched, Launch.decidingStatus?, ended]

/--
The first failure in the order of rank decides about the result of a run, and there is no failure
exactly when a process was launched and ended cleanly.  Success, no failure and exit code zero are
the same; an exit status that decides gives the result its exit code and its kind, and the code that
stands for none belongs to the other kinds of failures.
-/
theorem run_decided_by_rank (runner : ProcessRunner) (tree : FileTree) (cwd : Location)
    (target : Target) (invocation : Invocation) :
    let result := (runner.run tree cwd target invocation).result
    let duration := (runner.execute tree cwd invocation).milliseconds
    result =
        (match Stage.ranked.findSome? (runner.failureAt tree cwd target invocation) with
          | some error => .ofError target error duration
          | none => .success target duration) ∧
      (result.succeeded = true ↔ ∃ launch,
        runner.launch? tree cwd target invocation = some launch ∧ launch.IsClean) ∧
      (result.succeeded = true ↔ result.failure = none) ∧
      (result.succeeded = true ↔ result.exitCode = 0) ∧
      (∀ status, runner.decidingStatus? tree cwd target invocation = some status →
        result.exitCode = status.code ∧ result.kind? = some status.kind) ∧
      (result.exitCode = -1 ↔ ∃ kind ∈ codelessKinds, result.kind? = some kind) ∧
      result.target = target := by
  intro result duration
  have decided : result = (runner.failure? tree cwd target invocation).elim
      (.success target duration) (.ofError target · duration) :=
    runner.result_run tree cwd target invocation
  rw [← failure?_eq_none_iff, ← failure?]
  cases failed : runner.failure? tree cwd target invocation with
  | none =>
      rw [failed, Option.elim_none] at decided
      rw [decided, decidingStatus?_of_failure?_none failed]
      simp [BuildResult.success, BuildResult.kind?]
  | some error =>
      rw [failed, Option.elim_some] at decided
      rw [decided]
      obtain ⟨undecided, codeless⟩ | ⟨status, decides, ended⟩ := failure?_cases failed
      · rw [undecided]
        simp [BuildResult.ofError, BuildResult.kind?, exitCode_of_codeless codeless, codeless,
          BuildError.noExitCode]
      · obtain ⟨code_eq, kind_eq⟩ := ExitStatus.of_failure? ended
        have positive : 0 < status.code :=
          ExitStatus.code_pos (ExitStatus.ne_zero_of_failure? ended)
        have coded : status.kind ∉ codelessKinds := by
          cases status <;> simp [ExitStatus.kind, codelessKinds]
        rw [decides]
        refine ⟨rfl, by simp [BuildResult.ofError], by simp [BuildResult.ofError], ?_, ?_, ?_, rfl⟩
        · simp only [BuildResult.ofError, code_eq, Bool.false_eq_true, false_iff]
          omega
        · rintro _ ⟨⟩
          exact ⟨code_eq, congrArg some kind_eq⟩
        · simp only [BuildResult.ofError, BuildResult.kind?, code_eq, kind_eq, Option.map_some]
          constructor
          · omega
          · rintro ⟨kind, member, same⟩
            obtain rfl := Option.some.inj same
            exact absurd member coded

end ProcessRunner
end StagedBuild
