import StagedBuild.Proofs.Process.LineLoop
import StagedBuild.Proofs.Process.Precedence

/-!
# What is left of the cause of a failure

A stage fails on an error that the system raises, or the sink.  The failure of the stage that
decides carries this error, and the diagnostic ends in its text, unless the error was raised by
reading a stream: then its kind is all that is left, and the text is that of the kind.
-/

namespace StagedBuild

namespace Stage

/-- What a failure at a stage carries of the error that caused it. -/
def carried : Stage → IoError → IoError
  | .reading _, cause => .bare cause.kind
  | _, cause => cause

/-- The kind of a failure that is due to an error at a stage. -/
def failureKind (stage : Stage) : FailureKind :=
  if stage = .launching then .spawnFailed else .io

variable {stage : Stage} {cause : IoError}

theorem kind_carried (stage : Stage) (cause : IoError) :
    (stage.carried cause).kind = cause.kind := by
  cases stage <;> rfl

/-- An error is lost by reading, unless there is nothing to it but its kind. -/
theorem carried_eq_iff :
    stage.carried cause = cause ↔
      (∀ stream, stage ≠ .reading stream) ∨ ∃ kind, cause = .bare kind := by
  cases stage with
  | reading stream =>
      have reads : ¬ ∀ other, Stage.reading stream ≠ .reading other :=
        fun others => others stream rfl
      rw [or_iff_right reads]
      constructor
      · exact fun kept => ⟨cause.kind, kept.symm⟩
      · rintro ⟨kind, rfl⟩
        rfl
  | resolving | launching | awaiting | ending | writing => simp [carried]

end Stage

namespace BuildError

/-- The failure carries an error of the system, and its message ends in the text of this error. -/
def EndsIn (error : BuildError) (source : IoError) : Prop :=
  error.source? = some source ∧ ∃ context, error.message = context ++ ": " ++ source.message

theorem endsIn_io (context : String) (source : IoError) : (io context source).EndsIn source :=
  ⟨rfl, context, rfl⟩

theorem endsIn_spawnFailed (program : String) (source : IoError) :
    (spawnFailed program source).EndsIn source := by
  have mark : "`: " = "`" ++ ": " := by decide
  have whole : (spawnFailed program source).message =
      "failed to spawn `" ++ program ++ "`: " ++ source.message := rfl
  refine ⟨rfl, "failed to spawn `" ++ program ++ "`", ?_⟩
  rw [whole, mark, ← String.append_assoc]

end BuildError

namespace Launch

variable {launch : Launch} {program : String} {stage : Stage} {cause : IoError} {stream : Stream}

/-- The error in which the pipe of a stream ends. -/
def pipeFailure? (launch : Launch) (stream : Stream) : Option IoError :=
  (launch.child.pipe? stream).bind Pipe.failure

/-- How the sink answers the first line of a stream that it does not take. -/
def rejection? (launch : Launch) (stream : Stream) : Option SinkReply :=
  (launch.child.pipe? stream).bind fun pipe =>
    (launch.sink.replies stream pipe.lines)[launch.sink.patience stream pipe.lines]?

/-- The error that a stage raises, by the system or by the sink. -/
def raised? (launch : Launch) : Stage → Option IoError
  | .awaiting =>
      match launch.awaited with
      | .error error => some error
      | .ok _ => none
  | .reading stream =>
      if launch.rejection? stream = some .panicked then none else launch.pipeFailure? stream
  | .writing stream =>
      match launch.rejection? stream, launch.pipeFailure? stream with
      | some (.refused error), none => some error
      | _, _ => none
  | .resolving | .launching | .ending => none

/-- How a relay ends depends on the first line that is not taken, and on the end of the pipe. -/
theorem exists_relay (launch : Launch) (stream : Stream) :
    ∃ relay : Relay, launch.ended stream = relay.outcome (launch.pipeFailure? stream) ∧
      relay.stopped.map Prod.snd = launch.rejection? stream := by
  rw [ended, pipeFailure?, rejection?]
  cases launch.child.pipe? stream with
  | none => exact ⟨.fresh, rfl, rfl⟩
  | some pipe =>
      refine ⟨Relay.drain launch.sink stream pipe, rfl, ?_⟩
      obtain ⟨-, -, stopped⟩ :=
        @Relay.offerAll_spec launch.sink stream .fresh rfl Sink.takes_nil pipe.lines
      rw [← Pipe.settled_drain launch.sink stream pipe] at stopped
      exact stopped

theorem readFailure?_ended (launch : Launch) (stream : Stream) :
    (launch.ended stream).readFailure? =
      if launch.rejection? stream = some .panicked then
        some (.custom .other "relay thread panicked")
      else launch.pipeFailure? stream := by
  obtain ⟨relay, ended, stopped⟩ := launch.exists_relay stream
  rw [ended, Relay.outcome.eq_def, stopped]
  rcases launch.rejection? stream with _ | _ | error | _ <;>
    cases launch.pipeFailure? stream <;> rfl

theorem writeFailure?_ended (launch : Launch) (stream : Stream) :
    (launch.ended stream).writeFailure? = launch.raised? (.writing stream) := by
  obtain ⟨relay, ended, stopped⟩ := launch.exists_relay stream
  rw [ended, raised?, Relay.outcome.eq_def, stopped]
  rcases launch.rejection? stream with _ | _ | error | _ <;>
    cases launch.pipeFailure? stream <;> rfl

/-- A stage that raises an error fails, and its failure ends in what it carries of the error. -/
theorem failureAt_of_raised (program : String) (raised : launch.raised? stage = some cause) :
    ∃ error, launch.failureAt program stage = some error ∧ error.kind = .io ∧
      error.EndsIn (stage.carried cause) := by
  cases stage with
  | resolving | launching | ending => simp [raised?] at raised
  | awaiting =>
      cases awaited : launch.awaited with
      | ok status => simp [raised?, awaited] at raised
      | error problem =>
          rw [raised?, awaited] at raised
          obtain rfl := Option.some.inj raised
          refine ⟨_, ?_, rfl, BuildError.endsIn_io ("failed to wait for `" ++ program ++ "`") _⟩
          rw [failureAt, awaited]
          rfl
  | reading stream =>
      have unread : (launch.ended stream).readFailure? = some cause := by
        rw [raised?, Option.ite_none_left_eq_some] at raised
        rw [readFailure?_ended, if_neg raised.1]
        exact raised.2
      refine ⟨ProcessRunner.readError program stream cause, ?_, rfl, BuildError.endsIn_io _ _⟩
      rw [failureAt, unread]
      rfl
  | writing stream =>
      refine ⟨ProcessRunner.writeError program stream cause, ?_, rfl, BuildError.endsIn_io _ _⟩
      rw [failureAt, writeFailure?_ended, raised]
      rfl

/-- Apart from exit statuses, a stage fails on an error, or because the sink breaks down. -/
theorem raised_of_failureAt {error : BuildError}
    (failed : launch.failureAt program stage = some error)
    (around : error.kind = .spawnFailed ∨ error.kind = .io) :
    (∃ cause, launch.raised? stage = some cause) ∨
      ∃ stream, stage = .reading stream ∧ launch.rejection? stream = some .panicked ∧
        error.source? = some (.bare .other) := by
  cases stage with
  | resolving | launching => contradiction
  | awaiting =>
      left
      rw [failureAt] at failed
      cases awaited : launch.awaited with
      | error problem => exact ⟨problem, by rw [raised?, awaited]⟩
      | ok status => simp [awaited] at failed
  | ending =>
      rw [failureAt, Option.bind_eq_some_iff] at failed
      obtain ⟨status, -, failed⟩ := failed
      rw [(ExitStatus.of_failure? failed).2] at around
      cases status <;> simp [ExitStatus.kind] at around
  | writing stream =>
      left
      rw [failureAt, writeFailure?_ended, Option.map_eq_some_iff] at failed
      obtain ⟨cause, raised, -⟩ := failed
      exact ⟨cause, raised⟩
  | reading stream =>
      rw [failureAt, readFailure?_ended, Option.map_eq_some_iff] at failed
      obtain ⟨cause, unread, rfl⟩ := failed
      by_cases panicked : launch.rejection? stream = some .panicked
      · rw [if_pos panicked] at unread
        obtain rfl := Option.some.inj unread
        exact .inr ⟨stream, rfl, panicked, rfl⟩
      · rw [if_neg panicked] at unread
        exact .inl ⟨cause, by rw [raised?, if_neg panicked, unread]⟩

end Launch

namespace ProcessRunner

variable {runner : ProcessRunner} {tree : FileTree} {cwd : Location} {target : Target}
  {invocation : Invocation} {stage : Stage} {cause : IoError} {error : BuildError}

/-- The stage that decides about a run of a tool: the first in rank that reports a failure. -/
def decidingStage? (runner : ProcessRunner) (tree : FileTree) (cwd : Location) (target : Target)
    (invocation : Invocation) : Option Stage :=
  Stage.ranked.find? fun stage => (runner.failureAt tree cwd target invocation stage).isSome

/-- The error that a stage raises, where the run of the tool gets to it. -/
def raised? (runner : ProcessRunner) (tree : FileTree) (cwd : Location) (target : Target)
    (invocation : Invocation) : Stage → Option IoError
  | .launching => runner.launchError? tree cwd invocation
  | stage => (runner.launch? tree cwd target invocation).bind fun launch => launch.raised? stage

/-- The failure that counts is that of the stage that decides. -/
theorem failure?_eq_some_iff :
    runner.failure? tree cwd target invocation = some error ↔
      ∃ stage, runner.decidingStage? tree cwd target invocation = some stage ∧
        runner.failureAt tree cwd target invocation stage = some error := by
  rw [failure?, List.findSome?_eq_some_iff]
  simp only [decidingStage?, List.find?_eq_some_iff_append]
  constructor
  · rintro ⟨before, stage, after, ranked, failed, silent⟩
    exact ⟨stage, ⟨by simp [failed], before, after, ranked,
      fun earlier member => by simp [silent earlier member]⟩, failed⟩
  · rintro ⟨stage, ⟨-, before, after, ranked, silent⟩, failed⟩
    exact ⟨before, stage, after, ranked, failed,
      fun earlier member => by simpa using silent earlier member⟩

/-- What is raised after the launch is raised by what was launched, and fails there. -/
theorem exists_launch (after : stage ≠ .launching)
    (raised : runner.raised? tree cwd target invocation stage = some cause) :
    ∃ launch : Launch, launch.raised? stage = some cause ∧
      runner.failureAt tree cwd target invocation stage =
        launch.failureAt invocation.program stage := by
  have bound : ((runner.launch? tree cwd target invocation).bind
      fun launch => launch.raised? stage) = some cause := by
    cases stage with
    | launching => contradiction
    | resolving | awaiting | reading | ending | writing => exact raised
  obtain ⟨launch, launched, raised⟩ := Option.bind_eq_some_iff.mp bound
  refine ⟨launch, raised, ?_⟩
  cases stage with
  | resolving | launching => contradiction
  | awaiting | reading | ending | writing => simp only [failureAt, launched, Option.bind_some]

theorem stageFailure_of_raised
    (raised : runner.raised? tree cwd target invocation stage = some cause) :
    ∃ error, runner.failureAt tree cwd target invocation stage = some error ∧
      error.kind = stage.failureKind ∧ error.EndsIn (stage.carried cause) := by
  by_cases launching : stage = .launching
  · subst launching
    have refused : runner.launchError? tree cwd invocation = some cause := raised
    refine ⟨.spawnFailed invocation.program cause, ?_, rfl, BuildError.endsIn_spawnFailed _ _⟩
    rw [failureAt, refused]
    rfl
  · obtain ⟨launch, raised, same⟩ := exists_launch launching raised
    rw [same, Stage.failureKind, if_neg launching]
    exact Launch.failureAt_of_raised invocation.program raised

/-- Apart from exit statuses, and if the tool was found, a stage fails on an error that is raised,
or because the sink breaks down. -/
theorem raised_of_stageFailure
    (failed : runner.failureAt tree cwd target invocation stage = some error)
    (around : error.kind = .spawnFailed ∨ error.kind = .io) :
    (∃ cause, runner.raised? tree cwd target invocation stage = some cause) ∨
      ∃ launch stream, runner.launch? tree cwd target invocation = some launch ∧
        stage = .reading stream ∧ launch.rejection? stream = some .panicked ∧
        error.source? = some (.bare .other) := by
  cases stage with
  | resolving =>
      rw [failureAt, Option.ite_none_right_eq_some] at failed
      obtain rfl := Option.some.inj failed.2
      rcases around with around | around <;> contradiction
  | launching =>
      rw [failureAt, Option.map_eq_some_iff] at failed
      obtain ⟨cause, refused, -⟩ := failed
      exact .inl ⟨cause, refused⟩
  | awaiting | reading | ending | writing =>
      simp only [failureAt, Option.bind_eq_some_iff] at failed
      obtain ⟨launch, launched, failed⟩ := failed
      rcases Launch.raised_of_failureAt failed around with ⟨cause, raised⟩ | ⟨stream, reads, broken⟩
      · refine .inl ⟨cause, ?_⟩
        simp only [raised?, launched, Option.bind_some, raised]
      · exact .inr ⟨launch, stream, launched, reads, broken⟩

theorem outcome_eq_error_iff :
    (runner.execute tree cwd invocation).outcome = .error error ↔
      runner.failure? tree cwd target invocation = some error := by
  rw [runner.outcome_execute tree cwd target invocation]
  cases runner.failure? tree cwd target invocation <;> simp [outcomeOf]

theorem diagnostic?_of_failure? (failed : runner.failure? tree cwd target invocation = some error) :
    (runner.run tree cwd target invocation).result.diagnostic? = some error.message := by
  rw [result_run, failed]
  rfl

/--
If the stage that decides raises an error, then the run ends in a failure that carries this error,
or its kind alone if a stream was being read, and the diagnostic ends in the text of what is
carried.  So exactly the errors of reading are lost, as far as there is more to them than their
kind.  A run that could not start its program, or failed around it, has no other causes than errors
which the deciding stage raises, except for a sink that breaks down.
-/
theorem cause_survives_unless_read (runner : ProcessRunner) (tree : FileTree) (cwd : Location)
    (target : Target) (invocation : Invocation) :
    let outcome := (runner.execute tree cwd invocation).outcome
    let result := (runner.run tree cwd target invocation).result
    let deciding? := runner.decidingStage? tree cwd target invocation
    let raised? := runner.raised? tree cwd target invocation
    (∀ stage cause, deciding? = some stage → raised? stage = some cause →
      ∃ error context, outcome = .error error ∧ error.kind = stage.failureKind ∧
        error.source? = some (stage.carried cause) ∧
        result.diagnostic? = some (context ++ ": " ++ (stage.carried cause).message) ∧
        (stage.carried cause).kind = cause.kind ∧
        (stage.carried cause = cause ↔
          (∀ stream, stage ≠ .reading stream) ∨ ∃ kind, cause = .bare kind)) ∧
      ∀ error, outcome = .error error → error.kind = .spawnFailed ∨ error.kind = .io →
        ∃ stage, deciding? = some stage ∧
          ((∃ cause, raised? stage = some cause) ∨
            ∃ launch stream, runner.launch? tree cwd target invocation = some launch ∧
              stage = .reading stream ∧ launch.rejection? stream = some .panicked ∧
              error.source? = some (.bare .other)) := by
  intro outcome result deciding? raised?
  refine ⟨fun stage cause decides raised => ?_, fun error ended around => ?_⟩
  · obtain ⟨error, failed, kind_eq, source_eq, context, message_eq⟩ := stageFailure_of_raised raised
    have counts : runner.failure? tree cwd target invocation = some error :=
      failure?_eq_some_iff.mpr ⟨stage, decides, failed⟩
    have told : result.diagnostic? = some error.message := diagnostic?_of_failure? counts
    rw [message_eq] at told
    exact ⟨error, context, outcome_eq_error_iff.mpr counts, kind_eq, source_eq, told,
      stage.kind_carried cause, Stage.carried_eq_iff⟩
  · obtain ⟨stage, decides, failed⟩ := failure?_eq_some_iff.mp (outcome_eq_error_iff.mp ended)
    exact ⟨stage, decides, raised_of_stageFailure failed around⟩

/-- A tree with the tool in it. -/
def toolTree : FileTree :=
  (FileTree.empty.insert ["bin"] .directory).insert ["bin", "odin"] (.file ⟨[], true⟩)

/-- The standard output of the tool cannot be read, and its warning is not taken. -/
def unreadable (wait : Except IoError ExitStatus) : ProcessRunner where
  searchPath := { text := "/bin" }
  launcher := ⟨fun tree _ _ => .ok (
    { stdout := some { reads := [], failure := some (.system .isDirectory) }
      stderr := some { reads := [.chunk (Utf8.encode "warning\n")] }
      wait := fun _ => wait }, tree)⟩
  sink := .limited fun _ => some (0, .refused (.custom .other "closed"))

/-- The target that is built by the tool, and how it is called. -/
def toolTarget : Target :=
  .named "app" .executable ⟨"."⟩

/-- The tool is called without arguments. -/
def toolCall : Invocation :=
  ⟨"odin", [], ⟨"/"⟩⟩

/-- Three stages fail, and the error of waiting, which decides, arrives as it is. -/
theorem error_of_waiting_survives :
    let runner := unreadable (.error (.system ⟨10⟩))
    runner.decidingStage? toolTree [] toolTarget toolCall = some .awaiting ∧
      runner.raised? toolTree [] toolTarget toolCall .awaiting = some (.system ⟨10⟩) ∧
      runner.raised? toolTree [] toolTarget toolCall (.reading .stdout) =
        some (.system .isDirectory) ∧
      runner.raised? toolTree [] toolTarget toolCall (.writing .stderr) =
        some (.custom .other "closed") ∧
      ∃ error context, (runner.execute toolTree [] toolCall).outcome = .error error ∧
        error.source? = some (.system ⟨10⟩) ∧
        (runner.run toolTree [] toolTarget toolCall).result.diagnostic? =
          some (context ++ ": " ++ "No child processes (os error 10)") := by
  intro runner
  have decides : runner.decidingStage? toolTree [] toolTarget toolCall = some .awaiting := by
    decide +kernel
  have raised : runner.raised? toolTree [] toolTarget toolCall .awaiting =
      some (.system ⟨10⟩) := by
    decide +kernel
  have text : (IoError.system ⟨10⟩).message = "No child processes (os error 10)" := by
    decide +kernel
  obtain ⟨error, context, ended, -, source_eq, told, -⟩ :=
    (cause_survives_unless_read runner toolTree [] toolTarget toolCall).1 _ _ decides raised
  refine ⟨decides, raised, by decide +kernel, by decide +kernel, error, context, ended, source_eq,
    told.trans ?_⟩
  rw [← text]
  rfl

/-- The number of the error in which the pipe ends is lost, and with it the text of the error. -/
theorem error_of_reading_is_lost :
    let runner := unreadable (.ok (.exited 0))
    runner.decidingStage? toolTree [] toolTarget toolCall = some (.reading .stdout) ∧
      runner.raised? toolTree [] toolTarget toolCall (.reading .stdout) =
        some (.system .isDirectory) ∧
      (IoError.system .isDirectory).message = "Is a directory (os error 21)" ∧
      (runner.execute toolTree [] toolCall).outcome =
        .error (.io "failed to read stdout of `odin`" (.bare .isADirectory)) ∧
      (runner.run toolTree [] toolTarget toolCall).result.diagnostic? =
        some "failed to read stdout of `odin`: is a directory" := by
  decide +kernel

end ProcessRunner
end StagedBuild
