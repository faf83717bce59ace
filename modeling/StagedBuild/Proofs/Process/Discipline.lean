import StagedBuild.Proofs.Process.Precedence

/-!
# The care for a launched process

A tool that is not found is never launched, and one that is found is launched once.  A process that
was started is relayed to the end on both streams before anything else is done to it; it is told to
stop only when reading a stream has failed, and in the end it is awaited exactly once, whatever went
wrong.  What telling it to stop answers is without consequence.
-/

namespace StagedBuild

namespace ToolEvent

/-- The launcher was called. -/
def isLaunch : ToolEvent → Bool
  | launched _ _ => true
  | _ => false

/-- A process was started. -/
def isStart : ToolEvent → Bool
  | launched _ started => started
  | _ => false

/-- The end of a process was awaited. -/
def isWait : ToolEvent → Bool
  | waited => true
  | _ => false

/-- Something was done to a process or to its output. -/
def isCare : ToolEvent → Bool
  | line _ _ | relayed _ _ | killed _ | waited => true
  | _ => false

end ToolEvent

namespace RelayOutcome

/-- The relay could not read its stream to the end, or broke down. -/
def IsLost (outcome : RelayOutcome) : Prop :=
  (∃ error, outcome = .readFailed error) ∨ outcome = .panicked

theorem isLost_iff {outcome : RelayOutcome} : outcome.IsLost ↔ outcome.readFailure?.isSome := by
  cases outcome <;> simp [IsLost, readFailure?]

end RelayOutcome

/-- The launcher of the same processes with another answer to being told to stop. -/
def Launcher.stopping (launcher : Launcher) (answer : Child → Except IoError Unit) : Launcher where
  launch tree cwd command :=
    (launcher.launch tree cwd command).map fun (child, tree) =>
      ({ child with kill := answer child }, tree)

/-- The runner of the same processes with another answer to being told to stop. -/
def ProcessRunner.stopping (runner : ProcessRunner) (answer : Child → Except IoError Unit) :
    ProcessRunner :=
  { runner with launcher := runner.launcher.stopping answer }

/-- The events of a process that is told to stop, or is not. -/
def Launch.stop (launch : Launch) : List ToolEvent :=
  if (ProcessRunner.readFailure? (launch.ended .stdout) (launch.ended .stderr)).isSome then
    [.killed launch.child.kill.isOk]
  else []

namespace ProcessRunner

variable {runner : ProcessRunner} {tree : FileTree} {cwd : Location} {target : Target}
  {invocation : Invocation} {launch : Launch} {program : Path}

theorem isSome_readFailure?_iff {out err : RelayOutcome} :
    (readFailure? out err).isSome ↔ out.IsLost ∨ err.IsLost := by
  rw [RelayOutcome.isLost_iff, RelayOutcome.isLost_iff, readFailure?]
  cases out.readFailure? <;> simp

theorem stop_of_lost {stream : Stream} (lost : (launch.ended stream).IsLost) :
    launch.stop = [.killed launch.child.kill.isOk] := by
  have some_lost : (launch.ended .stdout).IsLost ∨ (launch.ended .stderr).IsLost := by
    cases stream with
    | stdout => exact Or.inl lost
    | stderr => exact Or.inr lost
  rw [Launch.stop, if_pos (isSome_readFailure?_iff.mpr some_lost)]

theorem stop_of_not_lost (read : ∀ stream, ¬ (launch.ended stream).IsLost) :
    launch.stop = [] := by
  rw [Launch.stop, if_neg]
  rw [isSome_readFailure?_iff, not_or]
  exact ⟨read .stdout, read .stderr⟩

theorem events_of_not_found (absent : runner.program? tree cwd invocation = none) :
    (runner.execute tree cwd invocation).events = [.resolved invocation.program none] := by
  rw [program?] at absent
  simp only [execute, absent]

theorem events_of_not_started {error : IoError}
    (found : runner.program? tree cwd invocation = some program)
    (refused : runner.launcher.launch tree cwd ⟨program, invocation.args, invocation.cwd⟩ =
      .error error) :
    (runner.execute tree cwd invocation).events =
      [.resolved invocation.program (some program), .log .debug (announcement invocation program),
        .launched program false] := by
  rw [program?] at found
  simp only [execute, found, refused, List.cons_append, List.nil_append]

theorem aftermath_eq (runner : ProcessRunner) (target : Target) (child : Child) :
    runner.aftermath child =
      [.relayed .stdout (Launch.ended ⟨target, runner.sink, child⟩ .stdout),
          .relayed .stderr (Launch.ended ⟨target, runner.sink, child⟩ .stderr)]
        ++ Launch.stop ⟨target, runner.sink, child⟩ ++ [.waited] :=
  rfl

/-- The events of a run that starts a process, in order. -/
theorem events_of_started {child : Child} {left : FileTree}
    (found : runner.program? tree cwd invocation = some program)
    (started : runner.launcher.launch tree cwd ⟨program, invocation.args, invocation.cwd⟩ =
      .ok (child, left)) :
    (runner.execute tree cwd invocation).events =
      preamble invocation program
        ++ (runner.arrivals child).map (fun item => .line item.1 item.2)
        ++ [.relayed .stdout (Launch.ended ⟨target, runner.sink, child⟩ .stdout),
          .relayed .stderr (Launch.ended ⟨target, runner.sink, child⟩ .stderr)]
        ++ Launch.stop ⟨target, runner.sink, child⟩ ++ [.waited] := by
  have attended : (runner.attend invocation.program child).2 =
      (runner.arrivals child).map (fun item => .line item.1 item.2) ++ runner.aftermath child :=
    congrArg Prod.snd (runner.attend_reordered invocation.program child child.schedule)
  rw [program?] at found
  simp only [execute, found, started]
  rw [attended, runner.aftermath_eq target child]
  simp [preamble]

/-- A process that is launched was found and started. -/
theorem exists_started (launched : runner.launch? tree cwd target invocation = some launch) :
    ∃ program left, runner.program? tree cwd invocation = some program ∧
      launch.target = target ∧ launch.sink = runner.sink ∧
      runner.launcher.launch tree cwd ⟨program, invocation.args, invocation.cwd⟩ =
        .ok (launch.child, left) := by
  rw [launch?, ← program?] at launched
  cases found : runner.program? tree cwd invocation with
  | none => simp [found] at launched
  | some program =>
      rw [found] at launched
      cases started : runner.launcher.launch tree cwd
          ⟨program, invocation.args, invocation.cwd⟩ with
      | error error => simp [started, Except.toOption] at launched
      | ok pair =>
          obtain ⟨child, left⟩ := pair
          simp only [Option.bind_eq_bind, Option.bind_some, started, Except.toOption] at launched
          obtain rfl := Option.some.inj launched
          exact ⟨program, left, rfl, rfl, rfl, started⟩

/-- The events of a launched process: its lines, the ends of its relays, a stop, and the wait. -/
theorem events_of_launch (launched : runner.launch? tree cwd target invocation = some launch) :
    ∃ program arrived, Interleaves launch.relayed arrived ∧
      (runner.execute tree cwd invocation).events =
        preamble invocation program ++ arrived.map (fun item => .line item.1 item.2)
          ++ [.relayed .stdout (launch.ended .stdout), .relayed .stderr (launch.ended .stderr)]
          ++ launch.stop ++ [.waited] := by
  obtain ⟨program, left, found, target_eq, sink_eq, started⟩ := exists_started launched
  obtain ⟨launch_target, sink, child⟩ := launch
  obtain rfl : launch_target = target := target_eq
  obtain rfl : sink = runner.sink := sink_eq
  exact ⟨program, runner.arrivals child,
    interleaves_interleave child.schedule (Launch.relayed ⟨launch_target, runner.sink, child⟩),
    events_of_started found started⟩

/-- Without a process there is nothing to care for. -/
theorem events_of_no_launch (nothing : runner.launch? tree cwd target invocation = none) :
    ∀ event ∈ (runner.execute tree cwd invocation).events,
      event.isCare = false ∧ event.isStart = false := by
  cases found : runner.program? tree cwd invocation with
  | none =>
      rw [events_of_not_found found]
      simp [ToolEvent.isCare, ToolEvent.isStart]
  | some program =>
      cases started : runner.launcher.launch tree cwd
          ⟨program, invocation.args, invocation.cwd⟩ with
      | error error =>
          rw [events_of_not_started found started]
          simp [ToolEvent.isCare, ToolEvent.isStart]
      | ok pair =>
          rw [launch?_of_started found started] at nothing
          simp at nothing

/-- Around the one launch, lines and the ends of relays are neither launches nor waits. -/
theorem countP_events_of_launch
    (launched : runner.launch? tree cwd target invocation = some launch) :
    (runner.execute tree cwd invocation).events.countP ToolEvent.isLaunch = 1 ∧
      (runner.execute tree cwd invocation).events.countP ToolEvent.isStart = 1 ∧
      (runner.execute tree cwd invocation).events.countP ToolEvent.isWait = 1 := by
  obtain ⟨program, arrived, -, events_eq⟩ := events_of_launch launched
  have lines (test : ToolEvent → Bool) (silent : ∀ stream line, test (.line stream line) = false) :
      (arrived.map fun item => ToolEvent.line item.1 item.2).countP test = 0 := by
    simp [List.countP_eq_zero, silent]
  have stops (test : ToolEvent → Bool) (silent : ∀ reached, test (.killed reached) = false) :
      launch.stop.countP test = 0 := by
    rw [Launch.stop]
    split <;> simp [silent]
  rw [events_eq]
  simp only [List.countP_append]
  rw [lines _ fun _ _ => rfl, lines _ fun _ _ => rfl, lines _ fun _ _ => rfl, stops _ fun _ => rfl,
    stops _ fun _ => rfl, stops _ fun _ => rfl]
  exact ⟨rfl, rfl, rfl⟩

/-- The launcher is called at most once, and not at all for a tool that is not found. -/
theorem countP_isLaunch_le (runner : ProcessRunner) (tree : FileTree) (cwd : Location)
    (target : Target) (invocation : Invocation) :
    (runner.execute tree cwd invocation).events.countP ToolEvent.isLaunch ≤
      if runner.program? tree cwd invocation = none then 0 else 1 := by
  cases found : runner.program? tree cwd invocation with
  | none => simp [events_of_not_found found, ToolEvent.isLaunch]
  | some program =>
      cases started : runner.launcher.launch tree cwd
          ⟨program, invocation.args, invocation.cwd⟩ with
      | error error => simp [events_of_not_started found started, ToolEvent.isLaunch]
      | ok pair =>
          have launched : runner.launch? tree cwd target invocation =
              some ⟨target, runner.sink, pair.1⟩ := launch?_of_started found started
          rw [(countP_events_of_launch launched).1]
          simp

/-- Every process that was started is awaited once. -/
theorem countP_isWait (runner : ProcessRunner) (tree : FileTree) (cwd : Location)
    (target : Target) (invocation : Invocation) :
    (runner.execute tree cwd invocation).events.countP ToolEvent.isWait =
      (runner.execute tree cwd invocation).events.countP ToolEvent.isStart := by
  cases launched : runner.launch? tree cwd target invocation with
  | some launch =>
      obtain ⟨-, starts, waits⟩ := countP_events_of_launch launched
      rw [starts, waits]
  | none =>
      have careless := events_of_no_launch launched
      have no_start : (runner.execute tree cwd invocation).events.countP ToolEvent.isStart = 0 :=
        List.countP_eq_zero.mpr fun event member => by simp [(careless event member).2]
      have no_wait : (runner.execute tree cwd invocation).events.countP ToolEvent.isWait = 0 := by
        refine List.countP_eq_zero.mpr fun event member => ?_
        have no_care := (careless event member).1
        cases event <;> simp_all [ToolEvent.isCare, ToolEvent.isWait]
      rw [no_start, no_wait]

/-- The answer to being told to stop is only recorded. -/
theorem execute_stopping (runner : ProcessRunner) (answer : Child → Except IoError Unit)
    (tree : FileTree) (cwd : Location) (invocation : Invocation) :
    ((runner.stopping answer).execute tree cwd invocation).outcome =
        (runner.execute tree cwd invocation).outcome ∧
      ((runner.stopping answer).execute tree cwd invocation).tree =
        (runner.execute tree cwd invocation).tree ∧
      ((runner.stopping answer).execute tree cwd invocation).milliseconds =
        (runner.execute tree cwd invocation).milliseconds := by
  simp only [execute, stopping, Launcher.stopping]
  cases Tool.resolve runner.searchPath tree cwd invocation.program invocation.cwd with
  | none => exact ⟨rfl, rfl, rfl⟩
  | some program =>
      simp only
      cases runner.launcher.launch tree cwd ⟨program, invocation.args, invocation.cwd⟩ with
      | error error => exact ⟨rfl, rfl, rfl⟩
      | ok pair => exact ⟨rfl, rfl, rfl⟩

theorem result_run_stopping (runner : ProcessRunner) (answer : Child → Except IoError Unit)
    (tree : FileTree) (cwd : Location) (target : Target) (invocation : Invocation) :
    ((runner.stopping answer).run tree cwd target invocation).result =
      (runner.run tree cwd target invocation).result := by
  obtain ⟨same_outcome, -, same_duration⟩ := runner.execute_stopping answer tree cwd invocation
  rw [run, run]
  simp only [same_outcome, same_duration]
  split <;> rfl

/--
A launched process is taken care of.  The launcher is called at most once, and neither called nor
looked at when the tool is not found; without a process nothing is done to one.  With a process,
first the lines of both streams arrive and both relays end; then it is told to stop exactly when one
of them could not read its stream or broke down; then it is awaited, so that every process that was
started is awaited once.  The answer to being told to stop changes neither what the run comes to nor
the files that are left.
-/
theorem execute_awaits_what_it_starts (runner : ProcessRunner) (tree : FileTree) (cwd : Location)
    (target : Target) (invocation : Invocation) :
    let events := (runner.execute tree cwd invocation).events
    events.countP ToolEvent.isLaunch ≤ 1 ∧
      (runner.program? tree cwd invocation = none →
        events.countP ToolEvent.isLaunch = 0 ∧
          ∀ launcher : Launcher,
            ({ runner with launcher := launcher } : ProcessRunner).execute tree cwd invocation =
              runner.execute tree cwd invocation) ∧
      (runner.launch? tree cwd target invocation = none →
        ∀ event ∈ events, event.isCare = false) ∧
      (∀ launch, runner.launch? tree cwd target invocation = some launch →
        ∃ program arrived stop, Interleaves launch.relayed arrived ∧
          events = [.resolved invocation.program (some program),
              .log .debug (announcement invocation program), .launched program true]
            ++ arrived.map (fun item => .line item.1 item.2)
            ++ [.relayed .stdout (launch.ended .stdout), .relayed .stderr (launch.ended .stderr)]
            ++ stop ++ [.waited] ∧
          ((∃ stream, (launch.ended stream).IsLost) →
            stop = [.killed launch.child.kill.isOk]) ∧
          ((∀ stream, ¬ (launch.ended stream).IsLost) → stop = [])) ∧
      events.countP ToolEvent.isWait = events.countP ToolEvent.isStart ∧
      ∀ answer : Child → Except IoError Unit,
        ((runner.stopping answer).run tree cwd target invocation).result =
            (runner.run tree cwd target invocation).result ∧
          ((runner.stopping answer).execute tree cwd invocation).outcome =
            (runner.execute tree cwd invocation).outcome ∧
          ((runner.stopping answer).execute tree cwd invocation).tree =
            (runner.execute tree cwd invocation).tree := by
  intro events
  have launches := runner.countP_isLaunch_le tree cwd target invocation
  refine ⟨?_, fun absent => ⟨?_, fun launcher => ?_⟩, fun nothing event member => ?_,
    fun launch launched => ?_, runner.countP_isWait tree cwd target invocation,
    fun answer => ⟨runner.result_run_stopping answer tree cwd target invocation, ?_⟩⟩
  · refine launches.trans ?_
    split <;> omega
  · rw [if_pos absent] at launches
    exact Nat.le_zero.mp launches
  · rw [program?] at absent
    simp only [execute, absent]
  · exact (events_of_no_launch nothing event member).1
  · obtain ⟨program, arrived, interleaves, events_eq⟩ := events_of_launch launched
    refine ⟨program, arrived, launch.stop, interleaves, events_eq, ?_, stop_of_not_lost⟩
    rintro ⟨stream, lost⟩
    exact stop_of_lost lost
  · obtain ⟨same_outcome, same_tree, -⟩ := runner.execute_stopping answer tree cwd invocation
    exact ⟨same_outcome, same_tree⟩

end ProcessRunner
end StagedBuild
