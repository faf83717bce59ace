import StagedBuild.Proofs.Process.Session

/-!
# What the order of lines decides

The order in which the lines of a process arrive decides where they stand among the events of its
run, and nothing else: neither the result nor the files that are left, nor what comes before the
lines and after them.
-/

namespace StagedBuild
namespace ProcessRunner

variable {runner : ProcessRunner} {tree : FileTree} {cwd : Location} {target : Target}
  {invocation : Invocation}

/-- The lines that a runner relays of both streams, if it launches a process. -/
def linesOf (runner : ProcessRunner) (tree : FileTree) (cwd : Location) (target : Target)
    (invocation : Invocation) : Stream → List Bytes :=
  (runner.launch? tree cwd target invocation).elim (fun _ => []) Launch.relayed

/--
A run of a process but for the order of its lines: they come in one piece, and the result, the files
that are left and the events before and after them are given.
-/
structure Account (runner : ProcessRunner) (tree : FileTree) (cwd : Location) (target : Target)
    (invocation : Invocation) (result : BuildResult) (left : FileTree) (before after : List Event) :
    Prop where
  /-- In whatever order the lines arrive, all else is the same. -/
  accounts : ∀ order, ∃ arrived,
    Interleaves (runner.linesOf tree cwd target invocation) arrived ∧
      ((runner.reordered order).run tree cwd target invocation).result = result ∧
      ((runner.reordered order).run tree cwd target invocation).tree = left ∧
      ((runner.reordered order).run tree cwd target invocation).events.map Event.tool =
        before ++ (arrived.map Event.arrival ++ after)
  /-- With an interleaving of the lines these are the events of the process. -/
  relays : ∀ arrived, Interleaves (runner.linesOf tree cwd target invocation) arrived →
    Relays Launch.relayed (runner.launch? tree cwd target invocation).toList
      (.called target invocation :: (before ++ (arrived.map Event.arrival ++ after)))

/-- Without a process there are no lines, and nothing depends on their order. -/
theorem account_of_no_launch (nothing : runner.launch? tree cwd target invocation = none)
    {report : RunnerReport}
    (reports : ∀ order, (runner.reordered order).run tree cwd target invocation = report)
    (quiet : ∀ event ∈ report.events.map Event.tool, event.isQuiet = true) :
    runner.Account tree cwd target invocation report.result report.tree
      (report.events.map Event.tool) [] := by
  have no_lines : runner.linesOf tree cwd target invocation = fun _ => [] := by
    rw [linesOf, nothing, Option.elim_none]
  constructor
  · intro order
    rw [reports order, no_lines]
    exact ⟨[], fun _ => rfl, rfl, rfl, by simp⟩
  · intro arrived interleaves
    rw [no_lines] at interleaves
    rw [nothing, eq_nil_of_interleaves interleaves]
    apply Relays.quiet
    simpa [Event.isQuiet] using quiet

/-- What is left to do once the lines of a process have arrived. -/
def aftermath (runner : ProcessRunner) (child : Child) : List ToolEvent :=
  let out := (Relay.run runner.sink .stdout child.stdout).2
  let err := (Relay.run runner.sink .stderr child.stderr).2
  .relayed .stdout out :: .relayed .stderr err
    :: ((if (readFailure? out err).isSome then [.killed child.kill.isOk] else []) ++ [.waited])

theorem aftermath_quiet (runner : ProcessRunner) (child : Child) :
    ∀ event ∈ (runner.aftermath child).map Event.tool, event.isQuiet = true := by
  rw [aftermath]
  split <;> simp [Event.isQuiet]

/-- The lines of a process in the order in which they arrive. -/
def arrivals (runner : ProcessRunner) (child : Child) : List (Stream × Bytes) :=
  interleave child.schedule (Relay.run runner.sink .stdout child.stdout).1
    (Relay.run runner.sink .stderr child.stderr).1

theorem attend_reordered (runner : ProcessRunner) (program : String) (child : Child)
    (schedule : List Stream) :
    runner.attend program { child with schedule := schedule } =
      ((runner.attend program child).1,
        (runner.arrivals { child with schedule := schedule }).map
          (fun item => .line item.1 item.2) ++ runner.aftermath child) := by
  rw [attend, attend, aftermath]
  simp only [List.append_assoc, List.cons_append, List.nil_append]
  rfl

/-- The events up to the launch of a process. -/
def preamble (invocation : Invocation) (program : Path) : List ToolEvent :=
  [.resolved invocation.program (some program), .log .debug (announcement invocation program),
    .launched program true]

section Launched

variable {program : Path} {child : Child} {left : FileTree}
  (found : Tool.resolve runner.searchPath tree cwd invocation.program invocation.cwd = some program)
  (started : runner.launcher.launch tree cwd ⟨program, invocation.args, invocation.cwd⟩ =
    .ok (child, left))

include found started

theorem launch?_of_started :
    runner.launch? tree cwd target invocation = some ⟨target, runner.sink, child⟩ := by
  rw [launch?, found]
  simp only [Option.bind_eq_bind, Option.bind_some, started]
  rfl

/-- The order of the lines enters through the schedule of the child alone. -/
theorem execute_reordered (order : Child → List Stream) :
    (runner.reordered order).execute tree cwd invocation =
      { outcome := (runner.attend invocation.program child).1
        tree := left
        events := preamble invocation program
          ++ ((runner.arrivals { child with schedule := order child }).map
            (fun item => .line item.1 item.2) ++ runner.aftermath child)
        milliseconds := child.milliseconds } := by
  have starts : (runner.reordered order).launcher.launch tree cwd
      ⟨program, invocation.args, invocation.cwd⟩ =
        .ok ({ child with schedule := order child }, left) := by
    simp only [reordered, Launcher.reordered, started]
    rfl
  have attended : (runner.reordered order).attend invocation.program
      { child with schedule := order child } = _ :=
    runner.attend_reordered invocation.program child (order child)
  have looks : (runner.reordered order).searchPath = runner.searchPath := rfl
  simp only [execute, looks, found, starts, attended]
  rfl

/-- A run that adds something quiet to the events of its process. -/
theorem account_of_execute {result : BuildResult} {more : List ToolEvent}
    (quiet : ∀ event ∈ more.map Event.tool, event.isQuiet = true)
    (runs : ∀ order, (runner.reordered order).run tree cwd target invocation =
      { result := result
        tree := left
        events := ((runner.reordered order).execute tree cwd invocation).events ++ more }) :
    runner.Account tree cwd target invocation result left
      ((preamble invocation program).map .tool) ((runner.aftermath child ++ more).map .tool) := by
  have launched : runner.launch? tree cwd target invocation =
      some ⟨target, runner.sink, child⟩ := launch?_of_started found started
  have lines_eq : runner.linesOf tree cwd target invocation =
      Launch.relayed ⟨target, runner.sink, child⟩ := by
    rw [linesOf, launched, Option.elim_some]
  have quiet_after : ∀ event ∈ (runner.aftermath child ++ more).map Event.tool,
      event.isQuiet = true := by
    intro event member
    rw [List.map_append] at member
    exact (List.mem_append.mp member).elim (runner.aftermath_quiet child event) (quiet event)
  constructor
  · intro order
    refine ⟨runner.arrivals { child with schedule := order child }, ?_, ?_⟩
    · rw [lines_eq]
      exact interleaves_interleave (order child) (Launch.relayed ⟨target, runner.sink, child⟩)
    · rw [runs order, execute_reordered found started order]
      simp [Event.arrival]
  · intro arrived interleaves
    rw [launched]
    rw [lines_eq] at interleaves
    exact @Relays.launch Launch.relayed ⟨target, runner.sink, child⟩ [] [] _ invocation program
      (announcement invocation program) arrived (by simp) interleaves (.quiet quiet_after)

/-- A run that launches a process reports how that has ended. -/
theorem account_of_launch : ∃ result after, runner.Account tree cwd target invocation result left
    ((preamble invocation program).map .tool) after := by
  cases ended : (runner.attend invocation.program child).1 with
  | ok done =>
      have account := @account_of_execute runner tree cwd target invocation program child left found
        started (.success target child.milliseconds) [] (by simp)
      refine ⟨_, _, account fun order => ?_⟩
      simp [run, execute_reordered found started order, ended]
  | error error =>
      have account := @account_of_execute runner tree cwd target invocation program child left found
        started (.ofError target error child.milliseconds)
        [.log .debug ("target `" ++ target.name ++ "` failed: " ++ error.message)]
        (by simp [Event.isQuiet])
      refine ⟨_, _, account fun order => ?_⟩
      simp [run, execute_reordered found started order, ended]

end Launched

theorem exists_account (runner : ProcessRunner) (tree : FileTree) (cwd : Location)
    (target : Target) (invocation : Invocation) :
    ∃ result left before after,
      runner.Account tree cwd target invocation result left before after := by
  cases found : Tool.resolve runner.searchPath tree cwd invocation.program invocation.cwd with
  | none =>
      have nothing : runner.launch? tree cwd target invocation = none := by
        rw [launch?, found]
        rfl
      have reports : ∀ order, (runner.reordered order).run tree cwd target invocation =
          runner.run tree cwd target invocation := by
        intro order
        simp only [run, execute, reordered, found]
      refine ⟨_, _, _, _, account_of_no_launch nothing reports ?_⟩
      simp [run, execute, found, Event.isQuiet]
  | some program =>
      cases started : runner.launcher.launch tree cwd
          ⟨program, invocation.args, invocation.cwd⟩ with
      | error error =>
          have nothing : runner.launch? tree cwd target invocation = none := by
            rw [launch?, found]
            simp only [Option.bind_eq_bind, Option.bind_some, started]
            rfl
          have reports : ∀ order, (runner.reordered order).run tree cwd target invocation =
              runner.run tree cwd target invocation := by
            intro order
            simp only [run, execute, reordered, found, Launcher.reordered, started, Except.map]
          refine ⟨_, _, _, _, account_of_no_launch nothing reports ?_⟩
          simp [run, execute, found, started, Event.isQuiet]
      | ok answer =>
          obtain ⟨child, left⟩ := answer
          obtain ⟨result, after, account⟩ := account_of_launch found started
          exact ⟨result, left, _, after, account⟩

end ProcessRunner
end StagedBuild
