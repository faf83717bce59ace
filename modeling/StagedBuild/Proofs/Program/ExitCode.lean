import StagedBuild.Program
import StagedBuild.Proofs.Build.ExitCode
import StagedBuild.Proofs.Build.Progress
import StagedBuild.Proofs.Program.Relaying

/-!
# How a build command ends

Once there is a project and all wanted targets are declared, a command that builds shows one line
more than the turns of its run do.  This line and the exit code agree: either all targets are
counted and the code is zero, or the first target that did not complete is named and the code is
that of its process, or one.
-/

namespace StagedBuild

namespace StatusLine

/-- The line reports that a target is being built, or that it was built. -/
def IsProgress (line : StatusLine) : Prop :=
  line.status = .building ∨ line.status = .built

end StatusLine

namespace Project

variable {project : Project} {runner : Runner} {platform : Platform}

theorem isProgress_of_mem_progressOf {turn : Turn} {line : StatusLine}
    (member : line ∈ (project.observed runner platform).progressOf turn) : line.IsProgress := by
  rw [Build.progressOf, List.mem_append] at member
  rcases member with opening | closing
  · rw [Build.opening] at opening
    cases ran : (project.observed runner platform).toolRun? turn.target turn.start with
    | none => simp [ran] at opening
    | some run =>
        rw [ran, Option.elim_some] at opening
        obtain rfl := List.mem_singleton.mp opening
        exact .inl rfl
  · change line ∈ if _ then [builtLine _] else [] at closing
    split at closing
    · obtain rfl := List.mem_singleton.mp closing
      exact .inr rfl
    · contradiction

end Project

namespace Program

open CommandLine (Options Action Request)

variable {processes : World → ProcessRunner} {surroundings : Surroundings} {options : Options}
  {wanted : List String} {world ready : World} {project : Project} {targets : List Target}

/-- Looking for the project shows no status line and is no milestone. -/
theorem statusLines_project (options : Options) (tool : Option String) (world : World) :
    (Program.project options tool world).2.statusLines = world.statusLines ∧
      (Program.project options tool world).2.milestones = world.milestones := by
  cases given : options.manifestPath with
  | some path => simp [Program.project, given, Project.discover]
  | none =>
      simp only [Program.project, given, Project.discover, Project.inDirectory, Manifest.discover]
      split <;>
        simp [World.debug, World.statusLines_emit, World.milestones_emit, Event.statusLine?,
          Event.isMilestone]

/--
A command that builds ends in success exactly when every wanted target was attempted and got
through: its tool exited with zero, both streams were relayed, and what it staged was installed.
Otherwise the first target that did not get through is named in the last line, and decides the exit
code: that of its process if the tool failed, and one for any other failure.
-/
theorem build_ends_as_first_failure
    (reports : ∀ world, (processes world).Reports)
    (requested : Request.ofWords surroundings.words = .ok (.act options (.build wanted)))
    (found : Program.project options surroundings.tool world = (.ok project, ready))
    (selection : project.manifest.select wanted = .ok targets) :
    let build := project.observed (.ofProcesses processes) surroundings.platform
    let turns := build.taken (build.turns targets ready)
    ∃ code progress closing final after,
      run surroundings (.ofProcesses processes) world =
          .ended code (console options surroundings.terminal) after ∧
        after.milestones = world.milestones ++ turns.flatMap build.milestonesOf
          ++ [.state (.before turns.length) final] ∧
        after.statusLines = world.statusLines ++ progress ++ [closing] ∧
        (∀ line ∈ progress, line.IsProgress) ∧
        (code = 0 ↔ turns.map Turn.target = targets ∧
          ∀ turn ∈ turns, build.Completes processes turn) ∧
        (code = 0 → closing.status = .finished ∧ ∃ elapsed,
          closing.message = toString targets.length ++ " target(s) in " ++ elapsed) ∧
        (code ≠ 0 → ∃ before failing, turns = before ++ [failing] ∧
          (∀ turn ∈ before, build.Completes processes turn) ∧ ¬build.Completes processes failing ∧
          1 ≤ code ∧ code ≤ 255 ∧
          code = (build.exitStatus? processes failing).elim 1 (fun status => (status.code : Int)) ∧
          closing.status = .error ∧ ∃ diagnostic,
            closing.message = "target `" ++ failing.target.name ++ "` failed: " ++ diagnostic) := by
  intro build turns
  obtain ⟨looked_lines, looked_milestones⟩ :=
    statusLines_project options surroundings.tool world
  rw [found] at looked_lines looked_milestones
  have built := @Project.build_eq_of_select project (.ofProcesses processes) surroundings.platform
    ready wanted targets selection
  have shown : (build.runAll targets ready).2.statusLines = _ :=
    build.statusLines_runAll targets ready
  rcases ran : build.runFrom 0 .pending targets ready with ⟨results, succeeded, state, after⟩
  have passed := (@Build.runFrom_spec build 0 targets ready after results succeeded state ran).2.2.2
  have after_eq : (build.runAll targets ready).2 = after := by rw [Build.runAll, ran]
  rw [after_eq, looked_lines] at shown
  rw [looked_milestones, Nat.zero_add] at passed
  refine ⟨(build.runAll targets ready).1.exitCode, turns.flatMap build.progressOf,
    Project.closingLine (build.runAll targets ready).1, state,
    after.emit [.status (Project.closingLine (build.runAll targets ready).1)], ?_, ?_, ?_, ?_, ?_⟩
  · simp only [run, requested, act, found, perform, built, Except.mapError, conclude, ← after_eq]
    rfl
  · rw [World.milestones_emit, passed]
    exact List.append_nil _
  · rw [World.statusLines_emit, shown]
    rfl
  · intro line member
    obtain ⟨turn, -, shown_by⟩ := List.mem_flatMap.mp member
    exact Project.isProgress_of_mem_progressOf shown_by
  · obtain ⟨all_targets, all_complete, no_failure, count⟩ |
        ⟨before, failing, error, duration, taken_eq, completed, stuck, failed, positive, small,
          code_eq⟩ := build.runAll_outcome rfl reports targets ready
    · have code_eq : (build.runAll targets ready).1.exitCode = 0 := by
        rw [BuildStatus.exitCode, no_failure]
      rw [code_eq, Project.closingLine, no_failure]
      refine ⟨⟨fun _ => ⟨all_targets, all_complete⟩, fun _ => rfl⟩, fun _ => ⟨rfl, ?_⟩,
        fun nonzero => absurd rfl nonzero⟩
      rw [← count]
      exact ⟨_, rfl⟩
    · have nonzero : (build.runAll targets ready).1.exitCode ≠ 0 := by omega
      have last_taken : failing ∈ turns := by
        change failing ∈ build.taken _
        rw [taken_eq]
        exact List.mem_append_right before List.mem_cons_self
      refine ⟨⟨fun zero => absurd zero nonzero, fun all => absurd (all.2 failing last_taken) stuck⟩,
        fun zero => absurd zero nonzero,
        fun _ => ⟨before, failing, taken_eq, completed, stuck, positive, small, code_eq, ?_⟩⟩
      rw [Project.closingLine, failed]
      exact ⟨rfl, _, rfl⟩

/-- The tool leaves the first artifact of the default manifest, and is killed at its second call. -/
def killedLater (world : World) : ProcessRunner where
  searchPath := { text := "/bin" }
  launcher := ⟨fun tree _ _ => .ok (
    { stdout := none
      stderr := none
      wait := fun _ => .ok (if world.calls.length ≤ 1 then .exited 0 else .signalled 11) },
    tree.insert ["p", "bin", ".kiln-staging", "DSL_BUILD_SYS.so"] (.file ⟨[], true⟩))⟩
  sink := .accepting

theorem killedLater_reports (world : World) : (killedLater world).Reports := by
  intro tree cwd command child left started told status waited
  simp only [killedLater, Except.ok.injEq, Prod.mk.injEq] at started
  obtain ⟨rfl, -⟩ := started
  obtain rfl := Except.ok.inj waited
  split <;> simp [ExitStatus.IsReportable]

/-- The signal that ends the second process gives the exit code. -/
theorem build_ends_as_killed_tool :
    (∀ world, (killedLater world).Reports) ∧
      Request.ofWords ["build"] = .ok (.act {} (.build [])) ∧
      (Program.project {} none withTool).1.toOption = some ⟨⟨"/p"⟩, .default⟩ ∧
      Manifest.default.select [] = .ok Manifest.default.allTargets ∧
      ∃ progress closing after,
        run { words := ["build"] } (.ofProcesses killedLater) withTool = .ended 139 {} after ∧
          after.statusLines = progress ++ [closing] ∧ (∀ line ∈ progress, line.IsProgress) ∧
          closing.status = .error := by
  have requested : Request.ofWords ["build"] = .ok (.act {} (.build [])) := by decide +kernel
  have found : (Program.project {} none withTool).1.toOption =
      some ⟨⟨"/p"⟩, .default⟩ := by decide +kernel
  refine ⟨killedLater_reports, requested, found, rfl, ?_⟩
  have exits : (run { words := ["build"] } (.ofProcesses killedLater) withTool).shown? =
      some (139, []) := by decide +kernel
  rcases looked : Program.project {} none withTool with ⟨result, ready⟩
  rw [looked] at found
  cases result with
  | error error => contradiction
  | ok project =>
      obtain rfl := Option.some.inj found
      obtain ⟨code, progress, closing, final, after, ran, -, shown, only_progress, -, -, failed⟩ :=
        @build_ends_as_first_failure killedLater { words := ["build"] } {} [] withTool ready
          ⟨⟨"/p"⟩, .default⟩ Manifest.default.allTargets killedLater_reports requested looked rfl
      rw [ran] at exits
      obtain ⟨rfl, -⟩ := Prod.mk.inj (Option.some.inj exits)
      obtain ⟨-, -, -, -, -, -, -, -, errs, -⟩ := failed (by decide)
      exact ⟨progress, closing, after, ran, shown, only_progress, errs⟩

end Program
end StagedBuild
