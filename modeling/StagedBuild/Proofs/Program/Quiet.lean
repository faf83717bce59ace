import StagedBuild.Proofs.Build.Hushing
import StagedBuild.Proofs.CommandLine.Silence
import StagedBuild.Proofs.Program.ExitCode

/-!
# A quiet run

The switch that asks for silence takes the lines about the progress of a command away, and nothing
else: what a run answers, what it does to the files, which tools it calls and what it prints stay as
they are, and so do all other lines on standard error.

The program collects every line and lets the shell pick from them at the end.  The same holds of
the program that asks its shell about each line as it comes up, for tools that cannot see the lines.
-/

namespace StagedBuild

open World (Hushed Agree IgnoresHistory)

namespace World

variable {shell : Shell} {world other : World}

theorem ignoresHistory_removeDirectoryIfExists (path : Path) :
    IgnoresHistory fun world => world.removeDirectoryIfExists path := by
  intro world earlier
  simp only [removeDirectoryIfExists, tree_recalling, cwd_recalling, change_recalling]
  rcases world.tree.removeDirectory world.cwd path with ⟨tree, changes, result⟩
  cases result with
  | ok done => rfl
  | error error =>
      dsimp only
      split <;> rfl

theorem statusLines_removeDirectoryIfExists (path : Path) (world : World) :
    (world.removeDirectoryIfExists path).2.statusLines = world.statusLines := by
  rw [removeDirectoryIfExists]
  rcases world.tree.removeDirectory world.cwd path with ⟨tree, changes, result⟩
  cases result with
  | ok done => exact world.statusLines_change tree changes
  | error error =>
      dsimp only
      split <;> exact world.statusLines_change tree changes

end World

namespace Project

variable {project : Project} {shell : Shell} {runner : Runner} {platform : Platform}
  {world other : World}

/-- Build the named targets, or all, and ask the shell about each line. -/
def buildThrough (shell : Shell) (project : Project) (runner : Runner) (platform : Platform)
    (names : List String) (world : World) : Except UnknownTarget Int × World :=
  match project.manifest.select names with
  | .error problem => (.error problem, world)
  | .ok targets =>
      let build := (project.toBuild runner platform).withObserver
        ((observer project.root).through shell)
      let (status, world) := build.runAll targets world
      (.ok status.exitCode, world.tell shell (closingLine status))

/-- Remove installed files, up to the first that cannot be removed, and ask the shell each time. -/
def removeFilesThrough (shell : Shell) : List Path → World → Except CleanError Unit × World
  | [], world => (.ok (), world)
  | path :: rest, world =>
      match world.removeFileIfExists path with
      | (.error error, world) => (.error (.file path error), world)
      | (.ok removed, world) =>
          removeFilesThrough shell rest
            (if removed then world.tell shell (removedLine path) else world)

/-- Remove the staging directory, and ask the shell. -/
def removeStagingThrough (shell : Shell) (path : Path) (world : World) :
    Except CleanError Unit × World :=
  match world.removeDirectoryIfExists path with
  | (.error error, world) => (.error (.directory path error), world)
  | (.ok removed, world) =>
      (.ok (), if removed then world.tell shell (removedLine path) else world)

/-- Remove what builds of the project have installed, and ask the shell about each line. -/
def cleanThrough (shell : Shell) (project : Project) (runner : Runner) (platform : Platform)
    (world : World) : Except CleanError Int × World :=
  let build := project.toBuild runner platform
  match removeFilesThrough shell (project.installedFiles build) world with
  | (.error error, world) => (.error error, world)
  | (.ok (), world) =>
      match removeStagingThrough shell (StagedArtifact.stagingOf build.outDir) world with
      | (.error error, world) => (.error error, world)
      | (.ok (), world) => (.ok 0, world)

theorem build_hushed (heedless : runner.Heedless) (wanted : List String)
    (hushed : Hushed shell world other) :
    Agree shell (project.build runner platform wanted world)
      (project.buildThrough shell runner platform wanted other) := by
  rw [build, buildThrough]
  cases project.manifest.select wanted with
  | error problem => exact ⟨_, _, _, rfl, rfl, hushed⟩
  | ok targets =>
      obtain ⟨status, after, other_after, ran, other_ran, after_hushed⟩ :=
        @Build.runAll_hushed (project.observed runner platform) shell world other heedless targets
          hushed
      change ((project.toBuild runner platform).withObserver
        ((observer project.root).through shell)).runAll targets other = _ at other_ran
      rw [observed] at ran
      simp only [ran, other_ran]
      exact ⟨_, _, _, rfl, rfl, after_hushed.tell (closingLine status)⟩

theorem removeFiles_hushed (paths : List Path) (hushed : Hushed shell world other) :
    Agree shell (removeFiles paths world) (removeFilesThrough shell paths other) := by
  induction paths generalizing world other with
  | nil => exact ⟨_, _, _, rfl, rfl, hushed⟩
  | cons path rest induction =>
      obtain ⟨result, after, other_after, removed, other_removed, after_hushed⟩ := hushed.act
        (World.ignoresHistory_removeFileIfExists path)
        fun world => world.statusLines_removeFileIfExists path
      rw [removeFiles, removeFilesThrough]
      rw [removed, other_removed]
      cases result with
      | error error => exact ⟨_, _, _, rfl, rfl, after_hushed⟩
      | ok found =>
          refine induction ?_
          cases found with
          | false => exact after_hushed
          | true => exact after_hushed.tell (removedLine path)

theorem removeStaging_hushed (path : Path) (hushed : Hushed shell world other) :
    Agree shell (removeStaging path world) (removeStagingThrough shell path other) := by
  obtain ⟨result, after, other_after, removed, other_removed, after_hushed⟩ := hushed.act
    (World.ignoresHistory_removeDirectoryIfExists path)
    (World.statusLines_removeDirectoryIfExists path)
  rw [removeStaging, removeStagingThrough]
  rw [removed, other_removed]
  cases result with
  | error error => exact ⟨_, _, _, rfl, rfl, after_hushed⟩
  | ok found =>
      refine ⟨_, _, _, rfl, rfl, ?_⟩
      cases found with
      | false => exact after_hushed
      | true => exact after_hushed.tell (removedLine path)

theorem clean_hushed (hushed : Hushed shell world other) :
    Agree shell (project.clean runner platform world)
      (project.cleanThrough shell runner platform other) := by
  obtain ⟨result, after, other_after, removed, other_removed, after_hushed⟩ :=
    removeFiles_hushed (project.installedFiles (project.toBuild runner platform)) hushed
  simp only [clean, cleanThrough, removed, other_removed]
  cases result with
  | error error => exact ⟨_, _, _, rfl, rfl, after_hushed⟩
  | ok done =>
      obtain ⟨result, last, other_last, removed, other_removed, last_hushed⟩ :=
        removeStaging_hushed (StagedArtifact.stagingOf (project.toBuild runner platform).outDir)
          after_hushed
      simp only [removed, other_removed]
      cases result with
      | error error => exact ⟨_, _, _, rfl, rfl, last_hushed⟩
      | ok done => exact ⟨_, _, _, rfl, rfl, last_hushed⟩

theorem plan_hushed (wanted : List String) (hushed : Hushed shell world other) :
    Agree shell (project.plan runner platform wanted world)
      (project.plan runner platform wanted other) := by
  rw [plan, plan]
  cases project.manifest.select wanted with
  | error problem => exact ⟨_, _, _, rfl, rfl, hushed⟩
  | ok targets =>
      refine ⟨_, _, _, rfl, rfl, hushed.emit (World.filter_passes ?_).symm⟩
      simp [List.filterMap_eq_nil_iff, Event.statusLine?]

end Project

/-- The status is of something that goes as it should. -/
def Status.isRoutine : Status → Bool
  | .building | .built | .finished | .removed => true
  | .error => false

/-- The event shows a routine status line. -/
def Event.isRoutine : Event → Bool
  | .status line => line.status.isRoutine
  | _ => false

/-- What can be told of a run from outside. -/
structure Sight where
  exitCode : Int
  tree : FileTree
  calls : List Invocation
  output : Bytes
  errors : Bytes

/-- What can be told of a run that comes to an end. -/
def Outcome.sight? : Outcome → Option Sight
  | .refused _ => none
  | .ended code console world =>
      some ⟨code, world.tree, world.calls, Console.stdout world.trace, console.stderr world.trace⟩

namespace Console

variable {shell : Shell} {world other : World}

/-- A view that shows nothing of the lines that a shell hides does not miss them. -/
theorem flatMap_filter_passes {α : Type} {view : Event → List α}
    (blind : ∀ line, shell.shows line = false → view (.status line) = []) (trace : List Event) :
    (trace.filter shell.passes).flatMap view = trace.flatMap view := by
  induction trace with
  | nil => rfl
  | cons event trace induction =>
      rw [List.filter_cons, List.flatMap_cons]
      split
      · rw [List.flatMap_cons, induction]
      · rename_i hidden
        cases event with
        | status line =>
            rw [blind line (by simpa [Shell.passes] using hidden), induction, List.nil_append]
        | _ => exact absurd rfl hidden

theorem calls_of_hushed (hushed : Hushed shell world other) : other.calls = world.calls := by
  rw [World.calls, World.calls, hushed.trace, List.filterMap_eq_flatMap_toList,
    List.filterMap_eq_flatMap_toList, flatMap_filter_passes fun _ _ => rfl]

theorem stdout_of_hushed (hushed : Hushed shell world other) :
    stdout other.trace = stdout world.trace := by
  rw [stdout, stdout, hushed.trace, flatMap_filter_passes fun _ _ => rfl]

theorem stderr_of_hushed {console : Console} (hushed : Hushed console.shell world other) :
    console.stderr other.trace = console.stderr world.trace := by
  rw [stderr, stderr, hushed.trace, flatMap_filter_passes fun line hidden => ?_]
  rw [stderrOf, Shell.text, hidden]
  rfl

end Console

/-- The outcome does not show whether hidden lines were left out when they came up. -/
theorem Outcome.sight?_of_hushed {code : Int} {console : Console} {world other : World}
    (hushed : Hushed console.shell world other) :
    (Outcome.ended code console other).sight? = (Outcome.ended code console world).sight? := by
  rw [sight?, sight?, hushed.tree, Console.calls_of_hushed hushed, Console.stdout_of_hushed hushed,
    Console.stderr_of_hushed hushed]

/-- Every shell shows errors. -/
theorem Shell.text_error (shell : Shell) (message : String) :
    shell.text ⟨.error, message⟩ = shell.label .error ++ " " ++ message ++ "\n" := by
  simp [text, shows]

namespace Program

open CommandLine (Options Action Request)

variable {surroundings : Surroundings} {options : Options} {action : Action} {runner : Runner}
  {world other : World} {shell : Shell}

/-- Let an action act on a project, and ask the shell about each line. -/
def performThrough (shell : Shell) (action : Action) (project : Project) (runner : Runner)
    (platform : Platform) (world : World) : Except ProgramError Int × World :=
  match action with
  | .build targets =>
      let (result, world) := project.buildThrough shell runner platform targets world
      (result.mapError .selection, world)
  | .plan targets =>
      let (result, world) := project.plan runner platform targets world
      (result.mapError .selection, world)
  | .clean =>
      let (result, world) := project.cleanThrough shell runner platform world
      (result.mapError .clean, world)

/-- Find the project and let an action act on it; the shell is asked about each line. -/
def actThrough (shell : Shell) (surroundings : Surroundings) (options : Options) (action : Action)
    (runner : Runner) (world : World) : Except ProgramError Int × World :=
  match project options surroundings.tool world with
  | (.error error, world) => (.error (.project error), world)
  | (.ok project, world) =>
      performThrough shell action project runner surroundings.platform world

/-- Run the program with its shell asked about each line as it comes up. -/
def runThrough (surroundings : Surroundings) (runner : Runner) (world : World) : Outcome :=
  match Request.ofWords surroundings.words with
  | .error error => .refused error
  | .ok .version => .ended 0 {} (world.emit [.printed versionText])
  | .ok (.act options action) =>
      let console := console options surroundings.terminal
      let (code, world) :=
        conclude (actThrough console.shell surroundings options action runner world)
      .ended code console world

theorem perform_hushed {project : Project} {platform : Platform} (heedless : runner.Heedless)
    (action : Action) (hushed : Hushed shell world other) :
    Agree shell (perform action project runner platform world)
      (performThrough shell action project runner platform other) := by
  cases action with
  | build wanted =>
      obtain ⟨result, after, other_after, built, other_built, after_hushed⟩ :=
        @Project.build_hushed project shell runner platform world other heedless wanted hushed
      simp only [perform, performThrough, built, other_built]
      exact ⟨_, _, _, rfl, rfl, after_hushed⟩
  | plan wanted =>
      obtain ⟨result, after, other_after, planned, other_planned, after_hushed⟩ :=
        @Project.plan_hushed project shell runner platform world other wanted hushed
      simp only [perform, performThrough, planned, other_planned]
      exact ⟨_, _, _, rfl, rfl, after_hushed⟩
  | clean =>
      obtain ⟨result, after, other_after, cleaned, other_cleaned, after_hushed⟩ :=
        @Project.clean_hushed project shell runner platform world other hushed
      simp only [perform, performThrough, cleaned, other_cleaned]
      exact ⟨_, _, _, rfl, rfl, after_hushed⟩

/-- What a command comes to does not depend on what its shell hides. -/
theorem act_hushed (heedless : runner.Heedless) (fresh : world.statusLines = []) :
    Agree shell (conclude (act surroundings options action runner world))
      (conclude (actThrough shell surroundings options action runner world)) := by
  have ready_fresh := (statusLines_project options surroundings.tool world).1.trans fresh
  rw [act, actThrough]
  rcases looked : project options surroundings.tool world with ⟨result, ready⟩
  rw [looked] at ready_fresh
  have start : Hushed shell ready ready := Hushed.refl ready_fresh
  cases result with
  | error error => exact ⟨_, _, _, rfl, rfl, start.emit rfl⟩
  | ok project =>
      obtain ⟨result, after, other_after, performed, other_performed, after_hushed⟩ :=
        @perform_hushed runner ready ready shell project surroundings.platform heedless action start
      simp only [performed, other_performed]
      cases result with
      | ok code => exact ⟨_, _, _, rfl, rfl, after_hushed⟩
      | error error => exact ⟨_, _, _, rfl, rfl, after_hushed.emit rfl⟩

/-- A shell that is not quiet hides nothing. -/
theorem eq_of_hushed (loud : shell.quiet = false) (hushed : Hushed shell world other) :
    other = world := by
  have all_pass : world.trace.filter shell.passes = world.trace := by
    rw [List.filter_eq_self]
    intro event _
    cases event <;> simp [Shell.passes, Shell.shows, loud]
  obtain ⟨tree, cwd, trace⟩ := hushed
  rw [all_pass] at trace
  cases world
  cases other
  simp_all

/-- A quiet console shows nothing of a routine status line, and all else as it was. -/
theorem stderrOf_silence (options : Options) (terminal : Bool) (event : Event) :
    (console options.silence terminal).stderrOf event =
      if event.isRoutine then [] else (console options terminal).stderrOf event := by
  cases event with
  | status line =>
      obtain ⟨status, message⟩ := line
      cases status with
      | error =>
          simp only [Console.stderrOf, Shell.text_error]
          rfl
      | _ => rfl
  | tool event =>
      cases event with
      | line stream bytes => cases stream <;> rfl
      | _ => rfl
  | _ => rfl

/-- Standard error of a quiet run is that of the other run without the routine status lines. -/
theorem stderr_silence (options : Options) (terminal : Bool) (trace : List Event) :
    (console options.silence terminal).stderr trace =
      (trace.filter fun event => !event.isRoutine).flatMap (console options terminal).stderrOf := by
  rw [Console.stderr]
  induction trace with
  | nil => rfl
  | cons event trace induction =>
      rw [List.flatMap_cons, List.filter_cons, induction, stderrOf_silence]
      cases event.isRoutine <;> simp

/--
Two runs whose command lines differ in nothing but that one asks for silence end with the same exit
code and the same files, call the same tools in the same way and print the same on standard output.
What the quiet one shows on standard error is what the other one shows without the status lines
about targets that are being built or were built, about the end of the build, and about removed
files; all else is kept, in order.  It makes no difference whether the lines are left out when they
come up or when they are shown.
-/
theorem quiet_hides_routine_lines_only {quietWords : List String} (heedless : runner.Heedless)
    (requested : Request.ofWords surroundings.words = .ok (.act options action))
    (loud : options.quiet = false)
    (silenced : Request.ofWords quietWords = .ok (.act options.silence action))
    (fresh : world.statusLines = []) :
    let quiet := { surroundings with words := quietWords }
    ∃ code after,
      run surroundings runner world =
          .ended code (console options surroundings.terminal) after ∧
        runThrough surroundings runner world = run surroundings runner world ∧
        (run quiet runner world).sight? = (runThrough quiet runner world).sight? ∧
        (runThrough quiet runner world).sight? =
          some ⟨code, after.tree, after.calls, Console.stdout after.trace,
            (after.trace.filter fun event => !event.isRoutine).flatMap
              (console options surroundings.terminal).stderrOf⟩ := by
  intro quiet
  obtain ⟨answer, after, other_after, acted, other_acted, loud_hushed⟩ :=
    @act_hushed surroundings options action runner world
      (console options surroundings.terminal).shell heedless fresh
  obtain ⟨quiet_answer, quiet_after, quiet_other, quiet_acted, quiet_other_acted, quiet_hushed⟩ :=
    @act_hushed quiet options.silence action runner world
      (console options.silence surroundings.terminal).shell heedless fresh
  -- Nothing that an action reads of its options is changed by silence.
  have same : conclude (act quiet options.silence action runner world) = (answer, after) := acted
  rw [quiet_acted, Prod.mk.injEq] at same
  obtain ⟨rfl, rfl⟩ := same
  obtain rfl := eq_of_hushed loud loud_hushed
  have ran : run surroundings runner world =
      .ended quiet_answer (console options surroundings.terminal) other_after := by
    simp only [run, requested, acted]
  have through : runThrough surroundings runner world =
      .ended quiet_answer (console options surroundings.terminal) other_after := by
    simp only [runThrough, requested, other_acted]
  have quiet_ran : run quiet runner world =
      .ended quiet_answer (console options.silence surroundings.terminal) other_after := by
    simp only [run, quiet, silenced, quiet_acted]
  have quiet_through : runThrough quiet runner world =
      .ended quiet_answer (console options.silence surroundings.terminal) quiet_other := by
    simp only [runThrough, quiet, silenced, quiet_other_acted]
  refine ⟨quiet_answer, other_after, ran, through.trans ran.symm, ?_, ?_⟩
  · rw [quiet_ran, quiet_through, Outcome.sight?_of_hushed quiet_hushed]
  · rw [quiet_through, Outcome.sight?_of_hushed quiet_hushed, Outcome.sight?, stderr_silence]

/-- The tool warns, and leaves both artifacts of the default manifest. -/
def grumbling : ProcessRunner where
  searchPath := { text := "/bin" }
  launcher := ⟨fun tree _ _ => .ok (
    { stdout := none
      stderr := some { reads := [.chunk (Utf8.encode "warning\n")] }
      wait := fun _ => .ok (.exited 0) },
    ["DSL_BUILD_SYS.so", "dieselc"].foldl (fun tree name =>
      tree.insert ["p", "bin", ".kiln-staging", name] (.file ⟨Utf8.encode name, true⟩)) tree)⟩
  sink := .accepting

/-- A quiet build shows the warnings of its tool and nothing else. -/
theorem quiet_build_keeps_warnings :
    grumbling.toRunner.Heedless ∧
      Request.ofWords ["build"] = .ok (.act {} (.build [])) ∧
      Request.ofWords ["--quiet", "build"] = .ok (.act (Options.silence {}) (.build [])) ∧
      withTool.statusLines = [] ∧
      ∃ after, run { words := ["build"] } grumbling.toRunner withTool = .ended 0 {} after ∧
        (run { words := ["--quiet", "build"] } grumbling.toRunner withTool).sight? =
          some ⟨0, after.tree, after.calls, [], Utf8.encode "warning\nwarning\n"⟩ := by
  have heedless := grumbling.toRunner_heedless
  have requested : Request.ofWords ["build"] = .ok (.act {} (.build [])) := by decide +kernel
  have silenced : Request.ofWords ["--quiet", "build"] =
      .ok (.act (Options.silence {}) (.build [])) :=
    Request.ofWords_silence (.inl rfl) requested rfl
  refine ⟨heedless, requested, silenced, rfl, ?_⟩
  obtain ⟨code, after, ran, -, same, seen⟩ :=
    @quiet_hides_routine_lines_only { words := ["build"] } {} (.build []) grumbling.toRunner
      withTool ["--quiet", "build"] heedless requested rfl silenced rfl
  have shown : (runThrough { words := ["--quiet", "build"] } grumbling.toRunner
      withTool).sight?.map (fun sight => (sight.exitCode, sight.output, sight.errors)) =
      some (0, [], Utf8.encode "warning\nwarning\n") := by decide +kernel
  dsimp only at same seen
  rw [seen, Option.map_some, Option.some.injEq] at shown
  simp only [Prod.mk.injEq] at shown
  obtain ⟨rfl, no_output, errors⟩ := shown
  exact ⟨after, ran, by rw [same, seen, no_output, errors]⟩

end Program
end StagedBuild
