import StagedBuild.Manifest.Basic
import StagedBuild.Proofs.Build.FirstFailure
import StagedBuild.Proofs.Build.Attempt

/-!
# Whose artifact is installed

When every tool writes the one file that its output argument names, a run that succeeds installs for
each target the file that its own tool wrote, unless a later target has an artifact of the same file
name.  Nothing keeps two targets from sharing a file name: a manifest is accepted when the names of
its targets differ, and the last of the targets that share one keeps the file.
-/

namespace StagedBuild

open StagedBuild.Path (IsName)
open FileTree (IsBelow SameOutside)

/-- The tool changes nothing but the file that its first output argument names. -/
def Runner.WritesOnlyOutput (runner : Runner) : Prop :=
  ∀ (world : World) (target : Target) (invocation : Invocation) (text : String),
    Invocation.valueOf? Toolchain.outputFlag invocation.args = some text →
    ∀ place, place ≠ (Path.mk text).place (invocation.cwd.place world.cwd) →
      (runner.run world target invocation).tree.entry? place = world.tree.entry? place

/-- The tool that writes the name of its target into the file that its output argument names. -/
def Runner.naming : Runner where
  run world target invocation :=
    { result := .success target 0
      tree := (Invocation.valueOf? Toolchain.outputFlag invocation.args).elim world.tree fun text =>
        world.tree.insert ((Path.mk text).place (invocation.cwd.place world.cwd))
          (.file ⟨Utf8.encode target.name, true⟩) }

theorem Runner.naming_writesOnlyOutput : Runner.naming.WritesOnlyOutput := by
  intro world target invocation text output_eq place other
  simp [Runner.naming, output_eq, FileTree.entry?_insert, other]

/-- Every invocation of a toolchain has an output argument. -/
theorem Toolchain.valueOf?_invocation (toolchain : Toolchain) (target : Target)
    (output cwd : Path) :
    ∃ text, Invocation.valueOf? Toolchain.outputFlag
      (toolchain.invocation target output cwd).args = some text := by
  rw [← Option.isSome_iff_exists, Invocation.valueOf?, List.findSome?_isSome_iff]
  refine ⟨Toolchain.outputFlag ++ output.text, by simp [Toolchain.invocation], ?_⟩
  simp

namespace Build

variable {build : Build} {target : Target} {world : World}

/-- In an attempt that succeeds the tool has written the staged artifact and nothing else. -/
theorem tool_writes_staged {run : ToolRun} (writes : build.runner.WritesOnlyOutput)
    (ran : build.toolRun? target world = some run)
    (succeeded : (build.attempt target world).1.succeeded = true) {place : Location}
    (other : place ≠ build.stagedPlace target world) :
    run.left.tree.entry? place = (build.prepared target world).tree.entry? place := by
  obtain ⟨-, -, start_tree, -, absent, report_eq⟩ := toolRun_spec ran
  obtain ⟨-, succeeds, -⟩ := attempt_transfers ran
  obtain ⟨file_name, -, ⟨file, left⟩, -⟩ := installed_spec ran (succeeds.mp succeeded)
  obtain ⟨text, output_eq⟩ := build.toolchain.valueOf?_invocation target
    run.artifact.stagingPath (build.workingDir target)
  have written := writes run.start target (build.invocation target run.artifact) text output_eq
  rw [← report_eq, start_tree] at written
  -- The staged artifact is new, so it is the one file that was written.
  have staged : build.stagedPlace target world =
      (Path.mk text).place
        ((build.invocation target run.artifact).cwd.place run.start.cwd) := by
    by_contra differs
    have unchanged := written _ differs
    rw [← start_tree, absent file_name] at unchanged
    rw [← stagedPlace_of_isName file_name, FileTree.file?_eq_some_iff] at left
    exact absurd (left.symm.trans unchanged) (by simp)
  exact written place (staged ▸ other)

/-- From one world to another, a run of the tool installs its own file for the target. -/
structure InstallsOwn (build : Build) (target : Target) (run? : Option ToolRun)
    (world after : World) : Prop where
  same_cwd : after.cwd = world.cwd
  /-- The artifact lies directly in the output directory. -/
  is_name : IsName (target.fileName build.platform)
  /-- What the tool left in staging, where nothing was when it started, is installed. -/
  own_file : ∃ run file, run? = some run ∧
    run.start.tree.entry? (build.stagedPlace target world) = none ∧
    run.left.tree.file? (build.stagedPlace target world) = some file ∧
    after.tree.file? (build.artifactPlace target world) = some file
  /-- The artifact is not in staging any more. -/
  unstaged :
    after.tree.file? (build.stagingPlace world ++ [target.fileName build.platform]) = none
  /-- Where nothing is staged under another name, the installed file of that name stays. -/
  others : ∀ name, name ≠ target.fileName build.platform →
    world.tree.file? (build.stagingPlace world ++ [name]) = none →
    after.tree.file? (build.stagingPlace world ++ [name]) = none ∧
      after.tree.file? (build.outPlace world ++ [name]) =
        world.tree.file? (build.outPlace world ++ [name])

theorem installsOwn_attempt (writes : build.runner.WritesOnlyOutput)
    (succeeded : (build.attempt target world).1.succeeded = true) :
    build.InstallsOwn target (build.toolRun? target world) world
      (build.attempt target world).2 := by
  cases ran : build.toolRun? target world with
  | none =>
      obtain ⟨error, refused⟩ := attempt_of_none ran
      simp [refused, BuildResult.ofError] at succeeded
  | some run =>
      obtain ⟨same_cwd, succeeds, middle, transfers, -, clean⟩ := attempt_transfers ran
      have member := succeeds.mp succeeded
      obtain ⟨file_name, -, ⟨file, left⟩, -⟩ := installed_spec ran member
      obtain ⟨-, -, -, -, absent, -⟩ := toolRun_spec ran
      have untouched := fun place other =>
        FileTree.file?_congr (@tool_writes_staged build target world run writes ran succeeded
          place other)
      rw [← clean succeeded] at transfers
      refine ⟨same_cwd, file_name, ⟨run, file, rfl, absent file_name, ?_, ?_⟩, ?_, ?_⟩
      · rw [stagedPlace_of_isName file_name]
        exact left
      · rw [artifactPlace_of_isName file_name, FileTree.file?_eq_some_iff,
          transfers.installed _ member]
        exact (FileTree.file?_eq_some_iff _).mp left
      · simp [FileTree.file?, transfers.taken _ member]
      · intro name differs unstaged
        have staged_other : build.stagingPlace world ++ [name] ≠
            build.stagedPlace target world := by
          rw [stagedPlace_of_isName file_name]
          simpa using differs
        have out_other : build.outPlace world ++ [name] ≠ build.stagedPlace target world := by
          rw [stagedPlace_of_isName file_name]
          exact (build.stagingPlace_apart world _ name).symm
        have left_unstaged : run.left.tree.file? (build.stagingPlace world ++ [name]) = none := by
          rw [untouched _ staged_other, file?_prepared staged_other, unstaged]
        -- What is not in staging is not moved.
        have not_moved : ∀ moved ∈ run.installed, moved ≠ name := by
          rintro moved moved_mem rfl
          obtain ⟨-, -, ⟨found, holds⟩, -⟩ := installed_spec ran moved_mem
          simp [left_unstaged] at holds
        have staged_kept := transfers.others (build.stagingPlace world ++ [name])
          fun moved member => ⟨build.stagingPlace_apart world name moved, by
            simpa using (not_moved moved member).symm⟩
        have out_kept := transfers.others (build.outPlace world ++ [name])
          fun moved member => ⟨by simpa using (not_moved moved member).symm,
            (build.stagingPlace_apart world moved name).symm⟩
        constructor
        · rw [FileTree.file?_congr staged_kept, left_unstaged]
        · rw [FileTree.file?_congr out_kept, untouched _ out_other, file?_prepared out_other]

/-- A run that succeeds takes a first turn that succeeds, and goes on as one that succeeds. -/
theorem runFrom_cons_of_succeeded {index : Nat} {rest : List Target}
    (succeeded : (build.runFrom index (.before index) (target :: rest) world).2.1 = true) :
    (build.resultOf (Turn.next index target world)).succeeded = true ∧
      (build.runFrom index (.before index) (target :: rest) world).2 =
        (build.runFrom (index + 1) (.before (index + 1)) rest
          (build.finish (Turn.next index target world))).2 := by
  have result_eq := build.succeeded_resultOf (Turn.next index target world)
  cases failed : build.turnFails (Turn.next index target world) with
  | true =>
      rw [runFrom_cons_of_fails failed] at succeeded
      simp at succeeded
  | false =>
      exact ⟨by rw [result_eq, failed, Bool.not_false], by rw [runFrom_cons_of_succeeds failed]⟩

/-- A turn that succeeds installs its own file: the events around the attempt change no file. -/
theorem installsOwn_finish {index : Nat} (writes : build.runner.WritesOnlyOutput)
    (succeeded : (build.resultOf (Turn.next index target world)).succeeded = true) :
    build.InstallsOwn target (build.toolRun? target (Turn.next index target world).start) world
      (build.finish (Turn.next index target world)) := by
  obtain ⟨same_cwd, is_name, own_file, unstaged, others⟩ := installsOwn_attempt writes succeeded
  exact ⟨same_cwd, is_name, own_file, unstaged, others⟩

/-- A run that succeeds leaves an installed file alone when no target has an artifact of its name
and nothing of that name is staged. -/
theorem file?_runFrom {index : Nat} {targets : List Target} {name : String}
    (writes : build.runner.WritesOnlyOutput)
    (succeeded : (build.runFrom index (.before index) targets world).2.1 = true)
    (unshared : ∀ target ∈ targets, target.fileName build.platform ≠ name)
    (unstaged : world.tree.file? (build.stagingPlace world ++ [name]) = none) :
    (build.runFrom index (.before index) targets world).2.2.2.tree.file?
        (build.outPlace world ++ [name]) =
      world.tree.file? (build.outPlace world ++ [name]) := by
  induction targets generalizing index world with
  | nil => rfl
  | cons target rest induction =>
      obtain ⟨first_succeeds, same_rest⟩ := runFrom_cons_of_succeeded succeeded
      have installs := installsOwn_finish writes first_succeeds
      obtain ⟨staged_kept, out_kept⟩ :=
        installs.others name (unshared target List.mem_cons_self).symm unstaged
      rw [same_rest] at succeeded ⊢
      rw [← stagingPlace_of_cwd installs.same_cwd] at staged_kept
      have later := induction succeeded
        (fun other member => unshared other (List.mem_cons_of_mem target member)) staged_kept
      rw [outPlace_of_cwd installs.same_cwd] at later
      exact later.trans out_kept

/-- Each turn of a run that succeeds installs a file that stays, unless its name is shared. -/
theorem own_file_runFrom {index : Nat} {earlier later : List Target}
    (writes : build.runner.WritesOnlyOutput)
    (succeeded :
      (build.runFrom index (.before index) (earlier ++ target :: later) world).2.1 = true)
    (unshared : ∀ other ∈ later,
      other.fileName build.platform ≠ target.fileName build.platform) :
    build.artifactPlace target world =
        build.outPlace world ++ [target.fileName build.platform] ∧
      ∃ turn run file,
        (build.turnsFrom index (earlier ++ target :: later) world)[earlier.length]? = some turn ∧
        turn.target = target ∧
        build.toolRun? target turn.start = some run ∧
        run.start.tree.entry? (build.stagedPlace target world) = none ∧
        run.left.tree.file? (build.stagedPlace target world) = some file ∧
        (build.runFrom index (.before index) (earlier ++ target :: later) world).2.2.2.tree.file?
          (build.artifactPlace target world) = some file := by
  induction earlier generalizing index world with
  | nil =>
      rw [List.nil_append] at succeeded ⊢
      obtain ⟨first_succeeds, same_rest⟩ := runFrom_cons_of_succeeded succeeded
      have installs := installsOwn_finish writes first_succeeds
      obtain ⟨run, file, ran, absent, left, installed⟩ := installs.own_file
      have place_eq := @artifactPlace_of_isName build target world installs.is_name
      refine ⟨place_eq, Turn.next index target world, run, file, rfl, rfl, ran, absent, left, ?_⟩
      rw [same_rest] at succeeded ⊢
      have kept := file?_runFrom writes succeeded unshared
        (by rw [stagingPlace_of_cwd installs.same_cwd]; exact installs.unstaged)
      rw [outPlace_of_cwd installs.same_cwd, ← place_eq] at kept
      exact kept.trans installed
  | cons first earlier induction =>
      rw [List.cons_append] at succeeded ⊢
      obtain ⟨first_succeeds, same_rest⟩ := runFrom_cons_of_succeeded succeeded
      have same_cwd := (installsOwn_finish writes first_succeeds).same_cwd
      rw [same_rest] at succeeded ⊢
      have rest := induction succeeded
      rw [artifactPlace_of_cwd same_cwd, outPlace_of_cwd same_cwd,
        stagedPlace_of_cwd same_cwd] at rest
      exact rest

/--
When every tool writes only the file that its output argument names, a run that succeeds leaves in
the place of an artifact the file that the tool of its own target left in staging, where nothing was
when that tool started, unless a later target has an artifact of the same file name.  So targets of
different file names leave as many artifacts.
-/
theorem run_installs_own_artifact {earlier later : List Target}
    (writes : build.runner.WritesOnlyOutput)
    (succeeded : (build.runAll (earlier ++ target :: later) world).1.succeeded = true)
    (unshared : ∀ other ∈ later,
      other.fileName build.platform ≠ target.fileName build.platform) :
    build.artifactPlace target world =
        build.outPlace world ++ [target.fileName build.platform] ∧
      ∃ turn run file,
        (build.turns (earlier ++ target :: later) world)[earlier.length]? = some turn ∧
        turn.target = target ∧
        build.toolRun? target turn.start = some run ∧
        run.start.tree.entry? (build.stagedPlace target world) = none ∧
        run.left.tree.file? (build.stagedPlace target world) = some file ∧
        (build.runAll (earlier ++ target :: later) world).2.tree.file?
          (build.artifactPlace target world) = some file :=
  @own_file_runFrom build target world 0 earlier later writes succeeded unshared

/-- The build of the project in `/p` with the tool that writes names. -/
def namingBuild : Build :=
  ofRoot .naming .unix ⟨"/p"⟩

/-- What the tool of the target at an index left in staging, with the tool that writes names. -/
def namedFile? (targets : List Target) (index : Nat) : Option File := do
  let turn ← (namingBuild.turns targets World.project)[index]?
  let run ← namingBuild.toolRun? turn.target turn.start
  run.left.tree.file? (namingBuild.stagedPlace turn.target World.project)

/-- A manifest with an executable and a library that are both called `app`. -/
def namesakes : Manifest :=
  { Manifest.default with targets :=
    [.minimal "app" .executable,
      { TargetEntry.minimal "lib" .library with outputName := some "app" }] }

/-- The suffix of the library keeps the two artifacts apart. -/
theorem namesakes_keep_executable :
    namesakes.validate = .ok () ∧
      (namingBuild.runAll namesakes.allTargets World.project).2.tree.file? ["p", "bin", "app"] =
        some ⟨Utf8.encode "app", true⟩ := by
  refine ⟨by decide +kernel, ?_⟩
  obtain ⟨executable, library, targets_eq⟩ : ∃ executable library,
      namesakes.allTargets = [] ++ executable :: [library] := ⟨_, _, rfl⟩
  obtain ⟨place, unshared⟩ :
      (∀ target ∈ namesakes.allTargets.head?,
        namingBuild.artifactPlace target World.project = ["p", "bin", "app"]) ∧
      ∀ other ∈ namesakes.allTargets.tail, ∀ target ∈ namesakes.allTargets.head?,
        other.fileName .unix ≠ target.fileName .unix := by
    decide +kernel
  obtain ⟨succeeded, left_bytes⟩ :
      (namingBuild.runAll namesakes.allTargets World.project).1.succeeded = true ∧
        namedFile? namesakes.allTargets 0 = some ⟨Utf8.encode "app", true⟩ := by
    decide +kernel
  rw [targets_eq] at place unshared left_bytes succeeded ⊢
  obtain ⟨-, turn, run, file, at_turn, rfl, ran, -, left, installed⟩ :=
    run_installs_own_artifact Runner.naming_writesOnlyOutput succeeded
      fun other member => unshared other member executable rfl
  rw [List.length_nil] at at_turn
  rw [namedFile?, at_turn] at left_bytes
  simp only [Option.bind_eq_bind, Option.bind_some, ran, left] at left_bytes
  rw [← place _ rfl, installed, left_bytes]

/-- A manifest with two executables that are both called `app`. -/
def rivals : Manifest :=
  { Manifest.default with targets :=
    [{ TargetEntry.minimal "first" .executable with outputName := some "app" },
      { TargetEntry.minimal "second" .executable with outputName := some "app" }] }

/-- The manifest is accepted, and its second target overwrites the artifact of the first. -/
theorem rivals_overwrite_executable :
    rivals.validate = .ok () ∧
      namingBuild.runner.WritesOnlyOutput ∧
      (namingBuild.runAll rivals.allTargets World.project).1.succeeded = true ∧
      namedFile? rivals.allTargets 0 = some ⟨Utf8.encode "first", true⟩ ∧
      ∀ target ∈ rivals.allTargets.head?,
        (namingBuild.runAll rivals.allTargets World.project).2.tree.file?
          (namingBuild.artifactPlace target World.project) =
            some ⟨Utf8.encode "second", true⟩ :=
  ⟨by decide +kernel, Runner.naming_writesOnlyOutput, by decide +kernel⟩

end Build
end StagedBuild
