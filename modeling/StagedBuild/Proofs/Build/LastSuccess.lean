import StagedBuild.Proofs.Build.Attempt

/-!
# The last successful attempt is installed

Attempts at one target follow each other, each with a tool that may behave in any way inside the
staging directory.  The file in the place of the artifact is the one that the tool of the last
successful attempt left in staging, where nothing was when that tool started; without a successful
attempt it is the file that was there before.
-/

namespace StagedBuild

open StagedBuild.Path (IsName)
open FileTree (IsBelow SameOutside)

/-- One of several attempts at a target. -/
structure Try where
  result : BuildResult
  /-- The run of its tool, unless the artifact could not be prepared. -/
  run? : Option ToolRun

namespace Build

variable {build : Build} {target : Target} {world : World}

/-- The same build with another tool. -/
def withRunner (build : Build) (runner : Runner) : Build :=
  { build with runner := runner }

/-- Attempts at one target, one for each runner. -/
def tries (build : Build) (target : Target) : List Runner → World → List Try × World
  | [], world => ([], world)
  | runner :: rest, world =>
      let (result, after) := (build.withRunner runner).attempt target world
      let (later, last) := build.tries target rest after
      (⟨result, (build.withRunner runner).toolRun? target world⟩ :: later, last)

theorem artifactPlace_of_plain (plain : Path.isPlainName (target.fileName build.platform) = true) :
    ∃ name, build.artifactPlace target world = build.outPlace world ++ [name] := by
  obtain ⟨relative, name, rest, segments_eq, is_name, trivials⟩ :=
    Path.segments_of_isPlainName plain
  refine ⟨name, ?_⟩
  rw [artifactPlace, StagedArtifact.locate, Path.place_join _ relative, segments_eq,
    List.foldl_cons, Path.enter_of_bodyComponent is_name.bodyComponent,
    Path.foldl_enter_of_isTrivial trivials, outPlace]

/-- An attempt installs what its own tool has left, or leaves the installed file alone. -/
theorem file?_attempt (plain : Path.isPlainName (target.fileName build.platform) = true)
    (confined : build.runner.ConfinedTo (build.stagingPlace world)) :
    (build.attempt target world).2.cwd = world.cwd ∧
      ((build.attempt target world).1.succeeded = false →
        (build.attempt target world).2.tree.file? (build.artifactPlace target world) =
          world.tree.file? (build.artifactPlace target world)) ∧
      ((build.attempt target world).1.succeeded = true →
        ∃ run file, build.toolRun? target world = some run ∧
          run.start.tree.entry? (build.stagedPlace target world) = none ∧
          run.left.tree.file? (build.stagedPlace target world) = some file ∧
          (build.attempt target world).2.tree.file? (build.artifactPlace target world) =
            some file) := by
  obtain ⟨name, place_eq⟩ := @artifactPlace_of_plain build target world plain
  have outside : ¬ IsBelow (build.stagingPlace world) (build.artifactPlace target world) := by
    rw [place_eq, stagingPlace_eq]
    exact FileTree.not_isBelow_sibling _ _ _
  have other : build.artifactPlace target world ≠ build.stagedPlace target world := by
    intro same
    exact outside (same ▸ isBelow_stagedPlace plain)
  cases ran : build.toolRun? target world with
  | none =>
      obtain ⟨error, refused⟩ := attempt_of_none ran
      rw [refused]
      exact ⟨(build.prepared_spec target world).1, fun _ => file?_prepared other,
        by simp [BuildResult.ofError]⟩
  | some run =>
      obtain ⟨others, moved⟩ := attempt_spec ran (toolRun_outside confined ran)
      obtain ⟨same_cwd, succeeds, -⟩ := attempt_transfers ran
      refine ⟨same_cwd, fun failed => ?_, fun succeeded => ?_⟩
      · rw [← file?_prepared other]
        refine FileTree.file?_congr (others _ outside fun name member same => ?_)
        obtain ⟨file_name, -⟩ := installed_spec ran member
        -- The file in the place of the artifact could only be the artifact itself.
        rw [artifactPlace_of_isName file_name] at same
        have artifact := (List.cons.inj (List.append_cancel_left same)).1
        rw [succeeds.mpr (artifact ▸ member)] at failed
        simp at failed
      · have member := succeeds.mp succeeded
        obtain ⟨file_name, -, ⟨file, left⟩, -⟩ := installed_spec ran member
        obtain ⟨-, -, -, -, absent, -⟩ := toolRun_spec ran
        refine ⟨run, file, rfl, absent file_name, ?_, ?_⟩
        · rw [stagedPlace_of_isName file_name]
          exact left
        · rw [artifactPlace_of_isName file_name, FileTree.file?_eq_some_iff, moved _ member]
          exact (FileTree.file?_eq_some_iff _).mp left

theorem tries_cons (runner : Runner) (rest : List Runner) :
    build.tries target (runner :: rest) world =
      (⟨((build.withRunner runner).attempt target world).1,
          (build.withRunner runner).toolRun? target world⟩ ::
        (build.tries target rest ((build.withRunner runner).attempt target world).2).1,
      (build.tries target rest ((build.withRunner runner).attempt target world).2).2) := rfl

/--
After any number of attempts at a target, with tools that behave in any way inside the staging
directory, the file in the place of the artifact is the one that was there before if no attempt has
succeeded, and else the one that the tool of the last successful attempt left in staging; when that
tool started, there was nothing in staging in its place.

The place is the one that the path names, with `..` segments taken by their names.  An output
directory `x/../bin` without `x` leads nowhere before the first attempt and to this place
afterwards, since the attempt creates `x`; what is said here is about the file in that place.
-/
theorem tries_install_last_success (runners : List Runner)
    (plain : Path.isPlainName (target.fileName build.platform) = true)
    (confined : ∀ runner ∈ runners, runner.ConfinedTo (build.stagingPlace world)) :
    ((∀ attempt ∈ (build.tries target runners world).1, attempt.result.succeeded = false) →
      (build.tries target runners world).2.tree.file? (build.artifactPlace target world) =
        world.tree.file? (build.artifactPlace target world)) ∧
      ∀ earlier last later,
        (build.tries target runners world).1 = earlier ++ last :: later →
        last.result.succeeded = true →
        (∀ attempt ∈ later, attempt.result.succeeded = false) →
        ∃ run file, last.run? = some run ∧
          run.start.tree.entry? (build.stagedPlace target world) = none ∧
          run.left.tree.file? (build.stagedPlace target world) = some file ∧
          (build.tries target runners world).2.tree.file? (build.artifactPlace target world) =
            some file := by
  induction runners generalizing world with
  | nil => exact ⟨fun _ => rfl, by simp [tries]⟩
  | cons runner rest induction =>
      obtain ⟨same_cwd, when_failed, when_succeeded⟩ :=
        @file?_attempt (build.withRunner runner) target world plain
          (confined runner List.mem_cons_self)
      have rest_confined : ∀ other ∈ rest, other.ConfinedTo (build.stagingPlace
          ((build.withRunner runner).attempt target world).2) := by
        intro other member
        rw [stagingPlace_of_cwd same_cwd]
        exact confined other (List.mem_cons_of_mem runner member)
      obtain ⟨rest_failed, rest_succeeded⟩ := induction rest_confined
      rw [artifactPlace_of_cwd same_cwd] at rest_failed rest_succeeded
      rw [stagedPlace_of_cwd same_cwd] at rest_succeeded
      rw [tries_cons]
      refine ⟨fun all_failed => ?_, fun earlier last later cut succeeded later_failed => ?_⟩
      · rw [rest_failed fun attempt member => all_failed attempt (List.mem_cons_of_mem _ member)]
        exact when_failed (all_failed _ List.mem_cons_self)
      · cases earlier with
        | nil =>
            obtain ⟨rfl, rfl⟩ := List.cons.inj cut
            obtain ⟨run, file, ran, nothing, left, installed⟩ := when_succeeded succeeded
            exact ⟨run, file, ran, nothing, left, (rest_failed later_failed).trans installed⟩
        | cons first earlier =>
            exact rest_succeeded earlier last later (List.cons.inj cut).2 succeeded later_failed

/-- A tool that writes an executable, and then succeeds or fails. -/
def executableTool (content : String) (succeeds : Bool) : Runner :=
  Runner.writing [(["p", "bin", ".kiln-staging", "app"], ⟨Utf8.encode content, true⟩)] succeeds

/-- The build of a project in `/p`. -/
def projectBuild : Build :=
  ofRoot (executableTool "" false) .unix ⟨"/p"⟩

/-- After a success and a failure the executable is that of the success. -/
theorem tries_keep_first_executable :
    (projectBuild.tries .application [executableTool "one" true, executableTool "two" false]
      .project).2.tree.file? ["p", "bin", "app"] = some ⟨Utf8.encode "one", true⟩ := by
  obtain ⟨staging, place⟩ :
      projectBuild.stagingPlace .project = ["p", "bin", ".kiln-staging"] ∧
        projectBuild.artifactPlace .application .project = ["p", "bin", "app"] := by
    decide +kernel
  have left_bytes :
      ((projectBuild.withRunner (executableTool "one" true)).toolRun? .application
        .project).bind (fun run =>
          run.left.tree.file? (projectBuild.stagedPlace .application .project)) =
        some ⟨Utf8.encode "one", true⟩ := by
    decide +kernel
  have confined : ∀ runner ∈ [executableTool "one" true, executableTool "two" false],
      runner.ConfinedTo (projectBuild.stagingPlace .project) := by
    rw [staging]
    intro runner member
    simp only [List.mem_cons, List.not_mem_nil, or_false] at member
    rcases member with rfl | rfl <;> exact Runner.writing_confinedTo (by decide)
  obtain ⟨run, file, ran, -, left, installed⟩ :=
    (@tries_install_last_success projectBuild .application .project _ (by decide +kernel)
      confined).2 [] _ _
      (congrArg Prod.fst (tries_cons _ _)) (by decide +kernel) (by decide +kernel)
  change (projectBuild.withRunner (executableTool "one" true)).toolRun? .application
    .project = some run at ran
  rw [ran, Option.bind_some, left] at left_bytes
  rw [← place, installed, left_bytes]

end Build
end StagedBuild
