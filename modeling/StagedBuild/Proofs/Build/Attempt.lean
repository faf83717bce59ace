import StagedBuild.Build.Run
import StagedBuild.Proofs.Build.Commit

/-!
# One attempt

An attempt either refuses to prepare the artifact, or runs the tool once.  When the tool writes only
inside the staging directory, everything outside of it is as the preparation left it, apart from
the files that the commit moved into place; and the attempt succeeds exactly when the artifact
itself is one of these.
-/

namespace StagedBuild

open StagedBuild.Path (IsName)
open FileTree (IsBelow SameOutside GrowsAt)

/-- A project in `/p` without artifacts. -/
def World.project : World where
  tree := FileTree.empty.insert ["p"] .directory
  cwd := ["p"]

/-- The executable of the project. -/
def Target.application : Target := .named "app" .executable ⟨"."⟩

/-- The tool changes nothing outside the staging directory, whatever it is asked to do. -/
def Runner.ConfinedTo (runner : Runner) (staging : Location) : Prop :=
  ∀ world target invocation,
    SameOutside staging world.tree (runner.run world target invocation).tree

/-- The tool that writes the same files at every call, and then succeeds or fails. -/
def Runner.writing (files : List (Location × File)) (succeeds : Bool) : Runner where
  run world target _ :=
    { result :=
        if succeeds then .success target 0
        else .ofError target (.toolExitedNonZero "odin" 1) 0
      tree := files.foldl (fun tree item => tree.insert item.1 (.file item.2)) world.tree }

theorem Runner.writing_confinedTo {files : List (Location × File)} {succeeds : Bool}
    {staging : Location} (inside : ∀ item ∈ files, IsBelow staging item.1) :
    (Runner.writing files succeeds).ConfinedTo staging := by
  have folded : ∀ tree : FileTree, SameOutside staging tree
      (files.foldl (fun tree item => tree.insert item.1 (.file item.2)) tree) := by
    induction files with
    | nil => exact fun tree => SameOutside.refl staging tree
    | cons item files induction =>
        intro tree
        exact (tree.sameOutside_insert (inside item List.mem_cons_self) _).trans
          (induction (fun other member => inside other (List.mem_cons_of_mem item member)) _)
  exact fun world _ _ => folded world.tree

/-- One run of the tool in an attempt. -/
structure ToolRun where
  /-- The artifact that was prepared. -/
  artifact : StagedArtifact
  /-- The world in which the tool starts. -/
  start : World
  report : RunnerReport

namespace ToolRun

/-- The world that the tool leaves. -/
def left (run : ToolRun) : World :=
  { run.start with tree := run.report.tree }.emit (run.report.events.map .tool)

/-- The names of the files that are moved into place after the run. -/
def installed (run : ToolRun) : List String :=
  if run.report.result.succeeded then run.artifact.movedNames run.left.tree run.left.cwd else []

end ToolRun

namespace Build

/-- The output directory. -/
def outPlace (build : Build) (world : World) : Location :=
  (world.resolve build.outDir).place world.cwd

/-- The staging directory. -/
def stagingPlace (build : Build) (world : World) : Location :=
  (StagedArtifact.stagingOf (world.resolve build.outDir)).place world.cwd

/-- Where the artifact of a target is installed. -/
def artifactPlace (build : Build) (target : Target) (world : World) : Location :=
  (StagedArtifact.locate build.platform (world.resolve build.outDir) target).path.place world.cwd

/-- Where the artifact of a target is staged. -/
def stagedPlace (build : Build) (target : Target) (world : World) : Location :=
  (StagedArtifact.locate build.platform (world.resolve build.outDir) target).stagingPath.place
    world.cwd

/-- The world once the artifact is prepared, or once that has failed. -/
def prepared (build : Build) (target : Target) (world : World) : World :=
  (StagedArtifact.prepare build.platform build.outDir target world).2

/-- The run of the tool once the artifact is prepared. -/
def toolRun (build : Build) (target : Target) (artifact : StagedArtifact) (world : World) :
    ToolRun :=
  let invocation := build.invocation target artifact
  let start := (world.emit (.started target artifact.path
    :: (build.observer.onStart target artifact.path).map .status)).emit
      [.called target invocation]
  ⟨artifact, start, build.runner.run start target invocation⟩

/-- The run of the tool in an attempt, unless the artifact cannot be prepared. -/
def toolRun? (build : Build) (target : Target) (world : World) : Option ToolRun :=
  match StagedArtifact.prepare build.platform build.outDir target world with
  | (.error _, _) => none
  | (.ok artifact, world) => some (build.toolRun target artifact world)

variable {build : Build} {target : Target} {world : World}

theorem stagingPlace_eq (build : Build) (world : World) :
    build.stagingPlace world = build.outPlace world ++ [StagedArtifact.stagingName] :=
  StagedArtifact.place_stagingOf _ _

theorem isBelow_stagedPlace (plain : Path.isPlainName (target.fileName build.platform) = true) :
    IsBelow (build.stagingPlace world) (build.stagedPlace target world) :=
  (StagedArtifact.isBelow_stagingPath plain world.cwd).2

theorem artifactPlace_of_isName (is_name : IsName (target.fileName build.platform)) :
    build.artifactPlace target world =
      build.outPlace world ++ [target.fileName build.platform] :=
  Path.place_join_name _ is_name _

theorem stagedPlace_of_isName (is_name : IsName (target.fileName build.platform)) :
    build.stagedPlace target world =
      build.stagingPlace world ++ [target.fileName build.platform] :=
  Path.place_join_name _ is_name _

theorem stagingPlace_apart (build : Build) (world : World) (staged installed : String) :
    build.stagingPlace world ++ [staged] ≠ build.outPlace world ++ [installed] :=
  StagedArtifact.staging_apart _ _ _ _

theorem resolve_of_cwd {after : World} (same : after.cwd = world.cwd) (path : Path) :
    after.resolve path = world.resolve path := by
  rw [World.resolve, World.resolve, World.cwdPath, World.cwdPath, same]

theorem outPlace_of_cwd {after : World} (same : after.cwd = world.cwd) :
    build.outPlace after = build.outPlace world := by
  rw [outPlace, outPlace, resolve_of_cwd same, same]

theorem stagingPlace_of_cwd {after : World} (same : after.cwd = world.cwd) :
    build.stagingPlace after = build.stagingPlace world := by
  rw [stagingPlace, stagingPlace, resolve_of_cwd same, same]

theorem artifactPlace_of_cwd {after : World} (same : after.cwd = world.cwd) :
    build.artifactPlace target after = build.artifactPlace target world := by
  rw [artifactPlace, artifactPlace, resolve_of_cwd same, same]

theorem stagedPlace_of_cwd {after : World} (same : after.cwd = world.cwd) :
    build.stagedPlace target after = build.stagedPlace target world := by
  rw [stagedPlace, stagedPlace, resolve_of_cwd same, same]

/-- Without a run of the tool an attempt is over once the preparation has failed. -/
theorem attempt_of_none (refused : build.toolRun? target world = none) :
    ∃ error, build.attempt target world = (.ofError target error 0, build.prepared target world) := by
  rw [toolRun?] at refused
  split at refused
  · rename_i error after prepared_eq
    exact ⟨error, by simp only [attempt, prepared, prepared_eq]⟩
  · simp at refused

/-- With a run of the tool an attempt discards or commits what the tool has left. -/
theorem attempt_of_toolRun {run : ToolRun} (ran : build.toolRun? target world = some run) :
    build.attempt target world =
      if run.report.result.succeeded then
        match run.artifact.commit run.left with
        | (.ok (), after) => (run.report.result, after)
        | (.error error, after) =>
            (.ofError target error run.report.result.milliseconds, after)
      else (run.report.result, run.artifact.discard run.left) := by
  rw [toolRun?] at ran
  split at ran
  · simp at ran
  · rename_i artifact middle prepared_eq
    obtain rfl := Option.some.inj ran
    have call_eq : build.call target (build.invocation target artifact)
        (middle.emit (.started target artifact.path
          :: (build.observer.onStart target artifact.path).map .status)) =
        ((build.toolRun target artifact middle).report.result,
          (build.toolRun target artifact middle).left) := rfl
    have artifact_eq : (build.toolRun target artifact middle).artifact = artifact := rfl
    simp only [attempt, prepared_eq, call_eq, artifact_eq]
    cases (build.toolRun target artifact middle).report.result.succeeded with
    | false => rfl
    | true => rfl

/-- With a run of the tool, an attempt leaves the world that the commit or the discard leaves. -/
theorem world_attempt_of_toolRun {run : ToolRun} (ran : build.toolRun? target world = some run) :
    (build.attempt target world).2 =
      if run.report.result.succeeded then (run.artifact.commit run.left).2
      else run.artifact.discard run.left := by
  rw [attempt_of_toolRun ran]
  split
  · split <;> simp only [*]
  · rfl

theorem toolRun_spec {run : ToolRun} (ran : build.toolRun? target world = some run) :
    run.artifact =
        StagedArtifact.locate build.platform (world.resolve build.outDir) target ∧
      Path.isPlainName (target.fileName build.platform) = true ∧
      run.start.tree = (build.prepared target world).tree ∧
      run.left.cwd = world.cwd ∧
      (IsName (target.fileName build.platform) →
        run.start.tree.entry? (build.stagedPlace target world) = none) ∧
      run.report = build.runner.run run.start target (build.invocation target run.artifact) := by
  rw [toolRun?] at ran
  split at ran
  · simp at ran
  · rename_i artifact middle prepared_eq
    obtain rfl := Option.some.inj ran
    obtain ⟨same_cwd, -, when_ok⟩ := StagedArtifact.prepare_spec prepared_eq
    obtain ⟨artifact_eq, plain, -, absent⟩ := when_ok artifact rfl
    have prepared_tree : (build.prepared target world).tree = middle.tree := by
      rw [prepared, prepared_eq]
    rw [artifact_eq] at absent
    exact ⟨artifact_eq, plain, prepared_tree.symm, same_cwd, absent, rfl⟩

/-- The staging directory is open when the tool starts. -/
theorem opens_of_toolRun {run : ToolRun} (ran : build.toolRun? target world = some run) :
    run.start.tree.Opens world.cwd (StagedArtifact.stagingOf (world.resolve build.outDir)) := by
  rw [toolRun?] at ran
  split at ran
  · simp at ran
  · rename_i artifact middle prepared_eq
    obtain rfl := Option.some.inj ran
    obtain ⟨-, -, when_ok⟩ := StagedArtifact.prepare_spec prepared_eq
    exact (when_ok artifact rfl).2.2.1

/-- What preparing an artifact changes: new directories, and the staged file. -/
theorem prepared_spec (build : Build) (target : Target) (world : World) :
    (build.prepared target world).cwd = world.cwd ∧
      ∃ middle, GrowsAt (StagedArtifact.chain (world.resolve build.outDir) world.cwd)
          world.tree middle ∧
        ((build.prepared target world).tree = middle ∨
          Path.isPlainName (target.fileName build.platform) = true ∧
            (build.prepared target world).tree =
              middle.erase (build.stagedPlace target world)) := by
  obtain ⟨same_cwd, changed, -⟩ := StagedArtifact.prepare_spec (Prod.ext rfl rfl :
    StagedArtifact.prepare build.platform build.outDir target world =
      (_, build.prepared target world))
  exact ⟨same_cwd, changed⟩

/-- Preparing an artifact may create directories outside of staging, and does nothing else there. -/
theorem prepared_outside {place : Location}
    (outside : ¬ IsBelow (build.stagingPlace world) place) :
    (build.prepared target world).tree.entry? place = world.tree.entry? place ∨
      place ∈ StagedArtifact.chain (world.resolve build.outDir) world.cwd ∧
        world.tree.entry? place = none ∧
        (build.prepared target world).tree.entry? place = some .directory := by
  obtain ⟨-, middle, grows, kept | ⟨plain, erased⟩⟩ := build.prepared_spec target world
  · rw [kept]
    exact grows place
  · rw [erased, FileTree.sameOutside_erase middle (isBelow_stagedPlace plain) place outside]
    exact grows place

/-- Preparing an artifact leaves every file alone but the staged one. -/
theorem file?_prepared {place : Location} (other : place ≠ build.stagedPlace target world) :
    (build.prepared target world).tree.file? place = world.tree.file? place := by
  obtain ⟨-, middle, grows, kept | ⟨-, erased⟩⟩ := build.prepared_spec target world
  · rw [kept, grows.file]
  · rw [erased, ← grows.file]
    refine FileTree.file?_congr ?_
    rw [FileTree.entry?_erase, if_neg fun same => other same.1]

theorem toolRun_outside {run : ToolRun}
    (confined : build.runner.ConfinedTo (build.stagingPlace world))
    (ran : build.toolRun? target world = some run) :
    SameOutside (build.stagingPlace world) (build.prepared target world).tree run.left.tree := by
  obtain ⟨-, -, start_tree, -, -, report_eq⟩ := toolRun_spec ran
  have outside := confined run.start target (build.invocation target run.artifact)
  rw [← report_eq, start_tree] at outside
  exact outside

/-- What is moved into place was left as a file in staging, and its place was not a directory. -/
theorem installed_spec {run : ToolRun} {name : String}
    (ran : build.toolRun? target world = some run) (moved : name ∈ run.installed) :
    IsName (target.fileName build.platform) ∧ IsName name ∧
      (∃ file, run.left.tree.file? (build.stagingPlace world ++ [name]) = some file) ∧
      run.left.tree.isDirectory (build.outPlace world ++ [name]) = false ∧
      name ≠ StagedArtifact.stagingName ∧
      (StagedArtifact.isCompanionName target.outputName name = true ∨
        name = target.fileName build.platform) := by
  obtain ⟨artifact_eq, plain, -, left_cwd, -, -⟩ := toolRun_spec ran
  rw [ToolRun.installed] at moved
  split at moved
  · rw [artifact_eq, left_cwd] at moved
    obtain ⟨file_name, is_name, found, free, kind⟩ := StagedArtifact.movedNames_spec plain moved
    obtain ⟨located, file, holds⟩ := FileTree.isFileAt_iff.mp found
    rw [Path.place_join_name _ is_name] at holds
    refine ⟨file_name, is_name, ⟨file, holds⟩, free, ?_, kind⟩
    rintro rfl
    obtain ⟨-, opens, -⟩ := (FileTree.locate_join_name_iff is_name).mp located
    have staging_free := free
    rw [← StagedArtifact.place_stagingOf, opens.2] at staging_free
    simp at staging_free
  · simp at moved

/-- An attempt succeeds exactly when the artifact is moved into place, and then it does not clean up
in staging. -/
theorem attempt_transfers {run : ToolRun} (ran : build.toolRun? target world = some run) :
    (build.attempt target world).2.cwd = world.cwd ∧
      ((build.attempt target world).1.succeeded = true ↔
        target.fileName build.platform ∈ run.installed) ∧
      ∃ middle, Transfers (build.stagingPlace world) (build.outPlace world) run.installed
          run.left.tree middle ∧
        SameOutside (build.stagingPlace world) middle (build.attempt target world).2.tree ∧
        ((build.attempt target world).1.succeeded = true →
          (build.attempt target world).2.tree = middle) := by
  obtain ⟨artifact_eq, plain, -, left_cwd, -, -⟩ := toolRun_spec ran
  rw [attempt_of_toolRun ran, ToolRun.installed]
  split
  · rename_i reported
    cases committed : run.artifact.commit run.left with
    | mk result after =>
        rw [artifact_eq] at committed ⊢
        obtain ⟨same_cwd, transfers, complete⟩ := StagedArtifact.commit_spec plain committed
        rw [left_cwd] at same_cwd transfers complete ⊢
        cases result with
        | ok done =>
            exact ⟨same_cwd, by simp [reported, ← complete], after.tree, transfers,
              SameOutside.refl _ _, fun _ => rfl⟩
        | error error =>
            exact ⟨same_cwd, by simp [BuildResult.ofError, ← complete], after.tree, transfers,
              SameOutside.refl _ _, fun _ => rfl⟩
  · rename_i failed
    have failed : run.report.result.succeeded = false := by simpa using failed
    rw [artifact_eq]
    obtain ⟨same_cwd, discarded⟩ :=
      @StagedArtifact.discard_spec build.platform (world.resolve build.outDir) target plain run.left
    rw [left_cwd] at same_cwd discarded
    exact ⟨same_cwd, by simp [failed], run.left.tree, Transfers.nil, discarded, by simp [failed]⟩

/-- An attempt that succeeds has moved every file of its target that was found in staging. -/
theorem mem_installed_iff {run : ToolRun} {name : String}
    (ran : build.toolRun? target world = some run)
    (succeeded : (build.attempt target world).1.succeeded = true) :
    name ∈ run.installed ↔ target.Owns build.platform name ∧ run.left.tree.isFileAt world.cwd
      ((StagedArtifact.stagingOf (world.resolve build.outDir)).join name) = true := by
  obtain ⟨artifact_eq, plain, -, left_cwd, -, -⟩ := toolRun_spec ran
  have artifact_moved := (attempt_transfers ran).2.1.mp succeeded
  rw [ToolRun.installed] at artifact_moved ⊢
  split at artifact_moved
  · rename_i reported
    rw [if_pos reported]
    rw [artifact_eq, left_cwd] at artifact_moved ⊢
    exact StagedArtifact.mem_movedNames_iff plain artifact_moved
  · simp at artifact_moved

theorem cwd_attempt (build : Build) (target : Target) (world : World) :
    (build.attempt target world).2.cwd = world.cwd := by
  cases ran : build.toolRun? target world with
  | none =>
      obtain ⟨error, refused⟩ := attempt_of_none ran
      rw [refused]
      exact (build.prepared_spec target world).1
  | some run => exact (attempt_transfers ran).1

/-- What an attempt does when its tool has written only inside the staging directory. -/
theorem attempt_spec {run : ToolRun} (ran : build.toolRun? target world = some run)
    (tool_outside : SameOutside (build.stagingPlace world) (build.prepared target world).tree
      run.left.tree) :
    (∀ place, ¬ IsBelow (build.stagingPlace world) place →
      (∀ name ∈ run.installed, place ≠ build.outPlace world ++ [name]) →
      (build.attempt target world).2.tree.entry? place =
        (build.prepared target world).tree.entry? place) ∧
      ∀ name ∈ run.installed,
        (build.attempt target world).2.tree.entry? (build.outPlace world ++ [name]) =
          run.left.tree.entry? (build.stagingPlace world ++ [name]) := by
  obtain ⟨-, -, middle, transfers, same, -⟩ := attempt_transfers ran
  refine ⟨fun place outside other => ?_, fun name member => ?_⟩
  · rw [same place outside, transfers.others place fun name member => ⟨other name member, ?_⟩]
    · exact tool_outside place outside
    · rintro rfl
      exact outside (FileTree.isBelow_append_name _ _)
  · rw [same _ (by rw [stagingPlace_eq]; exact FileTree.not_isBelow_sibling _ _ _)]
    exact transfers.installed name member

end Build
end StagedBuild
