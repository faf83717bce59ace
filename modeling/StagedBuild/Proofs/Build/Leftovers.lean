import StagedBuild.Proofs.Build.Attempt
import StagedBuild.Proofs.Build.StagedAgreement

/-!
# What earlier attempts leave behind

Whatever earlier attempts have left in staging, an attempt gives the result that it would give with
an empty staging directory, and leaves the same outside of it, unless a leftover is a companion of
its own target or stands in the place of its artifact and cannot be removed.  A stale companion is
not removed before the tool runs, and is installed with the artifact: that is how a commit that
fails reaches into a later build.
-/

namespace StagedBuild

open StagedBuild.Path (IsName)
open FileTree (IsBelow SameOutside KeepsAgreement)

/-- The result but for the time that the attempt took. -/
def BuildResult.untimed (result : BuildResult) : BuildResult :=
  { result with milliseconds := 0 }

/--
From two worlds a tool does the same outside of staging, and writes the same inside of it: what it
does not write there stays as it was.
-/
structure RunnerReport.SameWork (staging : Location) (world other : World)
    (report otherReport : RunnerReport) : Prop where
  /-- The results differ in their times at most. -/
  result : otherReport.result.untimed = report.result.untimed
  /-- Outside of staging the files are the same. -/
  outside : SameOutside staging report.tree otherReport.tree
  /-- Inside of staging they are the same or untouched. -/
  inside : ∀ place, IsBelow staging place →
    otherReport.tree.entry? place = report.tree.entry? place ∨
      report.tree.entry? place = world.tree.entry? place ∧
        otherReport.tree.entry? place = other.tree.entry? place

/-- What the tool does depends neither on what staging holds nor on what happened before. -/
def Runner.ObliviousOf (runner : Runner) (staging : Location) : Prop :=
  ∀ (world other : World) (target : Target) (invocation : Invocation), other.cwd = world.cwd →
    SameOutside staging world.tree other.tree →
      RunnerReport.SameWork staging world other (runner.run world target invocation)
        (runner.run other target invocation)

/-- The tree with files written into it. -/
def FileTree.withFiles (tree : FileTree) (files : List (Location × File)) : FileTree :=
  files.foldl (fun tree item => tree.insert item.1 (.file item.2)) tree

/-- Where files are written into two trees, a place holds the same in both, or what it held. -/
theorem FileTree.entry?_withFiles (files : List (Location × File)) (tree other : FileTree)
    (place : Location) :
    FileTree.entry? (other.withFiles files) place = FileTree.entry? (tree.withFiles files) place ∨
      FileTree.entry? (tree.withFiles files) place = tree.entry? place ∧
        FileTree.entry? (other.withFiles files) place = other.entry? place := by
  induction files generalizing tree other with
  | nil => exact Or.inr ⟨rfl, rfl⟩
  | cons item files induction =>
      rcases induction (tree.insert item.1 (.file item.2)) (other.insert item.1 (.file item.2)) with
        same | ⟨kept, other_kept⟩
      · exact Or.inl same
      · rw [FileTree.entry?_insert] at kept other_kept
        by_cases written : place = item.1 ∧ place ≠ []
        · rw [if_pos written] at kept other_kept
          exact Or.inl (other_kept.trans kept.symm)
        · rw [if_neg written] at kept other_kept
          exact Or.inr ⟨kept, other_kept⟩

theorem Runner.writing_obliviousOf (files : List (Location × File)) (succeeds : Bool)
    (staging : Location) : (Runner.writing files succeeds).ObliviousOf staging := by
  intro world other target invocation same_cwd outside
  have written := FileTree.entry?_withFiles files world.tree other.tree
  refine ⟨rfl, fun place out => ?_, fun place _ => written place⟩
  rcases written place with same | ⟨kept, other_kept⟩
  · exact same
  · exact other_kept.trans ((outside place out).trans kept.symm)

namespace Build

variable {build : Build} {target : Target} {world other : World}

/-- When the tool has done its work, staging holds the same files of the target. -/
theorem alikeFor_left {run otherRun : ToolRun}
    (same_cwd : other.cwd = world.cwd)
    (stays : StagedArtifact.StaysOut (world.resolve build.outDir) world.cwd)
    (companions : ∀ name, StagedArtifact.isCompanionName target.outputName name = true →
      other.tree.file? (build.stagingPlace world ++ [name]) =
        world.tree.file? (build.stagingPlace world ++ [name]))
    (ran : build.toolRun? target world = some run)
    (other_ran : build.toolRun? target other = some otherRun)
    (work : RunnerReport.SameWork (build.stagingPlace world) run.start otherRun.start run.report
      otherRun.report) :
    StagedArtifact.AlikeFor build.platform (world.resolve build.outDir) target world.cwd
      run.left.tree otherRun.left.tree := by
  obtain ⟨-, -, start_tree, -, absent, -⟩ := toolRun_spec ran
  obtain ⟨-, -, other_start_tree, -, other_absent, -⟩ := toolRun_spec other_ran
  refine ⟨stays, work.outside, fun is_name name own => ?_⟩
  rcases work.inside _ (FileTree.isBelow_append_name (build.stagingPlace world) name) with
    same | ⟨kept, other_kept⟩
  · exact FileTree.file?_congr same
  · have left_file := (FileTree.file?_congr kept).symm
    have other_left_file := FileTree.file?_congr other_kept
    apply other_left_file.trans (Eq.trans _ left_file)
    -- What the tool has not written was there before it, or is the artifact and was nowhere.
    rcases own with companion | rfl
    · have not_artifact : build.stagingPlace world ++ [name] ≠ build.stagedPlace target world := by
        rw [stagedPlace_of_isName is_name]
        simpa using (StagedArtifact.isName_of_isCompanionName is_name companion).2
      rw [start_tree, other_start_tree, file?_prepared not_artifact, file?_prepared]
      · exact companions name companion
      · rw [stagedPlace_of_cwd same_cwd]
        exact not_artifact
    · have nothing := absent is_name
      have other_nothing := other_absent is_name
      rw [stagedPlace_of_cwd same_cwd] at other_nothing
      rw [stagedPlace_of_isName is_name] at nothing other_nothing
      exact FileTree.file?_congr (other_nothing.trans nothing.symm)

/-- Worlds that differ in staging alone, and not in what an attempt meets there, agree on it. -/
theorem attempt_congr (tool : build.runner.ObliviousOf (build.stagingPlace world))
    (same_cwd : other.cwd = world.cwd)
    (stays : StagedArtifact.StaysOut (world.resolve build.outDir) world.cwd)
    (outside : SameOutside (build.stagingPlace world) world.tree other.tree)
    (free : StagedArtifact.Unobstructed build.platform (world.resolve build.outDir) target world.cwd
      world.tree)
    (other_free : StagedArtifact.Unobstructed build.platform (world.resolve build.outDir) target
      world.cwd other.tree)
    (companions : ∀ name, StagedArtifact.isCompanionName target.outputName name = true →
      other.tree.file? (build.stagingPlace world ++ [name]) =
        world.tree.file? (build.stagingPlace world ++ [name])) :
    (build.attempt target other).1.untimed = (build.attempt target world).1.untimed ∧
      SameOutside (build.stagingPlace world) (build.attempt target world).2.tree
        (build.attempt target other).2.tree := by
  rcases prepared : StagedArtifact.prepare build.platform build.outDir target world with
    ⟨result, middle⟩
  rcases other_prepared : StagedArtifact.prepare build.platform build.outDir target other with
    ⟨other_result, other_middle⟩
  obtain ⟨rfl, middle_outside⟩ := StagedArtifact.prepare_congr same_cwd stays outside free
    other_free prepared other_prepared
  cases other_result with
  | error error =>
      simp only [attempt, prepared, other_prepared]
      exact ⟨trivial, middle_outside⟩
  | ok artifact =>
      have ran : build.toolRun? target world = some (build.toolRun target artifact middle) := by
        rw [toolRun?, prepared]
      have other_ran : build.toolRun? target other =
          some (build.toolRun target artifact other_middle) := by
        rw [toolRun?, other_prepared]
      obtain ⟨artifact_eq, plain, -, left_cwd, -, -⟩ := toolRun_spec ran
      obtain ⟨other_artifact_eq, -, -, other_left_cwd, -, -⟩ := toolRun_spec other_ran
      rw [resolve_of_cwd same_cwd] at other_artifact_eq
      have same_left_cwd := other_left_cwd.trans (same_cwd.trans left_cwd.symm)
      have work := tool (build.toolRun target artifact middle).start
        (build.toolRun target artifact other_middle).start target
        (build.invocation target artifact) same_left_cwd middle_outside
      have alike := alikeFor_left same_cwd stays companions ran other_ran work
      have same_untimed := congrArg BuildResult.succeeded work.result
      have same_success : (build.toolRun target artifact other_middle).report.result.succeeded =
          (build.toolRun target artifact middle).report.result.succeeded := same_untimed
      rw [attempt_of_toolRun ran, attempt_of_toolRun other_ran, same_success, artifact_eq,
        other_artifact_eq]
      rw [← left_cwd] at alike
      split
      · rcases committed : (StagedArtifact.locate build.platform (world.resolve build.outDir)
          target).commit (build.toolRun target artifact middle).left with ⟨result, after⟩
        rcases other_committed : (StagedArtifact.locate build.platform (world.resolve build.outDir)
          target).commit (build.toolRun target artifact other_middle).left with
            ⟨other_result, other_after⟩
        have same_result := StagedArtifact.commit_congr plain same_left_cwd alike
        have same_after :=
          StagedArtifact.sameOutside_commit plain same_left_cwd alike committed other_committed
        rw [left_cwd] at same_after
        rw [committed, other_committed] at same_result
        obtain rfl : other_result = result := same_result
        cases other_result with
        | ok done => exact ⟨work.result, same_after⟩
        | error error => exact ⟨rfl, same_after⟩
      · have discarded := (@StagedArtifact.discard_spec build.platform (world.resolve build.outDir)
          target plain (build.toolRun target artifact middle).left).2
        have other_discarded := (@StagedArtifact.discard_spec build.platform
          (world.resolve build.outDir) target plain
          (build.toolRun target artifact other_middle).left).2
        rw [left_cwd] at discarded
        rw [same_left_cwd, left_cwd] at other_discarded
        refine ⟨work.result, fun place out => ?_⟩
        exact (other_discarded place out).trans
          ((work.outside place out).trans (discarded place out).symm)

/-- From one world to another, an attempt installs what its own run of the tool has written. -/
structure InstallsOwnWork (build : Build) (target : Target) (run : ToolRun)
    (world after : World) : Prop where
  /-- The artifact and the companions that are in staging after the run are installed. -/
  installed_iff : ∀ name, name ∈ run.installed ↔
    target.Owns build.platform name ∧ run.left.tree.isFileAt world.cwd
      ((StagedArtifact.stagingOf (world.resolve build.outDir)).join name) = true
  /-- No file of their names was in staging before the run. -/
  fresh : ∀ name ∈ run.installed,
    run.start.tree.file? (build.stagingPlace world ++ [name]) = none
  /-- They are installed as the tool has left them. -/
  installed : ∀ name ∈ run.installed,
    after.tree.entry? (build.outPlace world ++ [name]) =
      run.left.tree.entry? (build.stagingPlace world ++ [name])
  /-- Nothing else changes outside of staging. -/
  others : ∀ place, ¬ IsBelow (build.stagingPlace world) place →
    (∀ name ∈ run.installed, place ≠ build.outPlace world ++ [name]) →
      after.tree.entry? place = run.left.tree.entry? place

/-- Without a stale companion an attempt that succeeds installs what its own tool has written. -/
theorem installsOwnWork_attempt (succeeded : (build.attempt target world).1.succeeded = true)
    (companions : ∀ name, StagedArtifact.isCompanionName target.outputName name = true →
      world.tree.file? (build.stagingPlace world ++ [name]) = none) :
    ∃ run, build.toolRun? target world = some run ∧
      build.InstallsOwnWork target run world (build.attempt target world).2 := by
  cases ran : build.toolRun? target world with
  | none =>
      obtain ⟨error, refused⟩ := attempt_of_none ran
      simp [refused, BuildResult.ofError] at succeeded
  | some run =>
      obtain ⟨-, -, start_tree, -, absent, -⟩ := toolRun_spec ran
      obtain ⟨-, succeeds, middle, transfers, -, clean⟩ := attempt_transfers ran
      have artifact_moved := succeeds.mp succeeded
      obtain ⟨file_name, -⟩ := installed_spec ran artifact_moved
      rw [← clean succeeded] at transfers
      refine ⟨run, rfl, fun name => mem_installed_iff ran succeeded, fun name moved => ?_,
        transfers.installed, ?_⟩
      · rcases ((mem_installed_iff ran succeeded).mp moved).1 with companion | rfl
        · have not_artifact :
              build.stagingPlace world ++ [name] ≠ build.stagedPlace target world := by
            rw [stagedPlace_of_isName file_name]
            simpa using (StagedArtifact.isName_of_isCompanionName file_name companion).2
          rw [start_tree, file?_prepared not_artifact]
          exact companions name companion
        · rw [← stagedPlace_of_isName file_name, FileTree.file?, absent file_name]
      · intro place outside other
        apply transfers.others
        intro name moved
        refine ⟨other name moved, ?_⟩
        rintro rfl
        exact outside (FileTree.isBelow_append_name _ _)

/-- The world with an empty staging directory. -/
def cleared (build : Build) (world : World) : World :=
  { world with tree := world.tree.clear (build.stagingPlace world) }

/--
What earlier attempts have left in staging does not matter to a tool that writes the same whatever
is there: unless it is a companion of the target, or stands in the place of the artifact and cannot
be removed, the attempt has the result that it has with an empty staging directory, and leaves the
same outside of it.  When it succeeds, it installs what its own tool has written and nothing else.
-/
theorem attempt_ignores_leftovers (tool : build.runner.ObliviousOf (build.stagingPlace world))
    (stays : StagedArtifact.StaysOut (world.resolve build.outDir) world.cwd)
    (free : StagedArtifact.Unobstructed build.platform (world.resolve build.outDir) target world.cwd
      world.tree)
    (companions : ∀ name, StagedArtifact.isCompanionName target.outputName name = true →
      world.tree.file? (build.stagingPlace world ++ [name]) = none) :
    (build.attempt target world).1.untimed =
        (build.attempt target (build.cleared world)).1.untimed ∧
      SameOutside (build.stagingPlace world) (build.attempt target (build.cleared world)).2.tree
        (build.attempt target world).2.tree ∧
      ((build.attempt target world).1.succeeded = true →
        ∃ run, build.toolRun? target world = some run ∧
          build.InstallsOwnWork target run world (build.attempt target world).2) := by
  have cleared_outside : SameOutside (build.stagingPlace world) world.tree
      (build.cleared world).tree := FileTree.sameOutside_clear _ _
  have cleared_companions : ∀ name,
      StagedArtifact.isCompanionName target.outputName name = true →
        (build.cleared world).tree.file? (build.stagingPlace world ++ [name]) =
          world.tree.file? (build.stagingPlace world ++ [name]) := by
    intro name companion
    rw [companions name companion, FileTree.file?, cleared, FileTree.entry?_clear,
      if_pos (FileTree.isBelow_append_name _ _)]
  have cleared_free : StagedArtifact.Unobstructed build.platform (world.resolve build.outDir) target
      world.cwd (build.cleared world).tree := by
    left
    rw [cleared, FileTree.entry?_clear]
    split
    · rfl
    · rename_i outside
      rcases free with nothing | ⟨is_name, -⟩
      · exact nothing
      · exact absurd (isBelow_stagedPlace is_name.isPlainName) outside
  have same_cwd : (build.cleared world).cwd = world.cwd := rfl
  obtain ⟨same_result, same_outside⟩ := attempt_congr tool same_cwd stays cleared_outside free
    cleared_free cleared_companions
  exact ⟨same_result.symm, fun place out => (same_outside place out).symm,
    fun succeeded => installsOwnWork_attempt succeeded companions⟩

/-- A build of the project in `/p` whose tool writes these files into staging and succeeds. -/
def stagingBuild (files : List (String × File)) : Build :=
  ofRoot (.writing (files.map fun item =>
    (["p", "bin", ".kiln-staging"] ++ [item.1], item.2)) true) .unix ⟨"/p"⟩

/-- What an attempt at another target leaves whose tool writes everything but its own artifact. -/
def littered : World :=
  ((stagingBuild [("tool.lib", ⟨[], false⟩), ("app", ⟨Utf8.encode "stale", true⟩)]).attempt
    (.named "tool" .executable ⟨"."⟩) World.project).2

/-- A stale artifact and what other targets have left are no obstacle. -/
theorem stale_artifact_is_ignored :
    ((stagingBuild [("app", ⟨Utf8.encode "app", true⟩)]).attempt .application littered).1.untimed =
        ((stagingBuild [("app", ⟨Utf8.encode "app", true⟩)]).attempt .application
          ((stagingBuild [("app", ⟨Utf8.encode "app", true⟩)]).cleared littered)).1.untimed ∧
      ((stagingBuild [("app", ⟨Utf8.encode "app", true⟩)]).attempt .application
        littered).2.tree.file? ["p", "bin", "app"] = some ⟨Utf8.encode "app", true⟩ := by
  have stays : StagedArtifact.StaysOut (littered.resolve ⟨"/p/bin"⟩) littered.cwd :=
    StagedArtifact.staysOut_of_forward (by decide +kernel) _
  have free : StagedArtifact.Unobstructed .unix (littered.resolve ⟨"/p/bin"⟩) .application
      littered.cwd littered.tree := Or.inr (by decide +kernel)
  have companions : ∀ name, StagedArtifact.isCompanionName "app" name = true →
      littered.tree.file? (["p", "bin", ".kiln-staging"] ++ [name]) = none := by
    intro name companion
    obtain ⟨-, suffix, member, rfl⟩ := StagedArtifact.isCompanionName_iff.mp companion
    revert suffix
    decide +kernel
  have ignored := @attempt_ignores_leftovers (stagingBuild [("app", ⟨Utf8.encode "app", true⟩)])
    .application littered (Runner.writing_obliviousOf _ true _) stays free companions
  exact ⟨ignored.1, by decide +kernel⟩

/-- The world that an attempt leaves whose tool writes a library but no artifact. -/
def withStaleLibrary : World :=
  ((stagingBuild [("app.lib", ⟨Utf8.encode "stale", false⟩)]).attempt .application
    World.project).2

/-- The library that a failed attempt has left is installed by the next one, which writes none. -/
theorem stale_library_is_installed :
    (stagingBuild [("app", ⟨Utf8.encode "app", true⟩)]).runner.ObliviousOf
        ((stagingBuild [("app", ⟨Utf8.encode "app", true⟩)]).stagingPlace withStaleLibrary) ∧
      Path.isPlainName (Target.application.fileName .unix) = true ∧
      ((stagingBuild [("app.lib", ⟨Utf8.encode "stale", false⟩)]).attempt .application
        World.project).1.succeeded = false ∧
      ((stagingBuild [("app", ⟨Utf8.encode "app", true⟩)]).attempt .application
        withStaleLibrary).1.succeeded = true ∧
      ((stagingBuild [("app", ⟨Utf8.encode "app", true⟩)]).attempt .application
        withStaleLibrary).2.tree.file? ["p", "bin", "app.lib"] =
          some ⟨Utf8.encode "stale", false⟩ ∧
      ((stagingBuild [("app", ⟨Utf8.encode "app", true⟩)]).attempt .application
        ((stagingBuild [("app", ⟨Utf8.encode "app", true⟩)]).cleared
          withStaleLibrary)).2.tree.file? ["p", "bin", "app.lib"] = none :=
  ⟨Runner.writing_obliviousOf _ true _, by decide +kernel⟩

end Build
end StagedBuild
