import StagedBuild.Proofs.Build.Attempt

/-!
# What a failed attempt leaves installed

A failed attempt leaves the artifact and every file that is not its companion alone.  It does not
leave the companions alone: the commit moves them before the artifact, so those in front of the
first file that cannot be moved have replaced what was installed.
-/

namespace StagedBuild

open FileTree (IsBelow SameOutside GrowsAt)

namespace Build

variable {build : Build} {target : Target} {world : World} {place : Location}

/-- The place lies in the output directory, and not in staging. -/
def IsInstallPlace (build : Build) (world : World) (place : Location) : Prop :=
  IsBelow (build.outPlace world) place ∧ ¬ build.stagingPlace world <+: place

instance (build : Build) (world : World) (place : Location) :
    Decidable (build.IsInstallPlace world place) :=
  inferInstanceAs (Decidable (_ ∧ _))

theorem IsInstallPlace.outside (install : build.IsInstallPlace world place) :
    ¬ IsBelow (build.stagingPlace world) place :=
  fun below => install.2 below.1

theorem isInstallPlace_name {name : String} (other : name ≠ StagedArtifact.stagingName) :
    build.IsInstallPlace world (build.outPlace world ++ [name]) := by
  refine ⟨FileTree.isBelow_append_name _ _, fun above => ?_⟩
  rw [stagingPlace_eq] at above
  have whole := above.eq_of_length (by simp)
  exact other (List.cons.inj (List.append_cancel_left whole)).1.symm

/-- With an output directory that is written without `..` nothing is created inside of it. -/
theorem prepared_of_forward (forward : ".." ∉ (world.resolve build.outDir).segments)
    (install : build.IsInstallPlace world place) :
    (build.prepared target world).tree.entry? place = world.tree.entry? place := by
  rcases @prepared_outside build target world place install.outside with same | ⟨created, -, -⟩
  · exact same
  · have staging_forward :
        ".." ∉ (StagedArtifact.stagingOf (world.resolve build.outDir)).segments := by
      rw [StagedArtifact.stagingOf,
        Path.segments_join_name _ StagedArtifact.isName_stagingName, List.mem_append, not_or]
      refine ⟨fun member => forward ((Path.front_begins _).subset member), ?_⟩
      simp [StagedArtifact.stagingName]
    have above := (StagedArtifact.leadsThrough_of_mem_chain created).prefix_of_forward
      staging_forward
    obtain ⟨name, rest, place_eq⟩ := FileTree.isBelow_iff.mp install.1
    rw [place_eq, StagedArtifact.place_stagingOf] at above
    -- A place in the output directory that lies above staging is the staging directory itself.
    have whole := above.eq_of_length_le (by simp [outPlace])
    exact absurd (by rw [place_eq, stagingPlace_eq]; exact whole ▸ List.prefix_rfl) install.2

/--
A failed attempt with a tool that writes only inside the staging directory moves nothing but
companions into place.  So what is installed is the same as before exactly when the preparation
created no directory there and every companion that was moved equals what it replaced.
-/
theorem failed_attempt_keeps_installed_iff
    (confined : build.runner.ConfinedTo (build.stagingPlace world))
    (failed : (build.attempt target world).1.succeeded = false) :
    (∀ run, build.toolRun? target world = some run → ∀ name ∈ run.installed,
      StagedArtifact.isCompanionName target.outputName name = true ∧
        run.left.tree.isDirectory (build.outPlace world ++ [name]) = false) ∧
      ((∀ place, build.IsInstallPlace world place →
          (build.attempt target world).2.tree.entry? place = world.tree.entry? place) ↔
        (∀ place, build.IsInstallPlace world place →
          (build.prepared target world).tree.entry? place = world.tree.entry? place) ∧
        ∀ run, build.toolRun? target world = some run → ∀ name ∈ run.installed,
          run.left.tree.entry? (build.stagingPlace world ++ [name]) =
            world.tree.entry? (build.outPlace world ++ [name])) := by
  cases ran : build.toolRun? target world with
  | none =>
      obtain ⟨error, refused⟩ := attempt_of_none ran
      simp [refused]
  | some run =>
      have tool_outside := toolRun_outside confined ran
      obtain ⟨others, moved⟩ := attempt_spec ran tool_outside
      obtain ⟨-, succeeds, -⟩ := attempt_transfers ran
      have artifact_stays : target.fileName build.platform ∉ run.installed := by
        rw [← succeeds, failed]
        simp
      simp only [Option.some.injEq, forall_eq']
      refine ⟨fun name member => ?_, fun kept => ⟨fun place install => ?_, fun name member => ?_⟩,
        fun ⟨prepared_same, moved_same⟩ place install => ?_⟩
      · obtain ⟨-, -, -, free, -, companion | artifact⟩ := installed_spec ran member
        · exact ⟨companion, free⟩
        · exact absurd (artifact ▸ member) artifact_stays
      · by_cases taken : ∃ name ∈ run.installed, place = build.outPlace world ++ [name]
        · obtain ⟨name, member, rfl⟩ := taken
          obtain ⟨-, -, -, free, -, -⟩ := installed_spec ran member
          rcases @prepared_outside build target world _ install.outside with
            same | ⟨-, -, created⟩
          · exact same
          · have left_same := tool_outside _ install.outside
            rw [created] at left_same
            rw [(FileTree.isDirectory_iff _).mpr left_same] at free
            simp at free
        · rw [← kept place install, others place install.outside fun name member place_eq =>
            taken ⟨name, member, place_eq⟩]
      · obtain ⟨-, -, -, -, other, -⟩ := installed_spec ran member
        rw [← moved name member, kept _ (isInstallPlace_name other)]
      · by_cases taken : ∃ name ∈ run.installed, place = build.outPlace world ++ [name]
        · obtain ⟨name, member, rfl⟩ := taken
          rw [moved name member, moved_same name member]
        · rw [others place install.outside fun name member place_eq =>
            taken ⟨name, member, place_eq⟩, prepared_same place install]

/-- A build whose tool leaves an executable with an import library, and then succeeds or fails. -/
def withLibrary (succeeds : Bool) : Build :=
  ofRoot (Runner.writing
    [(["p", "bin", ".kiln-staging", "app"], ⟨Utf8.encode "new", true⟩),
      (["p", "bin", ".kiln-staging", "app.lib"], ⟨Utf8.encode "new", false⟩)] succeeds)
    .unix ⟨"/p"⟩

/-- A project with an executable and its import library, or with a directory and the library. -/
def installedWorld (blocked : Bool) : World where
  tree := ((FileTree.empty.insert ["p"] .directory).insert ["p", "bin"] .directory).insert
    ["p", "bin", "app"] (if blocked then .directory else .file ⟨Utf8.encode "old", true⟩)
    |>.insert ["p", "bin", "app.lib"] (.file ⟨Utf8.encode "old", false⟩)
  cwd := ["p"]

theorem withLibrary_confinedTo (succeeds blocked : Bool) :
    (withLibrary succeeds).runner.ConfinedTo
      ((withLibrary succeeds).stagingPlace (installedWorld blocked)) := by
  have staging : (withLibrary succeeds).stagingPlace (installedWorld blocked) =
      ["p", "bin", ".kiln-staging"] := by
    decide +kernel +revert
  rw [staging]
  exact Runner.writing_confinedTo (by decide)

/-- A tool that fails leaves the executable and its import library as they were. -/
theorem failed_tool_keeps_installed :
    ((withLibrary false).attempt .application (installedWorld false)).1.succeeded = false ∧
      ((withLibrary false).attempt .application (installedWorld false)).2.tree.entry?
          ["p", "bin", "app"] = some (.file ⟨Utf8.encode "old", true⟩) ∧
      ((withLibrary false).attempt .application (installedWorld false)).2.tree.entry?
          ["p", "bin", "app.lib"] = some (.file ⟨Utf8.encode "old", false⟩) := by
  have failed :
      ((withLibrary false).attempt .application (installedWorld false)).1.succeeded = false := by
    decide +kernel
  have kept := (failed_attempt_keeps_installed_iff (withLibrary_confinedTo false false)
    failed).2.mpr ⟨fun place install => prepared_of_forward (by decide +kernel) install,
      fun run ran name member => by
        obtain ⟨-, -, -, -, -, report_eq⟩ := toolRun_spec ran
        have not_reported : run.report.result.succeeded = false := by
          rw [report_eq]
          rfl
        simp [ToolRun.installed, not_reported] at member⟩
  refine ⟨failed, ?_, ?_⟩
  · rw [kept ["p", "bin", "app"] (by decide +kernel)]
    decide +kernel
  · rw [kept ["p", "bin", "app.lib"] (by decide +kernel)]
    decide +kernel

/-- A commit that fails because of a directory has replaced the import library. -/
theorem failed_commit_replaces_companion :
    (withLibrary true).runner.ConfinedTo
        ((withLibrary true).stagingPlace (installedWorld true)) ∧
      ((withLibrary true).attempt .application (installedWorld true)).1.succeeded = false ∧
      (withLibrary true).IsInstallPlace (installedWorld true) ["p", "bin", "app.lib"] ∧
      (installedWorld true).tree.entry? ["p", "bin", "app.lib"] =
        some (.file ⟨Utf8.encode "old", false⟩) ∧
      ((withLibrary true).attempt .application (installedWorld true)).2.tree.entry?
          ["p", "bin", "app.lib"] = some (.file ⟨Utf8.encode "new", false⟩) :=
  ⟨withLibrary_confinedTo true true, by decide +kernel, by decide +kernel, by decide +kernel,
    by decide +kernel⟩

end Build
end StagedBuild
