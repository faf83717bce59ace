import StagedBuild.Proofs.Build.FailedAttempt

/-!
# What an attempt leaves in staging

A tool that fails has what it left of its target discarded, and a commit that succeeds moves all of
it into place.  A commit that fails does neither: what it has not moved stays in staging.
-/

namespace StagedBuild

open StagedBuild.Path (IsName)

namespace FileTree

variable {tree : FileTree} {cwd : Location} {path : Path} {name other : String}

/-- What can be removed can be found. -/
theorem isFileAt_of_removeFile {after : FileTree} {place : Location} (is_name : IsName name)
    (removed : tree.removeFile cwd (path.join name) = .ok (after, place)) :
    tree.isFileAt cwd (path.join name) = true := by
  obtain ⟨rfl, ⟨file, holds⟩, -⟩ := removeFile_spec removed
  rw [Path.place_join_name path is_name] at holds
  rw [removeFile, bind_eq_ok_iff] at removed
  obtain ⟨⟨directory, last⟩, located, rest⟩ := removed
  obtain ⟨read, opens, rfl, rfl⟩ := (locateLast_join_name_iff is_name).mp located
  obtain ⟨found, named, -⟩ := bind_eq_ok_iff.mp rest
  exact (isFileAt_join_name_iff is_name).mpr ⟨read, opens, (placeOfName_eq_ok_iff.mp named).1,
    file, (file?_eq_some_iff _).mpr holds⟩

/-- What can be found can be removed. -/
theorem removeFile_of_isFileAt (is_name : IsName name)
    (found : tree.isFileAt cwd (path.join name) = true) :
    tree.removeFile cwd (path.join name) =
      .ok (tree.erase (path.place cwd ++ [name]), path.place cwd ++ [name]) := by
  obtain ⟨read, opens, short, file, holds⟩ := (isFileAt_join_name_iff is_name).mp found
  rw [file?_eq_some_iff] at holds
  have located := (locateLast_join_name_iff is_name).mpr ⟨read, opens, rfl, rfl⟩
  have placed : placeOfName (path.place cwd) name = .ok (path.place cwd ++ [name]) :=
    placeOfName_eq_ok_iff.mpr ⟨short, rfl⟩
  rw [removeFile, located]
  simp only [bind, Except.bind, placed, holds]
  rfl

/-- Without one file of a directory the other ones are found as before. -/
theorem isFileAt_erase (is_name : IsName name) (other_name : IsName other)
    (found : tree.isFileAt cwd (path.join name) = true) :
    (tree.erase (path.place cwd ++ [name])).isFileAt cwd (path.join other) = true ↔
      tree.isFileAt cwd (path.join other) = true ∧ other ≠ name := by
  obtain ⟨-, -, -, file, holds⟩ := (isFileAt_join_name_iff is_name).mp found
  rw [file?_eq_some_iff] at holds
  have directories : ∀ place, (tree.erase (path.place cwd ++ [name])).isDirectory place = true ↔
      tree.isDirectory place = true := by
    intro place
    rw [isDirectory_iff, isDirectory_iff, entry?_erase]
    split
    · rename_i at_name
      simp [at_name.1, holds]
    · rfl
  have opens_iff : (tree.erase (path.place cwd ++ [name])).Opens cwd path ↔ tree.Opens cwd path :=
    ⟨fun opens => opens.mono fun place => (directories place).mp,
      fun opens => opens.mono fun place => (directories place).mpr⟩
  rw [isFileAt_join_name_iff other_name, isFileAt_join_name_iff other_name, opens_iff]
  simp only [file?_eq_some_iff, entry?_erase, and_assoc]
  by_cases same : other = name <;> simp [same]

end FileTree

namespace StagedArtifact

variable {platform : Platform} {outDir path : Path} {target : Target} {name other : String}

/-- What can be found is discarded, and nothing else. -/
theorem tree_discardOne (is_name : IsName name) (world : World) :
    (discardOne world (path.join name)).tree =
      if world.tree.isFileAt world.cwd (path.join name) = true then
        world.tree.erase (path.place world.cwd ++ [name])
      else world.tree := by
  rw [discardOne, World.removeFileIfExists]
  split_ifs with found
  · rw [FileTree.removeFile_of_isFileAt is_name found]
    rfl
  · cases removed : world.tree.removeFile world.cwd (path.join name) with
    | ok outcome => exact absurd (FileTree.isFileAt_of_removeFile is_name removed) found
    | error error => cases missing : error.kind == .notFound <;> simp [missing, World.emit]

theorem isFileAt_discardOne (is_name : IsName name) (other_name : IsName other) (world : World) :
    (discardOne world (path.join name)).tree.isFileAt world.cwd (path.join other) = true ↔
      world.tree.isFileAt world.cwd (path.join other) = true ∧ other ≠ name := by
  rw [tree_discardOne is_name]
  split_ifs with found
  · exact FileTree.isFileAt_erase is_name other_name found
  · refine (and_iff_left_of_imp ?_).symm
    rintro other_found rfl
    exact found other_found

theorem entry?_discardOne (is_name : IsName name) (world : World) (place : Location) :
    (discardOne world (path.join name)).tree.entry? place =
      if world.tree.isFileAt world.cwd (path.join name) = true ∧
        place = path.place world.cwd ++ [name] then none else world.tree.entry? place := by
  rw [tree_discardOne is_name]
  by_cases found : world.tree.isFileAt world.cwd (path.join name) = true
  · rw [if_pos found, FileTree.entry?_erase]
    refine if_congr ⟨fun at_name => ⟨found, at_name.1⟩, fun at_name => ⟨at_name.2, ?_⟩⟩ rfl rfl
    simp [at_name.2]
  · simp [found]

/-- Of the files of a directory, those that can be found are discarded. -/
theorem entry?_foldl_discardOne {names : List String} (all_names : ∀ name ∈ names, IsName name)
    (world : World) (place : Location) :
    ((names.map path.join).foldl discardOne world).tree.entry? place =
      if ∃ name ∈ names, world.tree.isFileAt world.cwd (path.join name) = true ∧
        place = path.place world.cwd ++ [name] then none else world.tree.entry? place := by
  induction names generalizing world with
  | nil => simp
  | cons name names induction =>
      rw [List.forall_mem_cons] at all_names
      obtain ⟨is_name, all_names⟩ := all_names
      have still_found : ∀ other ∈ names,
          ((discardOne world (path.join name)).tree.isFileAt world.cwd (path.join other) = true ↔
            world.tree.isFileAt world.cwd (path.join other) = true ∧ other ≠ name) :=
        fun other member => isFileAt_discardOne is_name (all_names other member) world
      have rest := induction all_names (discardOne world (path.join name))
      rw [(discardOne_spec world (path.join name)).1, entry?_discardOne is_name] at rest
      rw [List.map_cons, List.foldl_cons, rest]
      by_cases first : world.tree.isFileAt world.cwd (path.join name) = true ∧
          place = path.place world.cwd ++ [name]
      · rw [if_pos first, ite_self, if_pos ⟨name, List.mem_cons_self, first⟩]
      · rw [if_neg first]
        refine if_congr ⟨?_, ?_⟩ rfl rfl
        · rintro ⟨other, member, found, rfl⟩
          exact ⟨other, List.mem_cons_of_mem name member, ((still_found other member).mp found).1,
            rfl⟩
        · rintro ⟨other, member, found, rfl⟩
          rcases List.mem_cons.mp member with rfl | member
          · exact absurd ⟨found, rfl⟩ first
          · refine ⟨other, member, (still_found other member).mpr ⟨found, ?_⟩, rfl⟩
            rintro rfl
            exact first ⟨found, rfl⟩

/-- The files that are tried when an artifact is discarded. -/
theorem exists_discarded (file_name : IsName (target.fileName platform)) (world : World) :
    ∃ names : List String, (locate platform outDir target).discard world =
        (names.map (stagingOf outDir).join).foldl discardOne world ∧
      (∀ name ∈ names, IsName name) ∧
      ∀ name, target.Owns platform name →
        world.tree.isFileAt world.cwd ((stagingOf outDir).join name) = true → name ∈ names := by
  cases listed : (locate platform outDir target).companions world.tree world.cwd with
  | error error =>
      refine ⟨[target.fileName platform], by rw [discard, listed]; rfl, by simpa using file_name,
        fun name own found => ?_⟩
      rw [companions_of_staged file_name (isName_of_owns file_name own) found] at listed
      contradiction
  | ok paths =>
      obtain ⟨names, paths_eq, -, chosen⟩ := companions_eq_ok listed
      rw [stagingDir_locate file_name] at paths_eq chosen
      refine ⟨names ++ [target.fileName platform], ?_, ?_, ?_⟩
      · rw [discard, listed, paths_eq, List.map_append]
        rfl
      · intro name member
        rcases List.mem_append.mp member with companion | last
        · exact (isName_of_isCompanionName file_name (chosen name companion).1).1
        · exact List.mem_singleton.mp last ▸ file_name
      · rintro name (companion | rfl) found
        · have is_name := (isName_of_isCompanionName file_name companion).1
          rw [companions_of_staged file_name is_name found, paths_eq] at listed
          have staged : (stagingOf outDir).join name ∈ names.map (stagingOf outDir).join := by
            rw [← Except.ok.inj listed]
            exact List.mem_map_of_mem (List.mem_mergeSort.mpr
              ((mem_companionNames_iff file_name).mpr ⟨companion, found⟩))
          obtain ⟨other, member, same⟩ := List.mem_map.mp staged
          have same_name := congrArg Path.fileName? same
          rw [is_name.fileName?_join, (isName_of_isCompanionName file_name
            (chosen other member).1).1.fileName?_join, Option.some.injEq] at same_name
          exact List.mem_append_left _ (same_name ▸ member)
        · exact List.mem_append_right _ (List.mem_singleton.mpr rfl)

/-- Of the files of a target in staging, those that can be found are discarded with its artifact. -/
theorem file?_discard (file_name : IsName (target.fileName platform)) (world : World)
    (own : target.Owns platform name) :
    ((locate platform outDir target).discard world).tree.file?
        ((stagingOf outDir).place world.cwd ++ [name]) =
      if world.tree.isFileAt world.cwd ((stagingOf outDir).join name) = true then none
      else world.tree.file? ((stagingOf outDir).place world.cwd ++ [name]) := by
  obtain ⟨names, discard_eq, all_names, tried⟩ :=
    @exists_discarded platform outDir target file_name world
  have left := @entry?_foldl_discardOne (stagingOf outDir) names all_names world
    ((stagingOf outDir).place world.cwd ++ [name])
  rw [← discard_eq] at left
  split_ifs with found
  · rw [if_pos ⟨name, tried name own found, found, rfl⟩] at left
    rw [FileTree.file?, left]
  · rw [if_neg] at left
    · exact FileTree.file?_congr left
    · rintro ⟨other, -, other_found, same⟩
      rw [(List.cons.inj (List.append_cancel_left same)).1] at found
      exact found other_found

end StagedArtifact

/-- The tool left all directories where they were. -/
def ToolRun.KeepsDirectories (run : ToolRun) : Prop :=
  ∀ place, run.start.tree.isDirectory place = true → run.left.tree.isDirectory place = true

namespace Build

variable {build : Build} {target : Target} {world : World} {run : ToolRun} {name : String}

/-- A file of the target lies under this name in the staging directory. -/
def Stages (build : Build) (target : Target) (world : World) (tree : FileTree) (name : String) :
    Prop :=
  target.Owns build.platform name ∧
    ∃ file, tree.file? (build.stagingPlace world ++ [name]) = some file

/-- The path of a file of this name in the staging directory. -/
def inStaging (build : Build) (world : World) (name : String) : Path :=
  (StagedArtifact.stagingOf (world.resolve build.outDir)).join name

/-- The system takes the path of a file of this name in the staging directory. -/
def Accepts (build : Build) (world : World) (name : String) : Prop :=
  FileTree.admissible (build.inStaging world name) = .ok () ∧
    Utf8.size name ≤ FileTree.nameLimit

instance (build : Build) (world : World) (name : String) : Decidable (build.Accepts world name) :=
  decidable_of_iff _ (and_congr_left' Path.admissible_eq_ok_iff.symm)

/-- With its directories still there, a staged file is found by every path that is taken. -/
theorem isFileAt_left_iff (is_name : IsName (target.fileName build.platform))
    (ran : build.toolRun? target world = some run) (keeps : run.KeepsDirectories)
    (own : target.Owns build.platform name) :
    run.left.tree.isFileAt world.cwd (build.inStaging world name) = true ↔
      build.Accepts world name ∧ build.Stages target world run.left.tree name := by
  have opens := (opens_of_toolRun ran).mono keeps
  rw [inStaging, FileTree.isFileAt_join_name_iff (StagedArtifact.isName_of_owns is_name own)]
  constructor
  · rintro ⟨read, -, short, found⟩
    exact ⟨⟨read, short⟩, own, found⟩
  · rintro ⟨⟨read, short⟩, -, found⟩
    exact ⟨read, opens, short, found⟩

/-- When the tool fails, what can be found is discarded. -/
theorem stages_of_failed (is_name : IsName (target.fileName build.platform))
    (ran : build.toolRun? target world = some run)
    (failed : run.report.result.succeeded = false) :
    build.Stages target world (build.attempt target world).2.tree name ↔
      build.Stages target world run.left.tree name ∧
        run.left.tree.isFileAt world.cwd (build.inStaging world name) = false := by
  obtain ⟨artifact_eq, -, -, left_cwd, -, -⟩ := toolRun_spec ran
  rw [world_attempt_of_toolRun ran, if_neg (by simp [failed]), artifact_eq, Stages, Stages,
    and_assoc]
  refine and_congr_right fun own => ?_
  have left := @StagedArtifact.file?_discard build.platform (world.resolve build.outDir) target
    name is_name run.left own
  rw [left_cwd] at left
  rw [stagingPlace, inStaging, left]
  split_ifs with found <;> simp [found]

/-- When the tool reports success, what is moved into place is gone from staging. -/
theorem stages_of_reported (ran : build.toolRun? target world = some run)
    (reported : run.report.result.succeeded = true) :
    build.Stages target world (build.attempt target world).2.tree name ↔
      build.Stages target world run.left.tree name ∧ name ∉ run.installed := by
  obtain ⟨artifact_eq, plain, -, left_cwd, -, -⟩ := toolRun_spec ran
  rw [world_attempt_of_toolRun ran, if_pos reported, ToolRun.installed, if_pos reported,
    artifact_eq, left_cwd]
  rcases committed : (StagedArtifact.locate build.platform (world.resolve build.outDir)
    target).commit run.left with ⟨result, after⟩
  obtain ⟨-, transfers, -⟩ := StagedArtifact.commit_spec plain committed
  rw [left_cwd] at transfers
  rw [Stages, Stages, and_assoc]
  refine and_congr_right fun _ => ?_
  by_cases moved : name ∈ (StagedArtifact.locate build.platform (world.resolve build.outDir)
    target).movedNames run.left.tree world.cwd
  · have gone := transfers.taken name moved
    simp [FileTree.file?_eq_some_iff, stagingPlace, gone, moved]
  · have kept := transfers.others (build.stagingPlace world ++ [name]) fun other member =>
      ⟨stagingPlace_apart build world _ _, fun same => moved ?_⟩
    · rw [FileTree.file?_congr kept]
      simp [moved]
    · rw [(List.cons.inj (List.append_cancel_left same)).1]
      exact member

/-- What is moved into place was found in staging, and the artifact with it. -/
theorem isFileAt_of_installed (ran : build.toolRun? target world = some run)
    (moved : name ∈ run.installed) :
    target.Owns build.platform name ∧
      run.left.tree.isFileAt world.cwd (build.inStaging world name) = true ∧
      run.left.tree.isFileAt world.cwd
        (build.inStaging world (target.fileName build.platform)) = true := by
  obtain ⟨artifact_eq, plain, -, left_cwd, -, -⟩ := toolRun_spec ran
  rw [ToolRun.installed] at moved
  split at moved
  · rw [artifact_eq, left_cwd] at moved
    obtain ⟨-, -, found, -, kind⟩ := StagedArtifact.movedNames_spec plain moved
    rw [StagedArtifact.movedNames] at moved
    split at moved
    · rename_i artifact_found
      exact ⟨kind, found, artifact_found⟩
    · simp at moved
  · simp at moved

/-- When an attempt fails, not all that was staged is moved. -/
theorem exists_unmoved (is_name : IsName (target.fileName build.platform))
    (ran : build.toolRun? target world = some run) (keeps : run.KeepsDirectories)
    (failed : (build.attempt target world).1.succeeded = false)
    (staged : build.Stages target world run.left.tree name) :
    ∃ other, build.Stages target world run.left.tree other ∧ other ∉ run.installed := by
  by_cases artifact : build.Stages target world run.left.tree (target.fileName build.platform)
  · refine ⟨_, artifact, fun moved => ?_⟩
    rw [(attempt_transfers ran).2.1.mpr moved] at failed
    contradiction
  · refine ⟨name, staged, fun moved => artifact ?_⟩
    have found := (isFileAt_of_installed ran moved).2.2
    exact ((isFileAt_left_iff is_name ran keeps (.inr rfl)).mp found).2

/-- A file stays whose path is not taken, and what a commit that fails has not moved. -/
theorem stages_attempt_iff (is_name : IsName (target.fileName build.platform))
    (ran : build.toolRun? target world = some run) (keeps : run.KeepsDirectories) :
    build.Stages target world (build.attempt target world).2.tree name ↔
      build.Stages target world run.left.tree name ∧
        (¬ build.Accepts world name ∨
          run.report.result.succeeded = true ∧
            (build.attempt target world).1.succeeded = false ∧ name ∉ run.installed) := by
  cases reported : run.report.result.succeeded with
  | false =>
      rw [stages_of_failed is_name ran reported]
      refine and_congr_right fun staged => ?_
      rw [← Bool.not_eq_true, isFileAt_left_iff is_name ran keeps staged.1]
      simp [staged]
  | true =>
      rw [stages_of_reported ran reported]
      refine and_congr_right fun staged => ?_
      have found_iff := isFileAt_left_iff is_name ran keeps staged.1
      have accepted : name ∈ run.installed → build.Accepts world name := fun moved =>
        (found_iff.mp (isFileAt_of_installed ran moved).2.1).1
      cases succeeded : (build.attempt target world).1.succeeded with
      | false =>
          rw [eq_self, eq_self, true_and, true_and]
          exact ⟨.inr, fun stays => stays.elim (mt accepted) id⟩
      | true =>
          have moved : build.Accepts world name → name ∈ run.installed := fun accepts =>
            (mem_installed_iff ran succeeded).mpr ⟨staged.1, found_iff.mpr ⟨accepts, staged⟩⟩
          simp only [reduceCtorEq, false_and, and_false, or_false]
          exact not_congr ⟨accepted, moved⟩

/--
After a tool that leaves all directories where they were, a file of its target stays in staging when
the system does not take its path, or when the tool reports success and the commit fails before it
gets to the file.  So staging is cleared when the tool fails and when the attempt succeeds, and
whatever was staged for a commit that fails, some of it stays.
-/
theorem staging_cleared_iff (is_name : IsName (target.fileName build.platform))
    (ran : build.toolRun? target world = some run) (keeps : run.KeepsDirectories) :
    (∀ name, build.Stages target world (build.attempt target world).2.tree name ↔
      build.Stages target world run.left.tree name ∧
        (¬ build.Accepts world name ∨
          run.report.result.succeeded = true ∧
            (build.attempt target world).1.succeeded = false ∧ name ∉ run.installed)) ∧
      ((∀ name, ¬ build.Stages target world (build.attempt target world).2.tree name) ↔
        ∀ name, build.Stages target world run.left.tree name → build.Accepts world name ∧
          (run.report.result.succeeded = false ∨
            (build.attempt target world).1.succeeded = true)) := by
  refine ⟨fun name => stages_attempt_iff is_name ran keeps, fun cleared name staged => ?_,
    fun all name stays => ?_⟩
  · have gone : ∀ other, build.Stages target world run.left.tree other →
        build.Accepts world other ∧ (run.report.result.succeeded = true →
          (build.attempt target world).1.succeeded = false → other ∈ run.installed) := by
      intro other other_staged
      have left := mt (stages_attempt_iff is_name ran keeps).mpr (cleared other)
      simp only [not_and, not_or, not_not] at left
      exact left other_staged
    refine ⟨(gone name staged).1, ?_⟩
    by_contra neither
    simp only [not_or, Bool.not_eq_false, Bool.not_eq_true] at neither
    obtain ⟨other, other_staged, unmoved⟩ :=
      exists_unmoved is_name ran keeps neither.2 staged
    exact unmoved ((gone other other_staged).2 neither.1 neither.2)
  · obtain ⟨staged, unaccepted | ⟨reported, failed, -⟩⟩ :=
      (stages_attempt_iff is_name ran keeps).mp stays
    · exact unaccepted (all name staged).1
    · simpa [reported, failed] using (all name staged).2

/-- A tool that fails has left an executable and an import library, and both are discarded. -/
theorem failed_tool_leaves_nothing_staged :
    ∃ run, (withLibrary false).toolRun? .application (installedWorld false) = some run ∧
      (withLibrary false).Stages .application (installedWorld false) run.left.tree "app" ∧
      (withLibrary false).Stages .application (installedWorld false) run.left.tree "app.lib" ∧
      ∀ name, ¬ (withLibrary false).Stages .application (installedWorld false)
        ((withLibrary false).attempt .application (installedWorld false)).2.tree name := by
  obtain ⟨run, ran⟩ := Option.isSome_iff_exists.mp (by decide +kernel :
    ((withLibrary false).toolRun? .application (installedWorld false)).isSome = true)
  obtain ⟨-, -, start_tree, -, -, report_eq⟩ := toolRun_spec ran
  have left_tree : run.left.tree =
      (run.start.tree.insert ["p", "bin", ".kiln-staging", "app"]
        (.file ⟨Utf8.encode "new", true⟩)).insert ["p", "bin", ".kiln-staging", "app.lib"]
        (.file ⟨Utf8.encode "new", false⟩) :=
    congrArg RunnerReport.tree report_eq
  rw [start_tree] at left_tree
  have keeps : run.KeepsDirectories := by
    intro place directory
    rw [start_tree, FileTree.isDirectory_iff] at directory
    rw [left_tree, FileTree.isDirectory_iff, FileTree.entry?_insert, FileTree.entry?_insert]
    split_ifs with library executable
    · exact absurd (library.1 ▸ directory) (by decide +kernel)
    · exact absurd (executable.1 ▸ directory) (by decide +kernel)
    · exact directory
  have accepts : ∀ name ∈ Target.application.artifactNames .unix,
      (withLibrary false).Accepts (installedWorld false) name := by
    decide +kernel
  have failed : run.report.result.succeeded = false := by
    rw [report_eq]
    rfl
  refine ⟨run, ran, ⟨.inr (by decide +kernel), ⟨Utf8.encode "new", true⟩, ?_⟩,
    ⟨.inl (by decide +kernel), ⟨Utf8.encode "new", false⟩, ?_⟩,
    (staging_cleared_iff (by decide +kernel) ran keeps).2.mpr fun name staged =>
      ⟨accepts name ?_, .inl failed⟩⟩
  · rw [left_tree]
    decide +kernel
  · rw [left_tree]
    decide +kernel
  · rcases staged.1 with companion | rfl
    · exact StagedArtifact.mem_artifactNames companion
    · decide

/-- A commit that fails because of a directory leaves the executable in staging. -/
theorem failed_commit_leaves_executable_staged :
    (withLibrary true).runner.ConfinedTo
        ((withLibrary true).stagingPlace (installedWorld true)) ∧
      ((withLibrary true).attempt .application (installedWorld true)).1.succeeded = false ∧
      (withLibrary true).Stages .application (installedWorld true)
        ((withLibrary true).attempt .application (installedWorld true)).2.tree "app" :=
  ⟨withLibrary_confinedTo true true, by decide +kernel, .inr (by decide +kernel),
    ⟨Utf8.encode "new", true⟩, by decide +kernel⟩

end Build
end StagedBuild
