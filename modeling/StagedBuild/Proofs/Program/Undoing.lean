import StagedBuild.Proofs.Build.Residue
import StagedBuild.Proofs.FileTree.Removal
import StagedBuild.Proofs.Program.Confinement

/-!
# Cleaning undoes builds

Cleaning removes all that builds of a project leave in an output directory that was empty before:
every file there carries a name that cleaning knows, and the rest is in staging.  What it does not
find it takes for removed, so it succeeds however far the builds have come.
-/

namespace StagedBuild

open StagedBuild.Path (IsName)
open StagedArtifact (locate stagingOf stagingName companionName companionExtensions)
open FileTree (IsBelow Takes)

/-- The path leads to the same place as another one, over places on the way of that one only. -/
structure Path.Retraces (path : Path) (cwd : Location) (other : Path) : Prop where
  /-- The path starts at the root. -/
  absolute : path.isAbsolute = true
  /-- The path leads to the same place. -/
  place_eq : path.place cwd = other.place cwd
  /-- The path leads through no places of its own. -/
  inside : ∀ place, path.LeadsThrough cwd place → other.LeadsThrough cwd place

theorem Path.retraces_self {path : Path} (absolute : path.isAbsolute = true) (cwd : Location) :
    path.Retraces cwd path :=
  ⟨absolute, rfl, fun _ leads => leads⟩

/-- Cutting off a joined name leads back on the same way. -/
theorem Path.retraces_directory_join {path : Path} {name : String} (is_name : IsName name)
    (absolute : path.isAbsolute = true) (cwd : Location) :
    (path.join name).directory.Retraces cwd path := by
  obtain ⟨-, -, -, -, same_start⟩ := segments_directory_join path is_name
  refine ⟨same_start.trans absolute, ?_, fun _ leads => leads.of_directory_join is_name⟩
  have above := place_eq_directory (is_name.fileName?_join path) cwd
  rw [place_join_name path is_name] at above
  exact (List.append_inj' above rfl).1.symm

/-- Removing a file of a target keeps the residue. -/
theorem Residue.erase {outDir : Path} {names : List String} {cwd : Location}
    {tree after : FileTree} {name : String} (residue : Residue outDir names cwd tree)
    (stays : outDir.StaysAbove cwd) (other : name ≠ stagingName)
    (erased : ∀ place, after.entry? place =
      if place = outDir.place cwd ++ [name] then none else tree.entry? place) :
    Residue outDir names cwd after := by
  have on_way : ∀ place, (stagingOf outDir).LeadsThrough cwd place →
      after.entry? place = tree.entry? place := by
    intro place leads
    rw [erased, if_neg (StagedArtifact.ne_append_of_leadsThrough stays other leads)]
  refine ⟨fun place leads => ?_, fun place below not_staged => ?_, ?_⟩
  · rw [FileTree.file?_congr
      (on_way place (StagedArtifact.leadsThrough_stagingOf_iff.mpr (Or.inl leads)))]
    exact residue.clear place leads
  · rw [erased]
    split
    · exact Or.inl rfl
    · exact residue.content place below not_staged
  · refine residue.reached.imp (fun is_open place leads => ?_) fun empty place below => ?_
    · rw [FileTree.isDirectory_congr (on_way place leads)]
      exact is_open place leads
    · rw [erased, empty place below, ite_self]

/-- A file is removed at a joined name if there is one, and nothing else is. -/
theorem World.removeFileIfExists_join {world : World} {path : Path} {name : String}
    (is_name : IsName name) (absolute : path.isAbsolute = true) (takes : Takes (path.join name))
    (clear : world.tree.IsClear world.cwd path)
    (free : world.tree.isDirectory (path.place world.cwd ++ [name]) = false)
    (gone : ¬ world.tree.IsOpen world.cwd path →
      world.tree.entry? (path.place world.cwd ++ [name]) = none) :
    ∃ found after, world.removeFileIfExists (path.join name) = (.ok found, after) ∧
      after.cwd = world.cwd ∧ ∀ place, after.tree.entry? place =
        if place = path.place world.cwd ++ [name] then none else world.tree.entry? place := by
  have removed := FileTree.removeFile_join is_name absolute takes clear free gone
  by_cases missing : world.tree.entry? (path.place world.cwd ++ [name]) = none
  · rw [if_pos missing] at removed
    refine ⟨false, world, ?_, rfl, fun place => ?_⟩
    · rw [removeFileIfExists, removed]
      rfl
    · split
      · rename_i here
        rw [here, missing]
      · rfl
  · rw [if_neg missing] at removed
    refine ⟨true, world.change (world.tree.erase (path.place world.cwd ++ [name]))
      [.removedFile (path.place world.cwd ++ [name])], ?_, rfl, fun place => ?_⟩
    · rw [removeFileIfExists, removed]
    · rw [World.change, FileTree.entry?_erase]
      by_cases here : place = path.place world.cwd ++ [name] <;> simp [here]

namespace StagedArtifact

theorem companionName_ne_stagingName {outputName suffix : String}
    (member : suffix ∈ companionExtensions) : companionName outputName suffix ≠ stagingName := by
  intro same
  have last := congrArg (fun name : String => name.toList.getLast?) same
  simp only [companionExtensions, List.mem_cons, List.not_mem_nil, or_false] at member
  rcases member with rfl | rfl | rfl <;> simp [companionName, stagingName] at last

end StagedArtifact

namespace Project

variable {project : Project} {runner : Runner} {platform : Platform} {world : World}
  {outDir : Path} {own : List String}

/-- A file of a target is removed if it is there, and the residue is kept. -/
theorem removeFileIfExists_of_residue {directory : Path} {name : String} (is_name : IsName name)
    (other : name ≠ stagingName) (retraces : directory.Retraces world.cwd outDir)
    (takes : Takes (directory.join name)) (stays : outDir.StaysAbove world.cwd)
    (residue : Residue outDir own world.cwd world.tree) :
    ∃ found after, world.removeFileIfExists (directory.join name) = (.ok found, after) ∧
      after.cwd = world.cwd ∧ Residue outDir own world.cwd after.tree ∧
      ∀ place, after.tree.entry? place =
        if place = outDir.place world.cwd ++ [name] then none else world.tree.entry? place := by
  have not_staged : ¬ IsBelow ((stagingOf outDir).place world.cwd)
      (outDir.place world.cwd ++ [name]) := by
    rw [StagedArtifact.place_stagingOf]
    exact FileTree.not_isBelow_sibling _ _ _
  have free : world.tree.isDirectory (directory.place world.cwd ++ [name]) = false := by
    rw [retraces.place_eq, FileTree.isDirectory]
    rcases residue.content _ (FileTree.isBelow_append_name _ name) not_staged with
      missing | staging | ⟨-, -, -, file, holds⟩
    · simp [missing]
    · rw [StagedArtifact.place_stagingOf] at staging
      exact absurd (List.cons.inj (List.append_cancel_left staging)).1 other
    · simp [holds]
  have gone : ¬ world.tree.IsOpen world.cwd directory →
      world.tree.entry? (directory.place world.cwd ++ [name]) = none := by
    intro closed
    rw [retraces.place_eq]
    rcases residue.reached with is_open | empty
    · refine absurd (fun place leads => is_open place ?_) closed
      exact StagedArtifact.leadsThrough_stagingOf_iff.mpr (Or.inl (retraces.inside place leads))
    · exact empty _ (FileTree.isBelow_append_name _ name)
  have clear : world.tree.IsClear world.cwd directory :=
    fun place leads => residue.clear place (retraces.inside place leads)
  obtain ⟨found, after, removed, same_cwd, erased⟩ :=
    World.removeFileIfExists_join is_name retraces.absolute takes clear free gone
  rw [retraces.place_eq] at erased
  exact ⟨found, after, removed, same_cwd, residue.erase stays other erased, erased⟩

/-- The path is one that the system takes for a file in the output directory. -/
def Removable (outDir : Path) (cwd : Location) (path : Path) : Prop :=
  Takes path ∧ ∃ (directory : Path) (name : String), path = directory.join name ∧ IsName name ∧
    name ≠ stagingName ∧ directory.Retraces cwd outDir

/-- Files of targets are removed where they are, and nothing comes about. -/
theorem removeFiles_of_residue {paths : List Path}
    (removable : ∀ path ∈ paths, Removable outDir world.cwd path)
    (stays : outDir.StaysAbove world.cwd) (residue : Residue outDir own world.cwd world.tree) :
    ∃ after, removeFiles paths world = (.ok (), after) ∧ after.cwd = world.cwd ∧
      Residue outDir own world.cwd after.tree ∧
      (∀ path ∈ paths, after.tree.entry? (path.place world.cwd) = none) ∧
      ∀ place, world.tree.entry? place = none → after.tree.entry? place = none := by
  induction paths generalizing world with
  | nil => exact ⟨world, rfl, rfl, residue, by simp, fun _ missing => missing⟩
  | cons path rest induction =>
      rw [List.forall_mem_cons] at removable
      obtain ⟨⟨takes, directory, name, rfl, is_name, other, retraces⟩, others⟩ := removable
      obtain ⟨found, middle, removed, same_cwd, kept, erased⟩ :=
        removeFileIfExists_of_residue is_name other retraces takes stays residue
      have path_gone : middle.tree.entry? ((directory.join name).place world.cwd) = none := by
        rw [Path.place_join_name directory is_name, retraces.place_eq, erased, if_pos rfl]
      let reported := if found then middle.emit [.status (removedLine (directory.join name))]
        else middle
      have reported_tree : reported.tree = middle.tree := by
        cases found <;> rfl
      have reported_cwd : reported.cwd = world.cwd := by
        cases found <;> exact same_cwd
      have later := @induction reported
      rw [reported_cwd, reported_tree] at later
      obtain ⟨after, rest_removed, rest_cwd, rest_kept, rest_gone, shrinks⟩ :=
        later others stays kept
      refine ⟨after, ?_, rest_cwd, rest_kept, ?_, fun place missing => shrinks place ?_⟩
      · rw [removeFiles, removed]
        exact rest_removed
      · rw [List.forall_mem_cons]
        exact ⟨shrinks _ path_gone, rest_gone⟩
      · rw [erased, missing, ite_self]

/-- Staging is removed with everything in it, or there was nothing of it. -/
theorem removeStaging_of_residue (absolute : outDir.isAbsolute = true)
    (takes : Takes (stagingOf outDir)) (stays : outDir.StaysAbove world.cwd)
    (residue : Residue outDir own world.cwd world.tree) :
    ∃ after, removeStaging (stagingOf outDir) world = (.ok (), after) ∧
      ∀ place, after.tree.entry? place =
        if (stagingOf outDir).place world.cwd <+: place then none
        else world.tree.entry? place := by
  have is_name := StagedArtifact.isName_stagingName
  by_cases is_open : world.tree.IsOpen world.cwd (stagingOf outDir)
  · have present : world.tree.isDirectoryAt world.cwd (stagingOf outDir) = true :=
      FileTree.isDirectoryAt_iff_opens.mpr ⟨takes.1, is_open.opens takes.2⟩
    have removed := FileTree.removeDirectory_of_staysAbove is_name present fun place leads =>
      StagedArtifact.not_isBelow_staging stays leads
    rw [← stagingOf] at removed
    rw [removeStaging, World.removeDirectoryIfExists, removed]
    refine ⟨_, rfl, fun place => ?_⟩
    have below_root : (stagingOf outDir).place world.cwd ≠ [] := by
      rw [StagedArtifact.place_stagingOf]
      simp
    exact world.tree.entry?_eraseBelow below_root place
  · have empty := residue.reached.resolve_left is_open
    have inside : ∀ place, (stagingOf outDir).place world.cwd <+: place →
        IsBelow (outDir.place world.cwd) place := by
      rw [StagedArtifact.place_stagingOf]
      rintro place ⟨rest, rfl⟩
      exact (FileTree.isBelow_append_name _ _).append rest
    have clear : world.tree.IsClear world.cwd (stagingOf outDir) := by
      intro place leads
      rcases StagedArtifact.leadsThrough_stagingOf_iff.mp leads with on_way | rfl
      · exact residue.clear place on_way
      · simp [FileTree.file?, empty _ (inside _ List.prefix_rfl)]
    have staging_absolute : (stagingOf outDir).isAbsolute = true :=
      is_name.isAbsolute_join absolute
    have missing := FileTree.locate_of_closed staging_absolute takes clear is_open
    rw [removeStaging, World.removeDirectoryIfExists, FileTree.removeDirectory, missing]
    refine ⟨_, rfl, fun place => ?_⟩
    by_cases under : (stagingOf outDir).place world.cwd <+: place
    · rw [if_pos under]
      exact empty place (inside place under)
    · rw [if_neg under]
      rfl

/-- The file names of all artifacts of the project and of their companions. -/
def artifactNames (project : Project) (platform : Platform) : List String :=
  project.manifest.allTargets.flatMap fun target => target.artifactNames platform

/-- What cleaning a project removes. -/
def removals (project : Project) (build : Build) : List Path :=
  project.installedFiles build ++ [stagingOf build.outDir]

section Clean

variable
  (file_names : ∀ target ∈ project.manifest.allTargets, IsName (target.fileName platform))
  (absolute : project.root.isAbsolute = true)
  (reserved : ∀ target ∈ project.manifest.allTargets, target.fileName platform ≠ stagingName)
  (takes : ∀ path ∈ project.removals (project.toBuild runner platform), Takes path)

include file_names absolute reserved takes

theorem removable_of_mem_installedFiles {path : Path} (cwd : Location)
    (member : path ∈ project.installedFiles (project.toBuild runner platform)) :
    Removable project.outDir cwd path := by
  have taken := takes path (List.mem_append_left _ member)
  have whole := project.isAbsolute_outDir absolute
  obtain ⟨target, declared, installed⟩ := List.mem_flatMap.mp member
  have is_name := file_names target declared
  rw [outDir_toBuild absolute] at installed
  refine ⟨taken, ?_⟩
  rcases List.mem_cons.mp installed with rfl | companion
  · exact ⟨project.outDir, target.fileName platform, rfl, is_name, reserved target declared,
      Path.retraces_self whole cwd⟩
  · obtain ⟨suffix, extension, rfl⟩ := List.mem_map.mp companion
    exact ⟨_, _, rfl, StagedArtifact.isName_companionName is_name extension,
      StagedArtifact.companionName_ne_stagingName extension,
      Path.retraces_directory_join is_name whole cwd⟩

/-- Cleaning succeeds on what builds leave, and leaves nothing of it. -/
theorem clean_of_residue (stays : project.outDir.StaysAbove world.cwd)
    (residue : Residue project.outDir (project.artifactNames platform) world.cwd world.tree) :
    ∃ after, project.clean runner platform world = (.ok 0, after) ∧
      ∀ place, IsBelow (project.outDir.place world.cwd) place →
        after.tree.entry? place = none := by
  have same_outDir := @outDir_toBuild project runner platform absolute
  have whole := project.isAbsolute_outDir absolute
  obtain ⟨middle, files_removed, same_cwd, kept, gone, -⟩ :=
    removeFiles_of_residue (fun path member =>
      removable_of_mem_installedFiles file_names absolute reserved takes world.cwd member)
      stays residue
  rw [← same_cwd] at stays kept
  have staging_taken : Takes (stagingOf project.outDir) := by
    rw [← same_outDir]
    exact takes _ (List.mem_append_right _ (List.mem_singleton.mpr rfl))
  obtain ⟨after, staging_removed, left⟩ :=
    removeStaging_of_residue whole staging_taken stays kept
  refine ⟨after, ?_, fun place below => ?_⟩
  · simp only [clean, files_removed, same_outDir, staging_removed]
  · rw [left]
    split
    · rfl
    · rename_i not_under
      rw [← same_cwd] at below
      rcases kept.content place below fun staged => not_under staged.1 with
        missing | rfl | ⟨name, own, rfl, -⟩
      · exact missing
      · exact absurd List.prefix_rfl not_under
      · -- A file of a target is under one of the names that were removed.
        obtain ⟨target, declared, owned⟩ := List.mem_flatMap.mp own
        obtain ⟨path, installed, place_eq⟩ :=
          @StagedArtifact.exists_installedFile platform project.outDir target
            (file_names target declared) name owned world.cwd
        have member : path ∈ project.installedFiles (project.toBuild runner platform) := by
          refine List.mem_flatMap.mpr ⟨target, declared, ?_⟩
          rw [same_outDir]
          exact installed
        rw [same_cwd, ← place_eq]
        exact gone path member

end Clean

/-- A build with a tool that writes only inside the staging directory keeps the residue. -/
theorem residue_build (names : ∀ name ∈ world.cwd, IsName name)
    (absolute : project.root.isAbsolute = true) (stays : project.outDir.StaysAbove world.cwd)
    (confined : runner.ConfinedTo ((stagingOf project.outDir).place world.cwd))
    (residue : Residue project.outDir (project.artifactNames platform) world.cwd world.tree)
    (wanted : List String) :
    (project.build runner platform wanted world).2.cwd = world.cwd ∧
      Residue project.outDir (project.artifactNames platform) world.cwd
        (project.build runner platform wanted world).2.tree := by
  have same_outDir : (project.observed runner platform).outDir = project.outDir :=
    outDir_toBuild absolute
  cases selection : project.manifest.select wanted with
  | error problem =>
      rw [build, selection]
      exact ⟨rfl, residue⟩
  | ok targets =>
      have owned : ∀ target ∈ targets, ∀ name ∈ target.artifactNames platform,
          name ∈ project.artifactNames platform := by
        intro target selected name own
        rw [← Manifest.selected_of_select selection] at selected
        exact List.mem_flatMap.mpr
          ⟨target, (project.manifest.selected_sublist wanted).subset selected, own⟩
      have run := @Build.residue_runAll (project.observed runner platform) world
        (project.artifactNames platform) targets names
      rw [Build.stagingPlace_eq_place names, same_outDir] at run
      rw [build_eq_of_select selection]
      exact run (project.isAbsolute_outDir absolute) stays confined owned residue

end Project

namespace Program

variable {project : Project} {runner : Runner} {platform : Platform} {world : World}

/-- Builds of a project one after the other, each of the named targets and with its own tools. -/
def buildAll (project : Project) (platform : Platform) :
    List (List String × Runner) → World → World
  | [], world => world
  | (wanted, runner) :: rest, world =>
      buildAll project platform rest
        (conclude (perform (.build wanted) project runner platform world)).2

/-- What is concluded about a command does not touch the files. -/
theorem files_conclude (ended : Except ProgramError Int × World) :
    (conclude ended).2.cwd = ended.2.cwd ∧ (conclude ended).2.tree = ended.2.tree := by
  obtain ⟨result, world⟩ := ended
  cases result with
  | error error => exact ⟨rfl, rfl⟩
  | ok code => exact ⟨rfl, rfl⟩

/-- Builds keep the residue, whatever becomes of each of them. -/
theorem residue_buildAll {runs : List (List String × Runner)}
    (names : ∀ name ∈ world.cwd, IsName name) (absolute : project.root.isAbsolute = true)
    (stays : project.outDir.StaysAbove world.cwd)
    (confined : ∀ run ∈ runs, run.2.ConfinedTo ((stagingOf project.outDir).place world.cwd))
    (residue : Residue project.outDir (project.artifactNames platform) world.cwd world.tree) :
    (buildAll project platform runs world).cwd = world.cwd ∧
      Residue project.outDir (project.artifactNames platform) world.cwd
        (buildAll project platform runs world).tree := by
  induction runs generalizing world with
  | nil => exact ⟨rfl, residue⟩
  | cons run rest induction =>
      obtain ⟨wanted, runner⟩ := run
      rw [List.forall_mem_cons] at confined
      obtain ⟨build_cwd, built⟩ :=
        Project.residue_build names absolute stays confined.1 residue wanted
      obtain ⟨same_cwd, same_tree⟩ :=
        files_conclude (perform (.build wanted) project runner platform world)
      have later := @induction (conclude (perform (.build wanted) project runner platform world)).2
      rw [same_cwd, same_tree, perform, build_cwd] at later
      exact later names stays confined.2 built

/--
Cleaning undoes builds: however often a project is built and whatever becomes of it, with tools that
write only inside the staging directory and an output directory that was empty and is not reached
through itself or through a file, cleaning ends with exit code zero and leaves nothing there.  The
staging directory must not be the name of an artifact, and the system must take the paths of what is
removed.
-/
theorem clean_undoes_builds (accepted : project.manifest.validate = .ok ())
    (absolute : project.root.isAbsolute = true) (names : ∀ name ∈ world.cwd, IsName name)
    (tool : Option String) (outDir : Option Path) (runs : List (List String × Runner))
    (reserved : ∀ target ∈ project.manifest.allTargets, target.fileName platform ≠ stagingName)
    (takes : ∀ path ∈ (project.adjusted tool outDir).removals
      ((project.adjusted tool outDir).toBuild runner platform), Takes path)
    (vacant : world.tree.IsVacant world.cwd (project.adjusted tool outDir).outDir)
    (confined : ∀ run ∈ runs, run.2.ConfinedTo
      ((stagingOf (project.adjusted tool outDir).outDir).place world.cwd)) :
    ∃ cleaned, conclude (perform .clean (project.adjusted tool outDir) runner platform
        (buildAll (project.adjusted tool outDir) platform runs world)) = (0, cleaned) ∧
      ∀ place, IsBelow ((project.adjusted tool outDir).outDir.place world.cwd) place →
        cleaned.tree.entry? place = none := by
  have same_targets : (project.adjusted tool outDir).manifest.allTargets =
      project.manifest.allTargets := by
    rw [Manifest.allTargets, Project.targets_adjusted, Manifest.allTargets]
  have file_names : ∀ target ∈ (project.adjusted tool outDir).manifest.allTargets,
      IsName (target.fileName platform) := by
    intro target declared
    rw [same_targets] at declared
    exact Target.isName_fileName (Manifest.isName_outputName accepted declared) platform
  rw [← same_targets] at reserved
  rw [← project.root_adjusted tool outDir] at absolute
  obtain ⟨same_cwd, residue⟩ :=
    residue_buildAll names absolute vacant.stays confined (vacant.residue _)
  have stays := vacant.stays
  rw [← same_cwd] at stays residue
  obtain ⟨cleaned, clean_eq, nothing⟩ :=
    Project.clean_of_residue file_names absolute reserved takes stays residue
  rw [same_cwd] at nothing
  refine ⟨cleaned, ?_, nothing⟩
  rw [perform, clean_eq]
  rfl

/-- The default project, installing into another directory. -/
def installingInto (outDir : String) : Project :=
  undescribed.adjusted none (some ⟨outDir⟩)

/-- A tool that reports success writes the executable; the next one fails and leaves a file. -/
def twoRuns : List (List String × Runner) :=
  [(["dieselc"], executableWriter),
    ([], .writing [(["p", "out", ".kiln-staging", "notes"], ⟨Utf8.encode "notes", false⟩)] false)]

/-- The project after both builds. -/
def builtTwice : World :=
  buildAll (installingInto "out") .unix twoRuns World.project

theorem entry?_project (place : Location) : World.project.tree.entry? place =
    if place = [] ∨ place = ["p"] then some .directory else none := by
  rw [World.project, FileTree.entry?_insert, FileTree.entry?, FileTree.empty]
  by_cases root : place = [] <;> by_cases here : place = ["p"] <;> simp [root, here]

/-- An executable and a file in staging are there before cleaning, and nothing is afterwards. -/
theorem clean_undoes_two_builds :
    undescribed.manifest.validate = .ok () ∧
      World.project.tree.IsVacant ["p"] (installingInto "out").outDir ∧
      builtTwice.tree.entry? ["p", "out", "dieselc"] =
        some (.file ⟨Utf8.encode "dieselc", true⟩) ∧
      builtTwice.tree.entry? ["p", "out", ".kiln-staging", "notes"] =
        some (.file ⟨Utf8.encode "notes", false⟩) ∧
      ∃ cleaned, conclude (perform .clean (installingInto "out") executableWriter .unix
          builtTwice) = (0, cleaned) ∧
        ∀ place, IsBelow ["p", "out"] place → cleaned.tree.entry? place = none := by
  have accepted : undescribed.manifest.validate = .ok () := by decide +kernel
  have vacant : World.project.tree.IsVacant ["p"] (installingInto "out").outDir := by
    have out_place : (installingInto "out").outDir.place ["p"] = ["p", "out"] := by decide +kernel
    refine ⟨fun place below => ?_, Path.staysAbove_of_forward (by decide +kernel) _,
      fun place _ => ?_⟩
    · rw [out_place] at below
      obtain ⟨name, rest, rfl⟩ := FileTree.isBelow_iff.mp below
      simp [entry?_project]
    · rw [FileTree.file?, entry?_project]
      by_cases held : place = [] ∨ place = ["p"] <;> simp [held]
  have held : builtTwice.tree.entry? ["p", "out", "dieselc"] =
        some (.file ⟨Utf8.encode "dieselc", true⟩) ∧
      builtTwice.tree.entry? ["p", "out", ".kiln-staging", "notes"] =
        some (.file ⟨Utf8.encode "notes", false⟩) := by
    decide +kernel
  refine ⟨accepted, vacant, held.1, held.2, ?_⟩
  exact clean_undoes_builds accepted (by decide +kernel) (by decide +kernel) none (some ⟨"out"⟩)
    twoRuns (by decide +kernel) (by decide +kernel) vacant (by
      rw [twoRuns, List.forall_mem_cons, List.forall_mem_singleton]
      exact ⟨Runner.writing_confinedTo (by decide +kernel),
        Runner.writing_confinedTo (by decide +kernel)⟩)

/-- A project in `/p` with a file of notes. -/
def withNotes : World where
  tree := World.project.tree.insert ["p", "notes"] (.file ⟨Utf8.encode "notes", false⟩)
  cwd := ["p"]

/--
A build creates the directories that it needs on the way, and cleaning leaves them even inside of
the output directory; and a file on the way is an error for cleaning, though nothing is behind it.
-/
theorem clean_keeps_way_and_stops_at_file :
    undescribed.manifest.validate = .ok () ∧
      ((installingInto "out/sub/..").outDir.place ["p"] = ["p", "out"] ∧
        World.project.tree.entry? ["p", "out"] = none ∧
        executableWriter.ConfinedTo
          ((stagingOf (installingInto "out/sub/..").outDir).place ["p"]) ∧
        IsBelow ["p", "out"] ["p", "out", "sub"] ∧
        (conclude (perform .clean (installingInto "out/sub/..") executableWriter .unix
            (buildAll (installingInto "out/sub/..") .unix [(["dieselc"], executableWriter)]
              World.project))).2.tree.entry? ["p", "out", "sub"] = some .directory) ∧
      (installingInto "notes/out").outDir.place ["p"] = ["p", "notes", "out"] ∧
      withNotes.tree.entry? ["p", "notes", "out"] = none ∧
      (conclude (perform .clean (installingInto "notes/out") executableWriter .unix
        withNotes)).1 = 1 :=
  ⟨by decide +kernel, ⟨by decide +kernel, by decide +kernel,
    Runner.writing_confinedTo (by decide +kernel), by decide +kernel, by decide +kernel⟩,
    by decide +kernel, by decide +kernel, by decide +kernel⟩

end Program
end StagedBuild
