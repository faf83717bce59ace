import Mathlib.Data.List.Nodup
import StagedBuild.Proofs.Build.Residue
import StagedBuild.Proofs.Program.Cleaning
import StagedBuild.Proofs.Program.CurrentDirectory

/-!
# Companions that are found and companions that are removed

Companions are found by taking file names apart, and they are removed by putting file names
together.  Both ways agree for every output name that is accepted, wherever it has dots: what a
commit finds in staging are the files with the names of installed companions, as far as the system
takes their paths, it moves each of them to where the installed one is, and a cleaning that succeeds
leaves nothing there.
-/

namespace StagedBuild

open StagedBuild.Path (IsName)
open StagedArtifact (locate)
open World (Chores)

namespace StagedArtifact

variable {platform : Platform} {outDir : Path} {target : Target} {tree : FileTree}
  {cwd : Location} {name : String}

/-- There is a regular file of this name in the staging directory. -/
def HasStaged (artifact : StagedArtifact) (tree : FileTree) (cwd : Location) (name : String) :
    Prop :=
  ∃ file, tree.file? (artifact.stagingDir.place cwd ++ [name]) = some file

/-- The system takes the path of a file of this name in the staging directory. -/
def Takes (artifact : StagedArtifact) (name : String) : Prop :=
  FileTree.admissible (artifact.stagingDir.join name) = .ok () ∧
    Utf8.size name ≤ FileTree.nameLimit

/-- The name is the file name of an installed companion of the artifact. -/
def ListsCompanion (artifact : StagedArtifact) (name : String) : Prop :=
  ∃ file ∈ artifact.installedFiles.tail, file.fileName? = some name

section Installed

variable (is_name : IsName (target.fileName platform))

include is_name

/-- The companions are installed under their names, in the order of the extensions. -/
theorem map_fileName_installedFiles :
    (locate platform outDir target).installedFiles.map Path.fileName? =
      (target.artifactNames platform).map some := by
  rw [installedFiles, Target.artifactNames, List.map_cons, List.map_cons, List.map_map,
    List.map_map, locate, is_name.fileName?_join]
  congr 1
  refine List.map_congr_left fun suffix member => ?_
  exact (isName_companionName is_name member).fileName?_join _

theorem listsCompanion_iff_exists :
    (locate platform outDir target).ListsCompanion name ↔
      ∃ suffix ∈ companionExtensions, name = companionName target.outputName suffix := by
  have names := congrArg List.tail (@map_fileName_installedFiles platform outDir target is_name)
  rw [← List.map_tail, ← List.map_tail, Target.artifactNames, List.tail_cons, List.map_map] at names
  have listed : (locate platform outDir target).ListsCompanion name ↔
      some name ∈ (locate platform outDir target).installedFiles.tail.map Path.fileName? := by
    rw [ListsCompanion, List.mem_map]
  rw [listed, names]
  simp [eq_comm]

/-- The files that are taken for companions have the names of the installed companions. -/
theorem listsCompanion_iff (named : target.outputName ≠ "") :
    (locate platform outDir target).ListsCompanion name ↔
      isCompanionName target.outputName name = true := by
  rw [listsCompanion_iff_exists is_name, isCompanionName_iff, and_iff_right named]

/-- No companion is installed under the name of the artifact. -/
theorem ListsCompanion.ne_fileName (listed : (locate platform outDir target).ListsCompanion name) :
    name ≠ target.fileName platform := by
  obtain ⟨suffix, member, rfl⟩ := (listsCompanion_iff_exists is_name).mp listed
  exact companionName_ne_fileName target platform member

/-- No companion is found twice. -/
theorem nodup_companions {found : List Path}
    (listed : (locate platform outDir target).companions tree cwd = .ok found) : found.Nodup := by
  obtain ⟨names, rfl, distinct, companion⟩ := companions_eq_ok listed
  have file_name : ∀ name ∈ names,
      ((locate platform outDir target).stagingDir.join name).fileName? = some name :=
    fun name member =>
      (isName_of_isCompanionName is_name (companion name member).1).1.fileName?_join _
  refine distinct.map_on fun name member other other_member same => Option.some.inj ?_
  rw [← file_name name member, same, file_name other other_member]

/-- The staged artifact is not found among its companions. -/
theorem other_of_mem_companions {found : List Path} {path : Path}
    (listed : (locate platform outDir target).companions tree cwd = .ok found)
    (member : path ∈ found) :
    path.sameComponents (locate platform outDir target).stagingPath = false := by
  obtain ⟨names, rfl, -, companion⟩ := companions_eq_ok listed
  obtain ⟨name, chosen, rfl⟩ := List.mem_map.mp member
  rw [stagingDir_locate is_name]
  exact not_sameComponents_stagingPath is_name (companion name chosen).1

/-- The system takes the path of every companion that is found. -/
theorem admissible_of_mem_companions {found : List Path} {path : Path}
    (listed : (locate platform outDir target).companions tree cwd = .ok found)
    (member : path ∈ found) : FileTree.admissible path = .ok () := by
  obtain ⟨names, rfl, -, companion⟩ := companions_eq_ok listed
  obtain ⟨name, chosen, rfl⟩ := List.mem_map.mp member
  obtain ⟨own, file⟩ := companion name chosen
  exact ((FileTree.isFileAt_join_name_iff (isName_of_isCompanionName is_name own).1).mp file).1

/-- A file that has the name of an installed companion is chosen when the system takes its path. -/
theorem mem_companionNames_iff_listsCompanion {names : List String}
    (named : target.outputName ≠ "")
    (read : tree.readDirectory cwd (locate platform outDir target).stagingDir = .ok names) :
    name ∈ companionNames platform outDir target tree cwd ↔
      (locate platform outDir target).ListsCompanion name ∧
        (locate platform outDir target).HasStaged tree cwd name ∧
        (locate platform outDir target).Takes name := by
  obtain ⟨-, opens, -⟩ := FileTree.readDirectory_eq_ok_iff.mp read
  rw [mem_companionNames_iff is_name, listsCompanion_iff is_name named]
  refine and_congr_right fun companion => ?_
  rw [HasStaged, Takes, stagingDir_locate is_name] at *
  rw [FileTree.isFileAt_join_name_iff (isName_of_isCompanionName is_name companion).1]
  constructor
  · rintro ⟨taken, -, short, staged⟩
    exact ⟨staged, taken, short⟩
  · rintro ⟨staged, taken, short⟩
    exact ⟨taken, opens, short, staged⟩

/-- What is found in staging are the files that have the name of an installed companion, but for
those whose path the system does not take. -/
theorem mem_companions_iff {names : List String} {found : List Path} {path : Path}
    (named : target.outputName ≠ "")
    (read : tree.readDirectory cwd (locate platform outDir target).stagingDir = .ok names)
    (listed : (locate platform outDir target).companions tree cwd = .ok found) :
    path ∈ found ↔ ∃ name, path = (locate platform outDir target).stagingDir.join name ∧
      (locate platform outDir target).ListsCompanion name ∧
      (locate platform outDir target).HasStaged tree cwd name ∧
      (locate platform outDir target).Takes name := by
  rw [companions_of_read is_name read] at listed
  obtain rfl := Except.ok.inj listed
  rw [stagingDir_locate is_name, List.mem_map]
  simp only [List.mem_mergeSort, mem_companionNames_iff_listsCompanion is_name named read]
  constructor
  · rintro ⟨name, chosen, rfl⟩
    exact ⟨name, rfl, chosen⟩
  · rintro ⟨name, rfl, chosen⟩
    exact ⟨name, chosen, rfl⟩

/-- Every installed file has a name of the target. -/
theorem exists_name_of_installed {file : Path}
    (installed : file ∈ (locate platform outDir target).installedFiles) (cwd : Location) :
    ∃ name ∈ target.artifactNames platform, IsName name ∧
      file.place cwd = outDir.place cwd ++ [name] := by
  rcases List.mem_cons.mp installed with rfl | companion
  · exact ⟨target.fileName platform, List.mem_cons_self, is_name,
      Path.place_join_name outDir is_name cwd⟩
  · obtain ⟨suffix, extension, rfl⟩ := List.mem_map.mp companion
    have last_name := isName_companionName is_name extension
    refine ⟨companionName target.outputName suffix,
      List.mem_cons_of_mem _ (List.mem_map.mpr ⟨suffix, extension, rfl⟩), last_name, ?_⟩
    rw [← @place_outDir_locate platform outDir target is_name]
    exact Path.place_join_name _ last_name cwd

end Installed

/-- The change moves a staged file to an installed file of the same name. -/
def Installs (artifact : StagedArtifact) (cwd : Location) (change : Change) : Prop :=
  ∃ file ∈ artifact.installedFiles, ∃ name, file.fileName? = some name ∧
    change = .movedFile (artifact.stagingDir.place cwd ++ [name]) (file.place cwd)

section Commit

variable {world left : World} {result : Except BuildError Unit}

/-- A commit only moves staged files to where they are installed. -/
theorem chores_of_commit (is_name : IsName (target.fileName platform))
    (committed : (locate platform outDir target).commit world = (result, left)) :
    Chores ((locate platform outDir target).Installs world.cwd) world left := by
  have moves := (locate platform outDir target).chores_commit world
  rw [committed] at moves
  apply moves.mono
  rintro change ⟨staged, member, last, named, rfl⟩
  obtain ⟨name, own, own_name, rfl⟩ := mem_leftovers is_name member
  obtain rfl : name = last := Option.some.inj ((own_name.fileName?_join _).symm.trans named)
  obtain ⟨directory, installed, same_place, -⟩ :=
    @exists_installed_of_name platform outDir target is_name name own world.cwd
  refine ⟨_, installed, name, own_name.fileName?_join directory, ?_⟩
  rw [Path.place_join_name _ own_name, Path.place_join_name _ own_name,
    Path.place_join_name _ own_name, same_place, stagingDir_locate is_name,
    place_outDir_locate is_name]

/-- When a commit does something, the output directory is open afterwards. -/
theorem opens_of_commit (is_name : IsName (target.fileName platform))
    (committed : (locate platform outDir target).commit world = (result, left)) :
    left = world ∨ left.tree.Opens world.cwd outDir := by
  cases found : world.tree.isFileAt world.cwd (locate platform outDir target).stagingPath with
  | false =>
      rw [commit, found] at committed
      exact Or.inl (Prod.mk.inj committed).2.symm
  | true =>
      have moves := chores_of_commit is_name committed
      obtain ⟨-, staging, -⟩ := (FileTree.isFileAt_join_name_iff is_name).mp found
      have opens : world.tree.Opens world.cwd outDir :=
        FileTree.opens_of_walk_join isName_stagingName.not_isAbsolute staging.1
      refine Or.inr (opens.mono fun place directory => ?_)
      rw [moves.isDirectory_of_moves, directory]
      rintro change ⟨file, -, name, -, rfl⟩
      exact ⟨_, _, rfl⟩

end Commit
end StagedArtifact

namespace Project

variable {project : Project} {runner : Runner} {platform : Platform} {world after : World}
  {directory : Path} {name : String}

/-- Removing files leaves nothing under their names in directories that open. -/
theorem gone_of_removeFiles {paths : List Path} (entries : ∀ path ∈ paths, path.NamesEntry)
    (removed : removeFiles paths world = (.ok (), after)) (is_name : IsName name)
    (member : directory.join name ∈ paths) (opens : world.tree.Opens world.cwd directory) :
    after.tree.entry? (directory.place world.cwd ++ [name]) = none := by
  have files := filesRemoved_of_removeFiles entries removed
  refine (files.lacks _ member).entry?_eq_none is_name (opens.mono fun place is_directory => ?_)
  rw [FileTree.isDirectory_congr (files.kept place ?_), is_directory]
  rintro path - is_file rfl
  obtain ⟨-, file, holds⟩ := FileTree.isFileAt_iff.mp is_file
  rw [FileTree.file?_eq_some_iff] at holds
  simp [FileTree.isDirectory, holds] at is_directory

/-- A cleaning that succeeds leaves no installed file in a directory that opens. -/
theorem gone_of_clean {code : Int}
    (file_names : ∀ target ∈ project.manifest.allTargets, IsName (target.fileName platform))
    (absolute : project.root.isAbsolute = true)
    (cleaned : project.clean runner platform world = (.ok code, after)) (is_name : IsName name)
    (member : directory.join name ∈ project.installedFiles (project.toBuild runner platform))
    (opens : world.tree.Opens world.cwd directory) :
    after.tree.entry? (directory.place world.cwd ++ [name]) = none := by
  have entries := fun path => @namesEntry_of_mem_installedFiles project runner platform
    file_names absolute path
  obtain ⟨-, middle, files_removed, staging_removed⟩ := steps_of_clean cleaned
  have staging := directoryRemoved_of_removeStaging StagedArtifact.isName_stagingName
    (isAbsolute_outDir_toBuild absolute) staging_removed
  have gone := gone_of_removeFiles entries files_removed is_name member opens
  exact (staging.shrinks _).elim (fun same => same.trans gone) id

/-- A build of an accepted project, perhaps adjusted, installs the target into the directory. -/
structure BuildsInto (project : Project) (runner : Runner) (platform : Platform) (target : Target)
    (world : World) (outDir : Path) : Prop where
  /-- The manifest was accepted before the tool or the output directory was replaced. -/
  accepted : ∃ (loaded : Project) (tool : Option String) (given : Option Path),
    loaded.manifest.validate = .ok () ∧ project = loaded.adjusted tool given
  absolute : project.root.isAbsolute = true
  declared : target ∈ project.manifest.allTargets
  /-- The current directory can be named. -/
  names : ∀ name ∈ world.cwd, IsName name
  /-- The directory is the output directory, made absolute. -/
  resolved : outDir = world.resolve (project.toBuild runner platform).outDir

namespace BuildsInto

variable {target : Target} {outDir file : Path} {left later : World}
  (builds : project.BuildsInto runner platform target world outDir)

include builds

theorem isName_fileName {other : Target} (declared : other ∈ project.manifest.allTargets) :
    IsName (other.fileName platform) := by
  obtain ⟨loaded, tool, given, accepted, rfl⟩ := builds.accepted
  rw [Manifest.allTargets, targets_adjusted] at declared
  exact Target.isName_fileName (Manifest.isName_outputName accepted declared) platform

/-- What is installed for the target is installed for the project, and opens with the directory. -/
theorem exists_installed (installed : file ∈ (locate platform outDir target).installedFiles) :
    ∃ directory name, IsName name ∧
      directory.join name ∈ project.installedFiles (project.toBuild runner platform) ∧
      (directory.join name).place world.cwd = file.place world.cwd ∧
      ∀ tree : FileTree, tree.Opens world.cwd outDir → tree.Opens world.cwd directory := by
  have is_name := builds.isName_fileName builds.declared
  obtain ⟨name, own, last_name, place_eq⟩ :=
    StagedArtifact.exists_name_of_installed is_name installed world.cwd
  obtain ⟨directory, member, same_place, opens⟩ :=
    @StagedArtifact.exists_installed_of_name platform (project.toBuild runner platform).outDir
      target is_name name own world.cwd
  refine ⟨directory, name, last_name, List.mem_flatMap.mpr ⟨target, builds.declared, member⟩, ?_,
    fun tree opened => opens tree ?_⟩
  · rw [Path.place_join_name directory last_name, same_place, place_eq, builds.resolved,
      World.place_resolve builds.names]
  · rwa [builds.resolved, World.opens_resolve_iff builds.names
      (isAbsolute_outDir_toBuild builds.absolute)] at opened

/-- Where the directory opens, a cleaning that succeeds leaves no installed file of the target. -/
theorem gone_of_clean {code : Int} (same_cwd : later.cwd = world.cwd)
    (opens : later.tree.Opens world.cwd outDir)
    (installed : file ∈ (locate platform outDir target).installedFiles)
    (cleaned : project.clean runner platform later = (.ok code, left)) :
    left.tree.entry? (file.place world.cwd) = none := by
  obtain ⟨directory, name, is_name, member, place_eq, opened⟩ := builds.exists_installed installed
  have gone := @Project.gone_of_clean project runner platform later left directory name code
    (fun _ declared => builds.isName_fileName declared) builds.absolute cleaned is_name member
  rw [same_cwd, ← Path.place_join_name directory is_name, place_eq] at gone
  exact gone (opened _ opens)

end BuildsInto
end Project

namespace Program

open StagedArtifact (companionName companionExtensions stagingName isName_stagingName)

variable {platform : Platform} {outDir : Path} {target : Target} {artifact : StagedArtifact}

/--
For an output name that is accepted, a file name is split into the output name and a companion
extension exactly when it is put together from them; these are the names of the installed
companions, and the artifact has another one.  Whatever staging holds, the companions that are found
are its files with these names whose path the system takes, each once, and never the staged
artifact.  A commit only moves staged files to installed files of the same name.  All installed
files of a target are among those of its project, and once a commit has done anything, a cleaning
that ends with exit code zero leaves nothing where they are.
-/
theorem companions_match_installed {field : String}
    (accepted : Manifest.checkName field target.outputName = .ok ())
    (located : artifact = locate platform outDir target) :
    (∀ name, ∀ suffix ∈ companionExtensions,
      FileName.stemAndExtension name = (artifact.outputName, some suffix) ↔
        name = companionName artifact.outputName suffix) ∧
    (∀ name, artifact.ListsCompanion name ↔
      ∃ suffix ∈ companionExtensions, name = companionName artifact.outputName suffix) ∧
    (artifact.path.fileName? = some (target.fileName platform) ∧
      artifact.stagingPath.fileName? = some (target.fileName platform) ∧
      ¬ artifact.ListsCompanion (target.fileName platform)) ∧
    (∀ tree cwd error, tree.readDirectory cwd artifact.stagingDir = .error error →
      artifact.companions tree cwd = .error error) ∧
    (∀ tree cwd names, tree.readDirectory cwd artifact.stagingDir = .ok names →
      ∃ found, artifact.companions tree cwd = .ok found ∧ found.Nodup ∧
        (∀ path ∈ found, path.sameComponents artifact.stagingPath = false) ∧
        ∀ path, path ∈ found ↔ ∃ name, path = artifact.stagingDir.join name ∧
          artifact.ListsCompanion name ∧ artifact.HasStaged tree cwd name ∧
          artifact.Takes name) ∧
    ∀ world result left, artifact.commit world = (result, left) →
      Chores (artifact.Installs world.cwd) world left ∧
      ∀ project runner, Project.BuildsInto project runner platform target world outDir →
        ∀ file ∈ artifact.installedFiles,
          (∃ path ∈ project.installedFiles (project.toBuild runner platform),
            path.place world.cwd = file.place world.cwd) ∧
          (left = world ∨ ∀ later cleaned, later.cwd = world.cwd → later.tree = left.tree →
            conclude (perform .clean project runner platform later) = (0, cleaned) →
            cleaned.tree.entry? (file.place world.cwd) = none) := by
  have output_name : IsName target.outputName := Manifest.isName_of_checkName accepted
  have is_name : IsName (target.fileName platform) := Target.isName_fileName output_name platform
  have named : target.outputName ≠ "" := output_name.ne_empty
  rw [located]
  refine ⟨fun name suffix member =>
      (StagedArtifact.stemAndExtension_eq_companion_iff member).trans (and_iff_right named),
    fun name => StagedArtifact.listsCompanion_iff_exists is_name,
    ⟨is_name.fileName?_join _, is_name.fileName?_join _,
      fun listed => StagedArtifact.ListsCompanion.ne_fileName is_name listed rfl⟩,
    fun tree cwd error refused => ?_,
    fun tree cwd names read => ?_,
    fun world result left committed => ⟨StagedArtifact.chores_of_commit is_name committed,
      fun project runner builds file installed => ⟨?_, ?_⟩⟩⟩
  · rw [StagedArtifact.companions, refused]
    rfl
  · obtain ⟨found, listed⟩ :
        ∃ found, (locate platform outDir target).companions tree cwd = .ok found := by
      rw [StagedArtifact.companions, read]
      exact ⟨_, rfl⟩
    exact ⟨found, listed, StagedArtifact.nodup_companions is_name listed,
      fun path => StagedArtifact.other_of_mem_companions is_name listed,
      fun path => StagedArtifact.mem_companions_iff is_name named read listed⟩
  · obtain ⟨directory, name, -, member, place_eq, -⟩ := builds.exists_installed installed
    exact ⟨_, member, place_eq⟩
  · refine (StagedArtifact.opens_of_commit is_name committed).imp_right ?_
    intro opens later cleaned same_cwd same_tree ended
    rw [conclude_eq_zero_iff, perform_clean_eq_ok_iff] at ended
    rw [← same_tree] at opens
    exact builds.gone_of_clean same_cwd opens installed ended

/-- A project in `/p` with a target that is called like a companion, adjusted. -/
def dottedProject : Project :=
  overlapping.adjusted (some "cc") (some ⟨"./bin"⟩)

/-- The target that is called like a companion. -/
def dottedTarget : Target :=
  (TargetEntry.minimal "app.lib" .executable).target

/-- What the tool has staged for the target, and a file of another one. -/
def dottedStaged : World :=
  holding [(["p", "bin"], .directory), (["p", "bin", ".kiln-staging"], .directory),
    (["p", "bin", ".kiln-staging", "app.exp"], .file ⟨[], false⟩),
    (["p", "bin", ".kiln-staging", "app.lib"], .file ⟨[], true⟩),
    (["p", "bin", ".kiln-staging", "app.lib.pdb"], .file ⟨[], false⟩)]

/-- The companion of the target is installed before it, and cleaning removes it. -/
theorem dotted_companion_is_removed :
    Manifest.checkName "output-name" dottedTarget.outputName = .ok () ∧
      (locate .unix ⟨"/p/bin"⟩ dottedTarget).ListsCompanion "app.lib.pdb" ∧
      ∃ result left cleaned,
        (locate .unix ⟨"/p/bin"⟩ dottedTarget).commit dottedStaged = (result, left) ∧
        left.trace.filterMap Event.change? =
          [.movedFile ["p", "bin", ".kiln-staging", "app.lib.pdb"] ["p", "bin", "app.lib.pdb"],
            .movedFile ["p", "bin", ".kiln-staging", "app.lib"] ["p", "bin", "app.lib"]] ∧
        conclude (perform .clean dottedProject executableWriter .unix left) = (0, cleaned) ∧
        cleaned.tree.entry? ["p", "bin", "app.lib.pdb"] = none := by
  have accepted : Manifest.checkName "output-name" dottedTarget.outputName = .ok () := by
    decide +kernel
  have builds : dottedProject.BuildsInto executableWriter .unix dottedTarget dottedStaged
      ⟨"/p/bin"⟩ :=
    { accepted := ⟨overlapping, some "cc", some ⟨"./bin"⟩, by decide +kernel, rfl⟩
      absolute := by decide +kernel
      declared := by decide +kernel
      names := by decide +kernel
      resolved := by decide +kernel }
  have moved : ((locate .unix ⟨"/p/bin"⟩ dottedTarget).commit
      dottedStaged).2.trace.filterMap Event.change? =
        [.movedFile ["p", "bin", ".kiln-staging", "app.lib.pdb"] ["p", "bin", "app.lib.pdb"],
          .movedFile ["p", "bin", ".kiln-staging", "app.lib"] ["p", "bin", "app.lib"]] := by
    decide +kernel
  have ended : (conclude (perform .clean dottedProject executableWriter .unix
      ((locate .unix ⟨"/p/bin"⟩ dottedTarget).commit dottedStaged).2)).1 = 0 := by
    decide +kernel
  obtain ⟨-, lists, -, -, -, commits⟩ := @companions_match_installed .unix ⟨"/p/bin"⟩ dottedTarget
    _ _ accepted rfl
  rcases committed : (locate .unix ⟨"/p/bin"⟩ dottedTarget).commit dottedStaged with ⟨result, left⟩
  simp only [committed] at moved ended
  rcases cleans : conclude (perform .clean dottedProject executableWriter .unix left) with
    ⟨code, cleaned⟩
  rw [cleans] at ended
  obtain rfl : code = 0 := ended
  obtain ⟨chores, removes⟩ := commits dottedStaged result left committed
  obtain ⟨-, same | gone⟩ := removes _ _ builds ⟨"/p/bin/app.lib.pdb"⟩ (by decide +kernel)
  · rw [same] at moved
    cases moved
  · exact ⟨accepted, (lists _).mpr (by decide +kernel), result, left, cleaned, rfl, moved, cleans,
      gone left cleaned chores.recorded.1 rfl cleans⟩

/-- A process in the staging directory of `deepArtifact`, whose path has 4089 bytes. -/
def deepStaging : World :=
  .inside (World.deep 234 ++ [stagingName]) "app.lib" (Utf8.encode "library")

/-- The executable `app`, installed sixteen names below the root. -/
def deepArtifact : StagedArtifact :=
  locate .unix { deepStaging with cwd := World.deep 234 }.cwdPath
    (TargetEntry.minimal "app" .executable).target

theorem isName_deepArtifact :
    IsName ((TargetEntry.minimal "app" .executable).target.fileName .unix) := by
  decide

theorem mem_deepStaging {name : String} (member : name ∈ deepStaging.cwd) :
    (IsName name ∧ Utf8.size name ≤ FileTree.nameLimit) ∧ Char.ofNat 0 ∉ name.toList := by
  rcases List.mem_append.mp member with above | last
  · exact ⟨World.mem_deep (by decide) (by decide) above, World.nul_free_of_mem_deep above⟩
  · obtain rfl := List.mem_singleton.mp last
    exact ⟨⟨isName_stagingName, by decide⟩, by decide⟩

theorem isPlaced_deepStaging : deepStaging.IsPlaced :=
  World.isPlaced_inside (fun _ member => (mem_deepStaging member).1.1)
    (fun _ member => (mem_deepStaging member).1.2) _ _

theorem sum_size_deepStaging : (deepStaging.cwd.map Utf8.size).sum = 4072 := by
  have above := World.size_deep 234
  have last : Utf8.size stagingName = 13 := by decide
  rw [deepStaging, World.inside, List.map_append, List.sum_append, above, List.map_singleton, last,
    List.sum_singleton]

theorem length_deepStaging : deepStaging.cwd.length = 17 := by
  rw [deepStaging, World.inside, List.length_append, World.length_deep, List.length_singleton]

theorem stagingDir_deepArtifact : deepArtifact.stagingDir = deepStaging.cwdPath := by
  rw [deepArtifact, StagedArtifact.stagingDir_locate isName_deepArtifact]
  exact World.join_cwdPath rfl isPlaced_deepStaging.names

theorem read_deepStaging :
    deepStaging.tree.readDirectory deepStaging.cwd deepArtifact.stagingDir =
      .ok (deepStaging.tree.names deepStaging.cwd) := by
  have taken : FileTree.admissible deepStaging.cwdPath = .ok () := by
    refine World.admissible_cwdPath rfl isPlaced_deepStaging.names
      (fun _ member => (mem_deepStaging member).2) ?_
    rw [sum_size_deepStaging, length_deepStaging]
    decide
  rw [stagingDir_deepArtifact]
  exact FileTree.readDirectory_eq_ok_iff.mpr ⟨taken, isPlaced_deepStaging.opens_cwdPath,
    congrArg _ isPlaced_deepStaging.place_cwdPath⟩

theorem refused_deepStaging :
    FileTree.admissible (deepArtifact.stagingDir.join "app.lib") ≠ .ok () := by
  intro taken
  have in_limit := (Path.admissible_eq_ok_iff.mp taken).2.2
  have library_size : Utf8.size "app.lib" = 7 := by decide
  rw [stagingDir_deepArtifact, World.size_join_cwdPath isPlaced_deepStaging.names (by decide),
    sum_size_deepStaging, length_deepStaging, library_size] at in_limit
  exact absurd in_limit (by decide)

/-- The staged library has the name of the installed one and is listed, but it is not found. -/
theorem deep_companion_is_passed_over :
    Manifest.checkName "output-name" deepArtifact.outputName = .ok () ∧
      deepArtifact.ListsCompanion "app.lib" ∧
      deepArtifact.HasStaged deepStaging.tree deepStaging.cwd "app.lib" ∧
      (∃ names, deepStaging.tree.readDirectory deepStaging.cwd deepArtifact.stagingDir = .ok names ∧
        "app.lib" ∈ names) ∧
      ∃ found, deepArtifact.companions deepStaging.tree deepStaging.cwd = .ok found ∧
        deepArtifact.stagingDir.join "app.lib" ∉ found := by
  have lists : deepArtifact.ListsCompanion "app.lib" :=
    (StagedArtifact.listsCompanion_iff_exists isName_deepArtifact).mpr ⟨"lib", by decide, by decide⟩
  have staged : deepStaging.tree.file? (deepStaging.cwd ++ ["app.lib"]) =
      some ⟨Utf8.encode "library", false⟩ :=
    World.file?_inside _ _ _
  have listed := StagedArtifact.companions_of_read isName_deepArtifact read_deepStaging
  refine ⟨by decide +kernel, lists, ⟨⟨Utf8.encode "library", false⟩, ?_⟩,
    ⟨_, read_deepStaging, ?_⟩, _, listed, fun found => ?_⟩
  · rw [stagingDir_deepArtifact, isPlaced_deepStaging.place_cwdPath, staged]
  · rw [FileTree.mem_names_iff, (FileTree.file?_eq_some_iff _).mp staged]
    rfl
  · exact refused_deepStaging
      (StagedArtifact.admissible_of_mem_companions isName_deepArtifact listed found)

end Program
end StagedBuild
