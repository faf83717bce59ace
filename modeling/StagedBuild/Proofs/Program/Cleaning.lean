import StagedBuild.Proofs.Build.Progress
import StagedBuild.Proofs.Build.Repetition
import StagedBuild.Proofs.Program.Confinement

/-!
# What cleaning removes

Cleaning removes the installed files that are there and what is in the staging directory, shows one
line for each of them, and leaves everything else; and there is nothing to remove a second time.
The staging directory itself is removed unless its path leads through something in it: then the
path leads nowhere by the time the directory is empty, and cleaning takes it for removed.
-/

namespace StagedBuild

open StagedBuild.Path (IsName)
open StagedArtifact (locate stagingOf stagingName)
open FileTree (IsBelow)

theorem eraseDupsBy_sublist {α : Type} (same : α → α → Bool) (items : List α) :
    (items.eraseDupsBy same).Sublist items := by
  cases items with
  | nil => exact List.Sublist.refl _
  | cons item items =>
      rw [List.eraseDupsBy_cons]
      exact ((eraseDupsBy_sublist same _).trans List.filter_sublist).cons_cons item
termination_by items.length
decreasing_by exact Nat.lt_succ_of_le (List.length_filter_le _ _)

theorem pairwise_eraseDupsBy {α : Type} (same : α → α → Bool) (items : List α) :
    (items.eraseDupsBy same).Pairwise fun earlier later => same later earlier = false := by
  cases items with
  | nil => exact List.Pairwise.nil
  | cons item items =>
      rw [List.eraseDupsBy_cons, List.pairwise_cons]
      refine ⟨fun later member => ?_, pairwise_eraseDupsBy same _⟩
      exact of_decide_eq_true (List.mem_filter.mp ((eraseDupsBy_sublist same _).subset member)).2
termination_by items.length
decreasing_by exact Nat.lt_succ_of_le (List.length_filter_le _ _)

/-- The path is a name in a directory that is given from the root. -/
def Path.NamesEntry (path : Path) : Prop :=
  ∃ (directory : Path) (name : String),
    path = directory.join name ∧ IsName name ∧ directory.isAbsolute = true

namespace World

variable {world after : World} {path : Path} {name : String} {found : Bool}

/-- The paths that lead to files, in order; a path to a file that was there before is left out. -/
def filesAt (world : World) (paths : List Path) : List Path :=
  (paths.filter (world.tree.isFileAt world.cwd)).eraseDupsBy fun later earlier =>
    later.place world.cwd == earlier.place world.cwd

theorem nodup_filesAt (world : World) (paths : List Path) :
    ((world.filesAt paths).map (Path.place · world.cwd)).Nodup := by
  rw [List.Nodup, List.pairwise_map]
  refine (pairwise_eraseDupsBy _ _).imp fun apart same => ?_
  simp [same] at apart

/-- A name that is removed if it exists is a file, or nothing happens. -/
theorem removeFileIfExists_cases (is_name : IsName name)
    (removed : world.removeFileIfExists (path.join name) = (.ok found, after)) :
    (found = true ∧ world.tree.isFileAt world.cwd (path.join name) = true ∧
        (∃ file, world.tree.entry? ((path.join name).place world.cwd) = some (.file file)) ∧
        after = world.change (world.tree.erase ((path.join name).place world.cwd))
          [.removedFile ((path.join name).place world.cwd)]) ∨
      (found = false ∧ world.tree.isFileAt world.cwd (path.join name) = false ∧
        after = world) := by
  have removable := @FileTree.exists_removeFile_iff world.tree world.cwd path name is_name
  rw [removeFileIfExists] at removed
  split at removed
  · rename_i tree place gone
    obtain ⟨found_eq, rfl⟩ := Prod.mk.inj removed
    obtain ⟨rfl, present, rfl⟩ := FileTree.removeFile_spec gone
    exact Or.inl ⟨(Except.ok.inj found_eq).symm, removable.mp ⟨_, gone⟩, present, rfl⟩
  · rename_i error refused
    split at removed
    · obtain ⟨found_eq, rfl⟩ := Prod.mk.inj removed
      refine Or.inr ⟨(Except.ok.inj found_eq).symm, ?_, rfl⟩
      rw [refused] at removable
      simpa using removable
    · simp at removed

/-- With the first file gone, the others are the files at the other paths. -/
theorem filesAt_cons_of_file {rest : List Path} {file : File} {place : Location}
    (entries : ∀ path ∈ rest, path.NamesEntry) (place_eq : path.place world.cwd = place)
    (holds : world.tree.entry? place = some (.file file))
    (is_file : world.tree.isFileAt world.cwd path = true)
    (same_cwd : after.cwd = world.cwd) (erased : after.tree = world.tree.erase place) :
    world.filesAt (path :: rest) = path :: after.filesAt rest := by
  have others : rest.filter (after.tree.isFileAt after.cwd) =
      (rest.filter (world.tree.isFileAt world.cwd)).filter fun other =>
        (other.place world.cwd == path.place world.cwd) = false := by
    rw [List.filter_filter]
    refine List.filter_congr fun other member => ?_
    obtain ⟨directory, name, rfl, is_name, -⟩ := entries other member
    rw [same_cwd, erased, Bool.eq_iff_iff, FileTree.isFileAt_erase_file_iff holds is_name, place_eq]
    simp [and_comm]
  rw [filesAt, List.filter_cons_of_pos is_file, List.eraseDupsBy_cons, filesAt, others, same_cwd]

end World

namespace Project

variable {project : Project} {runner : Runner} {platform : Platform} {world after : World}
  {paths : List Path} {outDir : Path}

/-- Files at these paths were removed and reported, one after the other. -/
structure FilesRemoved (paths : List Path) (world after : World) : Prop where
  cwd : after.cwd = world.cwd
  /-- Where one of the paths led to a file there is nothing. -/
  gone : ∀ path ∈ paths, world.tree.isFileAt world.cwd path = true →
    after.tree.entry? (path.place world.cwd) = none
  /-- Everything else is the same. -/
  kept : ∀ place, (∀ path ∈ paths, world.tree.isFileAt world.cwd path = true →
    path.place world.cwd ≠ place) → after.tree.entry? place = world.tree.entry? place
  /-- Nothing came about. -/
  shrinks : world.tree.ShrinksTo after.tree
  /-- No directory was lost. -/
  directories : ∀ path,
    after.tree.isDirectoryAt world.cwd path = world.tree.isDirectoryAt world.cwd path
  /-- Each removal was reported. -/
  lines : after.statusLines = world.statusLines ++ (world.filesAt paths).map removedLine
  /-- None of the paths can be removed again. -/
  lacks : ∀ path ∈ paths, after.tree.Lacks world.cwd path

theorem filesRemoved_nil (world : World) : FilesRemoved [] world world where
  cwd := rfl
  gone := by simp
  kept := fun _ _ => rfl
  shrinks := FileTree.ShrinksTo.refl _
  directories := fun _ => rfl
  lines := (List.append_nil _).symm
  lacks := by simp

/-- A path to nothing adds nothing to what is removed. -/
theorem FilesRemoved.cons_of_missing {path : Path} (rest : FilesRemoved paths world after)
    (no_file : world.tree.isFileAt world.cwd path = false)
    (lacks : after.tree.Lacks world.cwd path) : FilesRemoved (path :: paths) world after where
  cwd := rest.cwd
  gone := by
    rw [List.forall_mem_cons]
    exact ⟨fun is_file => by simp [no_file] at is_file, rest.gone⟩
  kept := fun place apart =>
    rest.kept place fun other member => apart other (List.mem_cons_of_mem path member)
  shrinks := rest.shrinks
  directories := rest.directories
  lines := by
    rw [World.filesAt, List.filter_cons_of_neg (by simp [no_file])]
    exact rest.lines
  lacks := List.forall_mem_cons.mpr ⟨lacks, rest.lacks⟩

/-- A file is removed and reported before the others are. -/
theorem FilesRemoved.cons_of_file {path : Path} {middle : World} {file : File}
    (rest : FilesRemoved paths middle after) (entries : ∀ other ∈ paths, other.NamesEntry)
    (is_file : world.tree.isFileAt world.cwd path = true)
    (holds : world.tree.entry? (path.place world.cwd) = some (.file file))
    (same_cwd : middle.cwd = world.cwd)
    (erased : middle.tree = world.tree.erase (path.place world.cwd))
    (reported : middle.statusLines = world.statusLines ++ [removedLine path])
    (lacks : after.tree.Lacks world.cwd path) :
    FilesRemoved (path :: paths) world after := by
  have below_root : path.place world.cwd ≠ [] := by
    intro root
    simp [root] at holds
  have vanished : middle.tree.entry? (path.place world.cwd) = none := by
    rw [erased, FileTree.entry?_erase, if_pos ⟨rfl, below_root⟩]
  have file_iff : ∀ other ∈ paths, middle.tree.isFileAt world.cwd other = true ↔
      world.tree.isFileAt world.cwd other = true ∧
        other.place world.cwd ≠ path.place world.cwd := by
    intro other member
    obtain ⟨directory, name, rfl, is_name, -⟩ := entries other member
    rw [erased, FileTree.isFileAt_erase_file_iff holds is_name]
  have rest_gone := rest.gone
  have rest_kept := rest.kept
  rw [same_cwd] at rest_gone rest_kept
  have path_gone : after.tree.entry? (path.place world.cwd) = none :=
    (rest.shrinks _).elim (fun same => same.trans vanished) id
  refine ⟨rest.cwd.trans same_cwd, ?_, fun place apart => ?_, ?_, fun other => ?_, ?_, ?_⟩
  · refine List.forall_mem_cons.mpr ⟨fun _ => path_gone, fun other member other_file => ?_⟩
    by_cases here : other.place world.cwd = path.place world.cwd
    · rw [here, path_gone]
    · exact rest_gone other member ((file_iff other member).mpr ⟨other_file, here⟩)
  · rw [List.forall_mem_cons] at apart
    rw [rest_kept place fun other member other_file =>
      apart.2 other member ((file_iff other member).mp other_file).1, erased,
      FileTree.entry?_erase, if_neg fun same => apart.1 is_file same.1.symm]
  · exact (erased ▸ world.tree.shrinksTo_erase _).trans rest.shrinks
  · have same := rest.directories other
    rw [same_cwd] at same
    rw [same, erased, FileTree.isDirectoryAt_erase_file holds]
  · rw [rest.lines, reported,
      World.filesAt_cons_of_file entries rfl holds is_file same_cwd erased]
    simp
  · rw [List.forall_mem_cons]
    exact ⟨lacks, same_cwd ▸ rest.lacks⟩

/-- What removing files up to the end of the list does. -/
theorem filesRemoved_of_removeFiles (entries : ∀ path ∈ paths, path.NamesEntry)
    (removed : removeFiles paths world = (.ok (), after)) : FilesRemoved paths world after := by
  induction paths generalizing world with
  | nil =>
      obtain ⟨-, rfl⟩ := Prod.mk.inj removed
      exact filesRemoved_nil world
  | cons path rest induction =>
      rw [List.forall_mem_cons] at entries
      obtain ⟨⟨directory, name, rfl, is_name, absolute⟩, others⟩ := entries
      have join_absolute := is_name.isAbsolute_join absolute
      rw [removeFiles] at removed
      split at removed
      · simp at removed
      · rename_i found middle first
        have lacking := World.lacks_of_removeFileIfExists join_absolute first
        rcases World.removeFileIfExists_cases is_name first with
          ⟨rfl, is_file, ⟨file, holds⟩, rfl⟩ | ⟨rfl, no_file, rfl⟩
        · rw [if_pos rfl] at removed
          have later := induction others removed
          refine later.cons_of_file others is_file holds rfl rfl ?_
            (lacking.of_shrinksTo later.shrinks join_absolute)
          rw [World.statusLines_emit, World.statusLines_change]
          rfl
        · have later := induction others removed
          exact later.cons_of_missing no_file (lacking.of_shrinksTo later.shrinks join_absolute)

/-- Files that are not found are passed over. -/
theorem removeFiles_of_lacks (lacks : ∀ path ∈ paths, world.tree.Lacks world.cwd path) :
    removeFiles paths world = (.ok (), world) := by
  induction paths with
  | nil => rfl
  | cons path rest induction =>
      rw [List.forall_mem_cons] at lacks
      rw [removeFiles, World.removeFileIfExists_of_lacks lacks.1]
      exact induction lacks.2

/-- The directory at a path was removed and reported, or it was not there. -/
structure DirectoryRemoved (path : Path) (world after : World) : Prop where
  cwd : after.cwd = world.cwd
  /-- Nothing is left in the directory. -/
  inside : world.tree.isDirectoryAt world.cwd path = true →
    ∀ place, IsBelow (path.place world.cwd) place → after.tree.entry? place = none
  /-- The directory is gone when the path does not lead through it. -/
  gone : world.tree.isDirectoryAt world.cwd path = true → path.StaysAbove world.cwd →
    after.tree.entry? (path.place world.cwd) = none
  /-- Otherwise it is still there. -/
  stays : world.tree.isDirectoryAt world.cwd path = true → ¬ path.StaysAbove world.cwd →
    after.tree.entry? (path.place world.cwd) = some .directory
  /-- Everything else is the same. -/
  kept : ∀ place, (world.tree.isDirectoryAt world.cwd path = true →
    ¬ path.place world.cwd <+: place) → after.tree.entry? place = world.tree.entry? place
  /-- Nothing came about. -/
  shrinks : world.tree.ShrinksTo after.tree
  /-- The removal was reported. -/
  lines : after.statusLines = world.statusLines ++
    if world.tree.isDirectoryAt world.cwd path then [removedLine path] else []
  /-- There is nothing to remove a second time. -/
  again : ∀ later : World, later.cwd = world.cwd → later.tree = after.tree →
    removeStaging path later = (.ok (), later)

/-- A directory that is not found is passed over. -/
theorem removeStaging_of_missing {path : Path} {error : IoError}
    (missing : world.tree.removeDirectory world.cwd path = (world.tree, [], .error error))
    (not_found : error.kind = .notFound) : removeStaging path world = (.ok (), world) := by
  rw [removeStaging, World.removeDirectoryIfExists, missing]
  simp [not_found, World.change_nothing]

theorem removeStaging_of_removed {path : Path} {tree : FileTree} {changes : List Change}
    (removed : world.tree.removeDirectory world.cwd path = (tree, changes, .ok ())) :
    removeStaging path world =
      (.ok (), (world.change tree changes).emit [.status (removedLine path)]) := by
  rw [removeStaging, World.removeDirectoryIfExists, removed]
  rfl

/-- A directory that is gone, or that the path does not lead to any more, is passed over. -/
theorem removeStaging_again {path : Path} {name : String} {tree : FileTree}
    {changes : List Change} (is_name : IsName name) (absolute : path.isAbsolute = true)
    (removed : world.tree.removeDirectory world.cwd (path.join name) = (tree, changes, .ok ()))
    {later : World} (same_cwd : later.cwd = world.cwd) (same_tree : later.tree = tree) :
    removeStaging (path.join name) later = (.ok (), later) := by
  have lost := FileTree.locate_of_removeDirectory is_name absolute removed
  refine @removeStaging_of_missing later _ (.system .noEntry) ?_ rfl
  rw [FileTree.removeDirectory, same_cwd, same_tree, lost]

/-- What removing a directory up to the end does. -/
theorem directoryRemoved_of_removeStaging {path : Path} {name : String} (is_name : IsName name)
    (absolute : path.isAbsolute = true)
    (removed : removeStaging (path.join name) world = (.ok (), after)) :
    DirectoryRemoved (path.join name) world after := by
  have place_eq := Path.place_join_name path is_name world.cwd
  have below_root : (path.join name).place world.cwd ≠ [] := by simp [place_eq]
  cases present : world.tree.isDirectoryAt world.cwd (path.join name) with
  | false =>
      obtain ⟨error, refused⟩ := FileTree.removeDirectory_of_absent present
      rw [removeStaging, World.removeDirectoryIfExists, refused] at removed
      simp only at removed
      cases not_found : error.kind == .notFound with
      | false => simp [not_found] at removed
      | true =>
          simp only [not_found, if_true, Bool.false_eq_true, if_false, World.change_nothing,
            Prod.mk.injEq, true_and] at removed
          subst removed
          refine ⟨rfl, by simp [present], by simp [present], by simp [present], fun _ _ => rfl,
            FileTree.ShrinksTo.refl _, by simp [present], fun later same_cwd same_tree => ?_⟩
          refine @removeStaging_of_missing later _ error ?_ (by simpa using not_found)
          rw [same_cwd, same_tree, refused]
  | true =>
      have directory := (FileTree.isDirectoryAt_iff.mp present).2
      by_cases stays : (path.join name).StaysAbove world.cwd
      · have outcome := FileTree.removeDirectory_of_staysAbove is_name present stays
        rw [removeStaging_of_removed outcome] at removed
        obtain ⟨-, rfl⟩ := Prod.mk.inj removed
        have view : ∀ place, FileTree.entry?
            (world.tree.eraseBelow ((path.join name).place world.cwd)) place =
              if (path.join name).place world.cwd <+: place then none
              else world.tree.entry? place := world.tree.entry?_eraseBelow below_root
        refine ⟨rfl, fun _ place below => (view place).trans (if_pos below.1),
          fun _ _ => (view _).trans (if_pos List.prefix_rfl), fun _ through => absurd stays through,
          fun place apart => (view place).trans (if_neg (apart present)),
          world.tree.shrinksTo_eraseBelow _, ?_,
          fun later => removeStaging_again is_name absolute outcome⟩
        rw [World.statusLines_emit, World.statusLines_change, if_pos present]
        rfl
      · have outcome :=
          FileTree.removeDirectory_of_not_staysAbove is_name absolute present stays
        rw [removeStaging_of_removed outcome] at removed
        obtain ⟨-, rfl⟩ := Prod.mk.inj removed
        have view : ∀ place, FileTree.entry?
            (world.tree.clear ((path.join name).place world.cwd)) place =
              if IsBelow ((path.join name).place world.cwd) place then none
              else world.tree.entry? place := world.tree.entry?_clear _
        refine ⟨rfl, fun _ place below => (view place).trans (if_pos below),
          fun _ above => absurd above stays, fun _ _ => ?_,
          fun place apart => (view place).trans (if_neg fun below => apart present below.1),
          world.tree.shrinksTo_clear _, ?_,
          fun later => removeStaging_again is_name absolute outcome⟩
        · exact ((view _).trans (if_neg fun below => below.2 rfl)).trans
            ((FileTree.isDirectory_iff _).mp directory)
        · rw [World.statusLines_emit, World.statusLines_change, if_pos present]
          rfl

/-- What a successful cleaning makes of a world. -/
structure Cleaned (project : Project) (build : Build) (world after : World) : Prop where
  cwd : after.cwd = world.cwd
  /-- The installed files of all targets are gone. -/
  files : ∀ path ∈ project.installedFiles build, world.tree.isFileAt world.cwd path = true →
    after.tree.entry? (path.place world.cwd) = none
  /-- Nothing is left in the staging directory. -/
  staged : world.tree.isDirectoryAt world.cwd (stagingOf build.outDir) = true →
    ∀ place, IsBelow ((stagingOf build.outDir).place world.cwd) place →
      after.tree.entry? place = none
  /-- The staging directory is gone when its path does not lead through it. -/
  staging : world.tree.isDirectoryAt world.cwd (stagingOf build.outDir) = true →
    (stagingOf build.outDir).StaysAbove world.cwd →
      after.tree.entry? ((stagingOf build.outDir).place world.cwd) = none
  /-- Otherwise it stays, though it is reported. -/
  emptied : world.tree.isDirectoryAt world.cwd (stagingOf build.outDir) = true →
    ¬ (stagingOf build.outDir).StaysAbove world.cwd →
      after.tree.entry? ((stagingOf build.outDir).place world.cwd) = some .directory
  /-- Everything else is the same. -/
  kept : ∀ place,
    (∀ path ∈ project.installedFiles build, world.tree.isFileAt world.cwd path = true →
      path.place world.cwd ≠ place) →
    (world.tree.isDirectoryAt world.cwd (stagingOf build.outDir) = true →
      ¬ (stagingOf build.outDir).place world.cwd <+: place) →
    after.tree.entry? place = world.tree.entry? place
  /-- What was there is reported: the files in declared order, and staging last. -/
  lines : after.statusLines = world.statusLines ++
    (world.filesAt (project.installedFiles build)
      ++ if world.tree.isDirectoryAt world.cwd (stagingOf build.outDir)
        then [stagingOf build.outDir] else []).map removedLine
  /-- No file is reported twice. -/
  once : ((world.filesAt (project.installedFiles build)).map (Path.place · world.cwd)).Nodup

/-- A cleaning that succeeds has removed the files and then the staging directory. -/
theorem steps_of_clean {code : Int}
    (cleaned : project.clean runner platform world = (.ok code, after)) :
    code = 0 ∧ ∃ middle,
      removeFiles (project.installedFiles (project.toBuild runner platform)) world =
          (.ok (), middle) ∧
        removeStaging (stagingOf (project.toBuild runner platform).outDir) middle =
          (.ok (), after) := by
  rw [clean] at cleaned
  split at cleaned
  · simp at cleaned
  · rename_i middle files_removed
    split at cleaned
    · simp at cleaned
    · rename_i last staging_removed
      obtain ⟨code_eq, rfl⟩ := Prod.mk.inj cleaned
      exact ⟨(Except.ok.inj code_eq).symm, middle, files_removed, staging_removed⟩

section Clean

variable
  (file_names : ∀ target ∈ project.manifest.allTargets, IsName (target.fileName platform))
  (absolute : project.root.isAbsolute = true)

include file_names absolute

theorem namesEntry_of_mem_installedFiles {path : Path}
    (member : path ∈ project.installedFiles (project.toBuild runner platform)) :
    path.NamesEntry := by
  have whole := project.isAbsolute_outDir absolute
  obtain ⟨target, declared, installed⟩ := List.mem_flatMap.mp member
  have is_name := file_names target declared
  rw [outDir_toBuild absolute] at installed
  rcases List.mem_cons.mp installed with rfl | companion
  · exact ⟨project.outDir, target.fileName platform, rfl, is_name, whole⟩
  · obtain ⟨suffix, extension, rfl⟩ := List.mem_map.mp companion
    obtain ⟨-, -, -, -, same_start⟩ := Path.segments_directory_join project.outDir is_name
    exact ⟨_, _, rfl, StagedArtifact.isName_companionName is_name extension,
      same_start.trans whole⟩

/-- A cleaning that succeeds removes what there is, and does nothing the next time. -/
theorem cleaned_of_clean {code : Int}
    (cleaned : project.clean runner platform world = (.ok code, after)) :
    code = 0 ∧ project.Cleaned (project.toBuild runner platform) world after ∧
      ∀ later : World, later.cwd = world.cwd → later.tree = after.tree →
        project.clean runner platform later = (.ok 0, later) := by
  have entries := fun path => @namesEntry_of_mem_installedFiles project runner platform
    file_names absolute path
  obtain ⟨rfl, middle, files_removed, staging_removed⟩ := steps_of_clean cleaned
  have files := filesRemoved_of_removeFiles entries files_removed
  have staging := directoryRemoved_of_removeStaging StagedArtifact.isName_stagingName
    (isAbsolute_outDir_toBuild absolute) staging_removed
  rw [← stagingOf] at staging
  -- Staging is what it was when the files are gone.
  have present := files.directories (stagingOf (project.toBuild runner platform).outDir)
  have inside := staging.inside
  have gone := staging.gone
  have stays := staging.stays
  have kept := staging.kept
  have lines := staging.lines
  rw [files.cwd, present] at inside gone stays kept lines
  refine ⟨rfl, ⟨staging.cwd.trans files.cwd, ?_, inside, gone, stays, ?_, ?_,
    world.nodup_filesAt _⟩, ?_⟩
  · intro path member is_file
    exact (staging.shrinks _).elim (fun same => same.trans (files.gone path member is_file)) id
  · intro place not_installed not_staged
    rw [kept place not_staged, files.kept place not_installed]
  · rw [lines, files.lines, List.map_append, List.append_assoc]
    split <;> rfl
  · intro later same_cwd same_tree
    have lacks : ∀ path ∈ project.installedFiles (project.toBuild runner platform),
        later.tree.Lacks later.cwd path := by
      intro path member
      obtain ⟨directory, name, rfl, is_name, join_absolute⟩ := entries path member
      rw [same_cwd, same_tree]
      exact (files.lacks _ member).of_shrinksTo staging.shrinks
        (is_name.isAbsolute_join join_absolute)
    rw [clean]
    simp only [removeFiles_of_lacks lacks,
      staging.again later (same_cwd.trans files.cwd.symm) same_tree]

end Clean

end Project

namespace Program

variable {project : Project} {runner : Runner} {platform : Platform} {world after : World}

theorem conclude_eq_zero_iff {result : Except ProgramError Int × World} :
    conclude result = (0, after) ↔ result = (.ok 0, after) := by
  obtain ⟨outcome, last⟩ := result
  cases outcome with
  | error error => simp [conclude, ProgramError.exitCode]
  | ok code => simp [conclude]

theorem perform_clean_eq_ok_iff :
    perform .clean project runner platform world = (.ok 0, after) ↔
      project.clean runner platform world = (.ok 0, after) := by
  rw [perform]
  cases project.clean runner platform world with
  | mk result last => cases result <;> simp [FileTree.mapError_error, FileTree.mapError_ok]

/--
Cleaning that ends with exit code zero has removed the installed files of all targets that were
there, and everything in staging, and nothing else.  It shows a line for each of them, in declared
order and for staging last; and with the same files and the same current directory it then ends with
exit code zero once more, shows nothing and changes nothing.  The staging directory itself is gone
exactly when its path does not lead through something in it.
-/
theorem clean_removes_what_is_there (accepted : project.manifest.validate = .ok ())
    (absolute : project.root.isAbsolute = true) (tool : Option String) (outDir : Option Path)
    (cleaned : conclude (perform .clean (project.adjusted tool outDir) runner platform world) =
      (0, after)) :
    (project.adjusted tool outDir).Cleaned
        ((project.adjusted tool outDir).toBuild runner platform) world after ∧
      ∀ later : World, later.cwd = world.cwd → later.tree = after.tree →
        conclude (perform .clean (project.adjusted tool outDir) runner platform later) =
          (0, later) := by
  have file_names : ∀ target ∈ (project.adjusted tool outDir).manifest.allTargets,
      IsName (target.fileName platform) := by
    intro target declared
    rw [Manifest.allTargets, Project.targets_adjusted] at declared
    exact Target.isName_fileName (Manifest.isName_outputName accepted declared) platform
  rw [← project.root_adjusted tool outDir] at absolute
  rw [conclude_eq_zero_iff, perform_clean_eq_ok_iff] at cleaned
  obtain ⟨-, left, again⟩ := Project.cleaned_of_clean file_names absolute cleaned
  refine ⟨left, fun later same_cwd same_tree => ?_⟩
  rw [conclude_eq_zero_iff, perform_clean_eq_ok_iff]
  exact again later same_cwd same_tree

/-- The tree of a project in `/p` with these files and directories. -/
def holding (entries : List (Location × Entry)) : World where
  tree := entries.foldl (fun tree item => tree.insert item.1 item.2) World.project.tree
  cwd := ["p"]

/-- A project in `/p` one of whose artifacts is a companion of the other one. -/
def overlapping : Project :=
  ⟨⟨"/p"⟩, ⟨.odin, ⟨"bin"⟩,
    [TargetEntry.minimal "app" .executable, TargetEntry.minimal "app.lib" .executable]⟩⟩

/-- What both targets have installed, a file in staging, and a file of another extension. -/
def overlappingBuilt : World :=
  holding [(["p", "bin"], .directory), (["p", "bin", ".kiln-staging"], .directory),
    (["p", "bin", ".kiln-staging", "notes"], .file ⟨Utf8.encode "notes", false⟩),
    (["p", "bin", "app.txt"], .file ⟨Utf8.encode "text", false⟩),
    (["p", "bin", "app.lib"], .file ⟨Utf8.encode "lib", true⟩),
    (["p", "bin", "app"], .file ⟨Utf8.encode "app", true⟩)]

/-- The shared file is reported once, the other extension stays, and once is enough. -/
theorem clean_reports_shared_file_once :
    ∃ after, conclude (perform .clean (overlapping.adjusted none none) executableWriter .unix
        overlappingBuilt) = (0, after) ∧
      after.statusLines = [⟨"/p/bin/app"⟩, ⟨"/p/bin/app.lib"⟩, ⟨"/p/bin/.kiln-staging"⟩].map
        Project.removedLine ∧
      after.tree.entry? ["p", "bin", "app.lib"] = none ∧
      after.tree.entry? ["p", "bin", ".kiln-staging"] = none ∧
      after.tree.file? ["p", "bin", "app.txt"] = some ⟨Utf8.encode "text", false⟩ ∧
      conclude (perform .clean (overlapping.adjusted none none) executableWriter .unix after) =
        (0, after) := by
  have cleaned : conclude (perform .clean (overlapping.adjusted none none) executableWriter .unix
      overlappingBuilt) = (0, (conclude (perform .clean (overlapping.adjusted none none)
        executableWriter .unix overlappingBuilt)).2) :=
    Prod.ext (by decide +kernel) rfl
  obtain ⟨left, again⟩ := @clean_removes_what_is_there overlapping executableWriter .unix
    overlappingBuilt _ (by decide +kernel) (by decide +kernel) none none cleaned
  exact ⟨_, cleaned, by decide +kernel, by decide +kernel, by decide +kernel, by decide +kernel,
    again _ left.cwd rfl⟩

/-- A path to the output directory that leads through staging finds it reported, but still there. -/
theorem clean_keeps_reported_staging :
    undescribed.manifest.validate = .ok () ∧
      (undescribed.adjusted none (some ⟨"out/.kiln-staging/x/../.."⟩)).outDir.place ["p"] =
        ["p", "out"] ∧
      ∃ after, conclude (perform .clean
          (undescribed.adjusted none (some ⟨"out/.kiln-staging/x/../.."⟩)) executableWriter .unix
          (holding [(["p", "out"], .directory), (["p", "out", ".kiln-staging"], .directory),
            (["p", "out", ".kiln-staging", "x"], .directory)])) = (0, after) ∧
        after.statusLines =
          [Project.removedLine ⟨"/p/out/.kiln-staging/x/../../.kiln-staging"⟩] ∧
        after.tree.entry? ["p", "out", ".kiln-staging"] = some .directory :=
  ⟨by decide +kernel, by decide +kernel, _, Prod.ext (by decide +kernel) rfl, by decide +kernel,
    by decide +kernel⟩

end Program
end StagedBuild
