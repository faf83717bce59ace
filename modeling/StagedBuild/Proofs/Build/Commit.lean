import Mathlib.Data.List.TakeWhile
import StagedBuild.Proofs.Build.Staging
import StagedBuild.Proofs.FileTree.Journal
import StagedBuild.Proofs.Path.Length

/-!
# What a commit installs

A staged file is moved unless a directory is in its place.  A commit moves the companions and then
the artifact, in this order, up to the first file whose place is taken; the files in front of that
one are installed even though the commit fails.
-/

namespace StagedBuild

open StagedBuild.Path (IsName)
open FileTree (IsBelow SameOutside)

/-- The files of these names went from one directory to another one, and nothing else changed. -/
structure Transfers (source destination : Location) (names : List String)
    (tree after : FileTree) : Prop where
  /-- What was in the source is in the destination. -/
  installed : ∀ name ∈ names,
    after.entry? (destination ++ [name]) = tree.entry? (source ++ [name])
  /-- The source has lost it. -/
  taken : ∀ name ∈ names, after.entry? (source ++ [name]) = none
  /-- The rest is as it was. -/
  others : ∀ place, (∀ name ∈ names, place ≠ destination ++ [name] ∧ place ≠ source ++ [name]) →
    after.entry? place = tree.entry? place

namespace Transfers

variable {source destination : Location} {names : List String} {tree middle after : FileTree}

theorem nil : Transfers source destination [] tree tree :=
  ⟨by simp, by simp, fun _ _ => rfl⟩

theorem of_move {name : String} {file : File} (apart : source ≠ destination)
    (holds : tree.entry? (source ++ [name]) = some (.file file)) :
    Transfers source destination [name] tree
      ((tree.erase (source ++ [name])).insert (destination ++ [name]) (.file file)) := by
  refine ⟨?_, ?_, ?_⟩
  · intro other member
    obtain rfl := List.mem_singleton.mp member
    rw [FileTree.entry?_insert, if_pos ⟨rfl, by simp⟩, holds]
  · intro other member
    obtain rfl := List.mem_singleton.mp member
    rw [FileTree.entry?_insert, if_neg (by simp [apart]), FileTree.entry?_erase,
      if_pos ⟨rfl, by simp⟩]
  · intro place other
    obtain ⟨not_destination, not_source⟩ := other name (List.mem_singleton.mpr rfl)
    rw [FileTree.entry?_insert, if_neg (fun same => not_destination same.1),
      FileTree.entry?_erase, if_neg (fun same => not_source same.1)]

/-- Names that go one after the other go together. -/
theorem cons {name : String} (apart : ∀ left right : String,
      source ++ [left] ≠ destination ++ [right]) (fresh : name ∉ names)
    (first : Transfers source destination [name] tree middle)
    (rest : Transfers source destination names middle after) :
    Transfers source destination (name :: names) tree after := by
  have single : name ∈ [name] := List.mem_singleton.mpr rfl
  have other_names : ∀ other ∈ names, name ≠ other := by
    rintro other member rfl
    exact fresh member
  refine ⟨?_, ?_, ?_⟩
  · intro other member
    rcases List.mem_cons.mp member with rfl | later
    · rw [rest.others _ fun next next_mem =>
        ⟨by simpa using other_names next next_mem, (apart next other).symm⟩]
      exact first.installed other single
    · rw [rest.installed other later, first.others]
      intro next next_mem
      obtain rfl := List.mem_singleton.mp next_mem
      exact ⟨apart other next, by simpa using (other_names other later).symm⟩
  · intro other member
    rcases List.mem_cons.mp member with rfl | later
    · rw [rest.others _ fun next next_mem =>
        ⟨apart other next, by simpa using other_names next next_mem⟩]
      exact first.taken other single
    · exact rest.taken other later
  · intro place other
    rw [rest.others place fun next next_mem => other next (List.mem_cons_of_mem name next_mem),
      first.others place fun next next_mem => ?_]
    exact other next (List.mem_singleton.mp next_mem ▸ List.mem_cons_self)

end Transfers

namespace StagedArtifact

variable {platform : Platform} {outDir : Path} {target : Target}

theorem stagingDir_locate (is_name : IsName (target.fileName platform)) :
    (locate platform outDir target).stagingDir = stagingOf outDir :=
  Path.directory_join_name (Path.segments_join_name outDir isName_stagingName) isName_stagingName
    is_name

theorem place_outDir_locate (is_name : IsName (target.fileName platform)) (cwd : Location) :
    (locate platform outDir target).outDir.place cwd = outDir.place cwd := by
  have joined := Path.place_join_name outDir is_name cwd
  have above := Path.place_eq_directory (is_name.fileName?_join outDir) cwd
  exact (List.append_inj' (above.symm.trans joined) rfl).1

/-- Where a staged file may be read, its destination may be written. -/
theorem admissible_destination {name : String} (file_name : IsName (target.fileName platform))
    (is_name : IsName name)
    (read : FileTree.admissible ((stagingOf outDir).join name) = .ok ()) :
    FileTree.admissible ((locate platform outDir target).outDir.join name) = .ok () := by
  refine Path.admissible_of_sublist ?_ (Path.text_join_name_ne_empty _ is_name) read
  rw [Path.segments_join_name _ is_name, Path.segments_join_name _ is_name, stagingOf,
    Path.front_join_name outDir isName_stagingName]
  refine List.Sublist.append ?_ (List.Sublist.refl _)
  exact (Path.front_directory_join outDir file_name).sublist.trans (List.sublist_append_left _ _)

theorem staging_apart (outDir : Path) (cwd : Location) (left right : String) :
    (stagingOf outDir).place cwd ++ [left] ≠ outDir.place cwd ++ [right] := by
  rw [place_stagingOf]
  intro same
  have lengths := congrArg List.length same
  simp at lengths

/-- A staged file is moved unless it would replace a directory, be it the staging directory. -/
theorem moveFile_staged {tree : FileTree} {cwd : Location} {name : String}
    (file_name : IsName (target.fileName platform)) (is_name : IsName name)
    (found : tree.isFileAt cwd ((stagingOf outDir).join name) = true) :
    ∃ file, tree.entry? ((stagingOf outDir).place cwd ++ [name]) = some (.file file) ∧
      tree.moveFile cwd ((stagingOf outDir).join name)
          ((locate platform outDir target).outDir.join name) =
        if outDir.place cwd ++ [name] <+: (stagingOf outDir).place cwd then
          .error (.system .notEmpty)
        else if tree.isDirectory (outDir.place cwd ++ [name]) then .error (.system .isDirectory)
        else
          .ok ((tree.erase ((stagingOf outDir).place cwd ++ [name])).insert
              (outDir.place cwd ++ [name]) (.file file),
            (stagingOf outDir).place cwd ++ [name], outDir.place cwd ++ [name]) := by
  obtain ⟨located, file, holds⟩ := FileTree.isFileAt_iff.mp found
  obtain ⟨read, opens, short, place_eq, -⟩ := (FileTree.locate_join_name_iff is_name).mp located
  rw [place_eq, FileTree.file?_eq_some_iff] at holds
  have out_opens : tree.Opens cwd outDir :=
    FileTree.opens_of_walk_join isName_stagingName.not_isAbsolute opens.1
  refine ⟨file, holds, ?_⟩
  rw [← @place_outDir_locate platform outDir target file_name cwd]
  exact FileTree.moveFile_join is_name read (admissible_destination file_name is_name read) opens
    (out_opens.directory_join file_name) short holds

/-- The only place above the staging directory and inside the output directory is the former. -/
theorem not_above_staging {tree : FileTree} {cwd : Location} {name staged : String}
    (is_name : IsName staged)
    (found : tree.isFileAt cwd ((stagingOf outDir).join staged) = true)
    (free : tree.isDirectory (outDir.place cwd ++ [name]) = false) :
    ¬ outDir.place cwd ++ [name] <+: (stagingOf outDir).place cwd := by
  obtain ⟨located, -⟩ := FileTree.isFileAt_iff.mp found
  obtain ⟨-, opens, -⟩ := (FileTree.locate_join_name_iff is_name).mp located
  intro above
  have whole : outDir.place cwd ++ [name] = (stagingOf outDir).place cwd :=
    above.eq_of_length (by simp [place_stagingOf])
  rw [whole, opens.2] at free
  simp at free

/-- A staged file is moved unless a directory is in its place. -/
theorem promote_spec {world after : World} {name : String} {result : Except BuildError Unit}
    (file_name : IsName (target.fileName platform)) (is_name : IsName name)
    (found : world.tree.isFileAt world.cwd ((stagingOf outDir).join name) = true)
    (promoted : (locate platform outDir target).promote ((stagingOf outDir).join name) world =
      (result, after)) :
    if world.tree.isDirectory (outDir.place world.cwd ++ [name]) then
      (∃ error, result = .error error) ∧ after = world
    else
      result = .ok () ∧ after.cwd = world.cwd ∧
        (∀ place, after.tree.isDirectory place = world.tree.isDirectory place) ∧
        Transfers ((stagingOf outDir).place world.cwd) (outDir.place world.cwd) [name]
          world.tree after.tree := by
  simp only [promote, is_name.fileName?_join, World.moveFile] at promoted
  by_cases taken : world.tree.isDirectory (outDir.place world.cwd ++ [name]) = true
  · rw [if_pos taken]
    cases moved : world.tree.moveFile world.cwd ((stagingOf outDir).join name)
        ((locate platform outDir target).outDir.join name) with
    | ok outcome =>
        obtain ⟨-, target_eq, free, -⟩ := FileTree.moveFile_spec moved
        rw [target_eq, Path.place_join_name _ is_name, place_outDir_locate file_name, taken] at free
        simp at free
    | error error =>
        rw [moved] at promoted
        obtain ⟨rfl, rfl⟩ := Prod.mk.inj promoted
        exact ⟨⟨_, rfl⟩, rfl⟩
  · rw [if_neg taken]
    have free : world.tree.isDirectory (outDir.place world.cwd ++ [name]) = false := by
      simpa using taken
    obtain ⟨file, holds, moved⟩ := @moveFile_staged platform outDir target world.tree world.cwd
      name file_name is_name found
    rw [if_neg (not_above_staging is_name found free), if_neg taken] at moved
    rw [moved] at promoted
    obtain ⟨rfl, rfl⟩ := Prod.mk.inj promoted
    refine ⟨rfl, rfl, fun place => ?_, Transfers.of_move ?_ holds⟩
    · exact (Change.Makes.movedFile holds free).isDirectory_of_moved place
    · rw [place_stagingOf]
      simp

/-- The other staged files are still there when one was moved. -/
theorem isFileAt_of_transfers {tree after : FileTree} {cwd : Location} {name other : String}
    (other_name : IsName other) (differ : other ≠ name)
    (same_directories : ∀ place, after.isDirectory place = tree.isDirectory place)
    (transferred : Transfers ((stagingOf outDir).place cwd) (outDir.place cwd) [name] tree after)
    (found : tree.isFileAt cwd ((stagingOf outDir).join other) = true) :
    after.isFileAt cwd ((stagingOf outDir).join other) = true := by
  obtain ⟨located, file, holds⟩ := FileTree.isFileAt_iff.mp found
  obtain ⟨read, opens, short, place_eq, present⟩ :=
    (FileTree.locate_join_name_iff other_name).mp located
  have kept : after.entry? (((stagingOf outDir).join other).place cwd) =
      tree.entry? (((stagingOf outDir).join other).place cwd) := by
    rw [place_eq]
    refine transferred.others _ fun next member => ⟨staging_apart _ _ _ _, ?_⟩
    obtain rfl := List.mem_singleton.mp member
    simpa using differ
  rw [FileTree.isFileAt_iff, FileTree.locate_join_name_iff other_name, kept,
    FileTree.file?_congr kept]
  exact ⟨⟨read, opens.mono fun place directory => same_directories place ▸ directory, short,
    place_eq, present⟩, file, holds⟩

/-- Once a staged file is moved, the others are still staged. -/
theorem promote_ok_spec {names : List String} {world middle : World} {name : String}
    (file_name : IsName (target.fileName platform)) (fresh : name ∉ names)
    (staged : ∀ other ∈ name :: names, IsName other ∧
      world.tree.isFileAt world.cwd ((stagingOf outDir).join other) = true)
    (promoted : (locate platform outDir target).promote ((stagingOf outDir).join name) world =
      (.ok (), middle)) :
    world.tree.isDirectory (outDir.place world.cwd ++ [name]) = false ∧
      middle.cwd = world.cwd ∧
      (∀ place, middle.tree.isDirectory place = world.tree.isDirectory place) ∧
      Transfers ((stagingOf outDir).place world.cwd) (outDir.place world.cwd) [name]
        world.tree middle.tree ∧
      ∀ other ∈ names, IsName other ∧
        middle.tree.isFileAt middle.cwd ((stagingOf outDir).join other) = true := by
  rw [List.forall_mem_cons] at staged
  obtain ⟨⟨is_name, found⟩, staged⟩ := staged
  have moved := promote_spec file_name is_name found promoted
  split at moved
  · simp at moved
  · rename_i free
    obtain ⟨-, same_cwd, same_directories, transferred⟩ := moved
    refine ⟨by simpa using free, same_cwd, same_directories, transferred, ?_⟩
    intro other member
    obtain ⟨other_name, other_found⟩ := staged other member
    refine ⟨other_name, ?_⟩
    rw [same_cwd]
    refine isFileAt_of_transfers other_name ?_ same_directories transferred other_found
    rintro rfl
    exact fresh member

/-- Staged files are moved up to the first one whose place is taken by a directory. -/
theorem promoteAll_spec {names : List String} {world after : World}
    {result : Except BuildError Unit} (file_name : IsName (target.fileName platform))
    (distinct : names.Nodup)
    (staged : ∀ name ∈ names, IsName name ∧
      world.tree.isFileAt world.cwd ((stagingOf outDir).join name) = true)
    (promoted : (locate platform outDir target).promoteAll (names.map (stagingOf outDir).join)
      world = (result, after)) :
    after.cwd = world.cwd ∧
      Transfers ((stagingOf outDir).place world.cwd) (outDir.place world.cwd)
        (names.takeWhile fun name => !world.tree.isDirectory (outDir.place world.cwd ++ [name]))
        world.tree after.tree ∧
      (result = .ok () ↔
        ∀ name ∈ names, world.tree.isDirectory (outDir.place world.cwd ++ [name]) = false) := by
  induction names generalizing world with
  | nil =>
      obtain ⟨rfl, rfl⟩ := Prod.mk.inj promoted
      exact ⟨rfl, Transfers.nil, by simp⟩
  | cons name names induction =>
      obtain ⟨is_name, found⟩ := staged name List.mem_cons_self
      obtain ⟨fresh, distinct⟩ := List.nodup_cons.mp distinct
      rw [List.map_cons, promoteAll] at promoted
      split at promoted
      · rename_i middle first
        obtain ⟨free, same_cwd, same_directories, transferred, still_staged⟩ :=
          promote_ok_spec file_name fresh staged first
        obtain ⟨rest_cwd, rest_moved, rest_ok⟩ := induction distinct still_staged promoted
        rw [same_cwd] at rest_cwd rest_moved rest_ok
        simp only [same_directories] at rest_moved rest_ok
        refine ⟨rest_cwd, ?_, ?_⟩
        · rw [List.takeWhile_cons_of_pos (by simp [free])]
          refine transferred.cons (staging_apart outDir world.cwd) (fun member => ?_) rest_moved
          exact fresh (List.takeWhile_subset _ member)
        · rw [rest_ok, List.forall_mem_cons]
          exact ⟨fun rest => ⟨free, rest⟩, fun all => all.2⟩
      · rename_i error middle first
        obtain ⟨rfl, rfl⟩ := Prod.mk.inj promoted
        have refused := promote_spec file_name is_name found first
        split at refused
        · rename_i taken
          obtain ⟨-, rfl⟩ := refused
          refine ⟨rfl, ?_, ?_⟩
          · rw [List.takeWhile_cons_of_neg (by simp [taken])]
            exact Transfers.nil
          · simp [taken]
        · simp at refused

/-- The names of the files that are staged for an artifact, the companions first. -/
def stagedNames (artifact : StagedArtifact) (tree : FileTree) (cwd : Location) : List String :=
  ((artifact.companions tree cwd).toOption.getD [] ++ [artifact.stagingPath]).filterMap
    Path.fileName?

/--
The names of the files that a commit moves: none without a staged artifact, and otherwise those in
front of the first one whose place is taken by a directory.
-/
def movedNames (artifact : StagedArtifact) (tree : FileTree) (cwd : Location) : List String :=
  if tree.isFileAt cwd artifact.stagingPath then
    (artifact.stagedNames tree cwd).takeWhile fun name =>
      !tree.isDirectory (artifact.outDir.place cwd ++ [name])
  else []

theorem not_sameComponents_stagingPath {name : String}
    (file_name : IsName (target.fileName platform))
    (companion : isCompanionName target.outputName name = true) :
    ((stagingOf outDir).join name).sameComponents (locate platform outDir target).stagingPath =
      false := by
  obtain ⟨is_name, differs⟩ := isName_of_isCompanionName file_name companion
  rw [Path.sameComponents, beq_eq_false_iff_ne]
  intro same
  have last : ((stagingOf outDir).join name).fileName? =
      (locate platform outDir target).stagingPath.fileName? := by
    rw [Path.fileName?, same, Path.fileName?]
  rw [locate, is_name.fileName?_join, file_name.fileName?_join] at last
  exact differs (Option.some.inj last)

/-- The names of the companions that are staged for an artifact, in listing order. -/
def companionNames (platform : Platform) (outDir : Path) (target : Target) (tree : FileTree)
    (cwd : Location) : List String :=
  (tree.names ((stagingOf outDir).place cwd)).filter fun name =>
    !((stagingOf outDir).join name).sameComponents (locate platform outDir target).stagingPath &&
      tree.isFileAt cwd ((stagingOf outDir).join name) && isCompanionName target.outputName name

theorem nodup_companionNames (tree : FileTree) (cwd : Location) :
    (companionNames platform outDir target tree cwd).Nodup :=
  (tree.names_nodup _).filter _

/-- A companion that is a file is listed. -/
theorem mem_companionNames_iff {tree : FileTree} {cwd : Location} {name : String}
    (file_name : IsName (target.fileName platform)) :
    name ∈ companionNames platform outDir target tree cwd ↔
      isCompanionName target.outputName name = true ∧
        tree.isFileAt cwd ((stagingOf outDir).join name) = true := by
  rw [companionNames, List.mem_filter, FileTree.mem_names_iff, Bool.and_eq_true, Bool.and_eq_true]
  constructor
  · rintro ⟨-, ⟨-, file⟩, companion⟩
    exact ⟨companion, file⟩
  · rintro ⟨companion, file⟩
    have is_name := (isName_of_isCompanionName file_name companion).1
    obtain ⟨-, -, -, held, holds⟩ := (FileTree.isFileAt_join_name_iff is_name).mp file
    rw [FileTree.file?_eq_some_iff] at holds
    exact ⟨by rw [holds]; rfl,
      ⟨by rw [not_sameComponents_stagingPath file_name companion]; rfl, file⟩, companion⟩

/-- Where the staging directory is listed, so are the companions. -/
theorem companions_of_read {tree : FileTree} {cwd : Location} {names : List String}
    (file_name : IsName (target.fileName platform))
    (read : tree.readDirectory cwd (locate platform outDir target).stagingDir = .ok names) :
    (locate platform outDir target).companions tree cwd =
      .ok (((companionNames platform outDir target tree cwd).mergeSort
        fun left right => !decide (right < left)).map (stagingOf outDir).join) := by
  rw [stagingDir_locate file_name] at read
  obtain ⟨-, -, rfl⟩ := FileTree.readDirectory_eq_ok_iff.mp read
  rw [companions, stagingDir_locate file_name, read]
  rfl

/-- Where a file can be found in staging, the companions there can be listed. -/
theorem companions_of_staged {tree : FileTree} {cwd : Location} {name : String}
    (file_name : IsName (target.fileName platform)) (is_name : IsName name)
    (found : tree.isFileAt cwd ((stagingOf outDir).join name) = true) :
    (locate platform outDir target).companions tree cwd =
      .ok (((companionNames platform outDir target tree cwd).mergeSort
        fun left right => !decide (right < left)).map (stagingOf outDir).join) := by
  obtain ⟨read, opens, -⟩ := (FileTree.isFileAt_join_name_iff is_name).mp found
  have staging_read : FileTree.admissible (stagingOf outDir) = .ok () := by
    refine Path.admissible_of_sublist ?_
      (Path.text_join_name_ne_empty outDir isName_stagingName) read
    rw [Path.segments_join_name _ is_name, stagingOf,
      Path.front_join_name outDir isName_stagingName,
      Path.segments_join_name outDir isName_stagingName]
    exact List.sublist_append_left _ _
  have listed := FileTree.readDirectory_eq_ok_iff.mpr ⟨staging_read, opens, rfl⟩
  rw [← @stagingDir_locate platform outDir target file_name] at listed
  exact companions_of_read file_name listed

/-- With an artifact in staging its companions can be listed. -/
theorem companions_of_isFileAt {tree : FileTree} {cwd : Location}
    (file_name : IsName (target.fileName platform))
    (found : tree.isFileAt cwd (locate platform outDir target).stagingPath = true) :
    (locate platform outDir target).companions tree cwd =
      .ok (((companionNames platform outDir target tree cwd).mergeSort
        fun left right => !decide (right < left)).map (stagingOf outDir).join) :=
  companions_of_staged file_name file_name found

section Chosen

variable {names : List String} (file_name : IsName (target.fileName platform))

include file_name

theorem nodup_concat_fileName (distinct : names.Nodup)
    (companions : ∀ name ∈ names, isCompanionName target.outputName name = true) :
    (names ++ [target.fileName platform]).Nodup := by
  rw [List.nodup_append]
  refine ⟨distinct, by simp, fun name member last last_mem => ?_⟩
  rw [List.mem_singleton.mp last_mem]
  exact (isName_of_isCompanionName file_name (companions name member)).2

/-- The companions that are files and the artifact are staged under names. -/
theorem staged_of_chosen {tree : FileTree} {cwd : Location}
    (found : tree.isFileAt cwd (locate platform outDir target).stagingPath = true)
    (chosen : ∀ name ∈ names, isCompanionName target.outputName name = true ∧
      tree.isFileAt cwd ((stagingOf outDir).join name) = true) :
    ∀ name ∈ names ++ [target.fileName platform],
      IsName name ∧ tree.isFileAt cwd ((stagingOf outDir).join name) = true := by
  intro name member
  rcases List.mem_append.mp member with companion | last
  · obtain ⟨companion, file⟩ := chosen name companion
    exact ⟨(isName_of_isCompanionName file_name companion).1, file⟩
  · obtain rfl := List.mem_singleton.mp last
    exact ⟨file_name, found⟩

end Chosen

theorem map_join_concat (platform : Platform) (outDir : Path) (target : Target)
    (names : List String) :
    names.map (stagingOf outDir).join ++ [(locate platform outDir target).stagingPath] =
      (names ++ [target.fileName platform]).map (stagingOf outDir).join := by
  simp [locate]

/-- The staged files: the companions that are files, and the artifact behind them. -/
theorem stagedNames_of_isFileAt {tree : FileTree} {cwd : Location}
    (file_name : IsName (target.fileName platform))
    (found : tree.isFileAt cwd (locate platform outDir target).stagingPath = true) :
    ∃ names, (locate platform outDir target).companions tree cwd =
        .ok (names.map (stagingOf outDir).join) ∧
      (locate platform outDir target).stagedNames tree cwd =
        names ++ [target.fileName platform] ∧
      (names ++ [target.fileName platform]).Nodup ∧
      (∀ name, name ∈ names ↔ isCompanionName target.outputName name = true ∧
        tree.isFileAt cwd ((stagingOf outDir).join name) = true) ∧
      ∀ name ∈ names ++ [target.fileName platform],
        IsName name ∧ tree.isFileAt cwd ((stagingOf outDir).join name) = true := by
  have listed := companions_of_isFileAt file_name found
  refine ⟨_, listed, ?_⟩
  generalize names_eq : (companionNames platform outDir target tree cwd).mergeSort
    (fun left right => !decide (right < left)) = names at listed ⊢
  have distinct : names.Nodup := by
    rw [← names_eq]
    exact (List.mergeSort_perm _ _).nodup_iff.mpr (nodup_companionNames tree cwd)
  have chosen : ∀ name, name ∈ names ↔ isCompanionName target.outputName name = true ∧
      tree.isFileAt cwd ((stagingOf outDir).join name) = true := by
    intro name
    rw [← names_eq, List.mem_mergeSort, mem_companionNames_iff file_name]
  refine ⟨?_, nodup_concat_fileName file_name distinct fun name member =>
    ((chosen name).mp member).1, chosen, staged_of_chosen file_name found fun name =>
    (chosen name).mp⟩
  have artifact_name : (locate platform outDir target).stagingPath.fileName? =
      some (target.fileName platform) := file_name.fileName?_join _
  have kept : ∀ name ∈ names, (Path.fileName? ∘ (stagingOf outDir).join) name = some name :=
    fun name member =>
      (isName_of_isCompanionName file_name ((chosen name).mp member).1).1.fileName?_join _
  rw [stagedNames, listed, List.filterMap_append, List.filterMap_cons_some artifact_name]
  simp only [Except.toOption, Option.getD_some, List.filterMap_nil]
  rw [List.filterMap_map, List.filterMap_congr kept, List.filterMap_some]

/-- What is moved is a staged file whose place is not taken. -/
theorem movedNames_spec {tree : FileTree} {cwd : Location} {name : String}
    (plain : Path.isPlainName (target.fileName platform) = true)
    (moved : name ∈ (locate platform outDir target).movedNames tree cwd) :
    IsName (target.fileName platform) ∧ IsName name ∧
      tree.isFileAt cwd ((stagingOf outDir).join name) = true ∧
      tree.isDirectory (outDir.place cwd ++ [name]) = false ∧
      (isCompanionName target.outputName name = true ∨ name = target.fileName platform) := by
  rw [movedNames] at moved
  split at moved
  · rename_i found
    have file_name := FileTree.isName_of_isFileAt plain found
    obtain ⟨names, -, names_eq, -, companions, staged⟩ := stagedNames_of_isFileAt file_name found
    rw [names_eq, place_outDir_locate file_name] at moved
    have member := List.takeWhile_subset _ moved
    obtain ⟨is_name, staged_file⟩ := staged name member
    refine ⟨file_name, is_name, staged_file, by simpa using List.mem_takeWhile_imp moved, ?_⟩
    rcases List.mem_append.mp member with companion | last
    · exact Or.inl ((companions name).mp companion).1
    · exact Or.inr (List.mem_singleton.mp last)
  · simp at moved

theorem mem_takeWhile_concat_iff {names : List String} {last : String} {free : String → Bool}
    (distinct : (names ++ [last]).Nodup) :
    last ∈ (names ++ [last]).takeWhile free ↔ ∀ name ∈ names ++ [last], free name = true := by
  rw [← List.takeWhile_eq_self_iff]
  constructor
  · intro reached
    have whole := @List.takeWhile_append_dropWhile _ free (names ++ [last])
    rcases List.eq_nil_or_concat ((names ++ [last]).dropWhile free) with none | ⟨init, final, cut⟩
    · rw [none, List.append_nil] at whole
      exact whole
    · rw [cut, List.concat_eq_append, ← List.append_assoc] at whole
      obtain ⟨front_eq, last_eq⟩ := List.append_inj' whole rfl
      obtain ⟨-, -, apart⟩ := List.nodup_append.mp distinct
      exact absurd rfl (apart last (front_eq ▸ List.mem_append_left _ reached) last (by simp))
  · intro whole
    rw [whole]
    simp

/-- When the artifact is moved, all staged files of its target are. -/
theorem mem_movedNames_iff {tree : FileTree} {cwd : Location} {name : String}
    (plain : Path.isPlainName (target.fileName platform) = true)
    (moved : target.fileName platform ∈ (locate platform outDir target).movedNames tree cwd) :
    name ∈ (locate platform outDir target).movedNames tree cwd ↔
      target.Owns platform name ∧ tree.isFileAt cwd ((stagingOf outDir).join name) = true := by
  rw [movedNames] at moved ⊢
  split at moved
  · rename_i found
    have file_name := FileTree.isName_of_isFileAt plain found
    obtain ⟨names, -, names_eq, distinct, chosen, staged⟩ := stagedNames_of_isFileAt file_name found
    rw [if_pos found]
    rw [names_eq] at moved ⊢
    rw [List.takeWhile_eq_self_iff.mpr ((mem_takeWhile_concat_iff distinct).mp moved)]
    constructor
    · intro member
      refine ⟨?_, (staged name member).2⟩
      rcases List.mem_append.mp member with companion | last
      · exact Or.inl ((chosen name).mp companion).1
      · exact Or.inr (List.mem_singleton.mp last)
    · rintro ⟨companion | rfl, file⟩
      · exact List.mem_append_left _ ((chosen name).mpr ⟨companion, file⟩)
      · simp
  · simp at moved

/-- Only a staged artifact and files beside it are moved, and the commit succeeds exactly when the
artifact, which is the last of them, is moved. -/
theorem commit_spec {world after : World} {result : Except BuildError Unit}
    (plain : Path.isPlainName (target.fileName platform) = true)
    (committed : (locate platform outDir target).commit world = (result, after)) :
    after.cwd = world.cwd ∧
      Transfers ((stagingOf outDir).place world.cwd) (outDir.place world.cwd)
        ((locate platform outDir target).movedNames world.tree world.cwd)
        world.tree after.tree ∧
      (result = .ok () ↔ target.fileName platform ∈
        (locate platform outDir target).movedNames world.tree world.cwd) := by
  rw [commit] at committed
  split at committed
  · rename_i absent
    obtain ⟨rfl, rfl⟩ := Prod.mk.inj committed
    rw [movedNames, if_neg (by simpa using absent)]
    exact ⟨rfl, Transfers.nil, by simp⟩
  · rename_i present
    have found : world.tree.isFileAt world.cwd (locate platform outDir target).stagingPath =
        true := by simpa using present
    have file_name : IsName (target.fileName platform) :=
      FileTree.isName_of_isFileAt plain found
    obtain ⟨names, listed, names_eq, distinct, -, staged⟩ :=
      stagedNames_of_isFileAt file_name found
    rw [movedNames, if_pos found, names_eq, place_outDir_locate file_name]
    simp only [listed, map_join_concat] at committed
    split at committed <;>
    · rename_i middle promoted
      obtain ⟨rfl, rfl⟩ := Prod.mk.inj committed
      obtain ⟨same_cwd, moved, complete⟩ := promoteAll_spec file_name distinct staged promoted
      refine ⟨same_cwd, moved, complete.trans ?_⟩
      rw [mem_takeWhile_concat_iff distinct]
      simp only [Bool.not_eq_true']

end StagedArtifact
end StagedBuild
