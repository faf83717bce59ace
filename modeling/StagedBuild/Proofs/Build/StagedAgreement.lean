import Mathlib.Data.List.Sort
import Mathlib.Data.String.Basic
import StagedBuild.Proofs.Build.Confinement
import StagedBuild.Proofs.FileTree.Agreement
import StagedBuild.Proofs.FileTree.Way

/-!
# What an artifact meets in staging

Of everything in the staging directory a commit looks at the files of its own target only, and
preparing an artifact looks at what is in its place only.  Worlds that differ in staging alone, and
not there, are prepared and committed with the same result, and differ in staging alone afterwards.
-/

namespace StagedBuild

open StagedBuild.Path (IsName)
open FileTree (IsBelow SameOutside)

namespace FileTree

variable {tree other : FileTree} {cwd : Location} {path : Path}

theorem AgreeAlong.opens_iff (agree : tree.AgreeAlong other cwd path) :
    other.Opens cwd path ↔ tree.Opens cwd path := by
  have walked := walk_congr fun front begins => agree _ ⟨front, begins, rfl⟩
  rw [Opens, Opens, walked, isDirectory_congr (agree _ (path.leadsThrough_place cwd))]

/-- A file is found in both trees when they agree on the way and on the file. -/
theorem AgreeAlong.isFileAt_join (agree : tree.AgreeAlong other cwd path) {name : String}
    (is_name : IsName name)
    (same : other.file? (path.place cwd ++ [name]) = tree.file? (path.place cwd ++ [name])) :
    other.isFileAt cwd (path.join name) = tree.isFileAt cwd (path.join name) := by
  rw [Bool.eq_iff_iff, isFileAt_join_name_iff is_name, isFileAt_join_name_iff is_name,
    agree.opens_iff, same]

end FileTree

theorem pairwise_mergeSort_le (texts : List String) :
    (texts.mergeSort fun first second => !decide (second < first)).Pairwise (· ≤ ·) := by
  have pairwise := @List.pairwise_mergeSort String fun first second => !decide (second < first)
  simp only [Bool.not_eq_true', decide_eq_false_iff_not, not_lt, Bool.or_eq_true] at pairwise
  exact pairwise (fun _ _ _ => le_trans) le_total texts

/-- Sorting forgets the order in which texts are given. -/
theorem mergeSort_eq_of_perm {left right : List String} (perm : left.Perm right) :
    (left.mergeSort fun first second => !decide (second < first)) =
      right.mergeSort fun first second => !decide (second < first) :=
  List.Perm.eq_of_pairwise' (pairwise_mergeSort_le left) (pairwise_mergeSort_le right)
    (((List.mergeSort_perm left _).trans perm).trans (List.mergeSort_perm right _).symm)

namespace StagedArtifact

variable {platform : Platform} {outDir : Path} {target : Target}

/-- No place that the path of the staging directory leads through lies in that directory. -/
def StaysOut (outDir : Path) (cwd : Location) : Prop :=
  ∀ place, (stagingOf outDir).LeadsThrough cwd place → ¬ IsBelow ((stagingOf outDir).place cwd) place

/-- A path without `..` stays out of the directory that it leads to. -/
theorem staysOut_of_forward (forward : ".." ∉ (stagingOf outDir).segments) (cwd : Location) :
    StaysOut outDir cwd :=
  Path.staysAbove_of_forward forward cwd

/-- Two trees differ in staging only, and there not in the files of the target. -/
structure AlikeFor (platform : Platform) (outDir : Path) (target : Target) (cwd : Location)
    (tree other : FileTree) : Prop where
  /-- The path of the staging directory does not lead through the directory. -/
  stays : StaysOut outDir cwd
  /-- The trees hold the same outside of staging. -/
  outside : SameOutside ((stagingOf outDir).place cwd) tree other
  /-- The trees hold the same files of the target in staging. -/
  files : IsName (target.fileName platform) → ∀ name, target.Owns platform name →
    other.file? ((stagingOf outDir).place cwd ++ [name]) =
      tree.file? ((stagingOf outDir).place cwd ++ [name])

variable {cwd : Location} {tree after : FileTree}

namespace AlikeFor

variable {other : FileTree} (alike : AlikeFor platform outDir target cwd tree other)

include alike

theorem along : tree.AgreeAlong other cwd (stagingOf outDir) :=
  fun place leads => (alike.outside place (alike.stays place leads)).symm

theorem isFileAt (is_name : IsName (target.fileName platform)) {name : String}
    (own : target.Owns platform name) :
    other.isFileAt cwd ((stagingOf outDir).join name) =
      tree.isFileAt cwd ((stagingOf outDir).join name) :=
  alike.along.isFileAt_join (isName_of_owns is_name own) (alike.files is_name name own)

theorem isDirectory_destination (name : String) :
    other.isDirectory (outDir.place cwd ++ [name]) =
      tree.isDirectory (outDir.place cwd ++ [name]) := by
  apply FileTree.isDirectory_congr
  apply alike.outside
  rw [place_stagingOf]
  exact FileTree.not_isBelow_sibling _ _ _

/-- The same companions are listed. -/
theorem companions (is_name : IsName (target.fileName platform))
    (found : tree.isFileAt cwd (locate platform outDir target).stagingPath = true) :
    (locate platform outDir target).companions other cwd =
      (locate platform outDir target).companions tree cwd := by
  have same_file := alike.isFileAt is_name (Or.inr rfl)
  have other_found : other.isFileAt cwd (locate platform outDir target).stagingPath = true :=
    same_file.trans found
  rw [companions_of_isFileAt is_name found, companions_of_isFileAt is_name other_found]
  apply congrArg fun names => Except.ok (List.map (stagingOf outDir).join names)
  apply mergeSort_eq_of_perm
  rw [List.perm_ext_iff_of_nodup (nodup_companionNames other cwd) (nodup_companionNames tree cwd)]
  intro name
  rw [mem_companionNames_iff is_name, mem_companionNames_iff is_name]
  apply and_congr_right
  intro companion
  rw [alike.isFileAt is_name (Or.inl companion)]

/-- The same files are moved into place. -/
theorem movedNames (plain : Path.isPlainName (target.fileName platform) = true) :
    (locate platform outDir target).movedNames other cwd =
      (locate platform outDir target).movedNames tree cwd := by
  rw [StagedArtifact.movedNames, StagedArtifact.movedNames]
  by_cases is_name : IsName (target.fileName platform)
  · have same_file : other.isFileAt cwd (locate platform outDir target).stagingPath =
        tree.isFileAt cwd (locate platform outDir target).stagingPath :=
      alike.isFileAt is_name (Or.inr rfl)
    rw [same_file]
    split
    · rename_i found
      rw [stagedNames, stagedNames, alike.companions is_name found, place_outDir_locate is_name]
      simp only [alike.isDirectory_destination]
    · rfl
  · have nothing : ∀ tree : FileTree,
        ¬ tree.isFileAt cwd (locate platform outDir target).stagingPath = true :=
      fun tree found => is_name (FileTree.isName_of_isFileAt plain found)
    rw [if_neg (nothing other), if_neg (nothing tree)]

end AlikeFor

variable {world other : World}

/-- Whether a staged file can be moved, and why not, is decided by its destination. -/
theorem promote_congr {name : String} (file_name : IsName (target.fileName platform))
    (is_name : IsName name) (same_cwd : other.cwd = world.cwd)
    (found : world.tree.isFileAt world.cwd ((stagingOf outDir).join name) = true)
    (other_found : other.tree.isFileAt world.cwd ((stagingOf outDir).join name) = true)
    (same_destination : other.tree.isDirectory (outDir.place world.cwd ++ [name]) =
      world.tree.isDirectory (outDir.place world.cwd ++ [name])) :
    ((locate platform outDir target).promote ((stagingOf outDir).join name) other).1 =
      ((locate platform outDir target).promote ((stagingOf outDir).join name) world).1 := by
  obtain ⟨file, -, moved⟩ := @moveFile_staged platform outDir target world.tree world.cwd name
    file_name is_name found
  obtain ⟨other_file, -, other_moved⟩ := @moveFile_staged platform outDir target other.tree
    world.cwd name file_name is_name other_found
  rw [same_destination] at other_moved
  simp only [promote, is_name.fileName?_join, World.moveFile, same_cwd, moved, other_moved]
  by_cases above : outDir.place world.cwd ++ [name] <+: (stagingOf outDir).place world.cwd
  · simp only [if_pos above]
  · simp only [if_neg above]
    by_cases taken : world.tree.isDirectory (outDir.place world.cwd ++ [name]) = true
    · simp only [if_pos taken]
    · simp only [if_neg taken]

/-- Staged files are moved with the same result when their destinations are alike. -/
theorem promoteAll_congr {names : List String} (file_name : IsName (target.fileName platform))
    (distinct : names.Nodup) (same_cwd : other.cwd = world.cwd)
    (staged : ∀ name ∈ names, IsName name ∧
      world.tree.isFileAt world.cwd ((stagingOf outDir).join name) = true)
    (other_staged : ∀ name ∈ names, IsName name ∧
      other.tree.isFileAt other.cwd ((stagingOf outDir).join name) = true)
    (same_destinations : ∀ name,
      other.tree.isDirectory (outDir.place world.cwd ++ [name]) =
        world.tree.isDirectory (outDir.place world.cwd ++ [name])) :
    ((locate platform outDir target).promoteAll (names.map (stagingOf outDir).join) other).1 =
      ((locate platform outDir target).promoteAll (names.map (stagingOf outDir).join) world).1 := by
  induction names generalizing world other with
  | nil => rfl
  | cons name names induction =>
      obtain ⟨fresh, distinct⟩ := List.nodup_cons.mp distinct
      obtain ⟨is_name, found⟩ := staged name List.mem_cons_self
      have other_found := (other_staged name List.mem_cons_self).2
      rw [same_cwd] at other_found
      have same_result := @promote_congr platform outDir target world other name file_name is_name
        same_cwd found other_found (same_destinations name)
      rw [List.map_cons, promoteAll, promoteAll]
      cases first : (locate platform outDir target).promote ((stagingOf outDir).join name) world with
      | mk result middle =>
          cases other_first : (locate platform outDir target).promote
              ((stagingOf outDir).join name) other with
          | mk other_result other_middle =>
              rw [first, other_first] at same_result
              obtain rfl : other_result = result := same_result
              cases other_result with
              | error error => rfl
              | ok done =>
                  obtain ⟨-, middle_cwd, middle_directories, -, still_staged⟩ :=
                    promote_ok_spec file_name fresh staged first
                  obtain ⟨-, other_cwd, other_directories, -, other_still_staged⟩ :=
                    promote_ok_spec file_name fresh other_staged other_first
                  apply induction distinct _ still_staged other_still_staged
                  · intro later
                    rw [middle_cwd, other_directories, middle_directories, same_destinations]
                  · rw [other_cwd, same_cwd, middle_cwd]

/-- Worlds that differ in staging alone, and not in the files of the target, commit alike. -/
theorem commit_congr (plain : Path.isPlainName (target.fileName platform) = true)
    (same_cwd : other.cwd = world.cwd)
    (alike : AlikeFor platform outDir target world.cwd world.tree other.tree) :
    ((locate platform outDir target).commit other).1 =
      ((locate platform outDir target).commit world).1 := by
  rw [commit, commit, same_cwd]
  by_cases is_name : IsName (target.fileName platform)
  · have same_file : other.tree.isFileAt world.cwd (locate platform outDir target).stagingPath =
        world.tree.isFileAt world.cwd (locate platform outDir target).stagingPath :=
      alike.isFileAt is_name (Or.inr rfl)
    rw [same_file]
    split
    · rfl
    · rename_i present
      have found : world.tree.isFileAt world.cwd (locate platform outDir target).stagingPath =
          true := by simpa using present
      obtain ⟨names, listed, -, distinct, companions, staged⟩ :=
        stagedNames_of_isFileAt is_name found
      have other_staged : ∀ name ∈ names ++ [target.fileName platform], IsName name ∧
          other.tree.isFileAt other.cwd ((stagingOf outDir).join name) = true := by
        intro name member
        have own : target.Owns platform name := by
          rcases List.mem_append.mp member with companion | last
          · exact Or.inl ((companions name).mp companion).1
          · exact Or.inr (List.mem_singleton.mp last)
        rw [same_cwd, alike.isFileAt is_name own]
        exact staged name member
      have same_result := promoteAll_congr is_name distinct same_cwd staged other_staged
        alike.isDirectory_destination
      rw [alike.companions is_name found, listed]
      simp only [map_join_concat]
      generalize (locate platform outDir target).promoteAll
        ((names ++ [target.fileName platform]).map (stagingOf outDir).join) other = left
        at same_result ⊢
      generalize (locate platform outDir target).promoteAll
        ((names ++ [target.fileName platform]).map (stagingOf outDir).join) world = right
        at same_result ⊢
      obtain ⟨result, left⟩ := left
      obtain ⟨other_result, right⟩ := right
      obtain rfl : result = other_result := same_result
      cases result <;> rfl
  · have nothing : ∀ tree : FileTree,
        tree.isFileAt world.cwd (locate platform outDir target).stagingPath = false :=
      fun tree => Bool.eq_false_iff.mpr fun found =>
        is_name (FileTree.isName_of_isFileAt plain found)
    simp [nothing]

/-- Worlds that differ in staging alone do so after a commit of the same files. -/
theorem sameOutside_commit (plain : Path.isPlainName (target.fileName platform) = true)
    (same_cwd : other.cwd = world.cwd)
    (alike : AlikeFor platform outDir target world.cwd world.tree other.tree)
    {after otherAfter : World} {result otherResult : Except BuildError Unit}
    (committed : (locate platform outDir target).commit world = (result, after))
    (other_committed : (locate platform outDir target).commit other = (otherResult, otherAfter)) :
    SameOutside ((stagingOf outDir).place world.cwd) after.tree otherAfter.tree := by
  obtain ⟨-, moved, -⟩ := commit_spec plain committed
  obtain ⟨-, other_moved, -⟩ := commit_spec plain other_committed
  rw [same_cwd, alike.movedNames plain] at other_moved
  intro place outside
  have not_staged : ∀ name, place ≠ (stagingOf outDir).place world.cwd ++ [name] := by
    rintro name rfl
    exact outside (FileTree.isBelow_append_name _ _)
  by_cases installed : ∃ name ∈ (locate platform outDir target).movedNames world.tree world.cwd,
      place = outDir.place world.cwd ++ [name]
  · obtain ⟨name, member, rfl⟩ := installed
    obtain ⟨file_name, is_name, found, -, own⟩ := movedNames_spec plain member
    obtain ⟨-, -, -, file, holds⟩ := (FileTree.isFileAt_join_name_iff is_name).mp found
    have other_holds := (alike.files file_name name own).trans holds
    rw [FileTree.file?_eq_some_iff] at holds other_holds
    rw [moved.installed name member, other_moved.installed name member, holds, other_holds]
  · have not_installed : ∀ name ∈ (locate platform outDir target).movedNames world.tree world.cwd,
        place ≠ outDir.place world.cwd ++ [name] ∧
          place ≠ (stagingOf outDir).place world.cwd ++ [name] := fun name member =>
      ⟨fun same => installed ⟨name, member, same⟩, not_staged name⟩
    rw [moved.others place not_installed, other_moved.others place not_installed]
    exact alike.outside place outside

/-- Nothing is in the place of a staged artifact, or a file that can be removed. -/
def Unobstructed (platform : Platform) (outDir : Path) (target : Target) (cwd : Location)
    (tree : FileTree) : Prop :=
  tree.entry? ((locate platform outDir target).stagingPath.place cwd) = none ∨
    IsName (target.fileName platform) ∧
      tree.isDirectory ((locate platform outDir target).stagingPath.place cwd) = false

theorem Unobstructed.congr {cwd : Location} {tree other : FileTree}
    (free : Unobstructed platform outDir target cwd tree)
    (same : other.entry? ((locate platform outDir target).stagingPath.place cwd) =
      tree.entry? ((locate platform outDir target).stagingPath.place cwd)) :
    Unobstructed platform outDir target cwd other := by
  rw [Unobstructed, same, FileTree.isDirectory_congr same]
  exact free

theorem Unobstructed.not_directory {cwd : Location} {tree : FileTree}
    (free : Unobstructed platform outDir target cwd tree) :
    tree.isDirectory ((locate platform outDir target).stagingPath.place cwd) = false := by
  rcases free with nothing | ⟨-, not_directory⟩
  · simp [FileTree.isDirectory, nothing]
  · exact not_directory

/-- Where nothing is staged, trees that agree along staging agree along the staged artifact. -/
theorem agreeAlong_stagingPath {cwd : Location} {tree other : FileTree}
    (plain : Path.isPlainName (target.fileName platform) = true)
    (agree : tree.AgreeAlong other cwd (stagingOf outDir))
    (same : tree.entry? ((locate platform outDir target).stagingPath.place cwd) =
      other.entry? ((locate platform outDir target).stagingPath.place cwd)) :
    tree.AgreeAlong other cwd (locate platform outDir target).stagingPath := by
  obtain ⟨relative, name, rest, segments_eq, is_name, trivials⟩ :=
    Path.segments_of_isPlainName plain
  have cut : (locate platform outDir target).stagingPath.segments =
      (stagingOf outDir).front ++ name :: rest := by
    rw [locate, Path.segments_join _ relative, segments_eq]
  have start : FileTree.origin cwd (locate platform outDir target).stagingPath =
      FileTree.origin cwd (stagingOf outDir) := FileTree.origin_join relative
  have enters : ∀ more, more <+: rest →
      ((stagingOf outDir).front ++ name :: more).foldl Path.enter
        (FileTree.origin cwd (stagingOf outDir)) =
      (locate platform outDir target).stagingPath.place cwd := by
    have through : ∀ more : List String, (∀ segment ∈ more, Path.isTrivial segment = true) →
        ((stagingOf outDir).front ++ name :: more).foldl Path.enter
          (FileTree.origin cwd (stagingOf outDir)) =
        ((stagingOf outDir).front ++ [name]).foldl Path.enter
          (FileTree.origin cwd (stagingOf outDir)) := by
      intro more more_trivial
      rw [List.foldl_append, List.foldl_append, List.foldl_cons,
        Path.foldl_enter_of_isTrivial more_trivial]
      rfl
    intro more begins
    rw [through more fun segment member => trivials segment (begins.subset member), Path.place,
      start, cut, through rest trivials]
  rintro place ⟨front, begins, rfl⟩
  rw [start]
  rw [cut] at begins
  rcases List.prefix_or_prefix_of_prefix begins (List.prefix_append _ _) with inside | outside
  · exact agree _ ⟨front, inside.trans (Path.front_begins _), rfl⟩
  · obtain ⟨more, rfl⟩ := outside
    rw [List.prefix_append_right_inj] at begins
    cases more with
    | nil =>
        rw [List.append_nil]
        exact agree _ ⟨_, Path.front_begins _, rfl⟩
    | cons first more =>
        obtain ⟨rfl, more_begins⟩ := List.cons_prefix_cons.mp begins
        rw [enters more more_begins]
        exact same

/-- The removal of a staged artifact is refused for the same reasons. -/
theorem refuseAlike_stagingPath {cwd : Location} {tree other : FileTree}
    (plain : Path.isPlainName (target.fileName platform) = true)
    (agree : tree.AgreeAlong other cwd (stagingOf outDir))
    (free : Unobstructed platform outDir target cwd tree)
    (other_free : Unobstructed platform outDir target cwd other) :
    tree.RefuseAlike other cwd (locate platform outDir target).stagingPath := by
  by_cases is_name : IsName (target.fileName platform)
  · have not_directory := free.not_directory
    have other_not_directory := other_free.not_directory
    rw [locate, Path.place_join_name _ is_name] at not_directory other_not_directory
    exact agree.refuseAlike_join is_name not_directory other_not_directory
  · have nothing : ∀ tree, Unobstructed platform outDir target cwd tree →
        tree.entry? ((locate platform outDir target).stagingPath.place cwd) = none := by
      intro tree free
      rcases free with nothing | ⟨file_name, -⟩
      · exact nothing
      · exact absurd file_name is_name
    apply (agreeAlong_stagingPath plain agree _).refuseAlike
    rw [nothing tree free, nothing other other_free]

end StagedArtifact

namespace World

variable {world other : World} {path : Path}

theorem removeFileIfExists_error_iff {error : IoError} :
    (world.removeFileIfExists path).1 = .error error ↔
      error.kind ≠ .notFound ∧ world.tree.removeFile world.cwd path = .error error := by
  rw [removeFileIfExists]
  split
  · rename_i removed
    simp [removed]
  · rename_i failure refused
    rw [refused]
    split
    · rename_i missing
      simp only [reduceCtorEq, false_iff, not_and]
      rintro serious same
      obtain rfl := Except.error.inj same
      exact serious (by simpa using missing)
    · rename_i serious
      constructor
      · intro same
        obtain rfl := Except.error.inj same
        exact ⟨by simpa using serious, rfl⟩
      · rintro ⟨-, same⟩
        rw [Except.error.inj same]

/-- A directory is created with the same result in worlds that agree along its path. -/
theorem ensureDirectory_congr {middle otherMiddle : World} {result otherResult : Except IoError Unit}
    (same_cwd : other.cwd = world.cwd) (agree : world.tree.AgreeAlong other.tree world.cwd path)
    (made : world.ensureDirectory path = (result, middle))
    (other_made : other.ensureDirectory path = (otherResult, otherMiddle)) :
    otherResult = result ∧ world.tree.KeepsAgreement other.tree middle.tree otherMiddle.tree := by
  obtain ⟨same, kept⟩ := agree.ensureDirectory
  rw [ensureDirectory] at made other_made
  rw [same_cwd] at other_made
  generalize world.tree.ensureDirectory world.cwd path = outcome at made same kept
  generalize other.tree.ensureDirectory world.cwd path = other_outcome at other_made same kept
  obtain ⟨tree, changes, result⟩ := outcome
  obtain ⟨other_tree, other_changes, other_result⟩ := other_outcome
  obtain ⟨rfl, rfl⟩ := Prod.mk.inj same
  obtain ⟨rfl, rfl⟩ := Prod.mk.inj made
  obtain ⟨rfl, rfl⟩ := Prod.mk.inj other_made
  exact ⟨rfl, kept⟩

end World

namespace StagedArtifact

variable {platform : Platform} {outDir : Path} {target : Target} {world other : World}

/-- What is in the place of the staged artifact is not changed by creating its directory. -/
theorem entry?_ensureDirectory_stagingPath {middle : World} {result : Except IoError Unit}
    (plain : Path.isPlainName (target.fileName platform) = true)
    (stays : StaysOut outDir world.cwd)
    (made : world.ensureDirectory (stagingOf outDir) = (result, middle)) :
    middle.tree.entry? ((locate platform outDir target).stagingPath.place world.cwd) =
      world.tree.entry? ((locate platform outDir target).stagingPath.place world.cwd) := by
  obtain ⟨-, grows, -⟩ :=
    World.ensureDirectory_spec (Path.text_join_name_ne_empty _ isName_stagingName) made
  have below := (@isBelow_stagingPath platform outDir target plain world.cwd).2
  rcases grows ((locate platform outDir target).stagingPath.place world.cwd) with
    kept | ⟨created, -⟩
  · exact kept
  · exact absurd below (stays _ (leadsThrough_of_mem_chain created))

/-- The stale artifact is removed with the same result when it is refused alike. -/
theorem removeFileIfExists_stagingPath_congr {directory : Path}
    {result otherResult : Except IoError Bool} {after otherAfter : World} {path : Path}
    (below : IsBelow (directory.place world.cwd) (path.place world.cwd))
    (same_cwd : other.cwd = world.cwd)
    (outside : SameOutside (directory.place world.cwd) world.tree other.tree)
    (refuse : world.tree.RefuseAlike other.tree world.cwd path)
    (removed : world.removeFileIfExists path = (result, after))
    (other_removed : other.removeFileIfExists path = (otherResult, otherAfter)) :
    (∀ error, otherResult = .error error ↔ result = .error error) ∧
      SameOutside (directory.place world.cwd) after.tree otherAfter.tree := by
  constructor
  · intro error
    have refused := @World.removeFileIfExists_error_iff world path error
    have other_refused := @World.removeFileIfExists_error_iff other path error
    rw [removed] at refused
    rw [other_removed, same_cwd] at other_refused
    rw [other_refused, refused]
    exact and_congr_right fun serious => refuse error serious
  · have kept := World.sameOutside_removeFileIfExists removed below
    have other_kept : SameOutside (directory.place world.cwd) other.tree otherAfter.tree := by
      apply World.sameOutside_removeFileIfExists other_removed
      rw [same_cwd]
      exact below
    intro place out
    rw [kept place out, other_kept place out, outside place out]

/-- Preparing in an absolute output directory. -/
def prepareIn (platform : Platform) (outDir : Path) (target : Target) (world : World) :
    Except BuildError StagedArtifact × World :=
  match world.ensureDirectory (stagingOf outDir) with
  | (.error error, world) =>
      (.error (.io ("failed to create directory `" ++ (stagingOf outDir).text ++ "`") error), world)
  | (.ok (), world) =>
      match world.removeFileIfExists (locate platform outDir target).stagingPath with
      | (.error error, world) =>
          (.error (.io ("failed to remove stale staged artifact `"
            ++ (locate platform outDir target).stagingPath.text ++ "`") error), world)
      | (.ok _, world) => (.ok (locate platform outDir target), world)

theorem prepareIn_congr {result otherResult : Except BuildError StagedArtifact}
    {after otherAfter : World} (plain : Path.isPlainName (target.fileName platform) = true)
    (same_cwd : other.cwd = world.cwd) (stays : StaysOut outDir world.cwd)
    (outside : SameOutside ((stagingOf outDir).place world.cwd) world.tree other.tree)
    (free : Unobstructed platform outDir target world.cwd world.tree)
    (other_free : Unobstructed platform outDir target world.cwd other.tree)
    (prepared : prepareIn platform outDir target world = (result, after))
    (other_prepared : prepareIn platform outDir target other = (otherResult, otherAfter)) :
    otherResult = result ∧
      SameOutside ((stagingOf outDir).place world.cwd) after.tree otherAfter.tree := by
  have agree : world.tree.AgreeAlong other.tree world.cwd (stagingOf outDir) :=
    fun place leads => (outside place (stays place leads)).symm
  rw [prepareIn] at prepared other_prepared
  rcases made : world.ensureDirectory (stagingOf outDir) with ⟨created, middle⟩
  rcases other_made : other.ensureDirectory (stagingOf outDir) with ⟨other_created, other_middle⟩
  rw [made] at prepared
  rw [other_made] at other_prepared
  obtain ⟨rfl, kept⟩ := World.ensureDirectory_congr same_cwd agree made other_made
  have middle_outside : SameOutside ((stagingOf outDir).place world.cwd)
      middle.tree other_middle.tree :=
    fun place out => (kept place (outside place out).symm).symm
  cases other_created with
  | error error =>
      obtain ⟨rfl, rfl⟩ := Prod.mk.inj prepared
      obtain ⟨rfl, rfl⟩ := Prod.mk.inj other_prepared
      exact ⟨rfl, middle_outside⟩
  | ok done =>
      have middle_cwd := (World.chores_ensureDirectory world (stagingOf outDir)).recorded.1
      have other_cwd := (World.chores_ensureDirectory other (stagingOf outDir)).recorded.1
      rw [made] at middle_cwd
      rw [other_made, same_cwd] at other_cwd
      have middle_free := free.congr (entry?_ensureDirectory_stagingPath plain stays made)
      rw [← same_cwd] at stays other_free
      have other_middle_free :=
        other_free.congr (entry?_ensureDirectory_stagingPath plain stays other_made)
      rw [same_cwd] at other_middle_free
      have refuse :=
        refuseAlike_stagingPath plain (kept.along agree) middle_free other_middle_free
      have below := (@isBelow_stagingPath platform outDir target plain world.cwd).2
      rw [← middle_cwd] at refuse below middle_outside ⊢
      rcases removed : middle.removeFileIfExists (locate platform outDir target).stagingPath with
        ⟨found, last⟩
      rcases other_removed : other_middle.removeFileIfExists
        (locate platform outDir target).stagingPath with ⟨other_found, other_last⟩
      obtain ⟨same_error, last_outside⟩ := removeFileIfExists_stagingPath_congr below
        (other_cwd.trans middle_cwd.symm) middle_outside refuse removed other_removed
      simp only [removed] at prepared
      simp only [other_removed] at other_prepared
      cases found with
      | error failure =>
          obtain rfl := (same_error failure).mpr rfl
          obtain ⟨rfl, rfl⟩ := Prod.mk.inj prepared
          obtain ⟨rfl, rfl⟩ := Prod.mk.inj other_prepared
          exact ⟨rfl, last_outside⟩
      | ok existed =>
          cases other_found with
          | error failure => exact absurd ((same_error failure).mp rfl) (by simp)
          | ok other_existed =>
              obtain ⟨rfl, rfl⟩ := Prod.mk.inj prepared
              obtain ⟨rfl, rfl⟩ := Prod.mk.inj other_prepared
              exact ⟨rfl, last_outside⟩

/-- Worlds that differ in staging alone, and not in what obstructs the artifact, prepare alike. -/
theorem prepare_congr {result otherResult : Except BuildError StagedArtifact}
    {after otherAfter : World} (same_cwd : other.cwd = world.cwd)
    (stays : StaysOut (world.resolve outDir) world.cwd)
    (outside : SameOutside ((stagingOf (world.resolve outDir)).place world.cwd) world.tree other.tree)
    (free : Unobstructed platform (world.resolve outDir) target world.cwd world.tree)
    (other_free : Unobstructed platform (world.resolve outDir) target world.cwd other.tree)
    (prepared : prepare platform outDir target world = (result, after))
    (other_prepared : prepare platform outDir target other = (otherResult, otherAfter)) :
    otherResult = result ∧
      SameOutside ((stagingOf (world.resolve outDir)).place world.cwd) after.tree otherAfter.tree := by
  have same_path : other.cwdPath = world.cwdPath := by rw [World.cwdPath, World.cwdPath, same_cwd]
  rw [prepare] at prepared other_prepared
  simp only [same_path] at prepared other_prepared
  split at prepared
  · rename_i refused
    rw [if_pos refused] at other_prepared
    obtain ⟨rfl, rfl⟩ := Prod.mk.inj prepared
    obtain ⟨rfl, rfl⟩ := Prod.mk.inj other_prepared
    exact ⟨rfl, outside⟩
  · rename_i not_refused
    rw [if_neg not_refused] at other_prepared
    have plain : Path.isPlainName (target.fileName platform) = true := by simpa using not_refused
    cases absolute_eq : Path.absoluteFrom world.cwdPath outDir with
    | error error =>
        rw [absolute_eq] at prepared other_prepared
        obtain ⟨rfl, rfl⟩ := Prod.mk.inj prepared
        obtain ⟨rfl, rfl⟩ := Prod.mk.inj other_prepared
        exact ⟨rfl, outside⟩
    | ok absolute =>
        have resolved : world.resolve outDir = absolute := by rw [World.resolve, absolute_eq]
        rw [resolved] at stays outside free other_free ⊢
        rw [absolute_eq] at prepared other_prepared
        exact prepareIn_congr plain same_cwd stays outside free other_free prepared other_prepared

end StagedArtifact
end StagedBuild
