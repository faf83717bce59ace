import StagedBuild.Proofs.Build.Staging
import StagedBuild.Proofs.FileTree.Way

/-!
# Files in the current directory

A file in the current directory is found by its absolute path exactly when the system reads that
path.  The path may be refused although every name in it is short enough, so there are files that a
process cannot find where it is.
-/

namespace StagedBuild

open StagedBuild.Path (IsName)
open FileTree (admissible)

namespace FileTree

/-- The tree with directories at some places. -/
def withDirectories (tree : FileTree) (places : List Location) : FileTree :=
  places.foldl (fun (tree : FileTree) place => tree.insert place .directory) tree

theorem isDirectory_withDirectories (tree : FileTree) (places : List Location) (place : Location) :
    (tree.withDirectories places).isDirectory place = true ↔
      place ∈ places ∨ tree.isDirectory place = true := by
  induction places generalizing tree with
  | nil => simp [withDirectories]
  | cons first places induction =>
      have rest := induction (tree.insert first .directory)
      rw [withDirectories] at rest ⊢
      rw [List.foldl_cons, rest, isDirectory_iff, isDirectory_iff,
        entry?_insert, List.mem_cons]
      by_cases same : place = first
      · by_cases root : first = [] <;> simp [same, root]
      · simp [same]

end FileTree

namespace World

/-- A process can be in the current directory: it can be named, and there are directories all the
way to it. -/
structure IsPlaced (world : World) : Prop where
  names : ∀ name ∈ world.cwd, IsName name
  short : ∀ name ∈ world.cwd, Utf8.size name ≤ FileTree.nameLimit
  directories : ∀ place, place <+: world.cwd → world.tree.isDirectory place = true

variable {world : World} {name : String} {path absolute : Path}

theorem segments_cwdPath {last : String} {above : List String} (below : world.cwd = above ++ [last])
    (names : ∀ name ∈ world.cwd, IsName name) : world.cwdPath.segments = "" :: above ++ [last] := by
  have seam := Path.segments_append_separator "" (String.intercalate "/" world.cwd)
  rw [String.empty_append, Path.segments_empty, Path.segments_intercalate (by simp [below])
    fun name member => (names name member).1] at seam
  rw [World.cwdPath, seam, below]
  rfl

theorem front_cwdPath (names : ∀ name ∈ world.cwd, IsName name) :
    world.cwdPath.front = "" :: world.cwd := by
  rcases List.eq_nil_or_concat world.cwd with at_root | ⟨above, last, below⟩
  · have root : world.cwdPath = ⟨"/"⟩ := by simp [cwdPath, at_root]
    rw [root, at_root]
    decide
  · rw [List.concat_eq_append] at below
    have last_name : IsName last := names last (by simp [below])
    have cut := segments_cwdPath below names
    rw [Path.front_of_nonblank cut last_name.ne_empty, cut, below]
    rfl

theorem size_cwdPath (below_root : world.cwd ≠ []) :
    Utf8.size world.cwdPath.text = (world.cwd.map Utf8.size).sum + world.cwd.length := by
  have positive := List.length_pos_iff.mpr below_root
  have one : Utf8.size "/" = 1 := by decide
  rw [cwdPath, Utf8.size_append, Path.size_intercalate, one]
  omega

theorem size_join_cwdPath (names : ∀ name ∈ world.cwd, IsName name) (is_name : IsName name) :
    Utf8.size (world.cwdPath.join name).text =
      (world.cwd.map Utf8.size).sum + world.cwd.length + 1 + Utf8.size name := by
  have none : Utf8.size "" = 0 := by decide
  rw [Path.size_join_name _ is_name, front_cwdPath names, List.map_cons, List.sum_cons,
    List.length_cons, none]
  omega

/-- The system takes the path of the current directory when it is short enough. -/
theorem admissible_cwdPath {last : String} {above : List String}
    (below : world.cwd = above ++ [last]) (names : ∀ name ∈ world.cwd, IsName name)
    (nul_free : ∀ name ∈ world.cwd, Char.ofNat 0 ∉ name.toList)
    (short : (world.cwd.map Utf8.size).sum + world.cwd.length < FileTree.pathLimit) :
    admissible world.cwdPath = .ok () := by
  have below_root : world.cwd ≠ [] := by simp [below]
  refine Path.admissible_eq_ok_iff.mpr ⟨?_, by simp [cwdPath], by rwa [size_cwdPath below_root]⟩
  rw [Path.mem_text_iff (by decide), segments_cwdPath below names, List.cons_append, ← below]
  rintro ⟨segment, member, nul⟩
  rcases List.mem_cons.mp member with rfl | member
  · simp at nul
  · exact nul_free segment member nul

/-- The path of a directory in the current one is the one that a process has there. -/
theorem join_cwdPath {inner : World} {last : String} (below : inner.cwd = world.cwd ++ [last])
    (names : ∀ name ∈ inner.cwd, IsName name) : world.cwdPath.join last = inner.cwdPath := by
  have last_name : IsName last := names last (by simp [below])
  have outer_names : ∀ name ∈ world.cwd, IsName name := fun name member =>
    names name (below ▸ List.mem_append_left _ member)
  apply Path.eq_of_segments
  rw [Path.segments_join_name _ last_name, front_cwdPath outer_names,
    segments_cwdPath below names]

namespace IsPlaced

variable (placed : world.IsPlaced)

include placed

theorem place_cwdPath : world.cwdPath.place world.cwd = world.cwd := by
  rw [Path.place_of_isAbsolute world.isAbsolute_cwdPath, (World.place_cwdPath placed.names).2]

theorem walk_cwd : world.tree.walk [] world.cwd = .ok world.cwd := by
  have steps : ∀ front, front <+: world.cwd → front.foldl Path.enter [] = front :=
    fun front begins => Path.foldl_enter_names
      (fun name member => placed.names name (begins.subset member)) []
  have directories : ∀ front, front <+: world.cwd →
      world.tree.isDirectory (front.foldl Path.enter []) = true := by
    intro front begins
    rw [steps front begins]
    exact placed.directories front begins
  have walked := FileTree.walk_eq_ok placed.short directories
  rwa [steps world.cwd List.prefix_rfl] at walked

theorem opens_cwdPath : world.tree.Opens world.cwd world.cwdPath := by
  have here := placed.directories world.cwd List.prefix_rfl
  refine (FileTree.opens_of_front ?_ here).2
  rw [FileTree.origin, if_pos world.isAbsolute_cwdPath, front_cwdPath placed.names]
  refine FileTree.walk_cons_eq_ok_iff.mpr
    ⟨[], FileTree.step_trivial ?_ (by decide), placed.walk_cwd⟩
  exact placed.directories [] List.nil_prefix

/-- A file in the current directory is found exactly when its path is read. -/
theorem isFileAt_join_iff (is_name : IsName name) (short : Utf8.size name ≤ FileTree.nameLimit) :
    world.tree.isFileAt world.cwd (world.cwdPath.join name) = true ↔
      admissible (world.cwdPath.join name) = .ok () ∧
        ∃ file, world.tree.file? (world.cwd ++ [name]) = some file := by
  rw [FileTree.isFileAt_join_name_iff is_name, placed.place_cwdPath]
  exact and_congr_right fun _ => by simp [placed.opens_cwdPath, short]

theorem locate_join (is_name : IsName name) (short : Utf8.size name ≤ FileTree.nameLimit)
    (read : admissible (world.cwdPath.join name) = .ok ()) {file : File}
    (holds : world.tree.file? (world.cwd ++ [name]) = some file) :
    world.tree.locate world.cwd (world.cwdPath.join name) = .ok (world.cwd ++ [name]) := by
  have found := (placed.isFileAt_join_iff is_name short).mpr ⟨read, file, holds⟩
  have located := (FileTree.isFileAt_iff.mp found).1
  rwa [Path.place_join_name _ is_name, placed.place_cwdPath] at located

end IsPlaced

/-- A process in a directory that holds one file. -/
def inside (place : Location) (name : String) (content : Bytes) : World where
  tree := (FileTree.empty.withDirectories ((List.range place.length).map fun count =>
    place.take (count + 1))).insert (place ++ [name]) (.file ⟨content, false⟩)
  cwd := place

theorem file?_inside (place : Location) (name : String) (content : Bytes) :
    (inside place name content).tree.file? (place ++ [name]) = some ⟨content, false⟩ := by
  rw [FileTree.file?_eq_some_iff, inside, FileTree.entry?_insert]
  simp

theorem isPlaced_inside {place : Location} (names : ∀ name ∈ place, IsName name)
    (short : ∀ name ∈ place, Utf8.size name ≤ FileTree.nameLimit) (name : String)
    (content : Bytes) : (inside place name content).IsPlaced where
  names := names
  short := short
  directories above begins := by
    have other : above ≠ place ++ [name] := by
      rintro rfl
      have lengths := begins.length_le
      simp [inside] at lengths
    rw [FileTree.isDirectory_iff, inside, FileTree.entry?_insert, if_neg fun here => other here.1,
      ← FileTree.isDirectory_iff, FileTree.isDirectory_withDirectories]
    cases above with
    | nil => exact .inr rfl
    | cons first rest =>
        refine .inl (List.mem_map.mpr ⟨rest.length, ?_, (List.prefix_iff_eq_take.mp begins).symm⟩)
        have lengths := begins.length_le
        simp only [inside, List.length_cons] at lengths
        exact List.mem_range.mpr lengths

/-- A name of the given length. -/
def longName (length : Nat) : String :=
  String.ofList (List.replicate length 'd')

theorem size_longName (length : Nat) : Utf8.size (longName length) = length := by
  have one : Char.utf8Size 'd' = 1 := by decide
  simp [Utf8.size, Utf8.encode, longName, List.length_flatMap, one]

theorem isName_longName {length : Nat} (positive : 0 < length) : IsName (longName length) := by
  have other : ∀ text : String, 'd' ∉ text.toList → longName length ≠ text := by
    rintro text absent rfl
    exact absent (by simpa [longName] using positive.ne')
  refine ⟨by simp [longName], ?_, other ".." (by decide)⟩
  rw [← Bool.not_eq_true, Path.isTrivial_iff, not_or]
  exact ⟨other "" (by decide), other "." (by decide)⟩

/-- A place sixteen names below the root, with the longest names that there are but for the last. -/
def deep (last : Nat) : Location :=
  List.replicate 15 (longName 255) ++ [longName last]

theorem mem_deep {last : Nat} (positive : 0 < last) (short : last ≤ 255) {name : String}
    (member : name ∈ deep last) : IsName name ∧ Utf8.size name ≤ FileTree.nameLimit := by
  rcases List.mem_append.mp member with above | below
  · rw [List.eq_of_mem_replicate above, size_longName]
    exact ⟨isName_longName (by decide), by decide⟩
  · rw [List.mem_singleton.mp below, size_longName]
    exact ⟨isName_longName positive, short⟩

theorem nul_free_of_mem_deep {last : Nat} {name : String} (member : name ∈ deep last) :
    Char.ofNat 0 ∉ name.toList := by
  have long : ∃ length, name = longName length := by
    rcases List.mem_append.mp member with above | below
    · exact ⟨_, List.eq_of_mem_replicate above⟩
    · exact ⟨_, List.mem_singleton.mp below⟩
  obtain ⟨length, rfl⟩ := long
  rw [longName, String.toList_ofList, List.mem_replicate]
  exact fun nul => absurd nul.2 (by decide)

theorem size_deep (last : Nat) : ((deep last).map Utf8.size).sum = 3825 + last := by
  rw [deep, List.map_append, List.map_replicate, List.map_singleton, List.sum_append,
    List.sum_replicate, size_longName, size_longName]
  simp

theorem length_deep (last : Nat) : (deep last).length = 16 := by
  simp [deep]

end World
end StagedBuild
