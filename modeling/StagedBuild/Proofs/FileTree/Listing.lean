import Mathlib.Data.List.Perm.Basic
import StagedBuild.Proofs.FileTree.Agreement

/-!
# Trees that differ in the order of their listings

Trees that hold the same everywhere may list a directory in different orders.  They answer every
look-up alike, a file is moved in both or in none of them, and they still hold the same afterwards.
-/

namespace StagedBuild
namespace FileTree

/-- The trees hold the same everywhere. -/
def SameView (tree other : FileTree) : Prop :=
  ∀ place, tree.entry? place = other.entry? place

/-- Both moves are refused for the same reason, or leave trees that hold the same. -/
def MovedAlike (moved otherMoved : Except IoError (FileTree × Location × Location)) : Prop :=
  (∃ error, moved = .error error ∧ otherMoved = .error error) ∨
    ∃ after otherAfter places, moved = .ok (after, places) ∧ otherMoved = .ok (otherAfter, places) ∧
      after.SameView otherAfter

theorem MovedAlike.refused (error : IoError) : MovedAlike (.error error) (.error error) :=
  .inl ⟨error, rfl, rfl⟩

theorem MovedAlike.bind {α : Type} (found : Except IoError α)
    {next otherNext : α → Except IoError (FileTree × Location × Location)}
    (alike : ∀ value, MovedAlike (next value) (otherNext value)) :
    MovedAlike (found >>= next) (found >>= otherNext) := by
  cases found with
  | error error => exact .refused error
  | ok value => exact alike value

variable {tree other : FileTree} (same : tree.SameView other) (cwd : Location) (path : Path)

include same

theorem SameView.along : tree.AgreeAlong other cwd path :=
  fun place _ => same place

theorem SameView.isFileAt : tree.isFileAt cwd path = other.isFileAt cwd path := by
  have same_files (place : Location) : tree.file? place = other.file? place :=
    file?_congr (same place)
  simp only [FileTree.isFileAt, locate_congr (same.along cwd path), same_files]

/-- A directory lists the same names, perhaps in another order. -/
theorem SameView.names_perm (place : Location) : (tree.names place).Perm (other.names place) := by
  rw [List.perm_ext_iff_of_nodup (tree.names_nodup place) (other.names_nodup place)]
  intro name
  rw [mem_names_iff, mem_names_iff, same]

/-- A directory is listed in both trees, or refused in both for the same reason. -/
theorem SameView.readDirectory :
    (∃ error, tree.readDirectory cwd path = .error error ∧
      other.readDirectory cwd path = .error error) ∨
    ∃ names otherNames, tree.readDirectory cwd path = .ok names ∧
      other.readDirectory cwd path = .ok otherNames ∧ names.Perm otherNames := by
  rw [FileTree.readDirectory, FileTree.readDirectory, locate_congr (same.along cwd path)]
  cases located : other.locate cwd path with
  | error error => exact .inl ⟨error, rfl, rfl⟩
  | ok place =>
      simp only [bind, Except.bind, isDirectory_congr (same place)]
      split
      · exact .inr ⟨_, _, rfl, rfl, same.names_perm place⟩
      · exact .inl ⟨_, rfl, rfl⟩

theorem SameView.move (sourcePlace targetPlace : Location) (entry : Entry) :
    ((tree.erase sourcePlace).insert targetPlace entry).SameView
      ((other.erase sourcePlace).insert targetPlace entry) := by
  intro place
  rw [entry?_insert, entry?_insert, entry?_erase, entry?_erase, same]

/-- A file is moved in both trees, or refused in both for the same reason. -/
theorem SameView.moveFile (source destination : Path) :
    MovedAlike (tree.moveFile cwd source destination) (other.moveFile cwd source destination) := by
  rw [FileTree.moveFile, FileTree.moveFile, (same.along cwd source).locateLast,
    (same.along cwd destination).locateLast]
  apply MovedAlike.bind
  rintro ⟨source_directory, source_last⟩
  apply MovedAlike.bind
  rintro ⟨target_directory, target_last⟩
  cases source_last with
  | root | current | above => exact .refused _
  | name source_name source_separated =>
      cases target_last with
      | root | current | above => exact .refused _
      | name target_name target_separated =>
          refine .bind _ fun source_place => ?_
          rw [same source_place]
          split
          · exact .refused _
          · exact .refused _
          · rename_i file holds
            refine .bind _ fun target_place => ?_
            rw [isDirectory_congr (same target_place)]
            split_ifs
            · exact .refused _
            · exact .refused _
            · exact .refused _
            · exact .inr ⟨_, _, _, rfl, rfl, same.move source_place target_place (.file file)⟩

end FileTree
end StagedBuild
