import Mathlib.Logic.Relation
import StagedBuild.Proofs.Build.Staging
import StagedBuild.Proofs.FileTree.Journal

/-!
# What the program does by itself

Between the runs of tools the program changes files one after the other, records every change, and
remarks on it in log messages and status lines.  Preparing, committing and discarding an artifact
are sequences of such chores, whatever becomes of them, and each of them names the changes that it
may make.
-/

namespace StagedBuild

/-- The event is a log message or a status line. -/
def Event.isRemark : Event → Bool
  | .log _ _ | .status _ => true
  | _ => false

namespace World

/-- One thing that the program does by itself: a remark, or an allowed change that it records. -/
inductive Chore (allowed : Change → Prop) : World → World → Prop
  | remark {world : World} {event : Event} (quiet : event.isRemark = true) :
      Chore allowed world (world.emit [event])
  | change {world : World} {tree : FileTree} {change : Change} (is_allowed : allowed change)
      (makes : change.Makes world.tree tree) : Chore allowed world (world.change tree [change])

/-- Things that the program does by itself, one after the other. -/
def Chores (allowed : Change → Prop) : World → World → Prop :=
  Relation.ReflTransGen (Chore allowed)

variable {allowed more : Change → Prop} {world middle after : World} {path : Path}

theorem Chores.refl : Chores allowed world world :=
  Relation.ReflTransGen.refl

theorem Chores.trans (first : Chores allowed world middle) (second : Chores allowed middle after) :
    Chores allowed world after :=
  Relation.ReflTransGen.trans first second

theorem Chores.mono (chores : Chores allowed world after)
    (weaker : ∀ change, allowed change → more change) : Chores more world after := by
  have each : Chore allowed ≤ Chore more := by
    intro before next chore
    cases chore with
    | remark quiet => exact .remark quiet
    | change is_allowed makes => exact .change (weaker _ is_allowed) makes
  exact Relation.ReflTransGen.mono each _ _ chores

theorem chores_remark {event : Event} (quiet : event.isRemark = true) :
    Chores allowed world (world.emit [event]) :=
  Relation.ReflTransGen.single (.remark quiet)

/-- Changes that are recorded together are made one after the other. -/
theorem chores_change {changes : List Change} {tree : FileTree}
    (journal : FileTree.Journal changes world.tree tree)
    (all_allowed : ∀ change ∈ changes, allowed change) :
    Chores allowed world (world.change tree changes) := by
  generalize before : world.tree = start at journal
  induction journal generalizing world with
  | nil =>
      have unchanged : world.change world.tree [] = world := by simp [World.change]
      rw [← before, unchanged]
      exact Chores.refl
  | @cons change changes start middle tree makes rest induction =>
      rw [List.forall_mem_cons] at all_allowed
      have first : Chore allowed world (world.change middle [change]) :=
        .change all_allowed.1 (before ▸ makes)
      have one_by_one : (world.change middle [change]).change tree changes =
          world.change tree (change :: changes) := by
        simp [World.change]
      apply Relation.ReflTransGen.head first
      rw [← one_by_one]
      exact induction all_allowed.2 rfl

/-- Chores stay in the current directory, and record nothing but remarks and allowed changes. -/
theorem Chores.recorded (chores : Chores allowed world after) :
    after.cwd = world.cwd ∧ ∃ events, after.trace = world.trace ++ events ∧
      ∀ event ∈ events,
        event.isRemark = true ∨ ∃ change, allowed change ∧ event = .changed change := by
  induction chores with
  | refl => exact ⟨rfl, [], by simp⟩
  | tail _ chore induction =>
      obtain ⟨same_cwd, events, trace_eq, recorded⟩ := induction
      cases chore with
      | @remark event quiet =>
          refine ⟨same_cwd, events ++ [event], by simp [emit, trace_eq], ?_⟩
          intro other member
          rcases List.mem_append.mp member with earlier | last
          · exact recorded other earlier
          · exact Or.inl (List.mem_singleton.mp last ▸ quiet)
      | @change tree change is_allowed makes =>
          refine ⟨same_cwd, events ++ [.changed change], by simp [World.change, trace_eq], ?_⟩
          intro other member
          rcases List.mem_append.mp member with earlier | last
          · exact recorded other earlier
          · exact Or.inr ⟨change, is_allowed, List.mem_singleton.mp last⟩

/-- Moving files makes no directory and takes none away. -/
theorem Chores.isDirectory_of_moves (chores : Chores allowed world after)
    (moves : ∀ change, allowed change →
      ∃ source destination, change = .movedFile source destination) (place : Location) :
    after.tree.isDirectory place = world.tree.isDirectory place := by
  induction chores with
  | refl => rfl
  | tail _ chore induction =>
      rw [← induction]
      cases chore with
      | remark quiet => rfl
      | change is_allowed makes =>
          obtain ⟨source, destination, rfl⟩ := moves _ is_allowed
          exact makes.isDirectory_of_moved place

theorem chores_ensureDirectory (world : World) (path : Path) :
    Chores (fun change => ∃ place, path.LeadsThrough world.cwd place ∧
      change = .createdDirectory place) world (world.ensureDirectory path).2 := by
  obtain ⟨journal, named⟩ := FileTree.ensureDirectory_journal
    (Prod.ext rfl (Prod.ext rfl rfl) : world.tree.ensureDirectory world.cwd path = _)
  exact chores_change journal named

theorem chores_removeFileIfExists (world : World) (path : Path) :
    Chores (· = .removedFile (path.place world.cwd)) world (world.removeFileIfExists path).2 := by
  rw [removeFileIfExists]
  split
  · rename_i removed
    obtain ⟨rfl, makes⟩ := FileTree.removeFile_journal removed
    exact chores_change (.single makes) (by simp)
  · split <;> exact Chores.refl

theorem chores_removeDirectoryIfExists (world : World) (path : Path) :
    Chores (FileTree.ClearsAt (path.place world.cwd)) world
      (world.removeDirectoryIfExists path).2 := by
  rw [removeDirectoryIfExists]
  split
  · rename_i removed
    obtain ⟨journal, named⟩ := FileTree.removeDirectory_journal removed
    exact chores_change journal named
  · rename_i removed
    obtain ⟨journal, named⟩ := FileTree.removeDirectory_journal removed
    split <;> exact chores_change journal named

theorem chores_moveFile (world : World) (source destination : Path) :
    Chores (· = .movedFile (source.place world.cwd) (destination.place world.cwd)) world
      (world.moveFile source destination).2 := by
  rw [moveFile]
  split
  · rename_i moved
    obtain ⟨rfl, rfl, makes⟩ := FileTree.moveFile_journal moved
    exact chores_change (.single makes) (by simp)
  · exact Chores.refl

end World

namespace StagedArtifact

open World (Chores)

variable {platform : Platform} {outDir : Path} {target : Target}

/-- The change that preparing an artifact may make. -/
def Prepares (artifact : StagedArtifact) (staging : Path) (cwd : Location) (change : Change) :
    Prop :=
  (∃ place, staging.LeadsThrough cwd place ∧ change = .createdDirectory place) ∨
    change = .removedFile (artifact.stagingPath.place cwd)

theorem chores_prepare (platform : Platform) (outDir : Path) (target : Target) (world : World) :
    Chores ((locate platform (world.resolve outDir) target).Prepares
        (stagingOf (world.resolve outDir)) world.cwd) world
      (prepare platform outDir target world).2 := by
  rw [prepare]
  simp only
  split
  · exact Chores.refl
  · split
    · exact Chores.refl
    · rename_i absolute absolute_eq
      have resolved : world.resolve outDir = absolute := by rw [World.resolve, absolute_eq]
      rw [resolved]
      have created := world.chores_ensureDirectory (stagingOf absolute)
      split
      · rename_i made
        rw [made] at created
        exact created.mono fun _ on_the_way => Or.inl on_the_way
      · rename_i middle made
        rw [made] at created
        have removed :=
          middle.chores_removeFileIfExists (locate platform absolute target).stagingPath
        rw [created.recorded.1] at removed
        have both := (created.mono fun _ on_the_way => Or.inl on_the_way).trans
          (removed.mono fun _ staged => Or.inr staged)
        split <;>
        · rename_i removed_eq
          rw [removed_eq] at both
          exact both

/-- The change that moving one of some files into place may make. -/
def Promotes (artifact : StagedArtifact) (staged : List Path) (cwd : Location) (change : Change) :
    Prop :=
  ∃ path ∈ staged, ∃ name, path.fileName? = some name ∧
    change = .movedFile (path.place cwd) ((artifact.outDir.join name).place cwd)

theorem chores_promote (artifact : StagedArtifact) (staged : Path) (world : World) :
    Chores (artifact.Promotes [staged] world.cwd) world (artifact.promote staged world).2 := by
  rw [promote]
  split
  · exact Chores.refl
  · rename_i name named
    have moved := (world.chores_moveFile staged (artifact.outDir.join name)).mono fun _ move =>
      (⟨staged, List.mem_singleton.mpr rfl, name, named, move⟩ :
        artifact.Promotes [staged] world.cwd _)
    simp only
    split <;>
    · rename_i moved_eq
      rw [moved_eq] at moved
      exact moved

theorem chores_promoteAll (artifact : StagedArtifact) (staged : List Path) (world : World) :
    Chores (artifact.Promotes staged world.cwd) world (artifact.promoteAll staged world).2 := by
  induction staged generalizing world with
  | nil => exact Chores.refl
  | cons path rest induction =>
      have first : Chores (artifact.Promotes (path :: rest) world.cwd) world
          (artifact.promote path world).2 := by
        apply (artifact.chores_promote path world).mono
        rintro change ⟨moved, member, named⟩
        exact ⟨moved, List.mem_cons.mpr (Or.inl (List.mem_singleton.mp member)), named⟩
      rw [promoteAll]
      split
      · rename_i middle moved_eq
        rw [moved_eq] at first
        have later := induction middle
        rw [first.recorded.1] at later
        apply first.trans (later.mono _)
        rintro change ⟨moved, member, named⟩
        exact ⟨moved, List.mem_cons_of_mem path member, named⟩
      · rename_i moved_eq
        rw [moved_eq] at first
        exact first

/-- The staged files of an artifact: the companions that are listed, and the artifact. -/
def leftovers (artifact : StagedArtifact) (tree : FileTree) (cwd : Location) : List Path :=
  (artifact.companions tree cwd).toOption.getD [] ++ [artifact.stagingPath]

theorem chores_commit (artifact : StagedArtifact) (world : World) :
    Chores (artifact.Promotes (artifact.leftovers world.tree world.cwd) world.cwd) world
      (artifact.commit world).2 := by
  rw [commit]
  split
  · exact Chores.refl
  · split
    · exact Chores.refl
    · rename_i companions listed
      have moved := artifact.chores_promoteAll (companions ++ [artifact.stagingPath]) world
      rw [leftovers, listed]
      simp only [Except.toOption, Option.getD_some]
      split
      · rename_i moved_eq
        rw [moved_eq] at moved
        exact moved.trans (World.chores_remark rfl)
      · rename_i moved_eq
        rw [moved_eq] at moved
        exact moved

/-- The change that removing one of some files may make. -/
def Discards (leftovers : List Path) (cwd : Location) (change : Change) : Prop :=
  ∃ path ∈ leftovers, change = .removedFile (path.place cwd)

theorem chores_discardOne (world : World) (path : Path) :
    Chores (· = .removedFile (path.place world.cwd)) world (discardOne world path) := by
  have removed := world.chores_removeFileIfExists path
  rw [discardOne]
  split
  · rename_i removed_eq
    rw [removed_eq] at removed
    exact removed
  · rename_i removed_eq
    rw [removed_eq] at removed
    exact removed.trans (World.chores_remark rfl)

theorem chores_foldl_discardOne (paths : List Path) (world : World) :
    Chores (Discards paths world.cwd) world (paths.foldl discardOne world) := by
  induction paths generalizing world with
  | nil => exact Chores.refl
  | cons path paths induction =>
      have first := chores_discardOne world path
      have later := induction (discardOne world path)
      rw [first.recorded.1] at later
      rw [List.foldl_cons]
      apply (first.mono _).trans (later.mono _)
      · rintro change rfl
        exact ⟨path, List.mem_cons_self, rfl⟩
      · rintro change ⟨other, member, rfl⟩
        exact ⟨other, List.mem_cons_of_mem path member, rfl⟩

theorem chores_discard (artifact : StagedArtifact) (world : World) :
    Chores (Discards (artifact.leftovers world.tree world.cwd) world.cwd) world
      (artifact.discard world) :=
  chores_foldl_discardOne _ world

end StagedArtifact
end StagedBuild
