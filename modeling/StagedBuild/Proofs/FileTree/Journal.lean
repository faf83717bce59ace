import StagedBuild.Proofs.FileTree.Effect

/-!
# The changes that an operation records

Each operation on a tree records what it has done.  The record is complete: the recorded changes,
made one after the other to the tree before, give the tree after.  And it names no place that the
path of the operation does not lead to.
-/

namespace StagedBuild

/-- The change turns the first tree into the second one. -/
inductive Change.Makes : Change → FileTree → FileTree → Prop
  | createdDirectory {tree : FileTree} {place : Location} (missing : tree.entry? place = none) :
      Makes (.createdDirectory place) tree (tree.insert place .directory)
  | removedFile {tree : FileTree} {place : Location} {file : File}
      (present : tree.entry? place = some (.file file)) :
      Makes (.removedFile place) tree (tree.erase place)
  | movedFile {tree : FileTree} {source destination : Location} {file : File}
      (present : tree.entry? source = some (.file file))
      (free : tree.isDirectory destination = false) :
      Makes (.movedFile source destination) tree
        ((tree.erase source).insert destination (.file file))
  | removedDirectory {tree : FileTree} {place : Location}
      (present : tree.isDirectory place = true) :
      Makes (.removedDirectory place) tree (tree.eraseBelow place)
  | emptiedDirectory {tree : FileTree} {place : Location}
      (present : tree.isDirectory place = true) :
      Makes (.emptiedDirectory place) tree (tree.clear place)

/-- Moving a file makes no directory and takes none away. -/
theorem Change.Makes.isDirectory_of_moved {tree after : FileTree} {source destination : Location}
    (makes : (Change.movedFile source destination).Makes tree after) (place : Location) :
    after.isDirectory place = tree.isDirectory place := by
  cases makes with
  | movedFile present free =>
      rw [Bool.eq_iff_iff, FileTree.isDirectory_iff, FileTree.isDirectory_iff,
        FileTree.entry?_insert, FileTree.entry?_erase]
      split
      · rename_i at_destination
        rw [at_destination.1, ← FileTree.isDirectory_iff]
        simp [free]
      · split
        · rename_i at_source
          simp [at_source.1, present]
        · rfl

namespace FileTree

/-- The changes, one after the other, turn the first tree into the second one. -/
inductive Journal : List Change → FileTree → FileTree → Prop
  | nil {tree : FileTree} : Journal [] tree tree
  | cons {change : Change} {changes : List Change} {tree middle after : FileTree}
      (first : change.Makes tree middle) (rest : Journal changes middle after) :
      Journal (change :: changes) tree after

variable {tree middle after : FileTree} {cwd : Location} {path : Path} {changes more : List Change}

theorem Journal.single {change : Change} (makes : change.Makes tree after) :
    Journal [change] tree after :=
  .cons makes .nil

theorem Journal.append (first : Journal changes tree middle) (second : Journal more middle after) :
    Journal (changes ++ more) tree after := by
  induction first with
  | nil => exact second
  | cons makes _ induction => exact .cons makes (induction second)

theorem removeFile_journal {place : Location}
    (removed : tree.removeFile cwd path = .ok (after, place)) :
    place = path.place cwd ∧ (Change.removedFile place).Makes tree after := by
  obtain ⟨place_eq, ⟨file, present⟩, rfl⟩ := removeFile_spec removed
  exact ⟨place_eq, .removedFile present⟩

theorem moveFile_journal {source destination : Path} {sourcePlace targetPlace : Location}
    (moved : tree.moveFile cwd source destination = .ok (after, sourcePlace, targetPlace)) :
    sourcePlace = source.place cwd ∧ targetPlace = destination.place cwd ∧
      (Change.movedFile sourcePlace targetPlace).Makes tree after := by
  obtain ⟨source_eq, target_eq, free, file, present, rfl⟩ := moveFile_spec moved
  exact ⟨source_eq, target_eq, .movedFile present free⟩

theorem makeDirectory_journal {place : Location}
    (made : tree.makeDirectory cwd path = .ok (after, place)) :
    place = path.place cwd ∧ (Change.createdDirectory place).Makes tree after := by
  obtain ⟨place_eq, missing, rfl, -⟩ := makeDirectory_spec made
  exact ⟨place_eq, .createdDirectory missing⟩

theorem makeOrAccept_journal (accepted : tree.makeOrAccept cwd path = .ok (after, changes)) :
    Journal changes tree after ∧
      ∀ change ∈ changes, change = .createdDirectory (path.place cwd) := by
  rw [makeOrAccept] at accepted
  split at accepted
  · rename_i created place made
    obtain ⟨rfl, rfl⟩ := Prod.mk.inj (Except.ok.inj accepted)
    obtain ⟨rfl, makes⟩ := makeDirectory_journal made
    exact ⟨.single makes, fun change member => List.mem_singleton.mp member⟩
  · split at accepted
    · obtain ⟨rfl, rfl⟩ := Prod.mk.inj (Except.ok.inj accepted)
      exact ⟨.nil, by simp⟩
    · simp at accepted

theorem makeChain_journal {chain : List Path} {result : Except IoError Unit}
    (made : tree.makeChain cwd chain = (after, changes, result)) :
    Journal changes tree after ∧
      ∀ change ∈ changes, ∃ path ∈ chain, change = .createdDirectory (path.place cwd) := by
  induction chain generalizing after changes result with
  | nil =>
      obtain ⟨rfl, rest⟩ := Prod.mk.inj made
      obtain ⟨rfl, -⟩ := Prod.mk.inj rest
      exact ⟨.nil, by simp⟩
  | cons innermost outer induction =>
      have nothing : Journal [] tree tree ∧ ∀ change ∈ ([] : List Change),
          ∃ path ∈ innermost :: outer, change = .createdDirectory (path.place cwd) :=
        ⟨.nil, by simp⟩
      rw [makeChain] at made
      split at made
      · rename_i first place created
        obtain ⟨rfl, rest⟩ := Prod.mk.inj made
        obtain ⟨rfl, -⟩ := Prod.mk.inj rest
        obtain ⟨rfl, makes⟩ := makeDirectory_journal created
        exact ⟨.single makes, fun change member =>
          ⟨innermost, List.mem_cons_self, List.mem_singleton.mp member⟩⟩
      · split at made
        · split at made
          · rename_i middle outer_changes failure outer_made
            obtain ⟨rfl, rest⟩ := Prod.mk.inj made
            obtain ⟨rfl, -⟩ := Prod.mk.inj rest
            obtain ⟨journal, named⟩ := induction outer_made
            exact ⟨journal, fun change member =>
              (named change member).imp fun _ found => ⟨List.mem_cons_of_mem _ found.1, found.2⟩⟩
          · rename_i middle outer_changes outer_made
            obtain ⟨journal, named⟩ := induction outer_made
            have outer_named : ∀ change ∈ outer_changes, ∃ path ∈ innermost :: outer,
                change = .createdDirectory (path.place cwd) := fun change member =>
              (named change member).imp fun _ found => ⟨List.mem_cons_of_mem _ found.1, found.2⟩
            split at made
            · rename_i last last_changes accepted
              obtain ⟨rfl, rest⟩ := Prod.mk.inj made
              obtain ⟨rfl, -⟩ := Prod.mk.inj rest
              obtain ⟨last_journal, last_named⟩ := makeOrAccept_journal accepted
              refine ⟨journal.append last_journal, fun change member => ?_⟩
              rcases List.mem_append.mp member with earlier | last
              · exact outer_named change earlier
              · exact ⟨innermost, List.mem_cons_self, last_named change last⟩
            · obtain ⟨rfl, rest⟩ := Prod.mk.inj made
              obtain ⟨rfl, -⟩ := Prod.mk.inj rest
              exact ⟨journal, outer_named⟩
        · split at made <;>
          · obtain ⟨rfl, rest⟩ := Prod.mk.inj made
            obtain ⟨rfl, -⟩ := Prod.mk.inj rest
            exact nothing

/-- Directories are created only on the way to the path. -/
theorem ensureDirectory_journal {result : Except IoError Unit}
    (made : tree.ensureDirectory cwd path = (after, changes, result)) :
    Journal changes tree after ∧
      ∀ change ∈ changes, ∃ place, path.LeadsThrough cwd place ∧
        change = .createdDirectory place := by
  obtain ⟨journal, named⟩ := makeChain_journal made
  refine ⟨journal, fun change member => ?_⟩
  obtain ⟨ancestor, tried, rfl⟩ := named change member
  exact ⟨_, leadsThrough_of_mem_ancestors tried (ancestor.leadsThrough_place cwd), rfl⟩

/-- The change is the end of a directory or of everything in it. -/
def ClearsAt (place : Location) (change : Change) : Prop :=
  change = .removedDirectory place ∨ change = .emptiedDirectory place

theorem removeDirectory_journal {result : Except IoError Unit}
    (removed : tree.removeDirectory cwd path = (after, changes, result)) :
    Journal changes tree after ∧ ∀ change ∈ changes, ClearsAt (path.place cwd) change := by
  rw [removeDirectory] at removed
  split at removed
  · obtain ⟨rfl, rest⟩ := Prod.mk.inj removed
    obtain ⟨rfl, -⟩ := Prod.mk.inj rest
    exact ⟨.nil, by simp⟩
  · rename_i place located
    obtain rfl := place_of_locate located
    split at removed
    · obtain ⟨rfl, rest⟩ := Prod.mk.inj removed
      obtain ⟨rfl, -⟩ := Prod.mk.inj rest
      exact ⟨.nil, by simp⟩
    · rename_i directory
      have present : tree.isDirectory (path.place cwd) = true := by simpa using directory
      have emptied : Journal [.emptiedDirectory (path.place cwd)] tree
          (tree.clear (path.place cwd)) := .single (.emptiedDirectory present)
      have gone : Journal [.removedDirectory (path.place cwd)] tree
          (tree.eraseBelow (path.place cwd)) := .single (.removedDirectory present)
      split at removed <;>
      · obtain ⟨rfl, rest⟩ := Prod.mk.inj removed
        obtain ⟨rfl, -⟩ := Prod.mk.inj rest
        refine ⟨by assumption, ?_⟩
        simp [ClearsAt]

end FileTree
end StagedBuild
