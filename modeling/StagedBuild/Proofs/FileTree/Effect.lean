import StagedBuild.FileTree.Change
import StagedBuild.Proofs.FileTree.Locate

/-!
# What operations do

An operation that succeeds changes the place of its path and nothing else.  Creating a directory
with the missing ones above it adds directories where there was nothing, whether it succeeds or not.
-/

namespace StagedBuild
namespace FileTree

open StagedBuild.Path (IsName)

variable {tree after : FileTree} {cwd : Location} {path : Path}

theorem bind_eq_ok_iff {error first second : Type} {computed : Except error first}
    {next : first → Except error second} {result : second} :
    computed >>= next = .ok result ↔ ∃ value, computed = .ok value ∧ next value = .ok result := by
  cases computed with
  | error error => simp [bind, Except.bind]
  | ok value => simp [bind, Except.bind]

theorem bind_eq_error_iff {error first second : Type} {computed : Except error first}
    {next : first → Except error second} {problem : error} :
    computed >>= next = .error problem ↔
      computed = .error problem ∨ ∃ value, computed = .ok value ∧ next value = .error problem := by
  cases computed with
  | error error => simp [bind, Except.bind]
  | ok value => simp [bind, Except.bind]

theorem placeOfName_eq_ok_iff {directory place : Location} {segment : String} :
    placeOfName directory segment = .ok place ↔
      Utf8.size segment ≤ nameLimit ∧ place = directory ++ [segment] := by
  rw [placeOfName]
  split
  · rename_i long
    simp [Nat.not_le.mpr long]
  · rename_i short
    simp [Nat.le_of_not_lt short, eq_comm]

/-- A file is removed at the place of the path, and nothing else changes. -/
theorem removeFile_spec {place : Location}
    (removed : tree.removeFile cwd path = .ok (after, place)) :
    place = path.place cwd ∧ (∃ file, tree.entry? place = some (.file file)) ∧
      after = tree.erase place := by
  rw [removeFile, bind_eq_ok_iff] at removed
  obtain ⟨⟨directory, last⟩, located, rest⟩ := removed
  cases last with
  | root | current | above => simp at rest
  | name segment separated =>
      obtain ⟨found, named, checked⟩ := bind_eq_ok_iff.mp rest
      obtain ⟨-, rfl⟩ := placeOfName_eq_ok_iff.mp named
      obtain ⟨place_eq, -, -⟩ := place_of_locateLast located
      split at checked
      · simp at checked
      · simp at checked
      · rename_i file holds
        split at checked
        · simp at checked
        · obtain ⟨rfl, rfl⟩ := Prod.mk.inj (Except.ok.inj checked)
          exact ⟨place_eq.symm, ⟨file, holds⟩, rfl⟩

/-- A file is moved from the place of one path to the place of another. -/
theorem moveFile_spec {source destination : Path} {sourcePlace targetPlace : Location}
    (moved : tree.moveFile cwd source destination = .ok (after, sourcePlace, targetPlace)) :
    sourcePlace = source.place cwd ∧ targetPlace = destination.place cwd ∧
      tree.isDirectory targetPlace = false ∧
      ∃ file, tree.entry? sourcePlace = some (.file file) ∧
        after = (tree.erase sourcePlace).insert targetPlace (.file file) := by
  rw [moveFile, bind_eq_ok_iff] at moved
  obtain ⟨⟨sourceDirectory, sourceLast⟩, source_located, rest⟩ := moved
  obtain ⟨⟨targetDirectory, targetLast⟩, target_located, rest⟩ := bind_eq_ok_iff.mp rest
  cases sourceLast with
  | root | current | above => simp at rest
  | name sourceName sourceSeparated =>
    cases targetLast with
    | root | current | above => simp at rest
    | name targetName targetSeparated =>
        obtain ⟨found, source_named, checked⟩ := bind_eq_ok_iff.mp rest
        obtain ⟨-, rfl⟩ := placeOfName_eq_ok_iff.mp source_named
        obtain ⟨source_eq, -, -⟩ := place_of_locateLast source_located
        obtain ⟨target_eq, -, -⟩ := place_of_locateLast target_located
        split at checked
        · simp at checked
        · simp at checked
        · rename_i file holds
          obtain ⟨reached, target_named, allowed⟩ := bind_eq_ok_iff.mp checked
          obtain ⟨-, rfl⟩ := placeOfName_eq_ok_iff.mp target_named
          split at allowed
          · simp at allowed
          · split at allowed
            · simp at allowed
            · split at allowed
              · simp at allowed
              · rename_i free
                obtain ⟨rfl, places⟩ := Prod.mk.inj (Except.ok.inj allowed)
                obtain ⟨rfl, rfl⟩ := Prod.mk.inj places
                exact ⟨source_eq.symm, target_eq.symm, by simpa using free, file, holds, rfl⟩

/-- A directory is created where there was nothing, and the path opens from then on. -/
theorem makeDirectory_spec {place : Location}
    (made : tree.makeDirectory cwd path = .ok (after, place)) :
    place = path.place cwd ∧ tree.entry? place = none ∧ after = tree.insert place .directory ∧
      after.isDirectoryAt cwd path = true := by
  rw [makeDirectory, bind_eq_ok_iff] at made
  obtain ⟨⟨directory, last⟩, located, rest⟩ := made
  cases last with
  | root | current | above => simp at rest
  | name segment separated =>
      obtain ⟨found, named, checked⟩ := bind_eq_ok_iff.mp rest
      obtain ⟨short, rfl⟩ := placeOfName_eq_ok_iff.mp named
      obtain ⟨place_eq, is_name, directory_found⟩ := place_of_locateLast located
      split at checked
      · simp at checked
      · rename_i free
        have missing : tree.entry? (directory ++ [segment]) = none := by simpa using free
        obtain ⟨rfl, rfl⟩ := Prod.mk.inj (Except.ok.inj checked)
        refine ⟨place_eq.symm, missing, rfl, ?_⟩
        have kept : ∀ other, tree.isDirectory other = true →
            (tree.insert (directory ++ [segment]) .directory).isDirectory other = true := by
          intro other other_found
          rw [isDirectory_iff, entry?_insert]
          split
          · rfl
          · exact tree.isDirectory_iff.mp other_found
        have entered : FileTree.entry? (tree.insert (directory ++ [segment]) .directory)
            (directory ++ [segment]) = some .directory := by
          simp [entry?_insert]
        obtain ⟨read, walked, last_eq, -⟩ := locateLast_eq_ok_iff.mp located
        obtain ⟨-, blanks, segments_eq, blank⟩ :=
          @segments_of_splitLast path _ _ _ (Prod.ext rfl last_eq)
        refine isDirectoryAt_iff_opens.mpr ⟨read, ?_, ?_⟩
        · rw [place_eq, segments_eq, walk_append_eq_ok_iff]
          refine ⟨directory, walk_of_directories kept walked directory_found,
            walk_cons_eq_ok_iff.mpr ⟨directory ++ [segment], step_eq_ok_iff.mpr
              ⟨kept directory directory_found, ?_, fun _ => ⟨short, by rw [entered]; rfl⟩⟩,
              walk_trivial ((isDirectory_iff _).mpr entered) ?_⟩⟩
          · exact (Path.enter_of_bodyComponent is_name.bodyComponent directory).symm
          · intro other member
            simp [blank other member, Path.isTrivial]
        · rw [place_eq]
          exact (isDirectory_iff _).mpr entered

/-- At some of the places directories were created where there was nothing; the rest is the same. -/
def GrowsAt (places : List Location) (tree after : FileTree) : Prop :=
  ∀ place, after.entry? place = tree.entry? place ∨
    place ∈ places ∧ tree.entry? place = none ∧ after.entry? place = some .directory

theorem GrowsAt.refl (places : List Location) (tree : FileTree) : GrowsAt places tree tree :=
  fun _ => Or.inl rfl

theorem GrowsAt.trans {places more : List Location} {middle : FileTree}
    (first : GrowsAt places tree middle) (second : GrowsAt more middle after) :
    GrowsAt (places ++ more) tree after := by
  intro place
  rcases second place with kept | ⟨member, missing, created⟩
  · rcases first place with same | ⟨member, missing, created⟩
    · exact Or.inl (kept.trans same)
    · exact Or.inr ⟨List.mem_append_left _ member, missing, kept.trans created⟩
  · rcases first place with same | ⟨-, -, present⟩
    · exact Or.inr ⟨List.mem_append_right _ member, same ▸ missing, created⟩
    · simp [missing] at present

theorem GrowsAt.mono {places more : List Location} (grows : GrowsAt places tree after)
    (subset : places ⊆ more) : GrowsAt more tree after :=
  fun place => (grows place).imp_right fun created => ⟨subset created.1, created.2⟩

theorem GrowsAt.file {places : List Location} (grows : GrowsAt places tree after)
    (place : Location) : after.file? place = tree.file? place := by
  rcases grows place with same | ⟨-, missing, created⟩
  · exact file?_congr same
  · simp [file?, missing, created]

theorem makeDirectory_grows {place : Location}
    (made : tree.makeDirectory cwd path = .ok (after, place)) :
    GrowsAt [path.place cwd] tree after := by
  obtain ⟨rfl, missing, rfl, -⟩ := makeDirectory_spec made
  intro other
  rw [entry?_insert]
  split
  · rename_i same
    exact Or.inr ⟨by simp [same.1], same.1 ▸ missing, rfl⟩
  · exact Or.inl rfl

theorem makeOrAccept_spec {changes : List Change}
    (accepted : tree.makeOrAccept cwd path = .ok (after, changes)) :
    GrowsAt [path.place cwd] tree after ∧ after.isDirectoryAt cwd path = true := by
  rw [makeOrAccept] at accepted
  split at accepted
  · rename_i created place made
    obtain ⟨rfl, -⟩ := Prod.mk.inj (Except.ok.inj accepted)
    exact ⟨makeDirectory_grows made, (makeDirectory_spec made).2.2.2⟩
  · split at accepted
    · rename_i present
      obtain ⟨rfl, -⟩ := Prod.mk.inj (Except.ok.inj accepted)
      exact ⟨GrowsAt.refl _ _, present⟩
    · simp at accepted

/-- A chain of directories is created at places of the chain, up to its innermost path. -/
theorem makeChain_spec {chain : List Path} {changes : List Change} {result : Except IoError Unit}
    (made : tree.makeChain cwd chain = (after, changes, result)) :
    GrowsAt (chain.map (Path.place · cwd)) tree after ∧
      (result = .ok () → ∀ innermost ∈ chain.head?, after.isDirectoryAt cwd innermost = true) := by
  induction chain generalizing after changes result with
  | nil =>
      obtain ⟨rfl, -⟩ := Prod.mk.inj made
      exact ⟨GrowsAt.refl _ _, by simp⟩
  | cons innermost outer induction =>
      simp only [List.head?_cons, Option.mem_def, Option.some.injEq, forall_eq']
      rw [makeChain] at made
      split at made
      · rename_i first place created
        obtain ⟨rfl, -⟩ := Prod.mk.inj made
        exact ⟨(makeDirectory_grows created).mono (by simp),
          fun _ => (makeDirectory_spec created).2.2.2⟩
      · rename_i error refused
        split at made
        · split at made
          · rename_i middle more failure outer_made
            obtain ⟨rfl, rest⟩ := Prod.mk.inj made
            obtain ⟨-, rfl⟩ := Prod.mk.inj rest
            exact ⟨(induction outer_made).1.mono (by simp), by simp⟩
          · rename_i middle more outer_made
            have outer_grows := (induction outer_made).1
            split at made
            · rename_i last last_changes accepted
              obtain ⟨rfl, -⟩ := Prod.mk.inj made
              obtain ⟨grows, present⟩ := makeOrAccept_spec accepted
              exact ⟨(outer_grows.trans grows).mono (by simp), fun _ => present⟩
            · rename_i failure rejected
              obtain ⟨rfl, rest⟩ := Prod.mk.inj made
              obtain ⟨-, rfl⟩ := Prod.mk.inj rest
              exact ⟨outer_grows.mono (by simp), by simp⟩
        · split at made
          · rename_i present
            obtain ⟨rfl, -⟩ := Prod.mk.inj made
            exact ⟨GrowsAt.refl _ _, fun _ => present⟩
          · obtain ⟨rfl, rest⟩ := Prod.mk.inj made
            obtain ⟨-, rfl⟩ := Prod.mk.inj rest
            exact ⟨GrowsAt.refl _ _, by simp⟩

/-- Whatever becomes of it, creating a directory with those above it only adds directories. -/
theorem ensureDirectory_spec {changes : List Change} {result : Except IoError Unit}
    (made : tree.ensureDirectory cwd path = (after, changes, result)) :
    GrowsAt ((ancestors path (path.text.length + 1)).map (Path.place · cwd)) tree after ∧
      (path.text ≠ "" → result = .ok () → after.isDirectoryAt cwd path = true) := by
  obtain ⟨grows, opens⟩ := makeChain_spec made
  refine ⟨grows, fun nonempty succeeded => opens succeeded path ?_⟩
  simp [ancestors, nonempty]

/-- The paths that are tried are beginnings of the path that is wanted. -/
theorem leadsThrough_of_mem_ancestors {bound : Nat} {ancestor : Path} {through : Location}
    (member : ancestor ∈ ancestors path bound) (leads : ancestor.LeadsThrough cwd through) :
    path.LeadsThrough cwd through := by
  induction bound generalizing path with
  | zero => simp [ancestors] at member
  | succ bound induction =>
      rw [ancestors] at member
      split at member
      · simp at member
      · rcases List.mem_cons.mp member with rfl | above
        · exact leads
        · split at above
          · rename_i parent parent_eq
            refine Path.LeadsThrough.of_parent parent_eq ?_ (induction above)
            intro empty
            cases bound <;> simp [ancestors, empty] at above
          · simp at above

/-- When the innermost path of a chain cannot be created, only the others may have been. -/
theorem makeChain_refused {chain : List Path} {changes : List Change} {error : IoError}
    (made : tree.makeChain cwd chain = (after, changes, .error error)) :
    GrowsAt (chain.tail.map (Path.place · cwd)) tree after := by
  cases chain with
  | nil => simp [makeChain] at made
  | cons innermost outer =>
      rw [List.tail_cons]
      rw [makeChain] at made
      split at made
      · simp at made
      · split at made
        · split at made
          · rename_i middle more failure outer_made
            obtain ⟨rfl, -⟩ := Prod.mk.inj made
            exact (makeChain_spec outer_made).1
          · rename_i middle more outer_made
            split at made
            · simp at made
            · obtain ⟨rfl, -⟩ := Prod.mk.inj made
              exact (makeChain_spec outer_made).1
        · split at made
          · simp at made
          · obtain ⟨rfl, -⟩ := Prod.mk.inj made
            exact GrowsAt.refl _ _

/-- When removing a joined name fails because nothing is found, there is nothing. -/
theorem entry?_of_removeFile_notFound {name : String} (is_name : IsName name)
    (opens : tree.Opens cwd path) {error : IoError}
    (refused : tree.removeFile cwd (path.join name) = .error error)
    (not_found : error.kind = .notFound) :
    tree.entry? (path.place cwd ++ [name]) = none := by
  rw [removeFile] at refused
  have nonempty := Path.text_join_name_ne_empty path is_name
  cases read : admissible (path.join name) with
  | error unread =>
      rw [locateLast, read] at refused
      obtain rfl := Except.error.inj refused
      rw [admissible] at read
      split at read
      · obtain rfl := Except.error.inj read
        simp [IoError.nulInPath, IoError.kind] at not_found
      · rw [if_neg (by simpa using nonempty)] at read
        split at read
        · obtain rfl := Except.error.inj read
          simp [IoError.kind, Errno.kind, Errno.nameTooLong] at not_found
        · simp at read
  | ok checked =>
      have located := (locateLast_join_name_iff is_name).mpr ⟨read, opens, rfl, rfl⟩
      rw [located] at refused
      simp only [bind, Except.bind, placeOfName] at refused
      split at refused
      · rename_i failure long
        split at long
        · obtain rfl := Except.error.inj long
          obtain rfl := Except.error.inj refused
          simp [IoError.kind, Errno.kind, Errno.nameTooLong] at not_found
        · simp at long
      · rename_i place short
        split at short
        · simp at short
        · obtain rfl := Except.ok.inj short
          split at refused
          · assumption
          · obtain rfl := Except.error.inj refused
            simp [IoError.kind, Errno.kind, Errno.isDirectory] at not_found
          · simp at refused

/-- A file is moved between open directories unless its destination is a directory. -/
theorem moveFile_join {source destination : Path} {file : File} {name : String}
    (is_name : IsName name) (source_read : admissible (source.join name) = .ok ())
    (destination_read : admissible (destination.join name) = .ok ())
    (source_opens : tree.Opens cwd source) (destination_opens : tree.Opens cwd destination)
    (short : Utf8.size name ≤ nameLimit)
    (holds : tree.entry? (source.place cwd ++ [name]) = some (.file file)) :
    tree.moveFile cwd (source.join name) (destination.join name) =
      if destination.place cwd ++ [name] <+: source.place cwd then .error (.system .notEmpty)
      else if tree.isDirectory (destination.place cwd ++ [name]) then .error (.system .isDirectory)
      else
        .ok ((tree.erase (source.place cwd ++ [name])).insert (destination.place cwd ++ [name])
          (.file file), source.place cwd ++ [name], destination.place cwd ++ [name]) := by
  have source_located :=
    (locateLast_join_name_iff is_name).mpr ⟨source_read, source_opens, rfl, rfl⟩
  have destination_located :=
    (locateLast_join_name_iff is_name).mpr ⟨destination_read, destination_opens, rfl, rfl⟩
  have placed : ∀ directory, placeOfName directory name = .ok (directory ++ [name]) :=
    fun directory => placeOfName_eq_ok_iff.mpr ⟨short, rfl⟩
  rw [moveFile, source_located, destination_located]
  simp only [bind, Except.bind, placed, holds, Bool.or_self, Bool.false_eq_true, if_false,
    List.isPrefixOf_iff_prefix]

end FileTree
end StagedBuild
