import StagedBuild.Proofs.FileTree.Agreement
import StagedBuild.Proofs.FileTree.Way

/-!
# Trees that lose entries

A tree that only loses entries answers the look-up of an absolute path as before, or finds nothing:
what is gone never stands in the way as a file would.  So a file that was removed, or was never
there, cannot be removed again, however much else is removed in between.
-/

namespace StagedBuild
namespace FileTree

open StagedBuild.Path (IsName enter)

variable {tree middle after : FileTree} {cwd place : Location} {path : Path} {name : String}

/-- Every place holds the same in the other tree, or nothing. -/
def ShrinksTo (tree after : FileTree) : Prop :=
  ∀ place, after.entry? place = tree.entry? place ∨ after.entry? place = none

theorem ShrinksTo.refl (tree : FileTree) : tree.ShrinksTo tree :=
  fun _ => Or.inl rfl

theorem ShrinksTo.trans (first : tree.ShrinksTo middle) (second : middle.ShrinksTo after) :
    tree.ShrinksTo after := by
  intro place
  rcases second place with same | gone
  · rw [same]
    exact first place
  · exact Or.inr gone

theorem shrinksTo_keep (tree : FileTree) (test : Location → Bool) :
    tree.ShrinksTo (tree.keep test) := by
  intro place
  rw [entry?_keep]
  split
  · exact Or.inl rfl
  · exact Or.inr rfl

theorem shrinksTo_erase (tree : FileTree) (place : Location) :
    tree.ShrinksTo (tree.erase place) :=
  tree.shrinksTo_keep _

theorem shrinksTo_clear (tree : FileTree) (place : Location) :
    tree.ShrinksTo (tree.clear place) :=
  tree.shrinksTo_keep _

theorem shrinksTo_eraseBelow (tree : FileTree) (place : Location) :
    tree.ShrinksTo (tree.eraseBelow place) :=
  tree.shrinksTo_keep _

/-- Everything from the root to the place is as it was. -/
def KeptUpTo (tree after : FileTree) (place : Location) : Prop :=
  ∀ above, above <+: place → after.entry? above = tree.entry? above

theorem step_of_shrinksTo (shrinks : tree.ShrinksTo after) (kept : tree.KeptUpTo after place)
    (segment : String) :
    after.step place segment = .error .noEntry ∨
      after.step place segment = tree.step place segment ∧
        ∀ next, tree.step place segment = .ok next → tree.KeptUpTo after next := by
  have here : after.isDirectory place = tree.isDirectory place :=
    isDirectory_congr (kept place List.prefix_rfl)
  cases directory : tree.isDirectory place with
  | false =>
      rw [step_of_not_directory directory, step_of_not_directory (here.trans directory)]
      exact Or.inr ⟨rfl, by simp⟩
  | true =>
      have there := here.trans directory
      cases component : Path.bodyComponent segment with
      | none =>
          have trivial := Path.bodyComponent_eq_none_iff.mp component
          rw [step_trivial directory trivial, step_trivial there trivial]
          refine Or.inr ⟨rfl, fun next stepped => ?_⟩
          obtain rfl := Except.ok.inj stepped
          exact kept
      | some part =>
          rcases Path.eq_of_bodyComponent component with ⟨rfl, rfl⟩ | ⟨rfl, -, -⟩
          · rw [step_above directory, step_above there]
            refine Or.inr ⟨rfl, fun next stepped above begins => ?_⟩
            obtain rfl := Except.ok.inj stepped
            exact kept above (begins.trans (List.dropLast_prefix place))
          · rw [step_name directory component, step_name there component]
            split
            · exact Or.inr ⟨rfl, by simp⟩
            · rcases shrinks (place ++ [segment]) with same | gone
              · rw [same]
                refine Or.inr ⟨rfl, fun next stepped above begins => ?_⟩
                split at stepped
                · obtain rfl := Except.ok.inj stepped
                  rcases List.prefix_concat_iff.mp begins with rfl | inner
                  · exact same
                  · exact kept above inner
                · simp at stepped
              · rw [gone]
                exact Or.inl rfl

/-- A walk from a place that is kept goes as before, or finds nothing. -/
theorem walk_of_shrinksTo (shrinks : tree.ShrinksTo after) (kept : tree.KeptUpTo after place)
    (segments : List String) :
    after.walk place segments = .error .noEntry ∨
      after.walk place segments = tree.walk place segments ∧
        ∀ last, tree.walk place segments = .ok last → tree.KeptUpTo after last := by
  induction segments generalizing place with
  | nil =>
      refine Or.inr ⟨rfl, fun last walked => ?_⟩
      obtain rfl := Except.ok.inj walked
      exact kept
  | cons segment segments induction =>
      rw [walk, walk]
      rcases step_of_shrinksTo shrinks kept segment with gone | ⟨same, next_kept⟩
      · rw [gone]
        exact Or.inl rfl
      · rw [same]
        cases stepped : tree.step place segment with
        | error errno => exact Or.inr ⟨rfl, by simp [bind, Except.bind]⟩
        | ok next => exact induction (next_kept next stepped)

theorem walk_origin_of_shrinksTo (shrinks : tree.ShrinksTo after)
    (absolute : path.isAbsolute = true) (segments : List String) :
    after.walk (origin cwd path) segments = .error .noEntry ∨
      after.walk (origin cwd path) segments = tree.walk (origin cwd path) segments ∧
        ∀ last, tree.walk (origin cwd path) segments = .ok last → tree.KeptUpTo after last := by
  refine walk_of_shrinksTo shrinks (fun above begins => ?_) segments
  rw [origin, if_pos absolute, List.prefix_nil] at begins
  rw [begins, entry?_nil, entry?_nil]

theorem locate_of_shrinksTo (shrinks : tree.ShrinksTo after) (absolute : path.isAbsolute = true) :
    after.locate cwd path = .error (.system .noEntry) ∨
      after.locate cwd path = tree.locate cwd path := by
  rw [locate, locate]
  cases admissible path with
  | error error => exact Or.inr rfl
  | ok read =>
      simp only [bind, Except.bind]
      rcases walk_origin_of_shrinksTo shrinks absolute path.segments with gone | ⟨same, -⟩
      · exact Or.inl (by rw [gone, mapError_error])
      · exact Or.inr (by rw [same])

theorem locateLast_of_shrinksTo (shrinks : tree.ShrinksTo after)
    (absolute : path.isAbsolute = true) :
    after.locateLast cwd path = .error (.system .noEntry) ∨
      after.locateLast cwd path = tree.locateLast cwd path := by
  rw [locateLast, locateLast]
  cases admissible path with
  | error error => exact Or.inr rfl
  | ok read =>
      simp only [bind, Except.bind]
      rcases walk_origin_of_shrinksTo shrinks absolute (splitLast path).1 with gone | ⟨same, kept⟩
      · exact Or.inl (by rw [gone, mapError_error])
      · rw [same]
        cases walked : tree.walk (origin cwd path) (splitLast path).1 with
        | error errno => exact Or.inr rfl
        | ok last =>
            refine Or.inr ?_
            rw [mapError_ok]
            simp only [isDirectory_congr (kept last walked last List.prefix_rfl)]

/-- A file at the path cannot be removed because nothing is found there. -/
def Lacks (tree : FileTree) (cwd : Location) (path : Path) : Prop :=
  ∃ error : IoError, tree.removeFile cwd path = .error error ∧ error.kind = .notFound

/-- Either the directory is not found, or there is nothing of that name in it. -/
theorem lacks_iff :
    tree.Lacks cwd path ↔
      (∃ error : IoError, tree.locateLast cwd path = .error error ∧ error.kind = .notFound) ∨
        ∃ directory segment separated, ∃ place,
          tree.locateLast cwd path = .ok (directory, .name segment separated) ∧
            placeOfName directory segment = .ok place ∧ tree.entry? place = none := by
  rw [Lacks, removeFile]
  cases located : tree.locateLast cwd path with
  | error failure => simp [bind, Except.bind]
  | ok found =>
      obtain ⟨directory, last⟩ := found
      cases last with
      | root | current | above =>
          simp [bind, Except.bind, IoError.kind, Errno.kind, Errno.isDirectory]
      | name segment separated =>
          simp only [bind, Except.bind, reduceCtorEq, false_and, exists_false, false_or,
            Except.ok.injEq, Prod.mk.injEq, Last.name.injEq, ↓existsAndEq, true_and]
          cases named : placeOfName directory segment with
          | error failure =>
              rw [placeOfName] at named
              split at named
              · obtain rfl := Except.error.inj named
                simp [IoError.kind, Errno.kind, Errno.nameTooLong]
              · simp at named
          | ok place =>
              simp only [Except.ok.injEq, ↓existsAndEq, true_and]
              split
              · rename_i missing
                simp [missing, IoError.kind, Errno.kind, Errno.noEntry]
              · rename_i directory
                simp [directory, IoError.kind, Errno.kind, Errno.isDirectory]
              · rename_i file holds
                cases separated <;> simp [holds, IoError.kind, Errno.kind, Errno.notDirectory]

theorem lacks_of_lost (lost : tree.locateLast cwd path = .error (.system .noEntry)) :
    tree.Lacks cwd path :=
  lacks_iff.mpr (Or.inl ⟨_, lost, rfl⟩)

/-- What is not found is not found when more is gone. -/
theorem Lacks.of_shrinksTo (lacks : tree.Lacks cwd path) (shrinks : tree.ShrinksTo after)
    (absolute : path.isAbsolute = true) : after.Lacks cwd path := by
  rcases locateLast_of_shrinksTo shrinks absolute with lost | same
  · exact lacks_of_lost lost
  · rw [lacks_iff, same]
    refine (lacks_iff.mp lacks).imp_right ?_
    rintro ⟨directory, segment, separated, place, located, named, missing⟩
    refine ⟨directory, segment, separated, place, located, named, ?_⟩
    rcases shrinks place with kept | gone
    · exact kept.trans missing
    · exact gone

/-- A file that was removed is not found again. -/
theorem lacks_of_removeFile (absolute : path.isAbsolute = true)
    (removed : tree.removeFile cwd path = .ok (after, place)) : after.Lacks cwd path := by
  obtain ⟨place_eq, ⟨file, present⟩, rfl⟩ := removeFile_spec removed
  rcases locateLast_of_shrinksTo (tree.shrinksTo_erase place) absolute with lost | same
  · exact lacks_of_lost lost
  · rw [removeFile, bind_eq_ok_iff] at removed
    obtain ⟨⟨directory, last⟩, located, rest⟩ := removed
    cases last with
    | root | current | above => simp at rest
    | name segment separated =>
        obtain ⟨found, named, -⟩ := bind_eq_ok_iff.mp rest
        obtain ⟨-, found_eq⟩ := placeOfName_eq_ok_iff.mp named
        refine lacks_iff.mpr (Or.inr
          ⟨directory, segment, separated, found, same.trans located, named, ?_⟩)
        rw [found_eq, ← (place_of_locateLast located).1, ← place_eq, entry?_erase, if_pos]
        refine ⟨rfl, ?_⟩
        rintro rfl
        simp at present

/-- The system reads the path of a file that it does not find. -/
theorem admissible_of_lacks (nonempty : path.text ≠ "") (lacks : tree.Lacks cwd path) :
    admissible path = .ok () := by
  obtain ⟨error, refused, not_found⟩ := lacks
  rw [removeFile, locateLast] at refused
  cases read : admissible path with
  | ok done => rfl
  | error failure =>
      rw [read] at refused
      obtain rfl := Except.error.inj refused
      rw [admissible] at read
      split at read
      · obtain rfl := Except.error.inj read
        cases not_found
      · rw [if_neg (by simpa using nonempty)] at read
        split at read
        · obtain rfl := Except.error.inj read
          cases not_found
        · cases read

/-- A joined name that is not found in a directory that opens is not there. -/
theorem Lacks.entry?_eq_none (is_name : IsName name) (opens : tree.Opens cwd path)
    (lacks : tree.Lacks cwd (path.join name)) :
    tree.entry? (path.place cwd ++ [name]) = none := by
  have read := admissible_of_lacks (path.text_join_name_ne_empty is_name) lacks
  have located := (locateLast_join_name_iff is_name).mpr ⟨read, opens, rfl, rfl⟩
  rw [lacks_iff, located] at lacks
  rcases lacks with ⟨error, refused, -⟩ | ⟨directory, segment, separated, place, same, named, none⟩
  · cases refused
  · cases same
    rwa [(placeOfName_eq_ok_iff.mp named).2] at none

section RemovedFile

variable {file : File} (holds : tree.entry? place = some (.file file))

include holds

theorem isDirectory_erase_file (other : Location) :
    (tree.erase place).isDirectory other = tree.isDirectory other := by
  by_cases here : other = place
  · subst here
    simp [isDirectory, entry?_erase, holds]
  · apply isDirectory_congr
    rw [entry?_erase, if_neg fun erased => here erased.1]

theorem opens_erase_file_iff : (tree.erase place).Opens cwd path ↔ tree.Opens cwd path :=
  ⟨fun opens => opens.mono fun other directory => isDirectory_erase_file holds other ▸ directory,
    fun opens => opens.mono fun other directory =>
      (isDirectory_erase_file holds other).symm ▸ directory⟩

theorem isDirectoryAt_erase_file :
    (tree.erase place).isDirectoryAt cwd path = tree.isDirectoryAt cwd path := by
  rw [Bool.eq_iff_iff, isDirectoryAt_iff_opens, isDirectoryAt_iff_opens,
    opens_erase_file_iff holds]

/-- Without one of its files, a tree has a file wherever else it had one. -/
theorem isFileAt_erase_file_iff (is_name : IsName name) :
    (tree.erase place).isFileAt cwd (path.join name) = true ↔
      tree.isFileAt cwd (path.join name) = true ∧ (path.join name).place cwd ≠ place := by
  rw [isFileAt_join_name_iff is_name, isFileAt_join_name_iff is_name, opens_erase_file_iff holds,
    Path.place_join_name path is_name]
  by_cases here : path.place cwd ++ [name] = place
  · simp [here, file?_eq_some_iff, entry?_erase, show place ≠ [] from here ▸ by simp]
  · have same : FileTree.entry? (tree.erase place) (path.place cwd ++ [name]) =
        tree.entry? (path.place cwd ++ [name]) := by
      rw [entry?_erase, if_neg fun erased => here erased.1]
    rw [file?_congr same]
    exact (and_iff_left here).symm

end RemovedFile

/-- A joined name can be removed exactly where a file is. -/
theorem exists_removeFile_iff (is_name : IsName name) :
    (∃ result, tree.removeFile cwd (path.join name) = .ok result) ↔
      tree.isFileAt cwd (path.join name) = true := by
  rw [isFileAt_join_name_iff is_name]
  constructor
  · rintro ⟨result, removed⟩
    rw [removeFile, bind_eq_ok_iff] at removed
    obtain ⟨⟨directory, last⟩, located, rest⟩ := removed
    obtain ⟨read, opens, rfl, rfl⟩ := (locateLast_join_name_iff is_name).mp located
    obtain ⟨found, named, checked⟩ := bind_eq_ok_iff.mp rest
    obtain ⟨short, rfl⟩ := placeOfName_eq_ok_iff.mp named
    split at checked
    · simp at checked
    · simp at checked
    · rename_i file holds
      exact ⟨read, opens, short, file, (file?_eq_some_iff _).mpr holds⟩
  · rintro ⟨read, opens, short, file, holds⟩
    have located := (locateLast_join_name_iff is_name).mpr ⟨read, opens, rfl, rfl⟩
    have named : placeOfName (path.place cwd) name = .ok (path.place cwd ++ [name]) :=
      placeOfName_eq_ok_iff.mpr ⟨short, rfl⟩
    rw [file?_eq_some_iff] at holds
    refine ⟨(tree.erase (path.place cwd ++ [name]), path.place cwd ++ [name]), ?_⟩
    rw [removeFile, located]
    simp [bind, Except.bind, named, holds]

/-- A path that does not lead through a directory is open without what is in that directory. -/
theorem opens_clear_iff (is_name : IsName name) (opens : tree.Opens cwd (path.join name)) :
    (tree.clear ((path.join name).place cwd)).Opens cwd path ↔
      (path.join name).StaysAbove cwd := by
  constructor
  · intro still_open place leads below
    rcases (Path.leadsThrough_join_name_iff is_name).mp leads with on_way | rfl
    · have kept := (isDirectory_iff _).mp (still_open.isOpen place on_way)
      rw [entry?_clear, if_pos below] at kept
      simp at kept
    · rw [Path.place_join_name path is_name] at below
      exact below.2 rfl
  · intro stays
    have agree : (tree.clear ((path.join name).place cwd)).AgreeAlong tree cwd path := by
      intro place leads
      exact sameOutside_clear _ tree place
        (stays place ((Path.leadsThrough_join_name_iff is_name).mpr (Or.inl leads)))
    exact (opens_congr agree).mpr (opens_of_walk_join is_name.not_isAbsolute opens.1)

section RemovedDirectory

variable (is_name : IsName name)

include is_name

/-- A directory is removed with everything in it when the path does not lead through it. -/
theorem removeDirectory_of_staysAbove
    (present : tree.isDirectoryAt cwd (path.join name) = true)
    (stays : (path.join name).StaysAbove cwd) :
    tree.removeDirectory cwd (path.join name) =
      (tree.eraseBelow ((path.join name).place cwd),
        [.removedDirectory ((path.join name).place cwd)], .ok ()) := by
  obtain ⟨read, opens⟩ := isDirectoryAt_iff_opens.mp present
  have last := (locateLast_join_name_iff is_name).mpr
    ⟨read, (opens_clear_iff is_name opens).mpr stays, rfl, rfl⟩
  rw [removeDirectory, (isDirectoryAt_iff.mp present).1]
  simp only [opens.2, Bool.not_true, Bool.false_eq_true, if_false, last]

/-- A directory that the path leads through loses everything in it, but stays. -/
theorem removeDirectory_of_not_staysAbove (absolute : path.isAbsolute = true)
    (present : tree.isDirectoryAt cwd (path.join name) = true)
    (through : ¬ (path.join name).StaysAbove cwd) :
    tree.removeDirectory cwd (path.join name) =
      (tree.clear ((path.join name).place cwd),
        [.emptiedDirectory ((path.join name).place cwd)], .ok ()) := by
  obtain ⟨read, opens⟩ := isDirectoryAt_iff_opens.mp present
  have lost : (tree.clear ((path.join name).place cwd)).locateLast cwd (path.join name) =
      .error (.system .noEntry) := by
    refine (locateLast_of_shrinksTo (tree.shrinksTo_clear _)
      (is_name.isAbsolute_join absolute)).resolve_right fun same => through ?_
    have located := (locateLast_join_name_iff is_name).mpr
      ⟨read, opens_of_walk_join is_name.not_isAbsolute opens.1, rfl, rfl⟩
    exact (opens_clear_iff is_name opens).mp
      ((locateLast_join_name_iff is_name).mp (same.trans located)).2.1
  rw [removeDirectory, (isDirectoryAt_iff.mp present).1]
  simp only [opens.2, Bool.not_true, Bool.false_eq_true, if_false, lost]
  rfl

omit is_name in
theorem removeDirectory_of_absent (absent : tree.isDirectoryAt cwd path = false) :
    ∃ error, tree.removeDirectory cwd path = (tree, [], .error error) := by
  rw [removeDirectory]
  rw [isDirectoryAt] at absent
  cases located : tree.locate cwd path with
  | error error => exact ⟨error, rfl⟩
  | ok place =>
      rw [located] at absent
      exact ⟨.system .notDirectory, by simp [show tree.isDirectory place = false from absent]⟩

/-- A directory that was removed, or only emptied, is not found again. -/
theorem locate_of_removeDirectory (absolute : path.isAbsolute = true) {changes : List Change}
    (removed : tree.removeDirectory cwd (path.join name) = (after, changes, .ok ())) :
    after.locate cwd (path.join name) = .error (.system .noEntry) := by
  have join_absolute := is_name.isAbsolute_join absolute
  cases present : tree.isDirectoryAt cwd (path.join name) with
  | false =>
      obtain ⟨error, refused⟩ := removeDirectory_of_absent present
      rw [refused] at removed
      simp at removed
  | true =>
      obtain ⟨read, opens⟩ := isDirectoryAt_iff_opens.mp present
      have located := (isDirectoryAt_iff.mp present).1
      by_cases stays : (path.join name).StaysAbove cwd
      · rw [removeDirectory_of_staysAbove is_name present stays] at removed
        obtain ⟨rfl, -⟩ := Prod.mk.inj removed
        refine (locate_of_shrinksTo (tree.shrinksTo_eraseBelow _) join_absolute).resolve_right
          fun same => ?_
        have below_root : (path.join name).place cwd ≠ [] := by
          simp [Path.place_join_name path is_name]
        obtain ⟨-, -, -, -, found⟩ := (locate_join_name_iff is_name).mp (same.trans located)
        rw [entry?_eraseBelow _ below_root, if_pos List.prefix_rfl] at found
        simp at found
      · rw [removeDirectory_of_not_staysAbove is_name absolute present stays] at removed
        obtain ⟨rfl, -⟩ := Prod.mk.inj removed
        refine (locate_of_shrinksTo (tree.shrinksTo_clear _) join_absolute).resolve_right
          fun same => stays ?_
        exact (opens_clear_iff is_name opens).mp
          ((locate_join_name_iff is_name).mp (same.trans located)).2.1

end RemovedDirectory

end FileTree
end StagedBuild
