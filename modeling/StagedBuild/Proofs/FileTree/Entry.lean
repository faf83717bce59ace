import StagedBuild.FileTree.Basic

/-!
# The view of a file tree

A tree is known by what its locations hold.  Every operation on trees is described by its effect on
this view, and the list behind a tree is not looked at again.
-/

namespace StagedBuild
namespace FileTree

variable (tree : FileTree)

@[simp]
theorem entry?_nil : tree.entry? [] = some .directory :=
  if_pos rfl

theorem entry?_keep (test : Location → Bool) (place : Location) :
    FileTree.entry? (tree.keep test) place =
      if place = [] ∨ test place = true then tree.entry? place else none := by
  by_cases root : place = []
  · simp [root]
  · simp only [keep, entry?, root, if_false, false_or, List.find?_filter]
    by_cases kept : test place = true
    · rw [if_pos kept]
      congr 2
      funext item
      by_cases same : item.1 = place
      · simp [same, kept]
      · simp [same]
    · rw [if_neg kept, Option.map_eq_none_iff, List.find?_eq_none]
      rintro item - found
      obtain ⟨item_kept, item_eq⟩ : test item.1 = true ∧ item.1 = place := by simpa using found
      exact kept (item_eq ▸ item_kept)

theorem entry?_erase (place other : Location) :
    FileTree.entry? (tree.erase place) other =
      if other = place ∧ other ≠ [] then none else tree.entry? other := by
  rw [erase, entry?_keep]
  by_cases same : other = place <;> by_cases root : other = [] <;> simp [same, root]

theorem entry?_insert (place : Location) (entry : Entry) (other : Location) :
    FileTree.entry? (tree.insert place entry) other =
      if other = place ∧ other ≠ [] then some entry else tree.entry? other := by
  by_cases root : other = []
  · simp [root]
  · have erased : ((tree.erase place).entries.find? fun item => item.1 == other).map Prod.snd =
        if other = place then none else tree.entry? other := by
      have view := entry?_erase tree place other
      simpa [root, entry?] using view
    rw [insert, entry?, if_neg root, List.find?_append, Option.map_or, erased]
    by_cases same : other = place
    · subst same
      simp [root]
    · simp [same, Ne.symm same]

theorem file?_eq_some_iff {place : Location} {file : File} :
    tree.file? place = some file ↔ tree.entry? place = some (.file file) := by
  rw [file?]
  split
  · rename_i found
    simp [found]
  · rename_i other
    simp only [reduceCtorEq, false_iff]
    exact other file

theorem isDirectory_iff {place : Location} :
    tree.isDirectory place = true ↔ tree.entry? place = some .directory := by
  rw [isDirectory, beq_iff_eq]

theorem file?_congr {tree other : FileTree} {place : Location}
    (same : other.entry? place = tree.entry? place) : other.file? place = tree.file? place := by
  rw [file?, file?, same]

theorem isDirectory_congr {tree other : FileTree} {place : Location}
    (same : tree.entry? place = other.entry? place) :
    tree.isDirectory place = other.isDirectory place := by
  rw [isDirectory, isDirectory, same]

theorem nameIn?_eq_some_iff {place other : Location} {name : String} :
    nameIn? place other = some name ↔ other = place ++ [name] := by
  rw [nameIn?]
  cases last : other.getLast? with
  | none =>
      obtain rfl := List.getLast?_eq_none_iff.mp last
      simp
  | some final =>
      obtain ⟨front, rfl⟩ := List.getLast?_eq_some_iff.mp last
      by_cases same : front = place <;> simp [same]

/-- The names in a directory are those of the locations one step below it that hold something. -/
theorem mem_names_iff {place : Location} {name : String} :
    name ∈ tree.names place ↔ (tree.entry? (place ++ [name])).isSome = true := by
  rw [names, List.mem_filterMap, entry?, if_neg (by simp), Option.isSome_map, List.find?_isSome]
  simp only [nameIn?_eq_some_iff, beq_iff_eq]

theorem names_nodup (place : Location) : (tree.names place).Nodup := by
  have listed : tree.names place = (tree.entries.map Prod.fst).filterMap (nameIn? place) := by
    rw [names, List.filterMap_map]
    rfl
  rw [listed]
  refine List.Pairwise.filterMap (nameIn? place) ?_ tree.distinct
  rintro first second differ name first_named other second_named rfl
  rw [nameIn?_eq_some_iff] at first_named second_named
  exact differ (first_named.trans second_named.symm)

/-- The place lies in a directory, at whatever depth. -/
def IsBelow (directory place : Location) : Prop :=
  directory <+: place ∧ place ≠ directory

instance (directory place : Location) : Decidable (IsBelow directory place) :=
  inferInstanceAs (Decidable (_ ∧ _))

theorem isBelow_iff {directory place : Location} :
    IsBelow directory place ↔ ∃ name rest, place = directory ++ name :: rest := by
  constructor
  · rintro ⟨⟨tail, rfl⟩, other⟩
    cases tail with
    | nil => exact absurd (List.append_nil directory) other
    | cons name rest => exact ⟨name, rest, rfl⟩
  · rintro ⟨name, rest, rfl⟩
    exact ⟨List.prefix_append _ _, by simp⟩

theorem isBelow_append_name (directory : Location) (name : String) :
    IsBelow directory (directory ++ [name]) :=
  isBelow_iff.mpr ⟨name, [], rfl⟩

theorem IsBelow.append {directory place : Location} (below : IsBelow directory place)
    (rest : List String) : IsBelow directory (place ++ rest) := by
  obtain ⟨name, more, rfl⟩ := isBelow_iff.mp below
  exact isBelow_iff.mpr ⟨name, more ++ rest, by simp⟩

/-- The trees hold the same at every place that is not inside the directory. -/
def SameOutside (directory : Location) (tree after : FileTree) : Prop :=
  ∀ place, ¬ IsBelow directory place → after.entry? place = tree.entry? place

theorem SameOutside.refl (directory : Location) (tree : FileTree) :
    SameOutside directory tree tree :=
  fun _ _ => rfl

theorem SameOutside.trans {directory : Location} {first second third : FileTree}
    (left : SameOutside directory first second) (right : SameOutside directory second third) :
    SameOutside directory first third :=
  fun place outside => (right place outside).trans (left place outside)

theorem sameOutside_erase {directory place : Location} (below : IsBelow directory place) :
    SameOutside directory tree (tree.erase place) := by
  intro other outside
  rw [entry?_erase, if_neg]
  rintro ⟨rfl, -⟩
  exact outside below

theorem sameOutside_insert {directory place : Location} (below : IsBelow directory place)
    (entry : Entry) : SameOutside directory tree (tree.insert place entry) := by
  intro other outside
  rw [entry?_insert, if_neg]
  rintro ⟨rfl, -⟩
  exact outside below

theorem entry?_clear (directory place : Location) :
    FileTree.entry? (tree.clear directory) place =
      if IsBelow directory place then none else tree.entry? place := by
  rw [clear, entry?_keep]
  by_cases below : IsBelow directory place
  · obtain ⟨name, rest, rfl⟩ := isBelow_iff.mp below
    have under : directory.isPrefixOf (directory ++ name :: rest) = true :=
      List.isPrefixOf_iff_prefix.mpr (List.prefix_append _ _)
    simp [below, under]
  · rw [if_neg below, if_pos]
    by_cases here : place = directory
    · simp [here]
    · have not_under : directory.isPrefixOf place = false := by
        rw [Bool.eq_false_iff, ne_eq, List.isPrefixOf_iff_prefix]
        exact fun under => below ⟨under, here⟩
      simp [not_under]

theorem sameOutside_clear (directory : Location) (tree : FileTree) :
    SameOutside directory tree (tree.clear directory) := by
  intro place outside
  rw [entry?_clear, if_neg outside]

theorem entry?_eraseBelow {directory : Location} (below_root : directory ≠ [])
    (place : Location) : FileTree.entry? (tree.eraseBelow directory) place =
      if directory <+: place then none else tree.entry? place := by
  rw [eraseBelow, entry?_keep]
  by_cases under : directory <+: place
  · have inside : place ≠ [] := by
      rintro rfl
      exact below_root (List.prefix_nil.mp under)
    simp [inside, under, List.isPrefixOf_iff_prefix.mpr under]
  · have not_under : directory.isPrefixOf place = false := by
      rw [Bool.eq_false_iff, ne_eq, List.isPrefixOf_iff_prefix]
      exact under
    simp [under, not_under]

/-- A place in one directory of a place is not in another directory of it. -/
theorem not_isBelow_sibling (place : Location) (name other : String) :
    ¬ IsBelow (place ++ [name]) (place ++ [other]) := by
  intro below
  obtain ⟨next, rest, whole⟩ := isBelow_iff.mp below
  have lengths := congrArg List.length whole
  simp at lengths

end FileTree
end StagedBuild
