import StagedBuild.Proofs.FileTree.Entry
import StagedBuild.Proofs.Path.Place

/-!
# Where walks end

A walk that succeeds ends at the place that the text of the path names, and every location that it
leaves is a directory.  A walk between directories therefore needs nothing but directories, and
succeeds in every tree that has them.
-/

namespace StagedBuild
namespace FileTree

open StagedBuild.Path (enter)

variable {tree : FileTree}

theorem step_of_not_directory {place : Location} (other : tree.isDirectory place = false)
    (segment : String) : tree.step place segment = .error .notDirectory := by
  simp [step, other]

theorem step_trivial {place : Location} {segment : String}
    (directory : tree.isDirectory place = true) (trivial : Path.isTrivial segment = true) :
    tree.step place segment = .ok place := by
  simp [step, directory, trivial]

theorem step_above {place : Location} (directory : tree.isDirectory place = true) :
    tree.step place ".." = .ok place.dropLast := by
  have nontrivial : Path.isTrivial ".." = false := by decide
  simp [step, directory, nontrivial]

theorem step_name {place : Location} {segment : String}
    (directory : tree.isDirectory place = true)
    (name : Path.bodyComponent segment = some (.name segment)) :
    tree.step place segment =
      if nameLimit < Utf8.size segment then .error .nameTooLong
      else if (tree.entry? (place ++ [segment])).isSome then .ok (place ++ [segment])
      else .error .noEntry := by
  obtain ⟨-, nontrivial, other⟩ := Path.bodyComponent_eq_name_iff.mp name
  simp [step, directory, nontrivial, other]

/-- Everything that one step checks. -/
theorem step_eq_ok_iff {place next : Location} {segment : String} :
    tree.step place segment = .ok next ↔
      tree.isDirectory place = true ∧ next = enter place segment ∧
        (Path.bodyComponent segment = some (.name segment) →
          Utf8.size segment ≤ nameLimit ∧ (tree.entry? next).isSome = true) := by
  by_cases directory : tree.isDirectory place = true
  · cases component : Path.bodyComponent segment with
    | none =>
        have trivial := Path.bodyComponent_eq_none_iff.mp component
        rw [step_trivial directory trivial, Path.enter_of_isTrivial trivial]
        simpa [directory] using eq_comm
    | some part =>
        rcases Path.eq_of_bodyComponent component with ⟨rfl, rfl⟩ | ⟨rfl, -, -⟩
        · have up : enter place ".." = place.dropLast := by simp [enter, Path.isTrivial]
          rw [step_above directory, up]
          simpa [directory] using eq_comm
        · rw [step_name directory component, Path.enter_of_bodyComponent component]
          split
          · rename_i long
            simp [Nat.not_le.mpr long]
          · rename_i short
            split
            · rename_i found
              simp only [Except.ok.injEq, directory, true_and, forall_const]
              constructor
              · rintro rfl
                exact ⟨rfl, Nat.not_lt.mp short, found⟩
              · exact fun checked => checked.1.symm
            · rename_i missing
              simp only [reduceCtorEq, directory, true_and, forall_const, false_iff, not_and]
              rintro rfl -
              exact missing
  · rw [step_of_not_directory (by simpa using directory)]
    simp [directory]

theorem walk_append (place : Location) (left right : List String) :
    tree.walk place (left ++ right) = (tree.walk place left).bind fun middle =>
      tree.walk middle right := by
  induction left generalizing place with
  | nil => rfl
  | cons segment left induction =>
      simp only [List.cons_append, walk]
      cases tree.step place segment with
      | error errno => rfl
      | ok next => exact induction next

theorem walk_append_eq_ok_iff {place last : Location} {left right : List String} :
    tree.walk place (left ++ right) = .ok last ↔
      ∃ middle, tree.walk place left = .ok middle ∧ tree.walk middle right = .ok last := by
  rw [walk_append]
  cases tree.walk place left with
  | error errno => simp [Except.bind]
  | ok middle => simp [Except.bind]

theorem walk_cons_eq_ok_iff {place last : Location} {segment : String} {rest : List String} :
    tree.walk place (segment :: rest) = .ok last ↔
      ∃ next, tree.step place segment = .ok next ∧ tree.walk next rest = .ok last := by
  simp only [walk]
  cases tree.step place segment with
  | error errno => simp [bind, Except.bind]
  | ok next => simp [bind, Except.bind]

theorem walk_eq_enter {place last : Location} {segments : List String}
    (walked : tree.walk place segments = .ok last) : last = segments.foldl enter place := by
  induction segments generalizing place with
  | nil => exact (Except.ok.inj walked).symm
  | cons segment segments induction =>
      obtain ⟨next, stepped, rest⟩ := walk_cons_eq_ok_iff.mp walked
      obtain ⟨-, rfl, -⟩ := step_eq_ok_iff.mp stepped
      exact induction rest

/-- A walk leaves nothing but directories. -/
theorem isDirectory_of_walk {place last : Location} {segments : List String}
    (walked : tree.walk place segments = .ok last) (goes_on : segments ≠ []) :
    tree.isDirectory place = true := by
  cases segments with
  | nil => exact absurd rfl goes_on
  | cons segment segments =>
      obtain ⟨next, stepped, -⟩ := walk_cons_eq_ok_iff.mp walked
      exact (step_eq_ok_iff.mp stepped).1

/-- A walk to a directory starts at one. -/
theorem isDirectory_start {place last : Location} {segments : List String}
    (walked : tree.walk place segments = .ok last) (last_directory : tree.isDirectory last = true) :
    tree.isDirectory place = true := by
  cases segments with
  | nil =>
      obtain rfl := Except.ok.inj walked
      exact last_directory
  | cons segment segments => exact isDirectory_of_walk walked (by simp)

/-- A walk between directories needs only that the directories are there. -/
theorem walk_of_directories {other : FileTree} {place last : Location} {segments : List String}
    (kept : ∀ place, tree.isDirectory place = true → other.isDirectory place = true)
    (walked : tree.walk place segments = .ok last)
    (last_directory : tree.isDirectory last = true) :
    other.walk place segments = .ok last := by
  induction segments generalizing place with
  | nil => exact walked
  | cons segment segments induction =>
      obtain ⟨next, stepped, rest⟩ := walk_cons_eq_ok_iff.mp walked
      obtain ⟨directory, next_eq, name⟩ := step_eq_ok_iff.mp stepped
      have next_directory := kept next (isDirectory_start rest last_directory)
      refine walk_cons_eq_ok_iff.mpr ⟨next, step_eq_ok_iff.mpr ⟨kept place directory, next_eq, ?_⟩,
        induction rest⟩
      intro is_name
      refine ⟨(name is_name).1, ?_⟩
      rw [(isDirectory_iff other).mp next_directory]
      rfl

/-- Trivial segments lead from a directory to itself. -/
theorem walk_trivial {place : Location} {segments : List String}
    (directory : tree.isDirectory place = true)
    (trivials : ∀ segment ∈ segments, Path.isTrivial segment = true) :
    tree.walk place segments = .ok place := by
  induction segments with
  | nil => rfl
  | cons segment segments induction =>
      have trivial := trivials segment List.mem_cons_self
      refine walk_cons_eq_ok_iff.mpr ⟨place, step_eq_ok_iff.mpr ⟨directory, ?_, ?_⟩,
        induction fun other member => trivials other (List.mem_cons_of_mem _ member)⟩
      · exact (Path.enter_of_isTrivial trivial place).symm
      · intro name
        simp [Path.bodyComponent, trivial] at name

/-- Between directories trivial segments make no difference to a walk. -/
theorem walk_filter_eq_ok_iff {place last : Location} {segments : List String}
    (last_directory : tree.isDirectory last = true) :
    tree.walk place (segments.filter fun segment => !Path.isTrivial segment) = .ok last ↔
      tree.walk place segments = .ok last := by
  induction segments generalizing place with
  | nil => rfl
  | cons segment segments induction =>
      cases trivial : Path.isTrivial segment with
      | true =>
          rw [List.filter_cons_of_neg (by simp [trivial]), induction, walk_cons_eq_ok_iff]
          constructor
          · intro walked
            exact ⟨place, step_trivial (isDirectory_start walked last_directory) trivial, walked⟩
          · rintro ⟨next, stepped, rest⟩
            rwa [(step_eq_ok_iff.mp stepped).2.1, Path.enter_of_isTrivial trivial] at rest
      | false =>
          rw [List.filter_cons_of_pos (by simp [trivial]), walk_cons_eq_ok_iff,
            walk_cons_eq_ok_iff]
          simp only [induction]

end FileTree
end StagedBuild
