import Mathlib.Algebra.GroupWithZero.Nat
import Mathlib.Algebra.Order.BigOperators.Group.List
import Mathlib.Algebra.Order.Group.Nat
import StagedBuild.FileTree.Walk
import StagedBuild.Proofs.Path.Segments

/-!
# Paths that the system reads

A path is refused for what its text holds, so dropping segments of a path that is read gives a path
that is read, unless nothing is left of it.
-/

namespace StagedBuild

theorem Utf8.size_append (left right : String) :
    Utf8.size (left ++ right) = Utf8.size left + Utf8.size right := by
  simp [Utf8.size, Utf8.encode]

namespace Path

theorem size_intercalate (parts : List String) :
    Utf8.size (String.intercalate "/" parts) =
      (parts.map Utf8.size).sum + (parts.length - 1) := by
  induction parts with
  | nil => simp [Utf8.size, Utf8.encode]
  | cons part parts induction =>
      cases parts with
      | nil => simp
      | cons next parts =>
          have one : Utf8.size "/" = 1 := by decide
          rw [String.intercalate_cons_cons, Utf8.size_append, Utf8.size_append, induction, one]
          simp
          omega

theorem size_join_name (path : Path) {name : String} (is_name : IsName name) :
    Utf8.size (path.join name).text =
      (path.front.map Utf8.size).sum + path.front.length + Utf8.size name := by
  rw [← intercalate_segments (path.join name), size_intercalate, segments_join_name path is_name]
  simp
  omega

theorem size_le_of_sublist {short long : Path}
    (dropped : short.segments.Sublist long.segments) :
    Utf8.size short.text ≤ Utf8.size long.text := by
  have sizes : (short.segments.map Utf8.size).sum ≤ (long.segments.map Utf8.size).sum :=
    (dropped.map Utf8.size).sum_le_sum fun size _ => Nat.zero_le size
  have lengths := dropped.length_le
  rw [← intercalate_segments short, ← intercalate_segments long, size_intercalate,
    size_intercalate]
  omega

theorem mem_text_iff {path : Path} {char : Char} (other : char ≠ '/') :
    char ∈ path.text.toList ↔ ∃ segment ∈ path.segments, char ∈ segment.toList := by
  have joined : ∀ parts : List String, char ∈ (String.intercalate "/" parts).toList ↔
      ∃ part ∈ parts, char ∈ part.toList := by
    intro parts
    induction parts with
    | nil => simp
    | cons part parts induction =>
        cases parts with
        | nil => simp
        | cons next parts =>
            rw [String.intercalate_cons_cons, String.toList_append, String.toList_append,
              List.mem_append, List.mem_append, induction, List.exists_mem_cons_iff]
            simp [other]
  rw [← joined, intercalate_segments]

theorem admissible_eq_ok_iff {path : Path} :
    FileTree.admissible path = .ok () ↔
      Char.ofNat 0 ∉ path.text.toList ∧ path.text ≠ "" ∧
        Utf8.size path.text < FileTree.pathLimit := by
  rw [FileTree.admissible]
  by_cases nul : Char.ofNat 0 ∈ path.text.toList
  · simp [nul]
  · by_cases empty : path.text = ""
    · simp [empty]
    · by_cases long : FileTree.pathLimit ≤ Utf8.size path.text
      · simp [nul, empty, long]
      · simp [nul, empty, long, Nat.lt_of_not_le long]

theorem admissible_of_sublist {short long : Path}
    (dropped : short.segments.Sublist long.segments) (nonempty : short.text ≠ "")
    (read : FileTree.admissible long = .ok ()) : FileTree.admissible short = .ok () := by
  obtain ⟨nul_free, -, in_limit⟩ := admissible_eq_ok_iff.mp read
  refine admissible_eq_ok_iff.mpr ⟨?_, nonempty, ?_⟩
  · rw [mem_text_iff (by decide)] at nul_free ⊢
    rintro ⟨segment, segment_mem, char_mem⟩
    exact nul_free ⟨segment, dropped.subset segment_mem, char_mem⟩
  · exact Nat.lt_of_le_of_lt (size_le_of_sublist dropped) in_limit

end Path
end StagedBuild
