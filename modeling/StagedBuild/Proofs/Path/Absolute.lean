import StagedBuild.Proofs.Path.Place

/-!
# Settled paths

Making a path absolute rewrites its text unless the path is settled: it starts at the root and has
no blank or `.` segment behind it.  What is joined to a path has the same text before and after the
path is made absolute exactly when the path is settled.
-/

namespace StagedBuild
namespace Path

/-- The blank segments in front of an absolute path; two separators in front count as one root. -/
def rootSegments (path : Path) : List String :=
  if path.hasDoubleRoot then ["", ""] else [""]

/-- The path is written from the root, without blank or `.` segments in front of its end. -/
def isSettled (path : Path) : Bool :=
  path.isAbsolute && (path.front.drop path.rootSegments.length).all fun segment => !isTrivial segment

theorem eq_of_segments {left right : Path} (same : left.segments = right.segments) :
    left = right := by
  have texts : left.text = right.text := by
    rw [← intercalate_segments left, same, intercalate_segments]
  cases left
  cases right
  exact congrArg Path.mk texts

theorem text_of_hasDoubleRoot {path : Path} (double : path.hasDoubleRoot = true) :
    ∃ rest : String, path.text = "" ++ "/" ++ ("" ++ "/" ++ rest) := by
  rw [hasDoubleRoot] at double
  split at double
  · simp at double
  · rename_i chars _ text_eq
    refine ⟨String.ofList chars, ?_⟩
    rw [← String.toList_inj, text_eq]
    simp
  · simp at double

theorem text_of_isAbsolute {path : Path} (absolute : path.isAbsolute = true) :
    ∃ rest : String, path.text = "" ++ "/" ++ rest := by
  rw [isAbsolute, beq_iff_eq, List.head?_eq_some_iff] at absolute
  obtain ⟨chars, text_eq⟩ := absolute
  refine ⟨String.ofList chars, ?_⟩
  rw [← String.toList_inj, text_eq]
  simp

theorem front_of_segments_append {path : Path} {lead rest : List String}
    (cut : path.segments = lead ++ rest) (goes_on : rest ≠ []) :
    ∃ more, path.front = lead ++ more := by
  rcases segments_eq_front path with whole | open_end
  · exact ⟨rest, whole ▸ cut⟩
  · refine ⟨rest.dropLast, ?_⟩
    rw [← List.dropLast_append_of_ne_nil goes_on, ← cut, open_end, List.dropLast_concat]

/-- An absolute path has its root in front of everything else. -/
theorem front_of_isAbsolute {path : Path} (absolute : path.isAbsolute = true) :
    ∃ rest, path.front = path.rootSegments ++ rest := by
  rw [rootSegments]
  split
  · rename_i double
    obtain ⟨rest, text_eq⟩ := text_of_hasDoubleRoot double
    have cut := segments_append_separator "" ("" ++ "/" ++ rest)
    rw [← text_eq, segments_append_separator, segments_empty, ← List.append_assoc] at cut
    exact front_of_segments_append cut (segments_ne_nil _)
  · obtain ⟨rest, text_eq⟩ := text_of_isAbsolute absolute
    have cut := segments_append_separator "" rest
    rw [← text_eq, segments_empty] at cut
    exact front_of_segments_append cut (segments_ne_nil _)

theorem rootSegments_trivial (path : Path) : ∀ segment ∈ path.rootSegments,
    isTrivial segment = true := by
  rw [rootSegments]
  split <;> decide

theorem filter_front (path : Path) :
    path.front.filter (fun segment => !isTrivial segment) =
      path.segments.filter fun segment => !isTrivial segment := by
  rcases segments_eq_front path with whole | open_end
  · rw [whole]
  · rw [open_end, List.filter_append, List.filter_cons_of_neg (by decide), List.filter_nil,
      List.append_nil]

theorem filter_rootSegments (path : Path) :
    path.rootSegments.filter (fun segment => !isTrivial segment) = [] := by
  rw [List.filter_eq_nil_iff]
  intro segment member
  simp [rootSegments_trivial path segment member]

theorem map_componentText_inner (path : Path) :
    path.inner.map componentText = path.front.filter fun segment => !isTrivial segment := by
  have kept : ∀ segments : List String, (segments.filterMap bodyComponent).map componentText =
      segments.filter fun segment => !isTrivial segment := by
    intro segments
    induction segments with
    | nil => rfl
    | cons segment segments induction =>
        cases body : bodyComponent segment with
        | none =>
            have trivial := bodyComponent_eq_none_iff.mp body
            rw [List.filterMap_cons_none body, induction, List.filter_cons_of_neg (by simp [trivial])]
        | some part =>
            rw [List.filterMap_cons_some body, List.map_cons, induction]
            rcases eq_of_bodyComponent body with ⟨rfl, rfl⟩ | ⟨rfl, nontrivial, -⟩
            · rw [List.filter_cons_of_pos (by decide)]
              rfl
            · rw [List.filter_cons_of_pos (by simp [nontrivial])]
              rfl
  rw [inner_eq, kept, filter_front]

theorem front_join_whole (path : Path) {text : String} (whole : '/' ∉ text.toList)
    (nonblank : text ≠ "") : (path.join text).front = path.front ++ [text] := by
  have relative : (Path.mk text).isAbsolute = false := by
    rw [isAbsolute, beq_eq_false_iff_ne]
    exact fun first => whole (List.mem_of_mem_head? first)
  have cut : (path.join text).segments = path.front ++ [text] := by
    rw [segments_join path relative, segments, Text.fields_eq_singleton whole]
  rw [front_of_nonblank cut nonblank, cut]

theorem front_join_empty (path : Path) : (path.join "").front = path.front :=
  front_of_segments (by rw [segments_join path (by decide), segments_empty])

theorem front_joinAll {path : Path} {parts : List Component} (inside : parts ⊆ path.inner)
    (base : Path) : (base.joinAll parts).front = base.front ++ parts.map componentText := by
  induction parts generalizing base with
  | nil => simp [joinAll]
  | cons part parts induction =>
      have next : (base.join (componentText part)).front = base.front ++ [componentText part] := by
        rcases mem_inner (inside List.mem_cons_self) with rfl | ⟨name, rfl, is_name⟩
        · exact front_join_whole base (by decide) (by decide)
        · exact front_join_whole base is_name.1 is_name.ne_empty
      have rest := induction (List.subset_of_cons_subset inside) (base.join (componentText part))
      rw [joinAll, List.foldl_cons, ← joinAll, rest, next, List.map_cons, List.append_assoc]
      rfl

/-- Joining the kept components, and a separator behind them, leaves out the trivial segments. -/
theorem front_joined (path base : Path) :
    (if path.endsInSeparator then (base.joinAll path.inner).join "" else
      base.joinAll path.inner).front =
      base.front ++ path.front.filter fun segment => !isTrivial segment := by
  have all_joined := front_joinAll (List.Subset.refl path.inner) base
  rw [map_componentText_inner] at all_joined
  split
  · rw [front_join_empty, all_joined]
  · exact all_joined

/-- An absolute path that is made absolute keeps its root and loses its trivial segments. -/
theorem front_absoluteFrom {cwd path result : Path} (path_absolute : path.isAbsolute = true)
    (absolute : absoluteFrom cwd path = .ok result) :
    result.front = path.rootSegments ++ path.front.filter fun segment => !isTrivial segment := by
  rw [absoluteFrom] at absolute
  split at absolute
  · simp at absolute
  · have base_front : (if path.hasDoubleRoot then Path.mk "//" else ⟨"/"⟩).front =
        path.rootSegments := by
      rw [rootSegments]
      split <;> decide
    rw [← Except.ok.inj absolute, ← base_front]
    exact front_joined path _

theorem hasDoubleRoot_of_relative {path : Path} (relative : path.isAbsolute = false) :
    path.hasDoubleRoot = false := by
  rw [Bool.eq_false_iff]
  intro double
  obtain ⟨rest, text_eq⟩ := text_of_hasDoubleRoot double
  simp [isAbsolute, text_eq] at relative

/-- A relative path that is made absolute goes on from the current directory. -/
theorem front_absoluteFrom_of_relative {cwd path result : Path}
    (relative : path.isAbsolute = false) (absolute : absoluteFrom cwd path = .ok result) :
    result.front = cwd.front ++ path.front.filter fun segment => !isTrivial segment := by
  rw [absoluteFrom] at absolute
  split at absolute
  · simp at absolute
  · have base_eq : (if path.hasDoubleRoot then Path.mk "//" else
        if path.isAbsolute then ⟨"/"⟩ else cwd) = cwd := by
      simp [hasDoubleRoot_of_relative relative, relative]
    rw [← Except.ok.inj absolute, base_eq]
    exact front_joined path cwd

theorem segments_joinAll {path : Path} {parts : List Component} (inside : parts ⊆ path.inner)
    (some_part : parts ≠ []) (base : Path) :
    (base.joinAll parts).segments = (base.joinAll parts).front := by
  obtain ⟨init, last, rfl⟩ := (List.eq_nil_or_concat parts).resolve_left some_part
  rw [List.concat_eq_append] at inside ⊢
  have joined : base.joinAll (init ++ [last]) =
      (base.joinAll init).join (componentText last) := by
    simp [joinAll]
  rw [joined]
  rcases mem_inner (inside (List.mem_append_right init List.mem_cons_self)) with
    rfl | ⟨name, rfl, is_name⟩
  · have cut := segments_join (base.joinAll init) (by decide : (Path.mk "..").isAbsolute = false)
    rw [segments_above] at cut
    exact (front_of_nonblank cut (by decide)).symm
  · exact (front_of_nonblank (segments_join_name _ is_name) is_name.ne_empty).symm

/-- Only a separator at the end of a path leaves a segment open when it is made absolute. -/
theorem segments_absoluteFrom {cwd path result : Path} (goes_on : path.inner ≠ [])
    (absolute : absoluteFrom cwd path = .ok result) :
    result.segments = result.front ++ if path.endsInSeparator then [""] else [] := by
  rw [absoluteFrom] at absolute
  split at absolute
  · simp at absolute
  · rw [← Except.ok.inj absolute]
    split
    · rw [segments_join _ (by decide), segments_empty, front_join_empty]
    · rw [List.append_nil]
      exact segments_joinAll (List.Subset.refl path.inner) goes_on _

theorem isAbsolute_absoluteFrom {cwd path result : Path} (cwd_absolute : cwd.isAbsolute = true)
    (absolute : absoluteFrom cwd path = .ok result) : result.isAbsolute = true :=
  (absoluteFrom_spec cwd_absolute rfl absolute).1

/-- What is joined has the same text before and after the path is made absolute exactly when the
path is settled. -/
theorem join_absoluteFrom_eq_iff {cwd path result : Path} {other : String}
    (cwd_absolute : cwd.isAbsolute = true) (relative : (Path.mk other).isAbsolute = false)
    (absolute : absoluteFrom cwd path = .ok result) :
    result.join other = path.join other ↔ path.isSettled = true := by
  have same_join : result.join other = path.join other ↔ result.front = path.front ∧
      path.isAbsolute = true := by
    constructor
    · intro same
      have result_absolute := isAbsolute_absoluteFrom cwd_absolute absolute
      rw [← isAbsolute_join result relative, same, isAbsolute_join path relative] at result_absolute
      have cuts := congrArg segments same
      rw [segments_join result relative, segments_join path relative] at cuts
      exact ⟨List.append_cancel_right cuts, result_absolute⟩
    · rintro ⟨fronts, -⟩
      apply eq_of_segments
      rw [segments_join result relative, segments_join path relative, fronts]
  rw [same_join, isSettled, Bool.and_eq_true, and_comm]
  apply and_congr_right
  intro path_absolute
  obtain ⟨rest, front_eq⟩ := front_of_isAbsolute path_absolute
  rw [front_absoluteFrom path_absolute absolute, front_eq, List.filter_append,
    filter_rootSegments, List.nil_append, List.append_cancel_left_eq, List.drop_left,
    List.filter_eq_self, List.all_eq_true]

end Path
end StagedBuild
