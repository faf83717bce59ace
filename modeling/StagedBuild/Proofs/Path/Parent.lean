import StagedBuild.Proofs.Path.Segments

/-!
# Parents of paths

The directory of a path that ends in a name has the segments in front of that name, apart from a
trivial one at the end, and starts where the path starts.
-/

namespace StagedBuild
namespace Path

theorem trimEnd_append (segments : List String) :
    ∃ tail, segments = trimEnd segments ++ tail ∧ ∀ segment ∈ tail, isTrivial segment = true := by
  refine ⟨(segments.reverse.takeWhile isTrivial).reverse, ?_, ?_⟩
  · rw [trimEnd, ← List.reverse_append, List.takeWhile_append_dropWhile, List.reverse_reverse]
  · intro segment member
    exact List.all_eq_true.mp List.all_takeWhile segment (List.mem_reverse.mp member)

theorem trimEnd_concat (segments : List String) {last : String}
    (nontrivial : isTrivial last = false) : trimEnd (segments ++ [last]) = segments ++ [last] := by
  simp [trimEnd, nontrivial]

theorem trimEnd_eq_nil_or (segments : List String) :
    trimEnd segments = [] ∨
      ∃ init last, trimEnd segments = init ++ [last] ∧ isTrivial last = false := by
  cases kept : segments.reverse.dropWhile isTrivial with
  | nil => exact Or.inl (by simp [trimEnd, kept])
  | cons last init =>
      refine Or.inr ⟨init.reverse, last, by simp [trimEnd, kept], ?_⟩
      have first := List.head_dropWhile_not isTrivial (l := segments.reverse) (by simp [kept])
      simpa [kept] using first

theorem filterMap_bodyComponent_eq_nil {segments : List String}
    (trivials : ∀ segment ∈ segments, isTrivial segment = true) :
    segments.filterMap bodyComponent = [] := by
  rw [List.filterMap_eq_nil_iff]
  exact fun segment member => bodyComponent_eq_none_iff.mpr (trivials segment member)

/-- How a path starts decides what stands in front of its body. -/
theorem leading_cases (path : Path) :
    (path.isAbsolute = true ∧ path.leading = [.root] ∧ path.segments = "" :: path.body) ∨
      (path.isAbsolute = false ∧ path.leading = [.current] ∧ path.segments = "." :: path.body) ∨
      (path.isAbsolute = false ∧ path.leading = [] ∧ path.segments = path.body) := by
  by_cases absolute : path.isAbsolute = true
  · left
    have text_eq : ∃ rest : String, path.text = "" ++ "/" ++ rest := by
      rw [isAbsolute, beq_iff_eq, List.head?_eq_some_iff] at absolute
      obtain ⟨chars, chars_eq⟩ := absolute
      refine ⟨String.ofList chars, ?_⟩
      rw [← String.toList_inj, chars_eq]
      simp
    obtain ⟨rest, text_eq⟩ := text_eq
    have cut : path.segments = "" :: (Path.mk rest).segments := by
      have seam := segments_append_separator "" rest
      rw [← text_eq] at seam
      simpa [segments, Text.fields] using seam
    simp [absolute, leading, body, cut]
  · right
    cases first : path.segments with
    | nil => exact absurd first (segments_ne_nil path)
    | cons segment rest =>
        by_cases dot : segment = "."
        · left
          simp [absolute, leading, body, first, dot]
        · right
          simp [absolute, leading, body, first, dot]

theorem ofBody_body (path : Path) : ofBody path.leading path.body = path := by
  have text_eq := intercalate_segments path
  rcases leading_cases path with ⟨absolute, lead, cut⟩ | ⟨-, lead, cut⟩ | ⟨-, lead, cut⟩
  · cases rest : path.body with
    | nil =>
        rw [cut, rest] at text_eq
        simp [isAbsolute, ← text_eq] at absolute
    | cons segment segments =>
        rw [cut, rest, String.intercalate_cons_cons] at text_eq
        cases path
        simpa [lead, ofBody] using text_eq
  · rw [cut] at text_eq
    cases path
    simpa [lead, ofBody] using text_eq
  · rw [cut] at text_eq
    cases path
    simpa [lead, ofBody] using text_eq

/-- The body of a path that ends in a name, cut in front of that name. -/
theorem body_eq_of_fileName {path : Path} {name : String} (last : path.fileName? = some name) :
    ∃ init tail, path.body = init ++ name :: tail ∧ trimEnd path.body = init ++ [name] ∧
      isTrivial name = false ∧ name ≠ ".." ∧ ∀ segment ∈ tail, isTrivial segment = true := by
  have component : path.components.getLast? = some (.name name) := by
    rw [fileName?] at last
    split at last
    · rename_i segment component
      rw [component]
      simpa using last
    · simp at last
  obtain ⟨tail, body_eq, tail_trivial⟩ := trimEnd_append path.body
  have body_components : path.components =
      path.leading ++ (trimEnd path.body).filterMap bodyComponent := by
    have same : path.segments.filterMap bodyComponent = path.body.filterMap bodyComponent := by
      rcases leading_cases path with ⟨-, -, cut⟩ | ⟨-, -, cut⟩ | ⟨-, -, cut⟩
      · rw [cut, List.filterMap_cons_none (by decide)]
      · rw [cut, List.filterMap_cons_none (by decide)]
      · rw [cut]
    rw [components, same]
    conv => lhs; rw [body_eq]
    rw [List.filterMap_append, filterMap_bodyComponent_eq_nil tail_trivial, List.append_nil]
  rcases trimEnd_eq_nil_or path.body with empty | ⟨init, segment, trimmed, nontrivial⟩
  · rw [body_components, empty] at component
    rcases leading_cases path with ⟨-, lead, -⟩ | ⟨-, lead, -⟩ | ⟨-, lead, -⟩ <;>
      simp [lead] at component
  · obtain ⟨part, part_eq⟩ : ∃ part, bodyComponent segment = some part := by
      cases kept : bodyComponent segment with
      | none => simp [bodyComponent_eq_none_iff.mp kept] at nontrivial
      | some part => exact ⟨part, rfl⟩
    rw [body_components, trimmed, List.filterMap_append, ← List.append_assoc,
      List.filterMap_cons_some part_eq, List.filterMap_nil, List.getLast?_concat] at component
    obtain rfl : part = .name name := by simpa using component
    obtain ⟨rfl, name_nontrivial, name_ne⟩ := bodyComponent_eq_name_iff.mp part_eq
    refine ⟨init, tail, ?_, trimmed, name_nontrivial, name_ne, tail_trivial⟩
    conv => lhs; rw [body_eq, trimmed]
    simp

theorem directory_of_trimEnd {path : Path} {name : String} {init : List String}
    (last : path.fileName? = some name) (trimmed : trimEnd path.body = init ++ [name]) :
    path.directory = ofBody path.leading (trimEnd init) := by
  rw [fileName?] at last
  rw [directory, parent?]
  split at last
  · rename_i segment component
    simp [component, trimmed]
  · simp at last

theorem isAbsolute_intercalate_cons {first : String} (rest : List String)
    (whole : '/' ∉ first.toList) (nonempty : first ≠ "") :
    (Path.mk (String.intercalate "/" (first :: rest))).isAbsolute = false := by
  obtain ⟨char, chars, first_chars⟩ : ∃ char chars, first.toList = char :: chars :=
    List.exists_cons_of_ne_nil (by simpa using nonempty)
  have other : char ≠ '/' := by
    rintro rfl
    exact whole (by simp [first_chars])
  simp [isAbsolute, first_chars, other]

theorem ofBody_root (body : List String) :
    ofBody [.root] body = ⟨"/" ++ String.intercalate "/" body⟩ := rfl

theorem ofBody_current (body : List String) :
    ofBody [.current] body = ⟨String.intercalate "/" ("." :: body)⟩ := rfl

theorem ofBody_nil (body : List String) :
    ofBody [] body = ⟨String.intercalate "/" body⟩ := rfl

/-- A path built from the start of another one and some of its body starts where that one does. -/
theorem segments_ofBody {path : Path} {kept : List String} (kept_front : kept <+: path.body) :
    ∃ front, (path.segments = front ++ path.body ∧
        ∀ segment ∈ front, isTrivial segment = true) ∧
      ((ofBody path.leading kept).segments = front ++ kept ∨
        (ofBody path.leading kept).segments = front ++ kept ++ [""]) ∧
      (ofBody path.leading kept).isAbsolute = path.isAbsolute := by
  obtain ⟨rest, body_eq⟩ := kept_front
  have body_whole : ∀ part ∈ path.body, '/' ∉ part.toList := by
    intro part member
    have whole : part ∈ path.segments := by
      rcases leading_cases path with ⟨-, -, cut⟩ | ⟨-, -, cut⟩ | ⟨-, -, cut⟩ <;> simp [cut, member]
    exact separator_not_mem_of_mem_segments whole
  have kept_whole : ∀ part ∈ kept, '/' ∉ part.toList := by
    intro part member
    exact body_whole part (body_eq ▸ List.mem_append_left rest member)
  rcases leading_cases path with ⟨absolute, lead, cut⟩ | ⟨relative, lead, cut⟩ |
    ⟨relative, lead, cut⟩
  · rw [lead, ofBody_root, absolute]
    refine ⟨[""], ⟨cut, by decide⟩, ?_, by simp [isAbsolute]⟩
    have seam : (Path.mk ("/" ++ String.intercalate "/" kept)).segments =
        "" :: (Path.mk (String.intercalate "/" kept)).segments := by
      simpa [segments, Text.fields] using
        segments_append_separator "" (String.intercalate "/" kept)
    cases kept with
    | nil => exact Or.inr (by simpa [segments, Text.fields] using seam)
    | cons part kept =>
        left
        rw [seam, segments_intercalate (by simp) kept_whole]
        rfl
  · rw [lead, ofBody_current, relative]
    refine ⟨["."], ⟨cut, by decide⟩, Or.inl ?_, ?_⟩
    · rw [segments_intercalate (by simp) ?_]
      · rfl
      · intro part member
        rcases List.mem_cons.mp member with rfl | member
        · decide
        · exact kept_whole part member
    · exact isAbsolute_intercalate_cons kept (by decide) (by decide)
  · rw [lead, ofBody_nil, relative]
    refine ⟨[], ⟨cut, by simp⟩, ?_, ?_⟩
    · cases kept with
      | nil => exact Or.inr (by simp [segments, Text.fields])
      | cons part kept => exact Or.inl (segments_intercalate (by simp) kept_whole)
    · cases kept with
      | nil => simp [isAbsolute]
      | cons part kept =>
          by_cases blank : part = ""
          · -- A relative path with an empty first segment is empty.
            have text_eq : path.text = String.intercalate "/" ("" :: (kept ++ rest)) := by
              rw [← intercalate_segments path, cut, ← body_eq, blank]
              rfl
            cases more : kept ++ rest with
            | nil =>
                obtain ⟨rfl, rfl⟩ := List.append_eq_nil_iff.mp more
                simp [blank, isAbsolute]
            | cons next later =>
                rw [more, String.intercalate_cons_cons] at text_eq
                simp [isAbsolute, text_eq] at relative
          · exact isAbsolute_intercalate_cons kept (kept_whole part (by simp)) blank

theorem trimEnd_begins (segments : List String) : trimEnd segments <+: segments := by
  obtain ⟨tail, cut, -⟩ := trimEnd_append segments
  exact ⟨tail, cut.symm⟩

/-- The parent of a path is a beginning of the path, unless it is the empty path. -/
theorem segments_parent? {path parent : Path} (parent_eq : path.parent? = some parent)
    (nonempty : parent.text ≠ "") :
    ∃ front back, path.segments = front ++ back ∧
      (parent.segments = front ∨ parent.segments = front ++ [""]) ∧
      parent.isAbsolute = path.isAbsolute := by
  have built : parent = ofBody path.leading (trimEnd (trimEnd path.body).dropLast) := by
    rw [parent?] at parent_eq
    split at parent_eq
    · simp at parent_eq
    · simp at parent_eq
    · exact absurd (congrArg text (Option.some.inj parent_eq).symm) nonempty
    · exact (Option.some.inj parent_eq).symm
  have kept_front : trimEnd (trimEnd path.body).dropLast <+: path.body :=
    List.IsPrefix.trans (trimEnd_begins _)
      ((List.dropLast_prefix _).trans (trimEnd_begins _))
  obtain ⟨front, ⟨segments_eq, -⟩, kept, absolute⟩ := segments_ofBody kept_front
  obtain ⟨rest, body_eq⟩ := kept_front
  refine ⟨front ++ trimEnd (trimEnd path.body).dropLast, rest, ?_, built ▸ kept, built ▸ absolute⟩
  rw [segments_eq, List.append_assoc, body_eq]

/-- The directory of a path that ends in a name, in terms of segments. -/
theorem segments_directory {path : Path} {name : String} (last : path.fileName? = some name) :
    ∃ front back, path.segments = front ++ back ∧
      back.filterMap bodyComponent = [.name name] ∧
      (path.directory.segments = front ∨ path.directory.segments = front ++ [""]) ∧
      path.directory.isAbsolute = path.isAbsolute := by
  obtain ⟨init, tail, body_eq, trimmed, nontrivial, other, tail_trivial⟩ :=
    body_eq_of_fileName last
  obtain ⟨gap, init_eq, gap_trivial⟩ := trimEnd_append init
  have directory_eq := directory_of_trimEnd last trimmed
  have kept_front : trimEnd init <+: path.body := by
    refine ⟨gap ++ name :: tail, ?_⟩
    rw [body_eq, ← List.append_assoc, ← init_eq]
  obtain ⟨front, ⟨segments_eq, front_trivial⟩, kept, absolute⟩ := segments_ofBody kept_front
  refine ⟨front ++ trimEnd init, gap ++ name :: tail, ?_, ?_, ?_, ?_⟩
  · rw [segments_eq, body_eq]
    conv => lhs; rw [init_eq]
    simp
  · rw [List.filterMap_append, filterMap_bodyComponent_eq_nil gap_trivial, List.nil_append,
      List.filterMap_cons_some (bodyComponent_eq_name_iff.mpr ⟨rfl, nontrivial, other⟩),
      filterMap_bodyComponent_eq_nil tail_trivial]
  · rw [directory_eq]
    exact kept
  · rw [directory_eq]
    exact absolute

theorem fileName?_join (path : Path) {other name : String}
    (relative : (Path.mk other).isAbsolute = false)
    (body : (Path.mk other).segments.filterMap bodyComponent = [.name name]) :
    (path.join other).fileName? = some name := by
  have last : (path.join other).components.getLast? = some (.name name) := by
    rw [components, segments_join path relative, List.filterMap_append, body,
      ← List.append_assoc, List.getLast?_concat]
  simp [fileName?, last]

theorem IsName.fileName?_join {name : String} (is_name : IsName name) (path : Path) :
    (path.join name).fileName? = some name :=
  Path.fileName?_join path is_name.not_isAbsolute (by
    rw [is_name.segments, List.filterMap_cons_some is_name.bodyComponent, List.filterMap_nil])

/-- The directory of a joined name has segments in front of the name, and starts where the first
part starts. -/
theorem segments_directory_join (path : Path) {name : String} (is_name : IsName name) :
    ∃ front gap, path.front = front ++ gap ∧
      ((path.join name).directory.segments = front ∨
        (path.join name).directory.segments = front ++ [""]) ∧
      (path.join name).directory.isAbsolute = path.isAbsolute := by
  obtain ⟨front, back, segments_eq, back_name, kept, absolute⟩ :=
    segments_directory (is_name.fileName?_join path)
  rw [isAbsolute_join path is_name.not_isAbsolute] at absolute
  rcases List.eq_nil_or_concat back with rfl | ⟨gap, last, rfl⟩
  · simp at back_name
  · refine ⟨front, gap, ?_, kept, absolute⟩
    rw [segments_join_name path is_name, List.concat_eq_append, ← List.append_assoc] at segments_eq
    exact (List.append_inj' segments_eq rfl).1

theorem front_directory_join (path : Path) {name : String} (is_name : IsName name) :
    (path.join name).directory.front <+: path.front := by
  obtain ⟨front, gap, front_eq, kept, -⟩ := segments_directory_join path is_name
  rw [front_eq]
  rcases kept with kept | kept
  · have shorter := front_begins (path.join name).directory
    rw [kept] at shorter
    exact shorter.trans (List.prefix_append front gap)
  · rw [front_of_segments kept]
    exact List.prefix_append front gap

/-- Cutting off the name that was joined to a path that ends in a name gives the path back. -/
theorem directory_join_name {path : Path} {before : List String} {last name : String}
    (ends : path.segments = before ++ [last]) (last_name : IsName last) (is_name : IsName name) :
    (path.join name).directory = path := by
  have joined : (path.join name).segments = path.segments ++ [name] := by
    rw [segments_join_name path is_name, front_of_nonblank ends last_name.ne_empty]
  have same_start := isAbsolute_join path is_name.not_isAbsolute
  obtain ⟨body_eq, lead_eq⟩ : (path.join name).body = path.body ++ [name] ∧
      (path.join name).leading = path.leading := by
    have first : (path.join name).segments.head? = path.segments.head? := by
      rw [joined, ends]
      cases before <;> rfl
    have lead_eq : (path.join name).leading = path.leading := by
      rw [leading, leading, same_start, first]
    refine ⟨?_, lead_eq⟩
    rw [body, body, lead_eq, joined]
    split
    · rfl
    · rw [List.tail_append_of_ne_nil (segments_ne_nil path)]
  have trimmed : trimEnd (path.join name).body = path.body ++ [name] := by
    rw [body_eq, trimEnd_concat _ is_name.2.1]
  rw [directory_of_trimEnd (is_name.fileName?_join path) trimmed, lead_eq]
  have body_trimmed : trimEnd path.body = path.body := by
    rcases leading_cases path with ⟨-, -, cut⟩ | ⟨-, -, cut⟩ | ⟨-, -, cut⟩
    · cases before with
      | nil => exact absurd (List.cons.inj (cut.symm.trans ends)).1.symm last_name.ne_empty
      | cons first before =>
          rw [(List.cons.inj (cut.symm.trans ends)).2]
          exact trimEnd_concat before last_name.2.1
    · cases before with
      | nil =>
          have nontrivial := last_name.2.1
          rw [← (List.cons.inj (cut.symm.trans ends)).1] at nontrivial
          simp [isTrivial] at nontrivial
      | cons first before =>
          rw [(List.cons.inj (cut.symm.trans ends)).2]
          exact trimEnd_concat before last_name.2.1
    · rw [← cut, ends, trimEnd_concat before last_name.2.1]
  rw [body_trimmed, ofBody_body]

end Path
end StagedBuild
