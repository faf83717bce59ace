import StagedBuild.Path
import StagedBuild.Proofs.Text.Fields

/-!
# Segments of built paths

What joining and taking the parent do to the text of a path is said once in terms of segments: a
joined path has the segments of both parts, and a parent path has those in front of the last name.
-/

namespace StagedBuild
namespace Path

/-- The text is one name of a file or directory. -/
def IsName (text : String) : Prop :=
  '/' ∉ text.toList ∧ isTrivial text = false ∧ text ≠ ".."

instance (text : String) : Decidable (IsName text) :=
  inferInstanceAs (Decidable (_ ∧ _ ∧ _))

theorem isTrivial_iff (segment : String) :
    isTrivial segment = true ↔ segment = "" ∨ segment = "." := by
  simp [isTrivial]

/-- A segment in the body of a path stands for its parent or for a name. -/
theorem eq_of_bodyComponent {segment : String} {part : Component}
    (body : bodyComponent segment = some part) :
    (part = .parent ∧ segment = "..") ∨
      (part = .name segment ∧ isTrivial segment = false ∧ segment ≠ "..") := by
  simp only [bodyComponent] at body
  split at body
  · simp at body
  · rename_i nontrivial
    split at body
    · rename_i above
      exact Or.inl ⟨(Option.some.inj body).symm, by simpa using above⟩
    · rename_i other
      exact Or.inr ⟨(Option.some.inj body).symm, by simpa using nontrivial, by simpa using other⟩

theorem bodyComponent_eq_name_iff {segment name : String} :
    bodyComponent segment = some (.name name) ↔
      segment = name ∧ isTrivial name = false ∧ name ≠ ".." := by
  constructor
  · intro body
    rcases eq_of_bodyComponent body with ⟨parent, -⟩ | ⟨same, nontrivial, other⟩
    · simp at parent
    · obtain rfl := Component.name.inj same
      exact ⟨rfl, nontrivial, other⟩
  · rintro ⟨rfl, nontrivial, other⟩
    simp [bodyComponent, nontrivial, other]

theorem bodyComponent_eq_none_iff {segment : String} :
    bodyComponent segment = none ↔ isTrivial segment = true := by
  by_cases trivial : isTrivial segment = true
  · simp [bodyComponent, trivial]
  · simp only [bodyComponent, trivial, Bool.false_eq_true, if_false]
    split <;> simp

theorem IsName.bodyComponent {text : String} (name : IsName text) :
    bodyComponent text = some (.name text) :=
  bodyComponent_eq_name_iff.mpr ⟨rfl, name.2⟩

theorem IsName.segments {text : String} (name : IsName text) : (Path.mk text).segments = [text] :=
  Text.fields_eq_singleton name.1

theorem separator_not_mem_of_mem_segments {path : Path} {segment : String}
    (member : segment ∈ path.segments) : '/' ∉ segment.toList :=
  Text.separator_not_mem_of_mem_fields member

theorem segments_ne_nil (path : Path) : path.segments ≠ [] :=
  Text.fields_ne_nil '/' path.text

theorem segments_empty : (Path.mk "").segments = [""] := by
  simp [segments, Text.fields]

theorem segments_above : (Path.mk "..").segments = [".."] :=
  Text.fields_eq_singleton (by decide)

theorem segments_append_separator (left right : String) :
    (Path.mk (left ++ "/" ++ right)).segments =
      (Path.mk left).segments ++ (Path.mk right).segments :=
  Text.fields_append '/' left right

theorem segments_intercalate {parts : List String} (nonempty : parts ≠ [])
    (whole : ∀ part ∈ parts, '/' ∉ part.toList) :
    (Path.mk (String.intercalate "/" parts)).segments = parts :=
  Text.fields_intercalate nonempty whole

theorem intercalate_segments (path : Path) : String.intercalate "/" path.segments = path.text :=
  Text.intercalate_fields '/' path.text

theorem IsName.not_isAbsolute {text : String} (name : IsName text) :
    (Path.mk text).isAbsolute = false := by
  rw [isAbsolute, beq_eq_false_iff_ne]
  intro first
  exact name.1 (List.mem_of_mem_head? first)

theorem eq_append_of_endsInSeparator {path : Path} (ends : path.endsInSeparator = true) :
    ∃ front : String, path.text = front ++ "/" := by
  rw [endsInSeparator, beq_iff_eq, List.getLast?_eq_some_iff] at ends
  obtain ⟨chars, chars_eq⟩ := ends
  refine ⟨String.ofList chars, ?_⟩
  rw [← String.toList_inj, chars_eq]
  simp

/-- What is written behind a path without a separator extends its last segment. -/
theorem segments_append {text tail : String} (whole : '/' ∉ tail.toList) :
    ∃ init last, (Path.mk text).segments = init ++ [last] ∧
      (Path.mk (text ++ tail)).segments = init ++ [last ++ tail] := by
  rcases List.eq_nil_or_concat (Path.mk text).segments with none | ⟨init, last, cut⟩
  · exact absurd none (segments_ne_nil _)
  · rw [List.concat_eq_append] at cut
    refine ⟨init, last, cut, ?_⟩
    have parts_whole : ∀ part ∈ init ++ [last], '/' ∉ part.toList := fun part member =>
      separator_not_mem_of_mem_segments (cut ▸ member)
    have joined : String.intercalate "/" (init ++ [last]) = text := by
      rw [← cut]
      exact intercalate_segments ⟨text⟩
    have text_eq : text ++ tail = String.intercalate "/" (init ++ [last ++ tail]) := by
      rw [← joined]
      cases init with
      | nil => simp
      | cons first init =>
          rw [String.intercalate_append_of_ne_nil (by simp) (by simp),
            String.intercalate_append_of_ne_nil (by simp) (by simp)]
          simp [String.append_assoc]
    rw [text_eq, segments_intercalate (by simp)]
    intro part member
    rcases List.mem_append.mp member with init_mem | last_mem
    · exact parts_whole part (List.mem_append_left _ init_mem)
    · obtain rfl := List.mem_singleton.mp last_mem
      simp [parts_whole last (by simp), whole]

/-- The segments of a path that stand in front of what is joined to it. -/
def front (path : Path) : List String :=
  if path.text = "" ∨ path.endsInSeparator = true then path.segments.dropLast else path.segments

/-- Nothing is joined behind a segment that is still open at the end of a path. -/
theorem segments_eq_front (path : Path) :
    path.segments = path.front ∨ path.segments = path.front ++ [""] := by
  by_cases empty : path.text = ""
  · right
    simp [front, segments, empty, Text.fields]
  · by_cases ends : path.endsInSeparator = true
    · right
      obtain ⟨text, text_eq⟩ := eq_append_of_endsInSeparator ends
      have cut : path.segments = (Path.mk text).segments ++ [""] := by
        simpa [segments, text_eq, Text.fields] using segments_append_separator text ""
      simp [front, ends, cut]
    · left
      simp [front, empty, ends]

theorem segments_join (path : Path) {other : String}
    (relative : (Path.mk other).isAbsolute = false) :
    (path.join other).segments = path.front ++ (Path.mk other).segments := by
  by_cases empty : path.text = ""
  · simp [join, relative, empty, front, segments, Text.fields]
  · by_cases ends : path.endsInSeparator = true
    · obtain ⟨text, text_eq⟩ := eq_append_of_endsInSeparator ends
      have cut : path.segments = (Path.mk text).segments ++ [""] := by
        simpa [segments, text_eq, Text.fields] using segments_append_separator text ""
      have joined : path.join other = ⟨text ++ "/" ++ other⟩ := by
        simp [join, relative, ends, text_eq]
      rw [joined, segments_append_separator, front, if_pos (Or.inr ends), cut,
        List.dropLast_concat]
    · have joined : path.join other = ⟨path.text ++ "/" ++ other⟩ := by
        simp [join, relative, empty, ends]
      rw [joined, segments_append_separator, front, if_neg (by simp [empty, ends])]

theorem isAbsolute_join (path : Path) {other : String}
    (relative : (Path.mk other).isAbsolute = false) :
    (path.join other).isAbsolute = path.isAbsolute := by
  by_cases empty : path.text = ""
  · have path_relative : path.isAbsolute = false := by simp [isAbsolute, empty]
    simp [join, relative, empty, path_relative]
  · obtain ⟨first, rest, chars⟩ : ∃ first rest, path.text.toList = first :: rest :=
      List.exists_cons_of_ne_nil (by simpa using empty)
    by_cases ends : path.endsInSeparator = true
    · rw [join, if_neg (by simp [relative]), if_pos (by simp [ends])]
      simp [isAbsolute, chars]
    · rw [join, if_neg (by simp [relative]), if_neg (by simp [empty, ends])]
      simp [isAbsolute, chars]

theorem IsName.isAbsolute_join {directory : Path} {name : String} (is_name : IsName name)
    (absolute : directory.isAbsolute = true) : (directory.join name).isAbsolute = true :=
  (Path.isAbsolute_join directory is_name.not_isAbsolute).trans absolute

theorem front_begins (path : Path) : path.front <+: path.segments := by
  rcases segments_eq_front path with cut | cut
  · exact ⟨[], by rw [List.append_nil, cut]⟩
  · exact ⟨[""], cut.symm⟩

/-- A path whose last segment is open has the other segments in front of what is joined. -/
theorem front_of_segments {path : Path} {closed : List String}
    (cut : path.segments = closed ++ [""]) : path.front = closed := by
  rw [front, if_pos ?_, cut, List.dropLast_concat]
  cases closed with
  | nil =>
      left
      rw [← intercalate_segments path, cut]
      simp
  | cons segment closed =>
      right
      rw [endsInSeparator, ← intercalate_segments path, cut,
        String.intercalate_append_of_ne_nil (by simp) (by simp)]
      simp

theorem front_of_nonblank {path : Path} {before : List String} {last : String}
    (cut : path.segments = before ++ [last]) (nonblank : last ≠ "") :
    path.front = path.segments := by
  rcases segments_eq_front path with same | open_end
  · exact same.symm
  · rw [open_end] at cut
    have last_eq := (List.append_inj' cut rfl).2
    exact absurd (List.cons.inj last_eq).1.symm nonblank

theorem IsName.ne_empty {text : String} (name : IsName text) : text ≠ "" := by
  rintro rfl
  simp [IsName, isTrivial] at name

theorem segments_join_name (path : Path) {name : String} (is_name : IsName name) :
    (path.join name).segments = path.front ++ [name] := by
  rw [segments_join path is_name.not_isAbsolute, is_name.segments]

theorem text_join_name_ne_empty (path : Path) {name : String} (is_name : IsName name) :
    (path.join name).text ≠ "" := by
  intro empty
  have cut := segments_join_name path is_name
  rw [segments, empty] at cut
  have last_eq := congrArg List.getLast? cut
  simp [Text.fields, is_name.ne_empty.symm] at last_eq

theorem front_join_name (path : Path) {name : String} (is_name : IsName name) :
    (path.join name).front = path.front ++ [name] := by
  rw [front_of_nonblank (segments_join_name path is_name) is_name.ne_empty,
    segments_join_name path is_name]

theorem endsInSeparator_join_name (path : Path) {name : String} (is_name : IsName name) :
    (path.join name).endsInSeparator = false := by
  rw [Bool.eq_false_iff]
  intro ends
  obtain ⟨text, text_eq⟩ := eq_append_of_endsInSeparator ends
  have seam := segments_append_separator text ""
  have cut := segments_join_name path is_name
  rw [String.append_empty, ← text_eq, cut, segments_empty] at seam
  have last_eq := (List.append_inj' seam rfl).2
  exact is_name.ne_empty (List.cons.inj last_eq).1

end Path
end StagedBuild
