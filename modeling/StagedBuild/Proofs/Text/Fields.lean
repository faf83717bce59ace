import StagedBuild.Text.Fields

/-!
# Cutting and joining texts

Cutting a text at a separator and joining the fields with it are inverse to each other.  Cutting is
a morphism: a separator between two texts becomes the seam between their fields.
-/

namespace StagedBuild
namespace Text

theorem foldr_consField_ne_nil (separator : Char) (chars : List Char) :
    chars.foldr (consField separator) [[]] ≠ [] := by
  cases chars with
  | nil => simp
  | cons char chars =>
      simp only [List.foldr_cons]
      cases chars.foldr (consField separator) [[]] with
      | nil => simp [consField]
      | cons field rest => by_cases same : char = separator <;> simp [consField, same]

theorem foldr_consField_append (separator : Char) (left right : List Char) :
    (left ++ separator :: right).foldr (consField separator) [[]] =
      left.foldr (consField separator) [[]] ++ right.foldr (consField separator) [[]] := by
  induction left with
  | nil =>
      obtain ⟨field, rest, cut⟩ :=
        List.exists_cons_of_ne_nil (foldr_consField_ne_nil separator right)
      simp [cut, consField]
  | cons char left induction =>
      obtain ⟨field, rest, cut⟩ :=
        List.exists_cons_of_ne_nil (foldr_consField_ne_nil separator left)
      simp only [List.cons_append, List.foldr_cons, induction, cut]
      by_cases same : char = separator <;> simp [consField, same]

/-- A separator between two texts is the seam between their fields. -/
theorem fields_append (separator : Char) (left right : String) :
    fields separator (left ++ String.singleton separator ++ right) =
      fields separator left ++ fields separator right := by
  have chars : (left ++ String.singleton separator ++ right).toList =
      left.toList ++ separator :: right.toList := by simp
  rw [fields, chars, foldr_consField_append, List.map_append, fields, fields]

theorem fields_eq_singleton {separator : Char} {text : String}
    (whole : separator ∉ text.toList) : fields separator text = [text] := by
  have cut : ∀ chars : List Char, separator ∉ chars →
      chars.foldr (consField separator) [[]] = [chars] := by
    intro chars absent
    induction chars with
    | nil => rfl
    | cons char chars induction =>
        simp only [List.mem_cons, not_or] at absent
        rw [List.foldr_cons, induction absent.2]
        simp [consField, Ne.symm absent.1]
  simp [fields, cut text.toList whole]

theorem separator_not_mem_of_mem_fields {separator : Char} {text field : String}
    (member : field ∈ fields separator text) : separator ∉ field.toList := by
  have cut : ∀ chars : List Char, ∀ part ∈ chars.foldr (consField separator) [[]],
      separator ∉ part := by
    intro chars
    induction chars with
    | nil => simp
    | cons char chars induction =>
        obtain ⟨first, rest, cut⟩ :=
          List.exists_cons_of_ne_nil (foldr_consField_ne_nil separator chars)
        simp only [List.foldr_cons, cut] at induction ⊢
        by_cases same : char = separator
        · simpa [consField, same] using induction
        · simpa [consField, same, Ne.symm same] using induction
  obtain ⟨part, part_mem, rfl⟩ := List.mem_map.mp member
  simpa using cut text.toList part part_mem

theorem fields_ne_nil (separator : Char) (text : String) : fields separator text ≠ [] := by
  simpa [fields] using foldr_consField_ne_nil separator text.toList

/-- Joining texts without separators and cutting the result gives the texts back. -/
theorem fields_intercalate {separator : Char} {parts : List String} (nonempty : parts ≠ [])
    (whole : ∀ part ∈ parts, separator ∉ part.toList) :
    fields separator ((String.singleton separator).intercalate parts) = parts := by
  induction parts with
  | nil => exact absurd rfl nonempty
  | cons part parts induction =>
      have part_whole := fields_eq_singleton (whole part List.mem_cons_self)
      cases parts with
      | nil => simpa using part_whole
      | cons next parts =>
          rw [String.intercalate_cons_cons, fields_append, part_whole,
            induction (by simp) fun other member =>
              whole other (List.mem_cons_of_mem part member)]
          rfl

/-- The fields of a text, joined again. -/
theorem intercalate_fields (separator : Char) (text : String) :
    (String.singleton separator).intercalate (fields separator text) = text := by
  have joined : ∀ chars : List Char,
      [separator].intercalate (chars.foldr (consField separator) [[]]) = chars := by
    intro chars
    induction chars with
    | nil => rfl
    | cons char chars induction =>
        obtain ⟨first, rest, cut⟩ :=
          List.exists_cons_of_ne_nil (foldr_consField_ne_nil separator chars)
        simp only [List.foldr_cons, cut] at induction ⊢
        by_cases same : char = separator
        · simp [consField, same, List.intercalate_cons_cons, induction]
        · simp [consField, same, List.intercalate_cons_cons_left, induction]
  rw [← String.toList_inj, String.toList_intercalate]
  simpa [fields, Function.comp_def] using joined text.toList

end Text
end StagedBuild
