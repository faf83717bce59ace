import StagedBuild.Proofs.Build.Attempt

/-!
# Names that are refused

The check of a file name looks at components, and so it does not see separators and `.` segments
behind a name.  Apart from names that are padded in this way, every name that leaves or enters a
directory is refused before anything is touched.
-/

namespace StagedBuild

namespace Path

/-- The text is a name with a separator behind it, and then nothing but separators and `.`. -/
def IsPaddedName (text : String) : Prop :=
  ∃ name rest, text = name ++ "/" ++ rest ∧ IsName name ∧
    ∀ segment ∈ (Path.mk rest).segments, isTrivial segment = true

theorem isPlainName_of_segments {text name : String} {rest : List String}
    (cut : (Path.mk text).segments = name :: rest) (is_name : IsName name)
    (trivials : ∀ segment ∈ rest, isTrivial segment = true) : isPlainName text = true := by
  have nontrivial : isTrivial name = false := is_name.2.1
  have lead : (Path.mk text).leading = [] := by
    rcases leading_cases (Path.mk text) with ⟨-, -, body⟩ | ⟨-, -, body⟩ | ⟨-, lead, -⟩
    · rw [cut, List.cons.injEq] at body
      simp [body.1, isTrivial] at nontrivial
    · rw [cut, List.cons.injEq] at body
      simp [body.1, isTrivial] at nontrivial
    · exact lead
  rw [isPlainName, components, lead, cut, List.filterMap_cons_some is_name.bodyComponent,
    filterMap_bodyComponent_eq_nil trivials]
  rfl

/-- A plain name is a name as it is, or padded. -/
theorem isPlainName_iff {text : String} :
    isPlainName text = true ↔ IsName text ∨ IsPaddedName text := by
  constructor
  · intro plain
    obtain ⟨-, name, rest, cut, is_name, trivials⟩ := segments_of_isPlainName plain
    have text_eq := intercalate_segments (Path.mk text)
    rw [cut] at text_eq
    cases rest with
    | nil =>
        rw [String.intercalate_singleton] at text_eq
        exact .inl (text_eq.subst is_name)
    | cons segment rest =>
        rw [String.intercalate_cons_cons] at text_eq
        have whole : ∀ part ∈ segment :: rest, '/' ∉ part.toList := fun part member =>
          separator_not_mem_of_mem_segments (cut ▸ List.mem_cons_of_mem name member)
        refine .inr ⟨name, _, text_eq.symm, is_name, ?_⟩
        rwa [segments_intercalate (List.cons_ne_nil segment rest) whole]
  · rintro (is_name | ⟨name, rest, rfl, is_name, trivials⟩)
    · exact is_name.isPlainName
    · have cut := segments_append_separator name rest
      rw [is_name.segments, List.singleton_append] at cut
      exact isPlainName_of_segments cut is_name trivials

end Path

namespace StagedArtifact

open StagedBuild.Path (IsName IsPaddedName)

variable {platform : Platform} {outDir : Path} {target : Target} {world : World}

/-- The error for a file name that is not plain. -/
def notPlain (platform : Platform) (target : Target) : BuildError :=
  .io ("artifact name `" ++ target.fileName platform ++ "` of target `" ++ target.name
    ++ "` is not a plain file name") (.bare .invalidInput)

theorem io_ne_notPlain {context : String} {source : IoError}
    (other : context.toList.head? ≠ some 'a') :
    BuildError.io context source ≠ notPlain platform target := by
  intro same
  have context_eq := (BuildError.io.inj same).1
  rw [context_eq] at other
  simp at other

theorem prepare_of_not_plain (refused : Path.isPlainName (target.fileName platform) = false) :
    prepare platform outDir target world = (.error (notPlain platform target), world) := by
  rw [prepare, if_pos (by simp [refused])]
  rfl

/-- What else goes wrong is told apart from a name that is not plain. -/
theorem prepare_of_plain (plain : Path.isPlainName (target.fileName platform) = true) :
    (prepare platform outDir target world).1 ≠ .error (notPlain platform target) := by
  rw [prepare, if_neg (by simp [plain])]
  split
  · exact fun same => io_ne_notPlain (by simp) (Except.error.inj same)
  · dsimp only
    split
    · exact fun same => io_ne_notPlain (by simp) (Except.error.inj same)
    · split
      · exact fun same => io_ne_notPlain (by simp) (Except.error.inj same)
      · simp

/--
Let the file name of an artifact be empty, `.` or `..`, or let it contain a separator.  It is
refused with an error and without an effect, unless it is a name with nothing but separators and `.`
segments behind it.
-/
theorem prepare_refuses_name_iff
    (suspect : target.fileName platform = "" ∨ target.fileName platform = "." ∨
      target.fileName platform = ".." ∨ '/' ∈ (target.fileName platform).toList)
    (outDir : Path) (world : World) :
    prepare platform outDir target world = (.error (notPlain platform target), world) ↔
      ¬ IsPaddedName (target.fileName platform) := by
  have no_name : ¬ IsName (target.fileName platform) := by
    rintro ⟨whole, nontrivial, not_above⟩
    rcases suspect with empty | dot | above | separator
    · simp [empty, Path.isTrivial] at nontrivial
    · simp [dot, Path.isTrivial] at nontrivial
    · exact not_above above
    · exact whole separator
  have plain_iff : Path.isPlainName (target.fileName platform) = true ↔
      IsPaddedName (target.fileName platform) := by
    rw [Path.isPlainName_iff, or_iff_right no_name]
  rw [← plain_iff, Bool.not_eq_true]
  constructor
  · intro refused
    rw [← Bool.not_eq_true]
    exact fun plain => prepare_of_plain plain (congrArg Prod.fst refused)
  · exact prepare_of_not_plain

/-- A name that enters a directory is refused. -/
theorem entering_name_is_refused :
    let target := Target.application.withOutputName "sub/app"
    '/' ∈ (target.fileName .unix).toList ∧
      prepare .unix ⟨"bin"⟩ target .project = (.error (notPlain .unix target), .project) := by
  intro target
  have enters : '/' ∈ (target.fileName .unix).toList := by decide
  refine ⟨enters, (prepare_refuses_name_iff (.inr (.inr (.inr enters))) ⟨"bin"⟩ .project).mpr ?_⟩
  intro padded
  exact absurd (Path.isPlainName_iff.mpr (.inr padded)) (by decide)

/-- A name with a separator behind it is accepted, and the staging directory is created. -/
theorem padded_name_is_accepted :
    let target := Target.application.withOutputName "app/"
    let prepared := prepare .unix ⟨"bin"⟩ target .project
    '/' ∈ (target.fileName .unix).toList ∧
      prepared.1 = .ok (locate .unix ⟨"/p/bin"⟩ target) ∧
      World.project.tree.entry? ["p", "bin", ".kiln-staging"] = none ∧
      prepared.2.tree.entry? ["p", "bin", ".kiln-staging"] = some .directory := by
  decide +kernel

end StagedArtifact
end StagedBuild
