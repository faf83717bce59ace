import Mathlib.Data.List.Infix
import StagedBuild.Proofs.Manifest.Names

/-!
# Which manifests are accepted

A manifest stands before a list of checks: two of its own, and then those of its targets in declared
order.  It is accepted when it passes all of them, and otherwise the first check that it fails says
what is reported.  Passing all of them is being well formed, which does not depend on the order of
the targets.
-/

namespace StagedBuild

namespace Text

/-- The code points of the characters with the Unicode property `White_Space`. -/
def whiteSpace : List Nat :=
  [0x9, 0xA, 0xB, 0xC, 0xD, 0x20, 0x85, 0xA0, 0x1680, 0x2000, 0x2001, 0x2002, 0x2003, 0x2004,
    0x2005, 0x2006, 0x2007, 0x2008, 0x2009, 0x200A, 0x2028, 0x2029, 0x202F, 0x205F, 0x3000]

/-- The text is empty or holds white space only. -/
def IsWhite (text : String) : Prop :=
  ∀ char ∈ text.toList, char.toNat ∈ whiteSpace

theorem isBlankChar_iff {char : Char} : isBlankChar char = true ↔ char.toNat ∈ whiteSpace := by
  simp only [isBlankChar, blankRuns, whiteSpace, List.any_cons, List.any_nil, Bool.or_false,
    Bool.or_eq_true, Bool.and_eq_true, decide_eq_true_eq, List.mem_cons, List.not_mem_nil, or_false]
  omega

theorem isBlank_iff {text : String} : isBlank text = true ↔ IsWhite text := by
  simp only [isBlank, List.all_eq_true, isBlankChar_iff, IsWhite]

end Text

namespace Manifest

/-- The text has no meaning as a path, and no platform reads a directory out of it. -/
structure IsPlain (name : String) : Prop where
  ne_current : name ≠ "."
  ne_above : name ≠ ".."
  slash : '/' ∉ name.toList
  backslash : '\\' ∉ name.toList

/-- A condition on a manifest, with the problem that is reported where it is not met. -/
structure Check where
  passes : Prop
  problem : ManifestProblem

/-- The checks of a name that becomes a file name. -/
def nameChecks (field value : String) : List Check :=
  [⟨¬ Text.IsWhite value, .blankName field⟩, ⟨IsPlain value, .notPlain field value⟩]

/-- The checks of a target with the given targets in front of it. -/
def targetChecks (earlier : List TargetEntry) (entry : TargetEntry) : List Check :=
  ⟨¬ Text.IsWhite entry.name, .blankTargetName⟩
    :: ⟨entry.name ∉ earlier.map TargetEntry.name, .duplicateTarget entry.name⟩
    :: nameChecks "name" entry.name
    ++ entry.outputName.toList.flatMap (nameChecks "output-name")

/-- All checks of a manifest, in order; every target comes with the targets in front of it. -/
def checks (manifest : Manifest) : List Check :=
  ⟨manifest.targets ≠ [], .noTargets⟩
    :: ⟨¬ Text.IsWhite manifest.toolchain.tool, .blankTool⟩
    :: (manifest.targets.inits.zip manifest.targets).flatMap fun item =>
      targetChecks item.1 item.2

/-- The answer to checks that are made in order, up to the first that is not passed. -/
inductive Answers : List Check → Except ManifestProblem Unit → Prop
  /-- Nothing is left to check. -/
  | accepted : Answers [] (.ok ())
  /-- A check that is not passed gives the answer. -/
  | refused {condition : Prop} {problem : ManifestProblem} {rest : List Check}
      (fails : ¬ condition) : Answers (⟨condition, problem⟩ :: rest) (.error problem)
  /-- A check that is passed leaves the answer to the next ones. -/
  | passed {condition : Prop} {problem : ManifestProblem} {rest : List Check}
      {answer : Except ManifestProblem Unit} (passes : condition) (later : Answers rest answer) :
      Answers (⟨condition, problem⟩ :: rest) answer

/-- The problem is that of the first check that is not passed. -/
def FirstFailure (checks : List Check) (problem : ManifestProblem) : Prop :=
  ∃ passed check rest, checks = passed ++ check :: rest ∧ (∀ earlier ∈ passed, earlier.passes) ∧
    ¬ check.passes ∧ check.problem = problem

/-- The name can become the name of a file in the output directory. -/
structure IsFileName (name : String) : Prop where
  not_white : ¬ Text.IsWhite name
  plain : IsPlain name

/-- The manifest declares something to build, says with what, and names it without ambiguity. -/
structure IsWellFormed (manifest : Manifest) : Prop where
  declares : manifest.targets ≠ []
  tool : ¬ Text.IsWhite manifest.toolchain.tool
  distinct : manifest.names.Nodup
  names : ∀ entry ∈ manifest.targets, IsFileName entry.name
  outputNames : ∀ entry ∈ manifest.targets, ∀ name ∈ entry.outputName, IsFileName name

namespace Answers

variable {checks more : List Check} {answer next : Except ManifestProblem Unit}
  {problem : ManifestProblem}

/-- Checks that are made after others are reached when those are passed. -/
theorem bind (answers : Answers checks answer) (goes_on : Answers more next) :
    Answers (checks ++ more) (answer >>= fun _ => next) := by
  induction answers with
  | accepted => exact goes_on
  | refused fails => exact .refused fails
  | passed passes _ induction => exact .passed passes induction

theorem eq_ok_iff (answers : Answers checks answer) :
    answer = .ok () ↔ ∀ check ∈ checks, check.passes := by
  induction answers with
  | accepted => simp
  | refused fails => simp [fails]
  | passed passes _ induction => simp [passes, induction]

theorem eq_error_iff (answers : Answers checks answer) :
    answer = .error problem ↔ FirstFailure checks problem := by
  induction answers with
  | accepted => simp [FirstFailure]
  | @refused condition own rest fails =>
      rw [Except.error.injEq]
      constructor
      · rintro rfl
        exact ⟨[], ⟨condition, own⟩, rest, rfl, by simp, fails, rfl⟩
      · rintro ⟨passed, check, later, cut, passes, -, rfl⟩
        rcases List.cons_eq_append_iff.mp cut with ⟨rfl, same⟩ | ⟨others, rfl, -⟩
        · rw [(List.cons.inj same).1]
        · exact absurd (passes _ List.mem_cons_self) fails
  | @passed condition own rest answer passes later induction =>
      rw [induction]
      constructor
      · rintro ⟨passed, check, others, rfl, all_pass, fails, same⟩
        exact ⟨⟨condition, own⟩ :: passed, check, others, rfl,
          List.forall_mem_cons.mpr ⟨passes, all_pass⟩, fails, same⟩
      · rintro ⟨passed, check, others, cut, all_pass, fails, same⟩
        rcases List.cons_eq_append_iff.mp cut with ⟨rfl, first⟩ | ⟨front, rfl, rest_eq⟩
        · rw [(List.cons.inj first).1] at fails
          exact absurd passes fails
        · exact ⟨front, check, others, rest_eq, (List.forall_mem_cons.mp all_pass).2, fails, same⟩

end Answers

variable {manifest : Manifest}

theorem isPlain_iff {name : String} :
    IsPlain name ↔ ¬ (name == "." || name == ".." || name.toList.any isSeparator) = true := by
  simp only [Bool.or_eq_true, beq_iff_eq, List.any_eq_true, isSeparator, not_or, not_exists,
    not_and]
  constructor
  · intro plain
    refine ⟨⟨plain.ne_current, plain.ne_above⟩, fun char member => ⟨?_, ?_⟩⟩
    · rintro rfl
      exact plain.slash member
    · rintro rfl
      exact plain.backslash member
  · rintro ⟨⟨not_dot, not_above⟩, undivided⟩
    exact ⟨not_dot, not_above, fun member => (undivided '/' member).1 rfl,
      fun member => (undivided '\\' member).2 rfl⟩

theorem answers_checkName (field value : String) :
    Answers (nameChecks field value) (checkName field value) := by
  rw [checkName]
  split
  · rename_i blank
    exact .refused (not_not_intro (Text.isBlank_iff.mp blank))
  · rename_i shows
    refine .passed (mt Text.isBlank_iff.mpr shows) ?_
    split
    · rename_i divided
      exact .refused fun plain => isPlain_iff.mp plain divided
    · rename_i undivided
      exact .passed (isPlain_iff.mpr undivided) .accepted

theorem answers_checkTarget {used : List String} {earlier : List TargetEntry}
    (same : ∀ name, name ∈ used ↔ name ∈ earlier.map TargetEntry.name) (entry : TargetEntry) :
    Answers (targetChecks earlier entry) (checkTarget used entry) := by
  rw [checkTarget]
  split
  · rename_i blank
    exact .refused (not_not_intro (Text.isBlank_iff.mp blank))
  · rename_i shows
    refine .passed (mt Text.isBlank_iff.mpr shows) ?_
    split
    · rename_i repeated
      exact .refused (not_not_intro ((same entry.name).mp (List.contains_iff_mem.mp repeated)))
    · rename_i fresh
      refine .passed (mt (fun used_before => List.contains_iff_mem.mpr
        ((same entry.name).mpr used_before)) fresh) ((answers_checkName "name" entry.name).bind ?_)
      cases entry.outputName with
      | none => exact .accepted
      | some outputName => simpa using answers_checkName "output-name" outputName

/-- Entries that come after some others, each with all that stand in front of it. -/
def withEarlier (earlier entries : List TargetEntry) : List (List TargetEntry × TargetEntry) :=
  (entries.inits.map (earlier ++ ·)).zip entries

theorem withEarlier_nil (entries : List TargetEntry) :
    withEarlier [] entries = entries.inits.zip entries := by
  simp [withEarlier]

theorem withEarlier_cons (earlier : List TargetEntry) (entry : TargetEntry)
    (entries : List TargetEntry) :
    withEarlier earlier (entry :: entries) =
      (earlier, entry) :: withEarlier (earlier ++ [entry]) entries := by
  simp [withEarlier, Function.comp_def]

/-- The targets that are left are checked as ones that come after those checked before. -/
theorem answers_checkTargets {used : List String} {earlier : List TargetEntry}
    (same : ∀ name, name ∈ used ↔ name ∈ earlier.map TargetEntry.name)
    (entries : List TargetEntry) :
    Answers ((withEarlier earlier entries).flatMap fun item => targetChecks item.1 item.2)
      (checkTargets used entries) := by
  induction entries generalizing used earlier with
  | nil => exact .accepted
  | cons entry entries induction =>
      have one_more : ∀ name,
          name ∈ entry.name :: used ↔ name ∈ (earlier ++ [entry]).map TargetEntry.name := by
        intro name
        rw [List.map_append, List.mem_cons, List.mem_append, same, or_comm]
        simp
      rw [withEarlier_cons, List.flatMap_cons]
      exact (answers_checkTarget same entry).bind (induction one_more)

/-- Checking a manifest is making its checks in order. -/
theorem answers_validate (manifest : Manifest) : Answers manifest.checks manifest.validate := by
  rw [validate]
  split
  · rename_i none_declared
    exact .refused (not_not_intro (List.isEmpty_iff.mp none_declared))
  · rename_i some_declared
    refine .passed (mt List.isEmpty_iff.mpr some_declared) ?_
    split
    · rename_i blank
      exact .refused (not_not_intro (Text.isBlank_iff.mp blank))
    · rename_i shows
      refine .passed (mt Text.isBlank_iff.mpr shows) ?_
      rw [← withEarlier_nil]
      exact answers_checkTargets (fun _ => Iff.rfl) manifest.targets

theorem passes_nameChecks_iff {field value : String} :
    (∀ check ∈ nameChecks field value, check.passes) ↔ IsFileName value := by
  rw [nameChecks, List.forall_mem_cons, List.forall_mem_singleton]
  exact ⟨fun passes => ⟨passes.1, passes.2⟩, fun is_name => ⟨is_name.not_white, is_name.plain⟩⟩

theorem passes_targetChecks_iff {earlier : List TargetEntry} {entry : TargetEntry} :
    (∀ check ∈ targetChecks earlier entry, check.passes) ↔
      entry.name ∉ earlier.map TargetEntry.name ∧ IsFileName entry.name ∧
        ∀ name ∈ entry.outputName, IsFileName name := by
  have outputs : (∀ check ∈ entry.outputName.toList.flatMap (nameChecks "output-name"),
      check.passes) ↔ ∀ name ∈ entry.outputName, IsFileName name := by
    cases entry.outputName <;> simp [passes_nameChecks_iff]
  rw [targetChecks, List.cons_append, List.cons_append, List.forall_mem_cons,
    List.forall_mem_cons, List.forall_mem_append, passes_nameChecks_iff, outputs]
  exact ⟨fun passes => passes.2, fun passes => ⟨passes.2.1.not_white, passes⟩⟩

/-- When every name differs from those in front of it, all of them are distinct. -/
theorem fresh_iff_nodup {earlier entries : List TargetEntry} :
    (∀ item ∈ withEarlier earlier entries, item.2.name ∉ item.1.map TargetEntry.name) ↔
      (entries.map TargetEntry.name).Nodup ∧
        ∀ entry ∈ entries, entry.name ∉ earlier.map TargetEntry.name := by
  induction entries generalizing earlier with
  | nil => simp [withEarlier]
  | cons entry entries induction =>
      have after_first : (∀ other ∈ entries,
            other.name ∉ (earlier ++ [entry]).map TargetEntry.name) ↔
          entry.name ∉ entries.map TargetEntry.name ∧
            ∀ other ∈ entries, other.name ∉ earlier.map TargetEntry.name := by
        have apart : (∀ other ∈ entries, other.name ≠ entry.name) ↔
            entry.name ∉ entries.map TargetEntry.name := by
          simp
        simp only [List.map_append, List.map_singleton, List.mem_append, List.mem_singleton, not_or,
          forall₂_and]
        rw [apart, and_comm]
      rw [withEarlier_cons, List.forall_mem_cons, induction, after_first, List.map_cons,
        List.nodup_cons, List.forall_mem_cons]
      tauto

theorem forall_mem_withEarlier {earlier entries : List TargetEntry} (fits : TargetEntry → Prop) :
    (∀ item ∈ withEarlier earlier entries, fits item.2) ↔ ∀ entry ∈ entries, fits entry := by
  have seconds : (withEarlier earlier entries).map Prod.snd = entries :=
    List.map_snd_zip (by simp)
  conv => rhs; rw [← seconds]
  exact List.forall_mem_map.symm

/-- A manifest passes all of its checks exactly when it is well formed. -/
theorem passes_checks_iff (manifest : Manifest) :
    (∀ check ∈ manifest.checks, check.passes) ↔ manifest.IsWellFormed := by
  have fresh : (∀ item ∈ withEarlier [] manifest.targets,
      item.2.name ∉ item.1.map TargetEntry.name) ↔ manifest.names.Nodup := by
    rw [fresh_iff_nodup, Manifest.names]
    simp
  have named := @forall_mem_withEarlier [] manifest.targets
    fun entry => IsFileName entry.name ∧ ∀ name ∈ entry.outputName, IsFileName name
  rw [checks, List.forall_mem_cons, List.forall_mem_cons, List.forall_mem_flatMap,
    ← withEarlier_nil]
  simp only [passes_targetChecks_iff]
  rw [forall₂_and, fresh, named, forall₂_and]
  constructor
  · rintro ⟨declares, tool, distinct, names, outputs⟩
    exact ⟨declares, tool, distinct, names, outputs⟩
  · intro sound
    exact ⟨sound.declares, sound.tool, sound.distinct, sound.names, sound.outputNames⟩

theorem IsWellFormed.perm {others : List TargetEntry} (sound : manifest.IsWellFormed)
    (reordered : manifest.targets.Perm others) :
    ({ manifest with targets := others } : Manifest).IsWellFormed where
  declares := fun none_left => sound.declares (List.perm_nil.mp (none_left ▸ reordered))
  tool := sound.tool
  distinct := ((reordered.map TargetEntry.name).nodup_iff).mp sound.distinct
  names := fun entry member => sound.names entry (reordered.mem_iff.mpr member)
  outputNames := fun entry member => sound.outputNames entry (reordered.mem_iff.mpr member)

/--
A manifest is accepted exactly when it is well formed.  When it is not, the problem of the first
check that it fails is reported.  Whether it is accepted does not depend on the order of its targets,
only on which targets there are.
-/
theorem validate_accepts_well_formed (manifest : Manifest) :
    (manifest.validate = .ok () ↔ manifest.IsWellFormed) ∧
      (∀ problem, manifest.validate = .error problem ↔ FirstFailure manifest.checks problem) ∧
      ∀ others, manifest.targets.Perm others →
        (({ manifest with targets := others } : Manifest).validate = .ok () ↔
          manifest.validate = .ok ()) := by
  have accepted (manifest : Manifest) : manifest.validate = .ok () ↔ manifest.IsWellFormed :=
    (answers_validate manifest).eq_ok_iff.trans (passes_checks_iff manifest)
  refine ⟨accepted manifest, fun problem => (answers_validate manifest).eq_error_iff,
    fun others reordered => ?_⟩
  rw [accepted, accepted]
  exact ⟨fun sound => sound.perm reordered.symm, fun sound => sound.perm reordered⟩

/-- The executable of the default manifest may also be declared before the library. -/
theorem reversed_default_is_accepted :
    Manifest.default.targets.Perm Manifest.default.targets.reverse ∧
      ({ Manifest.default with targets := Manifest.default.targets.reverse } : Manifest).validate =
        .ok () := by
  have reordered : Manifest.default.targets.Perm Manifest.default.targets.reverse :=
    (List.reverse_perm _).symm
  have accepted : Manifest.default.validate = .ok () := by decide +kernel
  exact ⟨reordered, ((validate_accepts_well_formed .default).2.2 _ reordered).mpr accepted⟩

/-- A target is checked in full before the next one is looked at. -/
example : ({ Manifest.default with
      targets := [.minimal "a/b" .executable, .minimal " " .library] } : Manifest).validate =
    .error (.notPlain "name" "a/b") := by
  decide +kernel

end Manifest
end StagedBuild
