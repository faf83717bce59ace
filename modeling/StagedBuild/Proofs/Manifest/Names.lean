import StagedBuild.Manifest.Basic
import StagedBuild.Proofs.Build.Companion

/-!
# Names in an accepted manifest

Every output name in an accepted manifest is a file name, and so is the file name that a platform
makes of it.  Its targets have names of their own.  Selected targets are declared ones.
-/

namespace StagedBuild

open StagedBuild.Path (IsName)

theorem Target.isName_fileName {target : Target} (is_name : IsName target.outputName)
    (platform : Platform) : IsName (target.fileName platform) := by
  rw [fileName, TargetKind.fileName]
  by_cases bare : target.kind.suffix platform = ""
  · rw [bare, String.append_empty]
    exact is_name
  · have whole := StagedArtifact.suffix_whole target.kind platform
    have long : 3 ≤ (target.kind.suffix platform).toList.length := by
      revert bare
      cases target.kind <;> cases platform <;> decide
    have longer : ∀ text : String, text.toList.length < 3 →
        target.outputName ++ target.kind.suffix platform ≠ text := by
      rintro text short rfl
      simp only [String.toList_append, List.length_append] at short
      omega
    refine ⟨?_, ?_, longer ".." (by decide)⟩
    · rw [String.toList_append, List.mem_append, not_or]
      exact ⟨is_name.1, whole⟩
    · rw [Bool.eq_false_iff, ne_eq, Path.isTrivial_iff]
      rintro (empty | dot)
      · exact longer "" (by decide) empty
      · exact longer "." (by decide) dot

namespace Manifest

variable {manifest : Manifest}

theorem isName_of_checkName {field value : String} (accepted : checkName field value = .ok ()) :
    IsName value := by
  rw [checkName] at accepted
  split at accepted
  · simp at accepted
  · rename_i nonblank
    split at accepted
    · simp at accepted
    · rename_i plain
      simp only [Bool.or_eq_true, beq_iff_eq, List.any_eq_true, isSeparator, not_or,
        not_exists, not_and] at plain
      obtain ⟨⟨not_dot, not_above⟩, undivided⟩ := plain
      refine ⟨fun separator => (undivided '/' separator).1 rfl, ?_, not_above⟩
      rw [Bool.eq_false_iff, ne_eq, Path.isTrivial_iff, not_or]
      refine ⟨?_, not_dot⟩
      rintro rfl
      exact nonblank (by decide)

theorem isName_of_checkTarget {earlier : List String} {entry : TargetEntry}
    (accepted : checkTarget earlier entry = .ok ()) : IsName entry.target.outputName := by
  rw [checkTarget] at accepted
  split at accepted
  · simp at accepted
  · split at accepted
    · simp at accepted
    · cases named : checkName "name" entry.name with
      | error problem => simp [named, bind, Except.bind] at accepted
      | ok done =>
          rw [TargetEntry.target]
          cases output : entry.outputName with
          | none =>
              rw [Option.getD_none]
              exact isName_of_checkName named
          | some outputName =>
              simp only [named, output, bind, Except.bind] at accepted
              rw [Option.getD_some]
              exact isName_of_checkName accepted

theorem checkTargets_cons_eq_ok_iff {earlier : List String} {entry : TargetEntry}
    {entries : List TargetEntry} :
    checkTargets earlier (entry :: entries) = .ok () ↔
      checkTarget earlier entry = .ok () ∧
        checkTargets (entry.name :: earlier) entries = .ok () := by
  rw [checkTargets]
  cases checkTarget earlier entry <;> simp [bind, Except.bind]

theorem isName_of_checkTargets {earlier : List String} {entries : List TargetEntry}
    (accepted : checkTargets earlier entries = .ok ()) :
    ∀ entry ∈ entries, IsName entry.target.outputName := by
  induction entries generalizing earlier with
  | nil => simp
  | cons entry entries induction =>
      obtain ⟨first, others⟩ := checkTargets_cons_eq_ok_iff.mp accepted
      rw [List.forall_mem_cons]
      exact ⟨isName_of_checkTarget first, induction others⟩

theorem checkTargets_of_validate (accepted : manifest.validate = .ok ()) :
    checkTargets [] manifest.targets = .ok () := by
  rw [validate] at accepted
  split at accepted
  · simp at accepted
  · split at accepted
    · simp at accepted
    · exact accepted

/-- An accepted manifest gives every target an output name that is a file name. -/
theorem isName_outputName (accepted : manifest.validate = .ok ()) {target : Target}
    (declared : target ∈ manifest.allTargets) : IsName target.outputName := by
  obtain ⟨entry, member, rfl⟩ := List.mem_map.mp declared
  exact isName_of_checkTargets (checkTargets_of_validate accepted) entry member

theorem name_unused_of_checkTarget {earlier : List String} {entry : TargetEntry}
    (accepted : checkTarget earlier entry = .ok ()) : entry.name ∉ earlier := by
  rw [checkTarget] at accepted
  split at accepted
  · simp at accepted
  · split at accepted
    · simp at accepted
    · rename_i unused
      rwa [List.contains_iff_mem] at unused

theorem names_distinct_of_checkTargets {earlier : List String} {entries : List TargetEntry}
    (accepted : checkTargets earlier entries = .ok ()) :
    (entries.map TargetEntry.name).Nodup ∧ ∀ entry ∈ entries, entry.name ∉ earlier := by
  induction entries generalizing earlier with
  | nil => simp
  | cons entry entries induction =>
      obtain ⟨first, others⟩ := checkTargets_cons_eq_ok_iff.mp accepted
      obtain ⟨distinct, fresh⟩ := induction others
      rw [List.map_cons, List.nodup_cons, List.forall_mem_cons]
      refine ⟨⟨?_, distinct⟩, name_unused_of_checkTarget first, fun other member used =>
        fresh other member (List.mem_cons_of_mem _ used)⟩
      intro repeated
      obtain ⟨other, member, same⟩ := List.mem_map.mp repeated
      exact fresh other member (same ▸ List.mem_cons_self)

theorem map_name_allTargets (manifest : Manifest) :
    manifest.allTargets.map Target.name = manifest.names := by
  rw [allTargets, names, List.map_map]
  rfl

/-- The targets of an accepted manifest have names of their own. -/
theorem nodup_names (accepted : manifest.validate = .ok ()) : manifest.names.Nodup :=
  (names_distinct_of_checkTargets (checkTargets_of_validate accepted)).1

/-- The targets that a command acts on: those that are selected, or none if one is unknown. -/
def selected (manifest : Manifest) (wanted : List String) : List Target :=
  (manifest.select wanted).toOption.getD []

theorem selected_of_select {wanted : List String} {targets : List Target}
    (selection : manifest.select wanted = .ok targets) : manifest.selected wanted = targets := by
  rw [selected, selection]
  rfl

theorem selected_of_refused {wanted : List String} {problem : UnknownTarget}
    (refused : manifest.select wanted = .error problem) : manifest.selected wanted = [] := by
  rw [selected, refused]
  rfl

theorem selected_sublist (manifest : Manifest) (wanted : List String) :
    (manifest.selected wanted).Sublist manifest.allTargets := by
  rw [selected, select]
  split
  · exact List.Sublist.refl _
  · split
    · exact List.nil_sublist _
    · exact List.filter_sublist.map _

end Manifest
end StagedBuild
