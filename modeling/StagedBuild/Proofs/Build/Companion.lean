import StagedBuild.Build.Artifact
import StagedBuild.Proofs.FileTree.Entry
import StagedBuild.Proofs.Path.Place

/-!
# Names of companion files

A file belongs to an artifact as a companion exactly when its name is the output name followed by
one of the companion extensions.  No such name is the file name of the artifact itself, on any
platform, and every one of them names a file inside the staging directory.
-/

namespace StagedBuild

namespace FileName

theorem splitLastDot_append {before after : String} (undotted : '.' ∉ after.toList) :
    splitLastDot (before ++ "." ++ after) = some (before, after) := by
  have chars : (before ++ "." ++ after).toList.reverse =
      after.toList.reverse ++ '.' :: before.toList.reverse := by simp
  have no_dot : ∀ char ∈ after.toList.reverse, (char != '.') = true := by
    intro char member
    rw [bne_iff_ne]
    rintro rfl
    exact undotted (List.mem_reverse.mp member)
  simp only [splitLastDot, chars]
  rw [List.dropWhile_append_of_pos no_dot, List.takeWhile_append_of_pos no_dot]
  simp

theorem eq_of_splitLastDot {name before after : String}
    (cut : splitLastDot name = some (before, after)) : name = before ++ "." ++ after := by
  simp only [splitLastDot] at cut
  have reassembled := @List.takeWhile_append_dropWhile _ (· != '.') name.toList.reverse
  split at cut
  · simp at cut
  · rename_i dot front dropped
    obtain ⟨rfl, rfl⟩ := Prod.mk.inj (Option.some.inj cut)
    have dot_eq : dot = '.' := by
      have first := List.head_dropWhile_not (· != '.') (l := name.toList.reverse) (by simp [dropped])
      simpa [dropped] using first
    rw [dropped, dot_eq] at reassembled
    rw [← String.toList_inj]
    simpa using (congrArg List.reverse reassembled).symm

/-- A name is cut where a dot stands in front of a part without dots. -/
theorem splitLastDot_eq_some_iff {name before after : String} :
    splitLastDot name = some (before, after) ↔
      name = before ++ "." ++ after ∧ '.' ∉ after.toList := by
  constructor
  · intro cut
    refine ⟨eq_of_splitLastDot cut, fun dotted => ?_⟩
    simp only [splitLastDot] at cut
    split at cut
    · simp at cut
    · obtain ⟨-, rfl⟩ := Prod.mk.inj (Option.some.inj cut)
      rw [String.toList_ofList, List.mem_reverse] at dotted
      simpa using List.all_eq_true.mp List.all_takeWhile _ dotted
  · rintro ⟨rfl, undotted⟩
    exact splitLastDot_append undotted

/-- A file name has a stem and an extension when it is written with a dot between them. -/
theorem stemAndExtension_eq_iff {name stem extension : String} :
    stemAndExtension name = (stem, some extension) ↔
      name = stem ++ "." ++ extension ∧ '.' ∉ extension.toList ∧ stem ≠ "" ∧ name ≠ ".." := by
  rw [stemAndExtension]
  by_cases above : name = ".."
  · simp [above]
  · rw [if_neg (by simpa using above)]
    constructor
    · intro cut
      split at cut
      · simp at cut
      · rename_i before after split_eq
        split at cut
        · simp at cut
        · rename_i nonempty
          cases cut
          obtain ⟨name_eq, undotted⟩ := splitLastDot_eq_some_iff.mp split_eq
          exact ⟨name_eq, undotted, by simpa using nonempty, above⟩
    · rintro ⟨name_eq, undotted, nonempty, -⟩
      rw [splitLastDot_eq_some_iff.mpr ⟨name_eq, undotted⟩]
      simp [nonempty]

end FileName

/-- The file names of the artifact of a target and of its companions. -/
def Target.artifactNames (target : Target) (platform : Platform) : List String :=
  target.fileName platform ::
    StagedArtifact.companionExtensions.map (StagedArtifact.companionName target.outputName)

/-- The name is that of the artifact of a target or of one of its companions. -/
def Target.Owns (target : Target) (platform : Platform) (name : String) : Prop :=
  StagedArtifact.isCompanionName target.outputName name = true ∨ name = target.fileName platform

namespace StagedArtifact

open StagedBuild.Path (IsName)

theorem companionExtensions_plain {suffix : String} (member : suffix ∈ companionExtensions) :
    '.' ∉ suffix.toList ∧ '/' ∉ suffix.toList ∧ 3 ≤ suffix.toList.length := by
  simp only [companionExtensions, List.mem_cons, List.not_mem_nil, or_false] at member
  rcases member with rfl | rfl | rfl <;> decide

theorem length_companionName (outputName suffix : String) :
    (companionName outputName suffix).toList.length =
      outputName.toList.length + 1 + suffix.toList.length := by
  simp [companionName]
  omega

/-- A companion is recognized by its stem and its extension. -/
theorem isCompanionName_iff_stemAndExtension {outputName name : String} :
    isCompanionName outputName name = true ↔
      ∃ suffix ∈ companionExtensions,
        FileName.stemAndExtension name = (outputName, some suffix) := by
  rw [isCompanionName]
  split
  · rename_i stem suffix cut
    rw [cut, Bool.and_eq_true, beq_iff_eq, List.contains_iff_mem]
    constructor
    · rintro ⟨rfl, member⟩
      exact ⟨suffix, member, rfl⟩
    · rintro ⟨other, member, same⟩
      obtain ⟨rfl, same_suffix⟩ := Prod.mk.inj same
      obtain rfl := Option.some.inj same_suffix
      exact ⟨rfl, member⟩
  · rename_i stem cut
    simp [cut]

/-- Splitting a companion name gives back what it was made of, and this from no other name. -/
theorem stemAndExtension_eq_companion_iff {outputName name suffix : String}
    (member : suffix ∈ companionExtensions) :
    FileName.stemAndExtension name = (outputName, some suffix) ↔
      outputName ≠ "" ∧ name = companionName outputName suffix := by
  rw [FileName.stemAndExtension_eq_iff]
  constructor
  · rintro ⟨name_eq, -, nonempty, -⟩
    exact ⟨nonempty, name_eq⟩
  · rintro ⟨nonempty, rfl⟩
    obtain ⟨undotted, -, long⟩ := companionExtensions_plain member
    refine ⟨rfl, undotted, nonempty, fun same => ?_⟩
    have lengths := length_companionName outputName suffix
    rw [same] at lengths
    simp at lengths
    omega

/-- The names of companions are the output name with one of the companion extensions. -/
theorem isCompanionName_iff {outputName name : String} :
    isCompanionName outputName name = true ↔
      outputName ≠ "" ∧ ∃ suffix ∈ companionExtensions, name = companionName outputName suffix := by
  rw [isCompanionName_iff_stemAndExtension]
  constructor
  · rintro ⟨suffix, member, cut⟩
    obtain ⟨nonempty, name_eq⟩ := (stemAndExtension_eq_companion_iff member).mp cut
    exact ⟨nonempty, suffix, member, name_eq⟩
  · rintro ⟨nonempty, suffix, member, name_eq⟩
    exact ⟨suffix, member, (stemAndExtension_eq_companion_iff member).mpr ⟨nonempty, name_eq⟩⟩

/-- No companion has the name of the artifact itself. -/
theorem companionName_ne_fileName (target : Target) (platform : Platform) {suffix : String}
    (member : suffix ∈ companionExtensions) :
    companionName target.outputName suffix ≠ target.fileName platform := by
  intro same
  have tails : "." ++ suffix = target.kind.suffix platform := by
    have chars : target.outputName.toList ++ ("." ++ suffix).toList =
        target.outputName.toList ++ (target.kind.suffix platform).toList := by
      simpa [companionName, Target.fileName, TargetKind.fileName] using congrArg String.toList same
    exact String.toList_inj.mp (List.append_cancel_left chars)
  simp only [companionExtensions, List.mem_cons, List.not_mem_nil, or_false] at member
  cases kind : target.kind <;> cases platform <;> rcases member with rfl | rfl | rfl <;>
    rw [kind] at tails <;> revert tails <;> decide

/-- What is written behind a dot and an output name ends in a name. -/
theorem isName_append_companion {last suffix : String} (whole : '/' ∉ last.toList)
    (member : suffix ∈ companionExtensions) : IsName (last ++ ("." ++ suffix)) := by
  obtain ⟨-, undivided, long⟩ := companionExtensions_plain member
  have length_eq : (last ++ ("." ++ suffix)).toList.length =
      last.toList.length + 1 + suffix.toList.length := by
    simp
    omega
  have long_text : ∀ text : String, text.toList.length < 4 → last ++ ("." ++ suffix) ≠ text := by
    rintro text short rfl
    omega
  refine ⟨?_, ?_, long_text ".." (by decide)⟩
  · simp [whole, undivided]
  · rw [Bool.eq_false_iff, ne_eq, Path.isTrivial_iff]
    rintro (empty | dot)
    · exact long_text "" (by decide) empty
    · exact long_text "." (by decide) dot

theorem companion_extension_whole {suffix : String} (member : suffix ∈ companionExtensions) :
    '/' ∉ ("." ++ suffix).toList := by
  simp [(companionExtensions_plain member).2.1]

theorem suffix_whole (kind : TargetKind) (platform : Platform) :
    '/' ∉ (kind.suffix platform).toList := by
  cases kind <;> cases platform <;> decide

theorem isName_companionName {platform : Platform} {target : Target} {suffix : String}
    (is_name : IsName (target.fileName platform)) (member : suffix ∈ companionExtensions) :
    IsName (companionName target.outputName suffix) := by
  rw [companionName, String.append_assoc]
  refine isName_append_companion ?_ member
  intro separator
  exact is_name.1 (by simp [Target.fileName, TargetKind.fileName, separator])

/-- The companions of an artifact with a name have names. -/
theorem isName_of_isCompanionName {platform : Platform} {target : Target} {name : String}
    (is_name : IsName (target.fileName platform))
    (companion : isCompanionName target.outputName name = true) :
    IsName name ∧ name ≠ target.fileName platform := by
  obtain ⟨-, suffix, member, rfl⟩ := isCompanionName_iff.mp companion
  exact ⟨isName_companionName is_name member, companionName_ne_fileName target platform member⟩

theorem isName_of_owns {platform : Platform} {target : Target}
    (is_name : IsName (target.fileName platform))
    {name : String} (own : target.Owns platform name) : IsName name := by
  rcases own with companion | rfl
  · exact (isName_of_isCompanionName is_name companion).1
  · exact is_name

theorem mem_artifactNames {platform : Platform} {target : Target} {name : String}
    (companion : isCompanionName target.outputName name = true) :
    name ∈ target.artifactNames platform := by
  obtain ⟨-, suffix, member, rfl⟩ := isCompanionName_iff.mp companion
  exact List.mem_cons_of_mem _ (List.mem_map.mpr ⟨suffix, member, rfl⟩)

theorem isName_of_mem_artifactNames {platform : Platform} {target : Target} {name : String}
    (is_name : IsName (target.fileName platform)) (own : name ∈ target.artifactNames platform) :
    IsName name := by
  rcases List.mem_cons.mp own with rfl | companion
  · exact is_name
  · obtain ⟨suffix, member, rfl⟩ := List.mem_map.mp companion
    exact isName_companionName is_name member

/-- The companions of an artifact with a plain file name lie inside the directory. -/
theorem isBelow_join_companion {platform : Platform} {target : Target} {name : String}
    (plain : Path.isPlainName (target.fileName platform) = true)
    (companion : isCompanionName target.outputName name = true) (directory : Path)
    (cwd : Location) :
    FileTree.IsBelow (directory.place cwd) ((directory.join name).place cwd) := by
  obtain ⟨nonempty, suffix, member, rfl⟩ := isCompanionName_iff.mp companion
  obtain ⟨relative, first, rest, segments_eq, first_name, rest_trivial⟩ :=
    Path.segments_of_isPlainName plain
  obtain ⟨init, last, output_cut, file_cut⟩ :=
    Path.segments_append (suffix_whole target.kind platform)
  obtain ⟨init', last', output_cut', name_cut⟩ :=
    Path.segments_append (companion_extension_whole member)
  obtain ⟨rfl, last_eq⟩ := List.append_inj' (output_cut.symm.trans output_cut') rfl
  obtain rfl := (List.cons.inj last_eq).1
  have last_name : IsName (last ++ ("." ++ suffix)) :=
    isName_append_companion
      (Path.separator_not_mem_of_mem_segments (output_cut ▸ List.mem_append_right init
        List.mem_cons_self)) member
  have name_relative : (Path.mk (companionName target.outputName suffix)).isAbsolute = false := by
    obtain ⟨char, chars, chars_eq⟩ : ∃ char chars, target.outputName.toList = char :: chars :=
      List.exists_cons_of_ne_nil (by simpa using nonempty)
    rw [Path.isAbsolute, Target.fileName, TargetKind.fileName] at relative
    simpa [Path.isAbsolute, companionName, chars_eq] using relative
  rw [Path.place_join directory name_relative, companionName, String.append_assoc, name_cut,
    List.foldl_append, List.foldl_cons, List.foldl_nil,
    Path.enter_of_bodyComponent last_name.bodyComponent]
  -- In front of the last segment stands the name of the artifact, or nothing.
  cases init with
  | nil => exact FileTree.isBelow_append_name _ _
  | cons head init =>
      rw [Target.fileName, TargetKind.fileName, file_cut, List.cons_append,
        List.cons.injEq] at segments_eq
      obtain ⟨rfl, rest_eq⟩ := segments_eq
      rw [List.foldl_cons, Path.enter_of_bodyComponent first_name.bodyComponent,
        Path.foldl_enter_of_isTrivial fun segment segment_mem =>
          rest_trivial segment (rest_eq ▸ List.mem_append_left _ segment_mem)]
      exact (FileTree.isBelow_append_name _ _).append _

end StagedArtifact
end StagedBuild
