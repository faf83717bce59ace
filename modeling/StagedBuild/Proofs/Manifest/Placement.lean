import StagedBuild.Proofs.Build.NameCheck
import StagedBuild.Proofs.Manifest.Names
import StagedBuild.Proofs.Path.Absolute

/-!
# Artifacts lie where they belong

An accepted manifest gives its targets names that pass the check of file names, whatever suffix is
appended to them.  So every file of a target lies directly inside the output directory, and the file
that the tool writes directly inside the staging directory.
-/

namespace StagedBuild

open StagedBuild.Path (IsName)

/-! ## Paths directly inside a directory -/

namespace Path

/-- The path is that of one name directly inside a directory. -/
structure LiesIn (path directory : Path) (name : String) : Prop where
  /-- The parent has the components of the directory. -/
  parent : ∃ parent, path.parent? = some parent ∧ parent.sameComponents directory = true
  fileName : path.fileName? = some name
  /-- The name is the only component below the directory. -/
  components : path.components = directory.components ++ [.name name]

variable {path directory other : Path} {name : String}

theorem components_of_isAbsolute (absolute : path.isAbsolute = true) :
    path.components = .root :: path.segments.filterMap bodyComponent := by
  rw [components, leading, if_pos absolute]
  rfl

/-- A blank segment at the end stands for no component. -/
theorem filterMap_concat_blank (segments : List String) :
    (segments ++ [""]).filterMap bodyComponent = segments.filterMap bodyComponent := by
  rw [List.filterMap_append, List.filterMap_cons_none (by decide), List.filterMap_nil,
    List.append_nil]

theorem filterMap_front (path : Path) :
    path.front.filterMap bodyComponent = path.segments.filterMap bodyComponent := by
  rcases segments_eq_front path with cut | cut
  · rw [cut]
  · rw [cut, filterMap_concat_blank]

theorem components_join_name (absolute : directory.isAbsolute = true) (is_name : IsName name) :
    (directory.join name).components = directory.components ++ [.name name] := by
  have join_absolute : (directory.join name).isAbsolute = true :=
    is_name.isAbsolute_join absolute
  rw [components_of_isAbsolute join_absolute, components_of_isAbsolute absolute,
    segments_join_name directory is_name, List.filterMap_append, filterMap_front,
    List.filterMap_cons_some is_name.bodyComponent]
  rfl

theorem parent?_of_fileName (last : path.fileName? = some name) :
    path.parent? = some path.directory := by
  rw [directory, parent?]
  rw [fileName?] at last
  split at last
  · rename_i segment component
    rw [component]
    rfl
  · simp at last

/-- An absolute path that ends in a name has that name below its directory. -/
theorem components_directory (absolute : path.isAbsolute = true)
    (last : path.fileName? = some name) :
    path.directory.isAbsolute = true ∧
      path.components = path.directory.components ++ [.name name] := by
  obtain ⟨front, back, segments_eq, back_name, kept, same_start⟩ := segments_directory last
  have directory_absolute : path.directory.isAbsolute = true := same_start.trans absolute
  have directory_parts : path.directory.segments.filterMap bodyComponent =
      front.filterMap bodyComponent := by
    rcases kept with whole | open_end
    · rw [whole]
    · rw [open_end, filterMap_concat_blank]
  refine ⟨directory_absolute, ?_⟩
  rw [components_of_isAbsolute absolute, components_of_isAbsolute directory_absolute, segments_eq,
    List.filterMap_append, back_name, directory_parts]
  rfl

/-- A name that is joined to an absolute directory lies in it. -/
theorem liesIn_join (absolute : directory.isAbsolute = true) (is_name : IsName name) :
    (directory.join name).LiesIn directory name := by
  have join_absolute : (directory.join name).isAbsolute = true :=
    is_name.isAbsolute_join absolute
  have last : (directory.join name).fileName? = some name := is_name.fileName?_join directory
  have parts := components_join_name absolute is_name
  have above := (components_directory join_absolute last).2
  refine ⟨⟨_, parent?_of_fileName last, ?_⟩, last, parts⟩
  rw [sameComponents, beq_iff_eq]
  exact List.append_cancel_right (above.symm.trans parts)

theorem LiesIn.of_components (lies : path.LiesIn directory name)
    (same : directory.components = other.components) : path.LiesIn other name := by
  obtain ⟨⟨parent, parent_eq, parent_same⟩, last, parts⟩ := lies
  rw [sameComponents, beq_iff_eq] at parent_same
  refine ⟨⟨parent, parent_eq, ?_⟩, last, same ▸ parts⟩
  rw [sameComponents, beq_iff_eq, parent_same, same]

end Path

/-! ## Artifacts in an absolute directory -/

namespace StagedArtifact

variable {platform : Platform} {outDir : Path} {target : Target}

/-- Every file of an artifact with a name lies in the output directory. -/
theorem installedFiles_liesIn (absolute : outDir.isAbsolute = true)
    (is_name : IsName (target.fileName platform)) :
    ∀ file ∈ (locate platform outDir target).installedFiles,
      ∃ name ∈ target.artifactNames platform, file.LiesIn outDir name := by
  have installed : (locate platform outDir target).path.LiesIn outDir (target.fileName platform) :=
    Path.liesIn_join absolute is_name
  have path_absolute : (locate platform outDir target).path.isAbsolute = true :=
    is_name.isAbsolute_join absolute
  obtain ⟨directory_absolute, parts⟩ :=
    Path.components_directory path_absolute installed.fileName
  have same_directory : (locate platform outDir target).outDir.components = outDir.components :=
    List.append_cancel_right (parts.symm.trans installed.components)
  intro file member
  rcases List.mem_cons.mp member with rfl | companion
  · exact ⟨_, List.mem_cons_self, installed⟩
  · obtain ⟨suffix, suffix_mem, rfl⟩ := List.mem_map.mp companion
    have companion_name := isName_companionName is_name suffix_mem
    exact ⟨_, List.mem_cons_of_mem _ (List.mem_map_of_mem suffix_mem),
      (Path.liesIn_join directory_absolute companion_name).of_components same_directory⟩

end StagedArtifact

namespace Manifest

open StagedArtifact

variable {manifest : Manifest} {target : Target}

/--
No target of an accepted manifest is refused for its file name.  Whatever is prepared for it has
absolute paths: the artifact and its companions lie directly inside the output directory, and the
file that the tool writes directly inside the staging directory.
-/
theorem declared_targets_stay_inside (accepted : manifest.validate = .ok ())
    (declared : target ∈ manifest.allTargets) (platform : Platform) {outDir : Path}
    (nonempty : outDir.text ≠ "") (world : World) :
    (prepare platform outDir target world).1 ≠ .error (notPlain platform target) ∧
      ∃ absolute, Path.absoluteFrom world.cwdPath outDir = .ok absolute ∧
        ∀ artifact, (prepare platform outDir target world).1 = .ok artifact →
          artifact.path.isAbsolute = true ∧ artifact.stagingPath.isAbsolute = true ∧
            artifact.path.LiesIn absolute (target.fileName platform) ∧
            artifact.stagingPath.LiesIn (stagingOf absolute) (target.fileName platform) ∧
            ∀ file ∈ artifact.installedFiles,
              ∃ name ∈ target.artifactNames platform, file.LiesIn absolute name := by
  have is_name : IsName (target.fileName platform) :=
    Target.isName_fileName (isName_outputName accepted declared) platform
  have plain : Path.isPlainName (target.fileName platform) = true := is_name.isPlainName
  obtain ⟨absolute, absolute_eq⟩ :
      ∃ absolute, Path.absoluteFrom world.cwdPath outDir = .ok absolute := by
    rw [Path.absoluteFrom, if_neg (by simpa using nonempty)]
    exact ⟨_, rfl⟩
  have out_absolute : absolute.isAbsolute = true :=
    Path.isAbsolute_absoluteFrom world.isAbsolute_cwdPath absolute_eq
  have staging_absolute : (stagingOf absolute).isAbsolute = true :=
    isName_stagingName.isAbsolute_join out_absolute
  refine ⟨prepare_of_plain plain, absolute, absolute_eq, fun artifact prepared => ?_⟩
  have resolved : world.resolve outDir = absolute := by rw [World.resolve, absolute_eq]
  obtain ⟨-, -, ready⟩ :=
    prepare_spec (Prod.mk.eta (p := prepare platform outDir target world)).symm
  obtain ⟨rfl, -, -, -⟩ := ready artifact prepared
  rw [resolved]
  exact ⟨is_name.isAbsolute_join out_absolute, is_name.isAbsolute_join staging_absolute,
    Path.liesIn_join out_absolute is_name, Path.liesIn_join staging_absolute is_name,
    installedFiles_liesIn out_absolute is_name⟩

/-- The executable of the default manifest lies inside an output directory written with `..`. -/
theorem default_executable_stays_inside :
    let target := (TargetEntry.minimal "dieselc" .executable).target
    let artifact := locate .windows ⟨"/p/out/../bin/"⟩ target
    Manifest.default.validate = .ok () ∧ target ∈ Manifest.default.allTargets ∧
      (prepare .windows ⟨".//out/../bin/./"⟩ target .project).1 = .ok artifact ∧
      artifact.path.LiesIn ⟨"/p/out/../bin/"⟩ "dieselc.exe" ∧
      artifact.stagingPath.LiesIn ⟨"/p/out/../bin/.kiln-staging"⟩ "dieselc.exe" := by
  intro target artifact
  have accepted : Manifest.default.validate = .ok () := by decide +kernel
  have declared : target ∈ Manifest.default.allTargets := by decide +kernel
  have prepared : (prepare .windows ⟨".//out/../bin/./"⟩ target .project).1 = .ok artifact := by
    decide +kernel
  obtain ⟨-, absolute, absolute_eq, inside⟩ :=
    declared_targets_stay_inside accepted declared .windows
      (by decide : (Path.mk ".//out/../bin/./").text ≠ "") .project
  have out_eq : Path.absoluteFrom World.project.cwdPath ⟨".//out/../bin/./"⟩ =
      .ok ⟨"/p/out/../bin/"⟩ := by
    decide +kernel
  obtain rfl := Except.ok.inj (out_eq.symm.trans absolute_eq)
  obtain ⟨-, -, installed, staged, -⟩ := inside artifact prepared
  exact ⟨accepted, declared, prepared, installed, staged⟩

end Manifest
end StagedBuild
