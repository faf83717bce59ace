import StagedBuild.Proofs.Build.Companion
import StagedBuild.Proofs.FileTree.Effect

/-!
# What happens in the staging directory

Preparing an artifact creates directories and removes at most the staged file; it leaves nothing at
the place where the tool will write.  Discarding an artifact removes files inside the staging
directory and nothing else.
-/

namespace StagedBuild

open StagedBuild.Path (IsName)
open FileTree (IsBelow SameOutside GrowsAt)

namespace Path

theorem foldl_enter_names {names : List String} (all_names : ∀ name ∈ names, IsName name)
    (place : Location) : names.foldl enter place = place ++ names := by
  induction names generalizing place with
  | nil => simp
  | cons name names induction =>
      have is_name := all_names name List.mem_cons_self
      rw [List.foldl_cons, enter_of_bodyComponent is_name.bodyComponent,
        induction fun other member => all_names other (List.mem_cons_of_mem name member)]
      simp

end Path

namespace World

/-- A path made absolute; the empty path, which has no absolute form, stays as it is. -/
def resolve (world : World) (path : Path) : Path :=
  match Path.absoluteFrom world.cwdPath path with
  | .ok absolute => absolute
  | .error _ => path

theorem isAbsolute_cwdPath (world : World) : world.cwdPath.isAbsolute = true := by
  simp [Path.isAbsolute, cwdPath]

theorem place_cwdPath {world : World} (names : ∀ name ∈ world.cwd, IsName name) :
    world.cwdPath.isAbsolute = true ∧ world.cwdPath.place [] = world.cwd := by
  have cut : world.cwdPath.segments =
      "" :: (Path.mk (String.intercalate "/" world.cwd)).segments := by
    simpa [Path.segments, cwdPath, Text.fields] using
      Path.segments_append_separator "" (String.intercalate "/" world.cwd)
  refine ⟨isAbsolute_cwdPath world, ?_⟩
  have start : FileTree.origin [] world.cwdPath = [] := by simp [FileTree.origin]
  rw [Path.place, cut, List.foldl_cons, start, Path.enter_of_isTrivial (by decide)]
  by_cases empty : world.cwd = []
  · rw [empty]
    exact Path.foldl_enter_blank []
  · rw [Path.segments_intercalate empty fun name member => (names name member).1]
    exact Path.foldl_enter_names names []

/-- A path means the same before and after it is made absolute. -/
theorem place_resolve {world : World} (names : ∀ name ∈ world.cwd, IsName name) (path : Path) :
    (world.resolve path).place world.cwd = path.place world.cwd := by
  obtain ⟨cwd_absolute, cwd_place⟩ := place_cwdPath names
  rw [resolve]
  split
  · rename_i result absolute
    obtain ⟨result_absolute, result_place⟩ :=
      Path.absoluteFrom_spec cwd_absolute cwd_place absolute
    rw [Path.place_of_isAbsolute result_absolute, result_place]
  · rfl

theorem ensureDirectory_spec {world after : World} {path : Path} {result : Except IoError Unit}
    (nonempty : path.text ≠ "") (made : world.ensureDirectory path = (result, after)) :
    after.cwd = world.cwd ∧
      GrowsAt ((FileTree.ancestors path (path.text.length + 1)).map (Path.place · world.cwd))
        world.tree after.tree ∧
      (result = .ok () → after.tree.isDirectoryAt world.cwd path = true) := by
  rw [ensureDirectory] at made
  split at made
  rename_i tree changes outcome created
  obtain ⟨rfl, rfl⟩ := Prod.mk.inj made
  obtain ⟨grows, opens⟩ := FileTree.ensureDirectory_spec created
  exact ⟨rfl, grows, opens nonempty⟩

/-- Only a file at the place of the path can disappear. -/
theorem removeFileIfExists_spec {world after : World} {path : Path} {result : Except IoError Bool}
    (removed : world.removeFileIfExists path = (result, after)) :
    after.cwd = world.cwd ∧ (after.tree = world.tree ∨
      (∃ file, world.tree.entry? (path.place world.cwd) = some (.file file)) ∧
        after.tree = world.tree.erase (path.place world.cwd)) := by
  rw [removeFileIfExists] at removed
  split at removed
  · rename_i tree place gone
    obtain ⟨-, rfl⟩ := Prod.mk.inj removed
    obtain ⟨rfl, present, rfl⟩ := FileTree.removeFile_spec gone
    exact ⟨rfl, Or.inr ⟨present, rfl⟩⟩
  · split at removed <;>
    · obtain ⟨-, rfl⟩ := Prod.mk.inj removed
      exact ⟨rfl, Or.inl rfl⟩

theorem sameOutside_removeFileIfExists {world after : World} {path : Path}
    {result : Except IoError Bool} (removed : world.removeFileIfExists path = (result, after))
    {directory : Location} (below : IsBelow directory (path.place world.cwd)) :
    SameOutside directory world.tree after.tree := by
  rcases (removeFileIfExists_spec removed).2 with kept | ⟨-, erased⟩
  · rw [kept]
    exact SameOutside.refl directory world.tree
  · rw [erased]
    exact FileTree.sameOutside_erase world.tree below

/-- Once a joined name is removed if it exists, it does not exist. -/
theorem entry?_of_removeFileIfExists {world after : World} {path : Path} {name : String}
    {found : Bool} (is_name : IsName name) (opens : world.tree.Opens world.cwd path)
    (removed : world.removeFileIfExists (path.join name) = (.ok found, after)) :
    after.tree.entry? (path.place world.cwd ++ [name]) = none := by
  rw [removeFileIfExists] at removed
  split at removed
  · rename_i tree place gone
    obtain ⟨-, rfl⟩ := Prod.mk.inj removed
    obtain ⟨rfl, -, rfl⟩ := FileTree.removeFile_spec gone
    rw [Path.place_join_name path is_name]
    simp [World.change, FileTree.entry?_erase]
  · rename_i error refused
    split at removed
    · rename_i missing
      obtain ⟨-, rfl⟩ := Prod.mk.inj removed
      exact FileTree.entry?_of_removeFile_notFound is_name opens refused (by simpa using missing)
    · simp at removed

theorem isDirectory_of_removeFileIfExists {world after : World} {path : Path}
    {result : Except IoError Bool} (removed : world.removeFileIfExists path = (result, after))
    {place : Location} (directory : world.tree.isDirectory place = true) :
    after.tree.isDirectory place = true := by
  rcases (removeFileIfExists_spec removed).2 with same | ⟨⟨file, present⟩, erased⟩
  · rw [same]
    exact directory
  · rw [FileTree.isDirectory_iff] at directory ⊢
    rw [erased, FileTree.entry?_erase, if_neg]
    · exact directory
    · rintro ⟨rfl, -⟩
      simp [present] at directory

end World

namespace StagedArtifact

theorem isName_stagingName : IsName stagingName := by
  refine ⟨by decide, by decide, by decide⟩

theorem place_stagingOf (outDir : Path) (cwd : Location) :
    (stagingOf outDir).place cwd = outDir.place cwd ++ [stagingName] :=
  Path.place_join_name outDir isName_stagingName cwd

variable {platform : Platform} {outDir : Path} {target : Target}

/-- The staged artifact lies inside the staging directory, however its name is written. -/
theorem isBelow_stagingPath (plain : Path.isPlainName (target.fileName platform) = true)
    (cwd : Location) :
    (locate platform outDir target).stagingDir.place cwd = (stagingOf outDir).place cwd ∧
      IsBelow ((stagingOf outDir).place cwd)
        ((locate platform outDir target).stagingPath.place cwd) := by
  obtain ⟨relative, name, rest, segments_eq, is_name, trivials⟩ :=
    Path.segments_of_isPlainName plain
  have body : (Path.mk (target.fileName platform)).segments.filterMap Path.bodyComponent =
      [.name name] := by
    rw [segments_eq, List.filterMap_cons_some is_name.bodyComponent,
      Path.filterMap_bodyComponent_eq_nil trivials]
  have staged : (locate platform outDir target).stagingPath.place cwd =
      (stagingOf outDir).place cwd ++ [name] := by
    rw [locate, Path.place_join _ relative, Path.foldl_enter_name body]
  have above := Path.place_eq_directory
    (Path.fileName?_join (stagingOf outDir) relative body) cwd
  constructor
  · exact (List.append_inj' (above.symm.trans staged) rfl).1
  · rw [staged]
    exact FileTree.isBelow_append_name _ _

/-- The companions that are listed are files in the staging directory, each listed once. -/
theorem companions_eq_ok {artifact : StagedArtifact} {tree : FileTree} {cwd : Location}
    {paths : List Path} (listed : artifact.companions tree cwd = .ok paths) :
    ∃ names : List String, paths = names.map artifact.stagingDir.join ∧ names.Nodup ∧
      ∀ name ∈ names, isCompanionName artifact.outputName name = true ∧
        tree.isFileAt cwd (artifact.stagingDir.join name) = true := by
  obtain ⟨names, read, listed⟩ := FileTree.bind_eq_ok_iff.mp listed
  obtain rfl := Except.ok.inj listed
  have distinct : names.Nodup := by
    obtain ⟨-, -, rfl⟩ := FileTree.readDirectory_eq_ok_iff.mp read
    exact tree.names_nodup _
  refine ⟨_, rfl, ?_, ?_⟩
  · exact (List.mergeSort_perm _ _).nodup_iff.mpr (distinct.filter _)
  · intro name member
    have chosen := (List.mem_filter.mp (List.mem_mergeSort.mp member)).2
    simp only [Bool.and_eq_true] at chosen
    exact ⟨chosen.2, chosen.1.2⟩

theorem discardOne_spec (world : World) (path : Path) :
    (discardOne world path).cwd = world.cwd ∧
      ∀ directory, IsBelow directory (path.place world.cwd) →
        SameOutside directory world.tree (discardOne world path).tree := by
  rw [discardOne]
  split <;>
  · rename_i removed
    exact ⟨(World.removeFileIfExists_spec removed).1,
      fun directory below => World.sameOutside_removeFileIfExists removed below⟩

/-- Leftovers inside a directory are removed from that directory. -/
theorem foldl_discardOne {paths : List Path} {world : World} {directory : Location}
    (inside : ∀ path ∈ paths, IsBelow directory (path.place world.cwd)) :
    (paths.foldl discardOne world).cwd = world.cwd ∧
      SameOutside directory world.tree (paths.foldl discardOne world).tree := by
  induction paths generalizing world with
  | nil => exact ⟨rfl, SameOutside.refl _ _⟩
  | cons path paths induction =>
      obtain ⟨same_cwd, outside⟩ := discardOne_spec world path
      obtain ⟨rest_cwd, rest_outside⟩ := @induction (discardOne world path)
        fun other member => same_cwd ▸ inside other (List.mem_cons_of_mem path member)
      exact ⟨rest_cwd.trans same_cwd,
        (outside directory (inside path List.mem_cons_self)).trans rest_outside⟩

/-- Discarding an artifact touches nothing outside the staging directory. -/
theorem discard_spec (plain : Path.isPlainName (target.fileName platform) = true)
    (world : World) :
    ((locate platform outDir target).discard world).cwd = world.cwd ∧
      SameOutside ((stagingOf outDir).place world.cwd) world.tree
        ((locate platform outDir target).discard world).tree := by
  obtain ⟨same_place, staged_below⟩ := @isBelow_stagingPath platform outDir _ plain world.cwd
  refine foldl_discardOne fun path member => ?_
  rcases List.mem_append.mp member with companion | staged
  · cases listed : (locate platform outDir target).companions world.tree world.cwd with
    | error error => simp [listed, Except.toOption] at companion
    | ok paths =>
        obtain ⟨names, rfl, -, chosen⟩ := companions_eq_ok listed
        rw [listed] at companion
        obtain ⟨name, name_mem, rfl⟩ := List.mem_map.mp companion
        rw [← same_place]
        exact isBelow_join_companion plain (chosen name name_mem).1 _ world.cwd
  · obtain rfl := List.mem_singleton.mp staged
    exact staged_below

/-- The places of the directories that may be created for a staging directory. -/
def chain (outDir : Path) (cwd : Location) : List Location :=
  (FileTree.ancestors (stagingOf outDir) ((stagingOf outDir).text.length + 1)).map
    (Path.place · cwd)

theorem leadsThrough_of_mem_chain {outDir : Path} {cwd place : Location}
    (member : place ∈ chain outDir cwd) : (stagingOf outDir).LeadsThrough cwd place := by
  obtain ⟨ancestor, tried, rfl⟩ := List.mem_map.mp member
  exact FileTree.leadsThrough_of_mem_ancestors tried (ancestor.leadsThrough_place cwd)

/-- What preparing an artifact does, whether it succeeds or not. -/
theorem prepare_spec {world after : World} {result : Except BuildError StagedArtifact}
    (prepared : prepare platform outDir target world = (result, after)) :
    after.cwd = world.cwd ∧
      (∃ middle, GrowsAt (chain (world.resolve outDir) world.cwd) world.tree middle ∧
        (after.tree = middle ∨ Path.isPlainName (target.fileName platform) = true ∧
          after.tree = middle.erase ((locate platform (world.resolve outDir)
            target).stagingPath.place world.cwd))) ∧
      ∀ artifact, result = .ok artifact →
        artifact = locate platform (world.resolve outDir) target ∧
          Path.isPlainName (target.fileName platform) = true ∧
          after.tree.Opens world.cwd (stagingOf (world.resolve outDir)) ∧
          (IsName (target.fileName platform) →
            after.tree.entry? (artifact.stagingPath.place world.cwd) = none) := by
  rw [prepare] at prepared
  simp only at prepared
  split at prepared
  · obtain ⟨rfl, rfl⟩ := Prod.mk.inj prepared
    exact ⟨rfl, ⟨_, GrowsAt.refl _ _, Or.inl rfl⟩, by simp⟩
  · rename_i plain
    have plain : Path.isPlainName (target.fileName platform) = true := by simpa using plain
    split at prepared
    · obtain ⟨rfl, rfl⟩ := Prod.mk.inj prepared
      exact ⟨rfl, ⟨_, GrowsAt.refl _ _, Or.inl rfl⟩, by simp⟩
    · rename_i absolute absolute_eq
      have resolved : world.resolve outDir = absolute := by rw [World.resolve, absolute_eq]
      rw [resolved]
      split at prepared
      · rename_i error middle made
        obtain ⟨rfl, rfl⟩ := Prod.mk.inj prepared
        obtain ⟨same_cwd, grows, -⟩ :=
          World.ensureDirectory_spec (Path.text_join_name_ne_empty _ isName_stagingName) made
        exact ⟨same_cwd, ⟨_, grows, Or.inl rfl⟩, by simp⟩
      · rename_i middle made
        obtain ⟨same_cwd, grows, opens⟩ :=
          World.ensureDirectory_spec (Path.text_join_name_ne_empty _ isName_stagingName) made
        have staging_opens := (FileTree.isDirectoryAt_iff_opens.mp (opens rfl)).2
        split at prepared
        · rename_i error last removed
          obtain ⟨rfl, rfl⟩ := Prod.mk.inj prepared
          obtain ⟨last_cwd, effect⟩ := World.removeFileIfExists_spec removed
          rw [same_cwd] at last_cwd effect
          exact ⟨last_cwd, ⟨_, grows, effect.imp_right fun gone => ⟨plain, gone.2⟩⟩, by simp⟩
        · rename_i found last removed
          obtain ⟨rfl, rfl⟩ := Prod.mk.inj prepared
          obtain ⟨last_cwd, effect⟩ := World.removeFileIfExists_spec removed
          rw [same_cwd] at last_cwd effect
          refine ⟨last_cwd, ⟨_, grows, effect.imp_right fun gone => ⟨plain, gone.2⟩⟩, ?_⟩
          rintro artifact artifact_eq
          obtain rfl := Except.ok.inj artifact_eq
          refine ⟨rfl, plain, staging_opens.mono fun place directory =>
            World.isDirectory_of_removeFileIfExists removed directory, fun is_name => ?_⟩
          have gone := World.entry?_of_removeFileIfExists is_name
            (same_cwd ▸ staging_opens) removed
          rw [same_cwd] at gone
          rw [locate, Path.place_join_name _ is_name]
          exact gone

end StagedArtifact
end StagedBuild
