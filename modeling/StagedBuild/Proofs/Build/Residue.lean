import StagedBuild.Proofs.Build.Confinement
import StagedBuild.Proofs.FileTree.Way

/-!
# What builds leave behind

Builds that start with nothing in the output directory leave only their own things there: files
under the names of their targets, and the staging directory.  They get there over directories
alone, and they put nothing there before the whole way is open.  An attempt keeps this, however it
ends, and so does a run.
-/

namespace StagedBuild

open StagedBuild.Path (IsName)
open StagedArtifact (stagingOf stagingName)
open FileTree (IsBelow SameOutside GrowsAt)

/-- The path leads to where nothing is, over no file and over nothing in the place it leads to. -/
structure FileTree.IsVacant (tree : FileTree) (cwd : Location) (path : Path) : Prop where
  /-- There is nothing in the directory. -/
  empty : ∀ place, IsBelow (path.place cwd) place → tree.entry? place = none
  /-- The way to the directory does not lead through it. -/
  stays : path.StaysAbove cwd
  /-- No file is on the way to the directory. -/
  clear : tree.IsClear cwd path

/-- What builds of targets with these artifact names leave in an output directory. -/
structure Residue (outDir : Path) (names : List String) (cwd : Location) (tree : FileTree) :
    Prop where
  /-- No file is on the way to the directory. -/
  clear : tree.IsClear cwd outDir
  /-- The directory holds the staging directory, and files of the targets. -/
  content : ∀ place, IsBelow (outDir.place cwd) place →
    ¬ IsBelow ((stagingOf outDir).place cwd) place →
      tree.entry? place = none ∨ place = (stagingOf outDir).place cwd ∨
        ∃ name ∈ names, place = outDir.place cwd ++ [name] ∧
          ∃ file, tree.entry? place = some (.file file)
  /-- The directory is empty until the way to the staging directory is open. -/
  reached : tree.IsOpen cwd (stagingOf outDir) ∨
    ∀ place, IsBelow (outDir.place cwd) place → tree.entry? place = none

namespace StagedArtifact

theorem leadsThrough_stagingOf_iff {outDir : Path} {cwd place : Location} :
    (stagingOf outDir).LeadsThrough cwd place ↔
      outDir.LeadsThrough cwd place ∨ place = (stagingOf outDir).place cwd := by
  rw [place_stagingOf, stagingOf, Path.leadsThrough_join_name_iff isName_stagingName]

/-- What lies in staging lies in the output directory. -/
theorem isBelow_of_staging {outDir : Path} {cwd place : Location}
    (below : IsBelow ((stagingOf outDir).place cwd) place) : IsBelow (outDir.place cwd) place := by
  rw [place_stagingOf] at below
  obtain ⟨name, rest, rfl⟩ := FileTree.isBelow_iff.mp below
  exact (FileTree.isBelow_append_name _ _).append _

/-- The way to staging stays above what is in it, if the way to the output directory does. -/
theorem not_isBelow_staging {outDir : Path} {cwd place : Location} (stays : outDir.StaysAbove cwd)
    (leads : (stagingOf outDir).LeadsThrough cwd place) :
    ¬ IsBelow ((stagingOf outDir).place cwd) place := by
  intro below
  rcases leadsThrough_stagingOf_iff.mp leads with on_way | rfl
  · exact stays place on_way (isBelow_of_staging below)
  · exact below.2 rfl

/-- The way to staging does not lead through other things in the output directory. -/
theorem ne_append_of_leadsThrough {outDir : Path} {cwd place : Location} {name : String}
    (stays : outDir.StaysAbove cwd) (other : name ≠ stagingName)
    (leads : (stagingOf outDir).LeadsThrough cwd place) : place ≠ outDir.place cwd ++ [name] := by
  rintro rfl
  rcases leadsThrough_stagingOf_iff.mp leads with on_way | here
  · exact stays _ on_way (FileTree.isBelow_append_name _ _)
  · rw [place_stagingOf] at here
    exact other (List.cons.inj (List.append_cancel_left here)).1

/-- Preparing an artifact opens the way to staging, or creates directories in front of it only. -/
theorem prepare_reaches {platform : Platform} {outDir : Path} {target : Target}
    {world after : World} {result : Except BuildError StagedArtifact}
    (prepared : prepare platform outDir target world = (result, after)) :
    after.tree.Opens world.cwd (stagingOf (world.resolve outDir)) ∨
      ∃ places, (∀ place ∈ places, (world.resolve outDir).LeadsThrough world.cwd place) ∧
        GrowsAt places world.tree after.tree := by
  have unchanged : after = world → ∃ places,
      (∀ place ∈ places, (world.resolve outDir).LeadsThrough world.cwd place) ∧
        GrowsAt places world.tree after.tree := by
    rintro rfl
    exact ⟨[], by simp, GrowsAt.refl _ _⟩
  rw [prepare] at prepared
  simp only at prepared
  split at prepared
  · exact Or.inr (unchanged (Prod.mk.inj prepared).2.symm)
  · split at prepared
    · exact Or.inr (unchanged (Prod.mk.inj prepared).2.symm)
    · rename_i absolute absolute_eq
      have resolved : world.resolve outDir = absolute := by rw [World.resolve, absolute_eq]
      rw [resolved]
      split at prepared
      · rename_i error middle made
        obtain ⟨-, rfl⟩ := Prod.mk.inj prepared
        obtain ⟨failed, rfl⟩ := Prod.mk.inj made
        exact Or.inr (FileTree.ensureDirectory_refused isName_stagingName
          (Prod.ext rfl (Prod.ext rfl failed)))
      · rename_i middle made
        obtain ⟨same_cwd, -, opens⟩ :=
          World.ensureDirectory_spec (Path.text_join_name_ne_empty _ isName_stagingName) made
        have staging_opens := (FileTree.isDirectoryAt_iff_opens.mp (opens rfl)).2
        left
        split at prepared <;>
        · rename_i removed
          obtain ⟨-, rfl⟩ := Prod.mk.inj prepared
          exact staging_opens.mono fun place directory =>
            World.isDirectory_of_removeFileIfExists removed directory

end StagedArtifact

theorem FileTree.IsVacant.residue {tree : FileTree} {cwd : Location} {outDir : Path}
    (vacant : tree.IsVacant cwd outDir) (names : List String) : Residue outDir names cwd tree where
  clear := vacant.clear
  content place below _ := Or.inl (vacant.empty place below)
  reached := Or.inr vacant.empty

theorem World.leadsThrough_resolve_iff {world : World} (names : ∀ name ∈ world.cwd, IsName name)
    {path : Path} (absolute : path.isAbsolute = true) {place : Location} :
    (world.resolve path).LeadsThrough world.cwd place ↔ path.LeadsThrough world.cwd place := by
  rw [resolve]
  split
  · rename_i result result_eq
    exact Path.leadsThrough_absoluteFrom_iff (place_cwdPath names).1 absolute result_eq
  · exact Iff.rfl

/-- A path that is made absolute opens as before. -/
theorem World.opens_resolve_iff {world : World} {tree : FileTree} {path : Path}
    (names : ∀ name ∈ world.cwd, IsName name) (absolute : path.isAbsolute = true) :
    tree.Opens world.cwd (world.resolve path) ↔ tree.Opens world.cwd path := by
  rw [resolve]
  split
  · rename_i result result_eq
    exact FileTree.opens_absoluteFrom_iff (place_cwdPath names).1 absolute result_eq
  · exact Iff.rfl

namespace Build

variable {build : Build} {world : World} {target : Target} {own : List String}

theorem outPlace_eq (names : ∀ name ∈ world.cwd, IsName name) :
    build.outPlace world = build.outDir.place world.cwd :=
  World.place_resolve names build.outDir

theorem stagingPlace_eq_place (names : ∀ name ∈ world.cwd, IsName name) :
    build.stagingPlace world = (stagingOf build.outDir).place world.cwd :=
  place_staging_resolve names

section Attempt

variable (names : ∀ name ∈ world.cwd, IsName name)
  (absolute : build.outDir.isAbsolute = true)

include names absolute

theorem leadsThrough_stagingOf_resolve_iff {place : Location} :
    (stagingOf (world.resolve build.outDir)).LeadsThrough world.cwd place ↔
      (stagingOf build.outDir).LeadsThrough world.cwd place := by
  rw [StagedArtifact.leadsThrough_stagingOf_iff, StagedArtifact.leadsThrough_stagingOf_iff,
    World.leadsThrough_resolve_iff names absolute, StagedArtifact.place_stagingOf,
    StagedArtifact.place_stagingOf, World.place_resolve names]

/-- When the tool runs, the way to staging is open. -/
theorem isOpen_of_toolRun {run : ToolRun} (ran : build.toolRun? target world = some run) :
    (build.prepared target world).tree.IsOpen world.cwd (stagingOf build.outDir) := by
  intro place leads
  rw [← (toolRun_spec ran).2.2.1]
  exact (opens_of_toolRun ran).isOpen place
    ((leadsThrough_stagingOf_resolve_iff names absolute).mpr leads)

variable (stays : build.outDir.StaysAbove world.cwd)
  (residue : Residue build.outDir own world.cwd world.tree)

include stays residue

/-- Preparing an artifact keeps the residue. -/
theorem residue_prepared :
    Residue build.outDir own world.cwd (build.prepared target world).tree := by
  -- Outside of staging the preparation does no more than create directories on the way.
  have outside : ∀ place, ¬ IsBelow ((stagingOf build.outDir).place world.cwd) place →
      (build.prepared target world).tree.entry? place = world.tree.entry? place ∨
        (stagingOf build.outDir).LeadsThrough world.cwd place ∧
          (build.prepared target world).tree.entry? place = some .directory := by
    intro place not_staged
    rw [← stagingPlace_eq_place names] at not_staged
    rcases prepared_outside not_staged with same | ⟨created, -, directory⟩
    · exact Or.inl same
    · exact Or.inr ⟨(leadsThrough_stagingOf_resolve_iff names absolute).mp
        (StagedArtifact.leadsThrough_of_mem_chain created), directory⟩
  refine ⟨fun place leads => ?_, fun place below not_staged => ?_, ?_⟩
  · have not_staged := fun below =>
      stays place leads (StagedArtifact.isBelow_of_staging below)
    rcases outside place not_staged with same | ⟨-, directory⟩
    · rw [FileTree.file?_congr same]
      exact residue.clear place leads
    · simp [FileTree.file?, directory]
  · rcases outside place not_staged with same | ⟨leads, -⟩
    · rw [same]
      exact residue.content place below not_staged
    · rcases StagedArtifact.leadsThrough_stagingOf_iff.mp leads with on_way | here
      · exact absurd below (stays place on_way)
      · exact Or.inr (Or.inl here)
  · rcases residue.reached with is_open | empty
    · left
      intro place leads
      rcases outside place (StagedArtifact.not_isBelow_staging stays leads) with
        same | ⟨-, directory⟩
      · rw [FileTree.isDirectory_congr same]
        exact is_open place leads
      · exact (FileTree.isDirectory_iff _).mpr directory
    · rcases StagedArtifact.prepare_reaches (Prod.ext rfl rfl :
          StagedArtifact.prepare build.platform build.outDir target world =
            (_, build.prepared target world)) with opens | ⟨places, on_way, grows⟩
      · left
        intro place leads
        exact opens.isOpen place ((leadsThrough_stagingOf_resolve_iff names absolute).mpr leads)
      · right
        intro place below
        rcases grows place with same | ⟨member, -, -⟩
        · rw [same, empty place below]
        · have leads := (World.leadsThrough_resolve_iff names absolute).mp (on_way place member)
          exact absurd below (stays place leads)

/-- An attempt with a tool that writes only inside the staging directory keeps the residue. -/
theorem residue_attempt (confined : build.runner.ConfinedTo (build.stagingPlace world))
    (owned : ∀ name ∈ target.artifactNames build.platform, name ∈ own) :
    Residue build.outDir own world.cwd (build.attempt target world).2.tree := by
  have before := @residue_prepared build world target own names absolute stays residue
  cases ran : build.toolRun? target world with
  | none =>
      obtain ⟨error, refused⟩ := attempt_of_none ran
      rw [refused]
      exact before
  | some run =>
      have is_open := isOpen_of_toolRun names absolute ran
      obtain ⟨others, moved⟩ := attempt_spec ran (toolRun_outside confined ran)
      rw [stagingPlace_eq_place names, outPlace_eq names] at others moved
      -- What was installed lies in the output directory and is not the staging directory.
      have on_way : ∀ place, (stagingOf build.outDir).LeadsThrough world.cwd place →
          (build.attempt target world).2.tree.entry? place =
            (build.prepared target world).tree.entry? place := by
        intro place leads
        refine others place (StagedArtifact.not_isBelow_staging stays leads) ?_
        intro name member
        obtain ⟨-, -, -, -, other, -⟩ := installed_spec ran member
        exact StagedArtifact.ne_append_of_leadsThrough stays other leads
      refine ⟨fun place leads => ?_, fun place below not_staged => ?_, Or.inl fun place leads => ?_⟩
      · rw [FileTree.file?_congr
          (on_way place (StagedArtifact.leadsThrough_stagingOf_iff.mpr (Or.inl leads)))]
        exact before.clear place leads
      · by_cases installed : ∃ name ∈ run.installed, place = build.outDir.place world.cwd ++ [name]
        · obtain ⟨name, member, rfl⟩ := installed
          obtain ⟨-, -, ⟨file, holds⟩, -, -, kind⟩ := installed_spec ran member
          rw [stagingPlace_eq_place names, FileTree.file?_eq_some_iff] at holds
          refine Or.inr (Or.inr ⟨name, owned name ?_, rfl, file, ?_⟩)
          · rcases kind with companion | rfl
            · exact StagedArtifact.mem_artifactNames companion
            · exact List.mem_cons_self
          · rw [moved name member]
            exact holds
        · rw [others place not_staged fun name member place_eq =>
            installed ⟨name, member, place_eq⟩]
          exact before.content place below not_staged
      · rw [FileTree.isDirectory_congr (on_way place leads)]
        exact is_open place leads

end Attempt

/-- A run with tools that write only inside the staging directory keeps the residue. -/
theorem residue_runFrom {targets : List Target} {index : Nat}
    (names : ∀ name ∈ world.cwd, IsName name) (absolute : build.outDir.isAbsolute = true)
    (stays : build.outDir.StaysAbove world.cwd)
    (confined : build.runner.ConfinedTo (build.stagingPlace world))
    (owned : ∀ target ∈ targets, ∀ name ∈ target.artifactNames build.platform, name ∈ own)
    (residue : Residue build.outDir own world.cwd world.tree) :
    (build.runFrom index (.before index) targets world).2.2.2.cwd = world.cwd ∧
      Residue build.outDir own world.cwd
        (build.runFrom index (.before index) targets world).2.2.2.tree := by
  induction targets generalizing index world with
  | nil => exact ⟨rfl, residue⟩
  | cons target rest induction =>
      rw [List.forall_mem_cons] at owned
      let turn := Turn.next index target world
      have same_cwd : (build.finish turn).cwd = world.cwd := build.cwd_attempt target turn.start
      have attempted : Residue build.outDir own world.cwd (build.finish turn).tree :=
        @residue_attempt build turn.start target own names absolute stays residue confined owned.1
      cases failed : build.turnFails turn with
      | true =>
          rw [runFrom_cons_of_fails failed]
          exact ⟨same_cwd, attempted⟩
      | false =>
          rw [runFrom_cons_of_succeeds failed]
          have later := @induction (build.finish turn) (index + 1)
          rw [same_cwd, stagingPlace_of_cwd same_cwd] at later
          exact later names stays confined owned.2 attempted

theorem residue_runAll {targets : List Target} (names : ∀ name ∈ world.cwd, IsName name)
    (absolute : build.outDir.isAbsolute = true) (stays : build.outDir.StaysAbove world.cwd)
    (confined : build.runner.ConfinedTo (build.stagingPlace world))
    (owned : ∀ target ∈ targets, ∀ name ∈ target.artifactNames build.platform, name ∈ own)
    (residue : Residue build.outDir own world.cwd world.tree) :
    (build.runAll targets world).2.cwd = world.cwd ∧
      Residue build.outDir own world.cwd (build.runAll targets world).2.tree :=
  @residue_runFrom build world own targets 0 names absolute stays confined owned residue

end Build
end StagedBuild
