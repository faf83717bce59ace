import StagedBuild.Program
import StagedBuild.Proofs.Build.Confinement
import StagedBuild.Proofs.Manifest.Names

/-!
# Where the program works by itself

Whatever the command, the program changes no file outside of the output directory but for the
directories on the way to it.  A build works on staged and installed files of the target that it
attempts, cleaning on installed files of declared targets and on staging, and planning on nothing.
The tools that a build runs are not bound by this.
-/

namespace StagedBuild

open StagedBuild.Path (IsName)
open Relation (ReflTransGen)
open World (Chores)

namespace Project

open StagedArtifact (locate stagingOf)

/-- The changes that cleaning may make. -/
inductive Cleans (project : Project) (build : Build) (cwd : Location) : Change → Prop
  /-- An installed file of a declared target is removed. -/
  | removes {target : Target} {path : Path} (declared : target ∈ project.manifest.allTargets)
      (installed : path ∈ (locate build.platform build.outDir target).installedFiles) :
      Cleans project build cwd (.removedFile (path.place cwd))
  /-- Staging is removed with everything in it. -/
  | clears {change : Change}
      (staging : FileTree.ClearsAt ((stagingOf build.outDir).place cwd) change) :
      Cleans project build cwd change

variable {project : Project} {runner : Runner} {platform : Platform} {world : World}

theorem chores_removeFiles (paths : List Path) (world : World) :
    Chores (StagedArtifact.Discards paths world.cwd) world (removeFiles paths world).2 := by
  induction paths generalizing world with
  | nil => exact Chores.refl
  | cons path rest induction =>
      have removed := (world.chores_removeFileIfExists path).mono fun change removal =>
        (⟨path, List.mem_cons_self, removal⟩ :
          StagedArtifact.Discards (path :: rest) world.cwd change)
      rw [removeFiles]
      split
      · rename_i removed_eq
        rw [removed_eq] at removed
        exact removed
      · rename_i found middle removed_eq
        rw [removed_eq] at removed
        have reported : Chores (StagedArtifact.Discards (path :: rest) world.cwd) world
            (if found then middle.emit [.status (removedLine path)] else middle) := by
          split
          · exact removed.trans (World.chores_remark rfl)
          · exact removed
        have later := induction (if found then middle.emit [.status (removedLine path)] else middle)
        rw [reported.recorded.1] at later
        apply reported.trans (later.mono _)
        rintro change ⟨other, member, rfl⟩
        exact ⟨other, List.mem_cons_of_mem path member, rfl⟩

theorem chores_removeStaging (path : Path) (world : World) :
    Chores (FileTree.ClearsAt (path.place world.cwd)) world (removeStaging path world).2 := by
  have removed := world.chores_removeDirectoryIfExists path
  rw [removeStaging]
  split
  · rename_i removed_eq
    rw [removed_eq] at removed
    exact removed
  · rename_i found middle removed_eq
    rw [removed_eq] at removed
    simp only
    split
    · exact removed.trans (World.chores_remark rfl)
    · exact removed

/-- Cleaning removes installed files of declared targets, and staging, wherever it stops. -/
theorem chores_clean (project : Project) (runner : Runner) (platform : Platform) (world : World) :
    Chores (project.Cleans (project.toBuild runner platform) world.cwd) world
      (project.clean runner platform world).2 := by
  have files : Chores (project.Cleans (project.toBuild runner platform) world.cwd) world
      (removeFiles (project.installedFiles (project.toBuild runner platform)) world).2 := by
    apply (chores_removeFiles _ world).mono
    rintro change ⟨path, member, rfl⟩
    obtain ⟨target, declared, installed⟩ := List.mem_flatMap.mp member
    exact .removes declared installed
  rw [clean]
  split
  · rename_i removed_eq
    rw [removed_eq] at files
    exact files
  · rename_i middle removed_eq
    rw [removed_eq] at files
    have staging := chores_removeStaging (stagingOf (project.toBuild runner platform).outDir) middle
    rw [files.recorded.1] at staging
    have both := files.trans (staging.mono fun _ clears => .clears clears)
    split <;>
    · rename_i staging_eq
      rw [staging_eq] at both
      exact both

/-- The build of a project with its progress shown. -/
def observed (project : Project) (runner : Runner) (platform : Platform) : Build :=
  (project.toBuild runner platform).withObserver (observer project.root)

/-- A build of declared targets is a run over them and one status line. -/
theorem build_eq_of_select {wanted : List String} {targets : List Target}
    (selection : project.manifest.select wanted = .ok targets) :
    project.build runner platform wanted world =
      (.ok ((project.observed runner platform).runAll targets world).1.exitCode,
        ((project.observed runner platform).runAll targets world).2.emit
          [.status (closingLine ((project.observed runner platform).runAll targets world).1)]) := by
  simp only [build, selection, observed]

/-- A build is a sequence of steps for the selected targets, however it ends. -/
theorem moves_build
    (output_names : ∀ target ∈ project.manifest.allTargets, IsName target.outputName)
    (names : ∀ name ∈ world.cwd, IsName name) (runner : Runner) (platform : Platform)
    (wanted : List String) :
    ReflTransGen ((project.toBuild runner platform).Move (project.manifest.selected wanted)) world
      (project.build runner platform wanted world).2 := by
  have selected_names : ∀ target ∈ project.manifest.selected wanted,
      IsName (target.fileName platform) := fun target member =>
    Target.isName_fileName
      (output_names target ((project.manifest.selected_sublist wanted).subset member)) platform
  cases selection : project.manifest.select wanted with
  | error problem =>
      rw [build, selection]
  | ok targets =>
      rw [Manifest.selected_of_select selection] at selected_names ⊢
      have run := @Build.moves_runAll (project.observed runner platform) targets world names
        selected_names
      rw [build_eq_of_select selection]
      exact (Build.moves_of_withObserver run).tail (.note (by simp))

/-- A plan notes what it prints and does nothing else. -/
theorem plan_prints (project : Project) (runner : Runner) (platform : Platform)
    (wanted : List String) (world : World) :
    ∃ lines : List String, (project.plan runner platform wanted world).2 =
      world.emit (lines.map .printed) := by
  rw [plan]
  split
  · exact ⟨[], by simp [World.emit]⟩
  · exact ⟨_, rfl⟩

theorem isAbsolute_outDir (project : Project) (absolute : project.root.isAbsolute = true) :
    project.outDir.isAbsolute = true := by
  rw [outDir]
  cases given : (Path.mk project.manifest.outDir.text).isAbsolute with
  | true =>
      rw [Path.join, if_pos given]
      exact given
  | false => rw [Path.isAbsolute_join _ given, absolute]

/-- The build of a project with an absolute root installs into its output directory. -/
theorem outDir_toBuild (absolute : project.root.isAbsolute = true) :
    (project.toBuild runner platform).outDir = project.outDir := by
  have whole := project.isAbsolute_outDir absolute
  have replaced : project.root.join project.outDir.text = project.outDir := by
    rw [Path.join, if_pos whole]
  exact replaced

theorem isAbsolute_outDir_toBuild (absolute : project.root.isAbsolute = true) :
    (project.toBuild runner platform).outDir.isAbsolute = true := by
  rw [outDir_toBuild absolute]
  exact project.isAbsolute_outDir absolute

/-- The project as the command line asks for it. -/
def adjusted (project : Project) (tool : Option String) (outDir : Option Path) : Project :=
  (project.withTool tool).withOutDir outDir

theorem targets_adjusted (project : Project) (tool : Option String) (outDir : Option Path) :
    (project.adjusted tool outDir).manifest.targets = project.manifest.targets := by
  cases tool <;> cases outDir <;> rfl

theorem root_adjusted (project : Project) (tool : Option String) (outDir : Option Path) :
    (project.adjusted tool outDir).root = project.root := by
  cases tool <;> cases outDir <;> rfl

end Project

/-- The change that an event records. -/
def Event.change? : Event → Option Change
  | .changed change => some change
  | _ => none

namespace Program

variable {project : Project} {world : World}

/--
Whatever the command does and wherever it stops, a build takes steps for the selected targets, a
plan only prints, and cleaning removes installed files of declared targets and staging.  All of
them agree on the output directory: it is the one of the project.
-/
theorem perform_confined (accepted : project.manifest.validate = .ok ())
    (names : ∀ name ∈ world.cwd, IsName name) (tool : Option String) (outDir : Option Path)
    (runner : Runner) (platform : Platform) :
    let adjusted := project.adjusted tool outDir
    let build := adjusted.toBuild runner platform
    (∀ wanted, ReflTransGen (build.Move (adjusted.manifest.selected wanted)) world
        (perform (.build wanted) adjusted runner platform world).2) ∧
      (∀ wanted, ∃ lines : List String,
        (perform (.plan wanted) adjusted runner platform world).2 =
          world.emit (lines.map .printed)) ∧
      Chores (adjusted.Cleans build world.cwd) world
        (perform .clean adjusted runner platform world).2 ∧
      (project.root.isAbsolute = true → build.outDir = adjusted.outDir) := by
  have output_names : ∀ target ∈ (project.adjusted tool outDir).manifest.allTargets,
      IsName target.outputName := by
    intro target declared
    rw [Manifest.allTargets, Project.targets_adjusted] at declared
    exact Manifest.isName_outputName accepted declared
  refine ⟨fun wanted => ?_, fun wanted => ?_, ?_, fun absolute => ?_⟩
  · exact Project.moves_build output_names names runner platform wanted
  · exact (project.adjusted tool outDir).plan_prints runner platform wanted world
  · exact (project.adjusted tool outDir).chores_clean runner platform world
  · apply Project.outDir_toBuild
    rw [Project.root_adjusted]
    exact absolute

/-- The project in `/p` without a manifest. -/
def undescribed : Project :=
  ⟨⟨"/p"⟩, .default⟩

/-- The tool that writes the executable of the default manifest into staging, and a library. -/
def executableWriter : Runner :=
  .writing [(["p", "out", ".kiln-staging", "dieselc"], ⟨Utf8.encode "dieselc", true⟩),
    (["p", "out", ".kiln-staging", "dieselc.lib"], ⟨Utf8.encode "lib", false⟩)] true

/-- The changes of a build that succeeds, in order. -/
theorem perform_confined_executable :
    undescribed.manifest.validate = .ok () ∧ (∀ name ∈ World.project.cwd, IsName name) ∧
      ReflTransGen
        (((undescribed.adjusted none (some ⟨"out"⟩)).toBuild executableWriter .unix).Move
          (Manifest.default.selected ["dieselc"])) World.project
        (perform (.build ["dieselc"]) (undescribed.adjusted none (some ⟨"out"⟩)) executableWriter
          .unix World.project).2 ∧
      (perform (.build ["dieselc"]) (undescribed.adjusted none (some ⟨"out"⟩)) executableWriter
          .unix World.project).2.trace.filterMap Event.change? =
        [.createdDirectory ["p", "out"], .createdDirectory ["p", "out", ".kiln-staging"],
          .movedFile ["p", "out", ".kiln-staging", "dieselc.lib"] ["p", "out", "dieselc.lib"],
          .movedFile ["p", "out", ".kiln-staging", "dieselc"] ["p", "out", "dieselc"]] := by
  have accepted : undescribed.manifest.validate = .ok () := by decide +kernel
  have names : ∀ name ∈ World.project.cwd, IsName name := by decide +kernel
  have confined := perform_confined accepted names none (some ⟨"out"⟩) executableWriter .unix
  exact ⟨accepted, names, confined.1 ["dieselc"], by decide +kernel⟩

end Program
end StagedBuild
