import StagedBuild.Proofs.Manifest.Acceptance
import StagedBuild.Proofs.Program.Confinement

/-!
# Settings that are replaced

A manifest is checked when it is loaded, so every project that is found has an accepted one.  The
tool and the output directory may be replaced afterwards, which leaves the targets alone.  The
output directory has no part in the check; a tool has, and it is not checked again: a command acts
on an accepted manifest exactly when the tool that it is given, if any, is not blank.
-/

namespace StagedBuild

theorem map_eq_ok_iff {error first second : Type} {computed : Except error first}
    {change : first → second} {result : second} :
    computed.map change = .ok result ↔ ∃ value, computed = .ok value ∧ change value = result := by
  cases computed <;> simp [Except.map]

namespace Manifest

variable {manifest changed : Manifest}

/-- A text that gives a manifest gives an accepted one. -/
theorem validate_of_ofText {path : Path} {text : String} (read : ofText path text = .ok manifest) :
    manifest.validate = .ok () := by
  obtain ⟨table, -, rest⟩ := FileTree.bind_eq_ok_iff.mp read
  obtain ⟨decoded, -, rest⟩ := FileTree.bind_eq_ok_iff.mp rest
  obtain ⟨done, checked, same⟩ := FileTree.bind_eq_ok_iff.mp rest
  obtain rfl := Except.ok.inj same
  cases accepted : decoded.validate with
  | error problem => simp [accepted, FileTree.mapError_error] at checked
  | ok done => rfl

theorem validate_of_load {tree : FileTree} {cwd : Location} {path : Path}
    (loaded : load tree cwd path = .ok manifest) : manifest.validate = .ok () := by
  obtain ⟨text, -, read⟩ := FileTree.bind_eq_ok_iff.mp loaded
  exact validate_of_ofText read

/-- The manifest of a directory is accepted, be it a file or the default one. -/
theorem validate_of_discover {root : Path} {world : World}
    (found : (discover root world).1 = .ok manifest) : manifest.validate = .ok () := by
  rw [discover] at found
  split at found
  · exact validate_of_load found
  · obtain rfl := Except.ok.inj found
    decide +kernel

/-- Between manifests with the targets of an accepted one, the tool makes the difference. -/
theorem validate_of_targets (accepted : manifest.validate = .ok ())
    (same_targets : changed.targets = manifest.targets) :
    changed.validate =
      if Text.isBlank changed.toolchain.tool then .error .blankTool else .ok () := by
  have sound : manifest.IsWellFormed :=
    (passes_checks_iff manifest).mp ((answers_validate manifest).eq_ok_iff.mp accepted)
  have declares : manifest.targets.isEmpty = false := List.isEmpty_eq_false_iff.mpr sound.declares
  rw [validate, same_targets, declares, checkTargets_of_validate accepted]
  rfl

end Manifest

namespace Project

variable {project : Project}

theorem validate_of_ofManifest {path : Path} {world : World}
    (found : ofManifest path world = .ok project) : project.manifest.validate = .ok () := by
  obtain ⟨absolute, -, rest⟩ := FileTree.bind_eq_ok_iff.mp found
  obtain ⟨manifest, loaded, rest⟩ := FileTree.bind_eq_ok_iff.mp rest
  split at rest
  · obtain rfl := Except.ok.inj rest
    exact Manifest.validate_of_load loaded
  · simp at rest

theorem validate_of_inDirectory {root : Path} {world : World}
    (found : (inDirectory root world).1 = .ok project) : project.manifest.validate = .ok () := by
  obtain ⟨manifest, loaded, rfl⟩ := map_eq_ok_iff.mp found
  exact Manifest.validate_of_discover loaded

/-- However a project is found, its manifest is accepted. -/
theorem validate_of_discover {given : Option Path} {world : World}
    (found : (discover given world).1 = .ok project) : project.manifest.validate = .ok () := by
  cases given with
  | none => exact validate_of_inDirectory found
  | some path => exact validate_of_ofManifest found

/-- A setting that may be replaced after a project was found. -/
inductive Override where
  /-- The tool is replaced, if one is given. -/
  | tool (given : Option String)
  /-- The output directory is replaced, if one is given. -/
  | outDir (given : Option Path)
  deriving DecidableEq, Repr

/-- The project with one setting replaced. -/
def override (project : Project) : Override → Project
  | .tool given => project.withTool given
  | .outDir given => project.withOutDir given

/-- The tool that a replacement gives. -/
def Override.tool? : Override → Option String
  | .tool given => given
  | .outDir _ => none

/-- The tool after some replacements: the last one that is given, or the one before all of them. -/
def toolAfter (tool : String) (overrides : List Override) : String :=
  (overrides.filterMap Override.tool?).getLast?.getD tool

theorem targets_override (project : Project) (change : Override) :
    (project.override change).manifest.targets = project.manifest.targets := by
  rcases change with ⟨_ | _⟩ | ⟨_ | _⟩ <;> rfl

theorem tool_override (project : Project) (change : Override) :
    (project.override change).manifest.toolchain.tool =
      change.tool?.getD project.manifest.toolchain.tool := by
  rcases change with ⟨_ | _⟩ | ⟨_ | _⟩ <;> rfl

theorem targets_overridden (project : Project) (overrides : List Override) :
    (overrides.foldl override project).manifest.targets = project.manifest.targets := by
  induction overrides generalizing project with
  | nil => rfl
  | cons change overrides induction =>
      rw [List.foldl_cons, induction, targets_override]

theorem tool_overridden (project : Project) (overrides : List Override) :
    (overrides.foldl override project).manifest.toolchain.tool =
      toolAfter project.manifest.toolchain.tool overrides := by
  induction overrides generalizing project with
  | nil => rfl
  | cons change overrides induction =>
      rw [List.foldl_cons, induction, tool_override, toolAfter, toolAfter]
      cases given : change.tool? with
      | none => rw [List.filterMap_cons_none given, Option.getD_none]
      | some tool =>
          rw [List.filterMap_cons_some given, List.getLast?_cons, Option.getD_some,
            Option.getD_some]

/-- After any replacements the tool decides whether an accepted manifest is still accepted. -/
theorem validate_overridden (accepted : project.manifest.validate = .ok ())
    (overrides : List Override) :
    (overrides.foldl override project).manifest.validate =
      if Text.isBlank (toolAfter project.manifest.toolchain.tool overrides) then
        .error .blankTool
      else .ok () := by
  rw [Manifest.validate_of_targets accepted (project.targets_overridden overrides),
    tool_overridden]

/-- The tool of an accepted manifest shows. -/
theorem isBlank_tool (accepted : project.manifest.validate = .ok ()) :
    Text.isBlank project.manifest.toolchain.tool = false := by
  have decided := Manifest.validate_of_targets accepted rfl
  cases blank : Text.isBlank project.manifest.toolchain.tool with
  | false => rfl
  | true => simp [accepted, blank] at decided

/-- A project that is adjusted is accepted unless a blank tool is given. -/
theorem validate_adjusted (accepted : project.manifest.validate = .ok ()) (tool : Option String)
    (outDir : Option Path) :
    (project.adjusted tool outDir).manifest.validate =
      if tool.any Text.isBlank then .error .blankTool else .ok () := by
  have overridden := validate_overridden accepted [.tool tool, .outDir outDir]
  cases tool with
  | none =>
      have kept : toolAfter project.manifest.toolchain.tool [.tool none, .outDir outDir] =
          project.manifest.toolchain.tool := rfl
      rw [kept, isBlank_tool accepted] at overridden
      exact overridden
  | some tool => exact overridden

end Project

namespace Program

open CommandLine (Options Action Request)

variable {surroundings : Surroundings} {options : Options} {action : Action} {runner : Runner}
  {world ready : World} {project : Project}

/-- A run that finds a project is the action on that project. -/
theorem run_of_found (requested : Request.ofWords surroundings.words = .ok (.act options action))
    (found : Program.project options surroundings.tool world = (.ok project, ready)) :
    run surroundings runner world =
      .ended (conclude (perform action project runner surroundings.platform ready)).1
        (console options surroundings.terminal)
        (conclude (perform action project runner surroundings.platform ready)).2 := by
  simp only [run, requested, act, found]

/-- The project of a run was found, and then adjusted to the command line and the environment. -/
theorem exists_discovered
    (found : Program.project options surroundings.tool world = (.ok project, ready)) :
    ∃ loaded, (Project.discover options.manifestPath world).1 = .ok loaded ∧
      project = loaded.adjusted (options.tool <|> surroundings.tool) options.outDir := by
  have adjusted : (Program.project options surroundings.tool world).1 = .ok project := by rw [found]
  obtain ⟨loaded, loaded_eq, same⟩ := map_eq_ok_iff.mp adjusted
  exact ⟨loaded, loaded_eq, same.symm⟩

/--
However a project is found, its manifest is accepted.  However often the tool and the output
directory are replaced then, the last tool that was given decides: if it is blank, this is the
problem of the manifest, and otherwise the manifest is accepted.  A command acts on a project that
was found and then adjusted, so it acts on an accepted manifest exactly when neither the command
line nor, where that gives no tool, the environment gives a blank one.
-/
theorem accepted_unless_blank_tool (runner : Runner)
    (requested : Request.ofWords surroundings.words = .ok (.act options action))
    (found : Program.project options surroundings.tool world = (.ok project, ready)) :
    (∀ given world loaded, (Project.discover given world).1 = .ok loaded →
        loaded.manifest.validate = .ok ()) ∧
      (∀ root world loaded, (Project.inDirectory root world).1 = .ok loaded →
        loaded.manifest.validate = .ok ()) ∧
      (∀ (loaded : Project) overrides, loaded.manifest.validate = .ok () →
        (overrides.foldl Project.override loaded).manifest.validate =
          if Text.isBlank (Project.toolAfter loaded.manifest.toolchain.tool overrides) then
            .error .blankTool
          else .ok ()) ∧
      run surroundings runner world =
        .ended (conclude (perform action project runner surroundings.platform ready)).1
          (console options surroundings.terminal)
          (conclude (perform action project runner surroundings.platform ready)).2 ∧
      project.manifest.validate =
        if (options.tool <|> surroundings.tool).any Text.isBlank then .error .blankTool
        else .ok () := by
  refine ⟨fun _ _ _ => Project.validate_of_discover, fun _ _ _ => Project.validate_of_inDirectory,
    fun _ overrides accepted => Project.validate_overridden accepted overrides,
    run_of_found requested found, ?_⟩
  obtain ⟨loaded, loaded_eq, rfl⟩ := exists_discovered found
  exact Project.validate_adjusted (Project.validate_of_discover loaded_eq) _ _

/-- A project in `/p` whose manifest names a tool. -/
def described : World where
  tree := (FileTree.empty.insert ["p"] .directory).insert ["p", "Kiln.toml"]
    (.file ⟨Utf8.encode "[toolchain]\ntool = \"cc\"\n", false⟩)
  cwd := ["p"]

theorem exists_ready {tool : Option String}
    (found : (Program.project options tool world).1.toOption = some project) :
    ∃ ready, Program.project options tool world = (.ok project, ready) := by
  rcases answer : Program.project options tool world with ⟨problem | loaded, ready⟩
  · simp [answer, Except.toOption] at found
  · rw [answer] at found
    obtain rfl := Option.some.inj found
    exact ⟨ready, rfl⟩

/-- The command line gives a tool, so the blank one of the environment does not count. -/
theorem shadowed_blank_tool_is_accepted :
    ∃ project ready,
      Request.ofWords ["plan", "--tool", "clang", "--out-dir", "dist"] =
          .ok (.act { tool := some "clang", outDir := some ⟨"dist"⟩ } (.plan [])) ∧
        Program.project { tool := some "clang", outDir := some ⟨"dist"⟩ } (some " ") described =
          (.ok project, ready) ∧
        project.manifest.toolchain.tool = "clang" ∧ project.manifest.outDir = ⟨"dist"⟩ ∧
        project.manifest.validate = .ok () := by
  have requested : Request.ofWords ["plan", "--tool", "clang", "--out-dir", "dist"] =
      .ok (.act { tool := some "clang", outDir := some ⟨"dist"⟩ } (.plan [])) := by decide +kernel
  have given : (Program.project { tool := some "clang", outDir := some ⟨"dist"⟩ } (some " ")
      described).1.toOption =
        some ⟨⟨"/p"⟩, { Manifest.default with
          toolchain := { Toolchain.odin with tool := "clang" }, outDir := ⟨"dist"⟩ }⟩ := by
    decide +kernel
  obtain ⟨ready, found⟩ := exists_ready given
  have accepted := @accepted_unless_blank_tool
    { words := ["plan", "--tool", "clang", "--out-dir", "dist"], tool := some " " } _ _ described
    ready _ executableWriter requested found
  exact ⟨_, ready, requested, found, rfl, rfl, accepted.2.2.2.2⟩

/--
A manifest may not name the empty tool, but the command line may.  The manifest that is acted on is
not accepted then, and its plan is printed nevertheless.
-/
theorem blank_tool_is_planned_with :
    (Manifest.ofText ⟨"/p/Kiln.toml"⟩ "[toolchain]\ntool = \"\"\n").mapError
          ProjectError.message =
        .error "invalid config: /p/Kiln.toml: toolchain.tool must not be empty" ∧
      Request.ofWords ["plan", "--tool="] = .ok (.act { tool := some "" } (.plan [])) ∧
      ∃ project ready after,
        Program.project { tool := some "" } none described = (.ok project, ready) ∧
          project.manifest.validate = .error .blankTool ∧
          run { words := ["plan", "--tool="] } executableWriter described = .ended 0 {} after ∧
          .printed "cd /p &&  build . -out:/p/bin/.kiln-staging/dieselc" ∈ after.trace := by
  have requested : Request.ofWords ["plan", "--tool="] =
      .ok (.act { tool := some "" } (.plan [])) := by decide +kernel
  have given : (Program.project { tool := some "" } none described).1.toOption =
      some ⟨⟨"/p"⟩, { Manifest.default with toolchain := { Toolchain.odin with tool := "" } }⟩ := by
    decide +kernel
  obtain ⟨ready, found⟩ := exists_ready given
  have ended := @run_of_found { words := ["plan", "--tool="] } _ _ executableWriter described ready
    _ requested found
  refine ⟨by decide +kernel, requested, _, ready, _, found, by decide +kernel, ended, ?_⟩
  exact List.mem_append_right ready.trace (List.mem_map_of_mem (by decide +kernel))

end Program
end StagedBuild
