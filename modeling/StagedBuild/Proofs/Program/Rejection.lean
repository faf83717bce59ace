import StagedBuild.Proofs.Build.Plan
import StagedBuild.Proofs.Build.Progress
import StagedBuild.Proofs.Program.Cleaning
import StagedBuild.Proofs.Program.Discovery
import StagedBuild.Proofs.Program.Overrides
import StagedBuild.Proofs.Program.Relaying

/-!
# Giving up before anything is done

A command looks at its manifest and at the names that it was given before it does anything else.  If
the manifest cannot be used, or a name is not declared, then all that the run leaves is the message
of the error, after debug messages.  The exception is a manifest in a current directory whose path
is so long that the system does not read the path of the manifest: it is passed over, and the
command acts on the default one.
-/

namespace StagedBuild

namespace Manifest

/--
The file at a path cannot be used as a manifest: it cannot be read, its text is not a document, the
document does not describe a manifest, or the manifest is not accepted.
-/
inductive Unusable (tree : FileTree) (cwd : Location) (path : Path) : Prop
  /-- There is no text to read. -/
  | unreadable {error : IoError} (unread : tree.readText cwd path = .error error)
  /-- The text is not a document. -/
  | malformed {text : String} {error : Toml.SyntaxError}
      (read : tree.readText cwd path = .ok text) (refused : Toml.parse text = .error error)
  /-- The document does not describe a manifest. -/
  | unfit {text : String} {table : Toml.Table} {problem : SchemaProblem}
      (read : tree.readText cwd path = .ok text) (parsed : Toml.parse text = .ok table)
      (refused : Schema.decode table = .error problem)
  /-- The manifest is not accepted. -/
  | rejected {text : String} {table : Toml.Table} {manifest : Manifest}
      {problem : ManifestProblem}
      (read : tree.readText cwd path = .ok text) (parsed : Toml.parse text = .ok table)
      (decoded : Schema.decode table = .ok manifest) (refused : manifest.validate = .error problem)

/-- A file whose path is not read cannot be used as a manifest. -/
theorem unusable_of_unread {tree : FileTree} {cwd : Location} {path : Path}
    (unread : FileTree.admissible path ≠ .ok ()) : Unusable tree cwd path := by
  cases read : FileTree.admissible path with
  | ok done => exact absurd read unread
  | error error =>
      exact .unreadable (FileTree.readText_of_refused read)

/-- What cannot be used is not loaded. -/
theorem load_of_unusable {tree : FileTree} {cwd : Location} {path : Path}
    (unusable : Unusable tree cwd path) : ∃ error, load tree cwd path = .error error := by
  cases unusable with
  | @unreadable error unread =>
      refine ⟨.unreadable path error, ?_⟩
      simp only [load, unread, Except.mapError, bind, Except.bind]
  | @malformed text error read refused =>
      refine ⟨.malformed path (error.position text).1 (error.position text).2, ?_⟩
      simp only [load, read, ofText, refused, Except.mapError, bind, Except.bind]
  | @unfit _ _ problem read parsed refused =>
      refine ⟨.unfit path problem, ?_⟩
      simp only [load, read, ofText, parsed, refused, Except.mapError, bind, Except.bind]
  | @rejected _ _ _ problem read parsed decoded refused =>
      refine ⟨.invalid path problem, ?_⟩
      simp only [load, read, ofText, parsed, decoded, refused, Except.mapError, bind, Except.bind]

/-- A name that is not declared selects nothing. -/
theorem select_of_undeclared {manifest : Manifest} {wanted : List String} {name : String}
    (asked : name ∈ wanted) (undeclared : ∀ target ∈ manifest.allTargets, target.name ≠ name) :
    ∃ problem, manifest.select wanted = .error problem := by
  have unknown : name ∉ manifest.names := by
    intro declared
    obtain ⟨entry, member, rfl⟩ := List.mem_map.mp declared
    exact undeclared entry.target (List.mem_map_of_mem member) rfl
  have some_wanted : wanted.isEmpty = false := by
    rw [List.isEmpty_eq_false_iff]
    exact List.ne_nil_of_mem asked
  rw [select, some_wanted]
  cases found : wanted.find? fun name => !manifest.names.contains name with
  | some problem => exact ⟨_, rfl⟩
  | none =>
      have all_declared := List.find?_eq_none.mp found name asked
      simp [unknown] at all_declared

end Manifest

/-- The names of targets that an action is given; cleaning is given none. -/
def CommandLine.Action.wanted : CommandLine.Action → List String
  | .build names | .plan names => names
  | .clean => []

/-- Nothing has happened, or else a change to a file came first. -/
def World.ChangedFirst (world left : World) : Prop :=
  left = world ∨ ∃ change rest, left.trace = world.trace ++ .changed change :: rest

theorem World.ChangedFirst.trans {world middle left : World} (first : world.ChangedFirst middle)
    (second : middle.ChangedFirst left) : world.ChangedFirst left := by
  obtain rfl | ⟨change, rest, first_eq⟩ := first
  · exact second
  · obtain rfl | ⟨other, more, second_eq⟩ := second
    · exact .inr ⟨change, rest, first_eq⟩
    · exact .inr ⟨change, rest ++ .changed other :: more, by simp [second_eq, first_eq]⟩

namespace Project

variable {project : Project} {runner : Runner} {platform : Platform} {world left : World}

theorem changedFirst_removeFiles {paths : List Path} {result : Except CleanError Unit}
    (removed : removeFiles paths world = (result, left)) : world.ChangedFirst left := by
  induction paths generalizing world with
  | nil => exact .inl (Prod.mk.inj removed).2.symm
  | cons path paths induction =>
      rw [removeFiles, World.removeFileIfExists] at removed
      cases outcome : world.tree.removeFile world.cwd path with
      | ok removal =>
          obtain ⟨tree, place⟩ := removal
          simp only [outcome, if_true] at removed
          refine .trans (.inr ⟨.removedFile place, [.status (removedLine path)], ?_⟩)
            (induction removed)
          simp [World.emit, World.change]
      | error error =>
          cases missing : error.kind == .notFound with
          | true =>
              simp only [outcome, missing, if_true] at removed
              exact induction removed
          | false =>
              simp only [outcome, missing] at removed
              exact .inl (Prod.mk.inj removed).2.symm

theorem changedFirst_removeStaging {path : Path} {error : CleanError}
    (refused : removeStaging path world = (.error error, left)) : world.ChangedFirst left := by
  rw [removeStaging, World.removeDirectoryIfExists] at refused
  rcases outcome : world.tree.removeDirectory world.cwd path with ⟨tree, changes, _ | done⟩
  · rename_i problem
    have journal := (FileTree.removeDirectory_journal outcome).1
    cases missing : problem.kind == .notFound with
    | true => simp [outcome, missing] at refused
    | false =>
        simp only [outcome, missing] at refused
        obtain rfl := (Prod.mk.inj refused).2
        cases journal with
        | nil => exact .inl (by simp [World.change])
        | @cons change changes => exact .inr ⟨change, changes.map .changed, rfl⟩
  · simp [outcome] at refused

/-- A cleaning that is given up has changed a file, or it has done nothing. -/
theorem changedFirst_clean {error : CleanError}
    (refused : project.clean runner platform world = (.error error, left)) :
    world.ChangedFirst left := by
  rw [clean] at refused
  split at refused
  · rename_i removed
    obtain ⟨-, rfl⟩ := Prod.mk.inj refused
    exact changedFirst_removeFiles removed
  · rename_i removed
    split at refused
    · rename_i staging
      obtain ⟨-, rfl⟩ := Prod.mk.inj refused
      exact (changedFirst_removeFiles removed).trans (changedFirst_removeStaging staging)
    · simp at refused

end Project

namespace Program

open CommandLine (Options Action Request)

variable {surroundings : Surroundings} {options : Options} {action : Action} {runner : Runner}
  {world : World} {path : Path}

/-- The manifest of a run: the one that it is given, or else the file in the current directory. -/
def manifestFile? (options : Options) (world : World) : Option Path :=
  match options.manifestPath with
  | some path => some (world.resolve path)
  | none =>
      (world.tree.file? (world.cwd ++ [Manifest.fileName])).map fun _ =>
        world.cwdPath.join Manifest.fileName

/-- The run has a manifest that cannot be used, or is given a name that is not declared. -/
inductive Misconfigured (options : Options) (action : Action) (tool : Option String)
    (world : World) : Prop
  /-- The manifest cannot be used. -/
  | manifest {path : Path} (chosen : manifestFile? options world = some path)
      (unusable : Manifest.Unusable world.tree world.cwd path)
  /-- A target is not declared. -/
  | selection {name : String} (asked : name ∈ action.wanted)
      (undeclared : ∀ target ∈ declared options tool world, target.name ≠ name)

/-- The manifest lies in the current directory, and the system does not read its path. -/
def Overlooks (options : Options) (world : World) : Prop :=
  options.manifestPath = none ∧
    (∃ file, world.tree.file? (world.cwd ++ [Manifest.fileName]) = some file) ∧
    FileTree.admissible (world.cwdPath.join Manifest.fileName) ≠ .ok ()

/-- The project that a run acts on when it finds no manifest. -/
def fallback (options : Options) (tool : Option String) (world : World) : Project :=
  (Project.mk world.cwdPath .default).adjusted (options.tool <|> tool) options.outDir

/-- The world after no manifest was found in the current directory. -/
def fallenBack (world : World) : World :=
  world.debug ("no " ++ Manifest.fileName ++ " in " ++ world.cwdPath.text ++ ", using defaults")

/--
The run exits with one and leaves nothing but debug messages and, last, the message of an error: no
file changes, no tool is run, no status line is shown and nothing is printed.
-/
def HasNoEffect (console : Console) (world : World) (outcome : Outcome) : Prop :=
  ∃ after, ∃ notes : List String, ∃ message,
    outcome = .ended 1 console after ∧
      after.tree = world.tree ∧
      after.trace = world.trace ++ (notes.map (Event.log .debug) ++ [.gaveUp message]) ∧
      Console.stdout (notes.map (Event.log .debug) ++ [.gaveUp message]) = [] ∧
      after.statusLines = world.statusLines ∧ after.calls = world.calls

/-- Looking for the project leaves debug messages. -/
theorem exists_notes (options : Options) (tool : Option String) (world : World) :
    ∃ notes : List String,
      (project options tool world).2 = world.emit (notes.map (Event.log .debug)) := by
  cases given : options.manifestPath with
  | some path => exact ⟨[], by simp [project, given, Project.discover, World.emit]⟩
  | none =>
      simp only [project, given, Project.discover, Project.inDirectory, Manifest.discover]
      split <;> exact ⟨[_], rfl⟩

/-- There is no project with a manifest that cannot be used, unless it is overlooked. -/
theorem project_of_unusable (placed : world.IsPlaced) (noticed : ¬ Overlooks options world)
    (chosen : manifestFile? options world = some path)
    (unusable : Manifest.Unusable world.tree world.cwd path) (tool : Option String) :
    ∃ error, (project options tool world).1 = .error error := by
  obtain ⟨error, refused⟩ := Manifest.load_of_unusable unusable
  rw [manifestFile?] at chosen
  cases given : options.manifestPath with
  | some asked =>
      rw [given] at chosen
      obtain rfl := Option.some.inj chosen
      simp only [project, given, Project.discover, Project.ofManifest]
      cases absolute : Path.absoluteFrom world.cwdPath asked with
      | error problem => exact ⟨_, rfl⟩
      | ok whole =>
          rw [World.resolve, absolute] at refused
          refine ⟨error, ?_⟩
          simp only [refused, Except.mapError, bind, Except.bind, Except.map]
  | none =>
      rw [given] at chosen
      obtain ⟨file, holds, rfl⟩ := Option.map_eq_some_iff.mp chosen
      have read : FileTree.admissible (world.cwdPath.join Manifest.fileName) = .ok () := by
        by_contra unread
        exact noticed ⟨given, ⟨file, holds⟩, unread⟩
      refine ⟨error, ?_⟩
      have answer := Project.discover_inside placed holds read
      rw [refused] at answer
      simp only [project, given, answer, Except.map]

/-- A manifest that is overlooked is replaced by the default one, whatever it holds. -/
theorem project_of_overlooked (placed : world.IsPlaced) (overlooks : Overlooks options world)
    (tool : Option String) :
    project options tool world = (.ok (fallback options tool world), fallenBack world) := by
  obtain ⟨given, -, unread⟩ := overlooks
  simp only [project, given, Project.discover_overlooked placed unread]
  rfl

/-- A misconfigured command is given up, and nothing is left of it but debug messages. -/
theorem act_of_misconfigured (runner : Runner) (placed : world.IsPlaced)
    (noticed : ¬ Overlooks options world)
    (misconfigured : Misconfigured options action surroundings.tool world) :
    ∃ error, ∃ notes : List String,
      act surroundings options action runner world =
        (.error error, world.emit (notes.map (Event.log .debug))) := by
  obtain ⟨notes, ready_eq⟩ := exists_notes options surroundings.tool world
  rcases found : project options surroundings.tool world with ⟨result, ready⟩
  rw [found] at ready_eq
  subst ready_eq
  cases misconfigured with
  | manifest chosen unusable =>
      obtain ⟨error, refused⟩ :=
        project_of_unusable placed noticed chosen unusable surroundings.tool
      rw [found] at refused
      obtain rfl : result = .error error := refused
      exact ⟨.project error, notes, by rw [act, found]⟩
  | @selection name asked undeclared =>
      cases result with
      | error error => exact ⟨.project error, notes, by rw [act, found]⟩
      | ok project =>
          have nowhere : ∀ target ∈ project.manifest.allTargets, target.name ≠ name := by
            intro target declared_by
            apply undeclared target
            rw [declared, found]
            exact declared_by
          obtain ⟨problem, refused⟩ := Manifest.select_of_undeclared asked nowhere
          refine ⟨.selection problem, notes, ?_⟩
          cases action with
          | clean => contradiction
          | build names =>
              change project.manifest.select names = _ at refused
              simp only [act, found, perform, Project.build, refused, Except.mapError]
          | plan names =>
              change project.manifest.select names = _ at refused
              simp only [act, found, perform, Project.plan, refused, Except.mapError]

/-- A command that is given up after nothing but debug messages has no effect. -/
theorem hasNoEffect_of_act {error : ProgramError} {notes : List String}
    (requested : Request.ofWords surroundings.words = .ok (.act options action))
    (acted : act surroundings options action runner world =
      (.error error, world.emit (notes.map (Event.log .debug)))) :
    HasNoEffect (console options surroundings.terminal) world (run surroundings runner world) := by
  refine ⟨(world.emit (notes.map (Event.log .debug))).emit [.gaveUp error.message], notes,
    error.message, ?_, rfl, ?_, ?_, ?_, ?_⟩
  · simp only [run, requested, acted, conclude]
    rfl
  · simp [World.emit]
  · simp [Console.stdout, Console.stdoutOf]
  · simp [World.statusLines_emit, Event.statusLine?]
  · simp [World.calls, World.emit, Event.invocation?]

/-- A command that is not given up exits with zero or shows how it ended. -/
theorem perform_eq_ok {project : Project} {platform : Platform} {left : World} {code : Int}
    (performed : perform action project runner platform world = (.ok code, left)) :
    code = 0 ∨ ∃ before line, left.trace = before ++ [.status line] := by
  cases action with
  | build names =>
      cases selection : project.manifest.select names with
      | error problem =>
          simp [perform, Project.build, selection, Except.mapError] at performed
      | ok targets =>
          simp only [perform, Project.build_eq_of_select selection, Except.mapError] at performed
          obtain rfl := (Prod.mk.inj performed).2
          exact .inr ⟨_, _, rfl⟩
  | plan names =>
      cases selection : project.manifest.select names with
      | error problem =>
          simp [perform, Project.plan, selection, Except.mapError] at performed
      | ok targets =>
          simp only [perform, Project.plan, selection, Except.mapError] at performed
          exact .inl (Except.ok.inj (Prod.mk.inj performed).1).symm
  | clean =>
      rcases cleaned : project.clean runner platform world with ⟨_ | code, after⟩
      · simp [perform, cleaned, Except.mapError] at performed
      · simp only [perform, cleaned, Except.mapError] at performed
        rw [← Except.ok.inj (Prod.mk.inj performed).1]
        exact .inl (Project.steps_of_clean cleaned).1

theorem perform_eq_error {project : Project} {platform : Platform} {left : World}
    {error : ProgramError}
    (performed : perform action project runner platform world = (.error error, left)) :
    world.ChangedFirst left := by
  cases action with
  | build names =>
      cases selection : project.manifest.select names with
      | error problem =>
          simp only [perform, Project.build, selection, Except.mapError] at performed
          exact .inl (Prod.mk.inj performed).2.symm
      | ok targets =>
          simp [perform, Project.build, selection, Except.mapError] at performed
  | plan names =>
      cases selection : project.manifest.select names with
      | error problem =>
          simp only [perform, Project.plan, selection, Except.mapError] at performed
          exact .inl (Prod.mk.inj performed).2.symm
      | ok targets =>
          simp [perform, Project.plan, selection, Except.mapError] at performed
  | clean =>
      rcases cleaned : project.clean runner platform world with ⟨_ | code, after⟩
      · simp only [perform, cleaned, Except.mapError] at performed
        obtain rfl := (Prod.mk.inj performed).2
        exact Project.changedFirst_clean cleaned
      · simp [perform, cleaned, Except.mapError] at performed

/-- What has no effect was given up before anything was done. -/
theorem refused_of_hasNoEffect {project : Project} {platform : Platform} {console : Console}
    {note : String}
    (silent : HasNoEffect console world (.ended
      (conclude (perform action project runner platform (world.debug note))).1 console
      (conclude (perform action project runner platform (world.debug note))).2)) :
    ∃ error, perform action project runner platform (world.debug note) =
      (.error error, world.debug note) := by
  obtain ⟨after, notes, message, ended, -, trace_eq, -⟩ := silent
  rcases performed : perform action project runner platform (world.debug note) with
    ⟨error | code, left⟩
  · rw [performed, conclude, Outcome.ended.injEq] at ended
    obtain ⟨-, -, rfl⟩ := ended
    have notes_eq : left.trace = world.trace ++ notes.map (Event.log .debug) := by
      rw [World.emit, ← List.append_assoc] at trace_eq
      exact (List.append_inj' trace_eq rfl).1
    obtain rfl | ⟨change, rest, changed⟩ := perform_eq_error performed
    · exact ⟨error, rfl⟩
    · rw [notes_eq, World.debug, World.emit, List.append_assoc] at changed
      have shown : .changed change ∈ notes.map (Event.log .debug) := by
        rw [List.append_cancel_left changed]
        simp
      simp at shown
  · rw [performed, conclude, Outcome.ended.injEq] at ended
    obtain ⟨rfl, -, rfl⟩ := ended
    obtain zero | ⟨before, line, shown⟩ := perform_eq_ok performed
    · simp at zero
    · rw [shown, ← List.append_assoc] at trace_eq
      have last := List.cons.inj (List.append_inj' trace_eq rfl).2
      simp at last

/--
Whatever the files and whatever the tools would do, a misconfigured command has no effect, unless
its manifest is overlooked.  Then the default manifest takes the place of the file, whatever that
holds, and the command has no effect only if it is refused on the default project, before it does
anything.
-/
theorem misconfigured_has_no_effect_iff (runner : Runner) (placed : world.IsPlaced)
    (requested : Request.ofWords surroundings.words = .ok (.act options action))
    (misconfigured : Misconfigured options action surroundings.tool world) :
    (HasNoEffect (console options surroundings.terminal) world (run surroundings runner world) ↔
      (Overlooks options world → ∃ error,
        perform action (fallback options surroundings.tool world) runner surroundings.platform
          (fallenBack world) = (.error error, fallenBack world))) ∧
    (Overlooks options world →
      project options surroundings.tool world =
        (.ok (fallback options surroundings.tool world), fallenBack world)) := by
  refine ⟨⟨fun silent overlooks => ?_, fun refused => ?_⟩,
    fun overlooks => project_of_overlooked placed overlooks surroundings.tool⟩
  · have found := project_of_overlooked placed overlooks surroundings.tool
    rw [run_of_found requested found] at silent
    exact refused_of_hasNoEffect silent
  · by_cases overlooks : Overlooks options world
    · obtain ⟨error, performed⟩ := refused overlooks
      refine @hasNoEffect_of_act surroundings options action runner world error
        ["no " ++ Manifest.fileName ++ " in " ++ world.cwdPath.text ++ ", using defaults"]
        requested ?_
      rw [act, project_of_overlooked placed overlooks]
      exact performed
    · obtain ⟨error, notes, acted⟩ := act_of_misconfigured runner placed overlooks misconfigured
      exact hasNoEffect_of_act requested acted

/-- A project in `/p` with a manifest that is not text. -/
def withBinaryManifest : World :=
  .inside ["p"] "Kiln.toml" [0xFF]

/-- A manifest that is there counts, even if it cannot be read: nothing is built by default. -/
theorem unreadable_manifest_has_no_effect :
    Request.ofWords ["build"] = .ok (.act {} (.build [])) ∧
      Misconfigured {} (.build []) none withBinaryManifest ∧
      ∀ runner, HasNoEffect {} withBinaryManifest
        (run { words := ["build"] } runner withBinaryManifest) := by
  have requested : Request.ofWords ["build"] = .ok (.act {} (.build [])) := by decide +kernel
  have placed : withBinaryManifest.IsPlaced :=
    World.isPlaced_inside (by decide) (by decide) _ _
  have chosen : manifestFile? {} withBinaryManifest = some ⟨"/p/Kiln.toml"⟩ := by decide +kernel
  have unread : withBinaryManifest.tree.readText ["p"] ⟨"/p/Kiln.toml"⟩ = .error .notUtf8 := by
    decide +kernel
  have misconfigured : Misconfigured {} (.build []) none withBinaryManifest :=
    .manifest chosen (.unreadable unread)
  have noticed : ¬ Overlooks {} withBinaryManifest := fun overlooks =>
    overlooks.2.2 (by decide +kernel)
  refine ⟨requested, misconfigured, fun runner => ?_⟩
  exact (@misconfigured_has_no_effect_iff { words := ["build"] } {} (.build []) withBinaryManifest
    runner placed requested misconfigured).1.mpr fun overlooks => absurd overlooks noticed

/-- A plan ends well and shows every target that is selected. -/
theorem plan_shows {project : Project} {wanted : List String} {targets : List Target}
    {target : Target} (runner : Runner) (platform : Platform) (world : World)
    (selection : project.manifest.select wanted = .ok targets) (member : target ∈ targets) :
    ∃ lines : List String, perform (.plan wanted) project runner platform world =
        (.ok 0, world.emit (lines.map .printed)) ∧
      "# " ++ Project.caption target ∈ lines := by
  refine ⟨_, by simp only [perform, Project.plan, selection]; rfl, ?_⟩
  rw [Build.plan, ← List.map_id targets, List.map_map, List.zip_map']
  refine List.mem_flatMap.mpr ⟨_, List.mem_map_of_mem member, ?_⟩
  exact List.mem_cons_self

/-- A project in a directory whose path has 4090 bytes; its manifest is not a document. -/
def deepProject : World :=
  .inside (World.deep 249) Manifest.fileName (Utf8.encode "[toolchain\n")

theorem isPlaced_deepProject : deepProject.IsPlaced :=
  World.isPlaced_inside (fun _ member => (World.mem_deep (by decide) (by decide) member).1)
    (fun _ member => (World.mem_deep (by decide) (by decide) member).2) _ _

theorem file?_deepProject :
    deepProject.tree.file? (deepProject.cwd ++ [Manifest.fileName]) =
      some ⟨Utf8.encode "[toolchain\n", false⟩ :=
  World.file?_inside (World.deep 249) Manifest.fileName _

theorem deepProject_overlooked : Overlooks {} deepProject := by
  refine ⟨rfl, ⟨_, file?_deepProject⟩, fun read => ?_⟩
  have in_limit := (Path.admissible_eq_ok_iff.mp read).2.2
  have sizes : (deepProject.cwd.map Utf8.size).sum = 3825 + 249 := World.size_deep 249
  have depth : deepProject.cwd.length = 16 := World.length_deep 249
  have file_size : Utf8.size Manifest.fileName = 9 := by decide
  rw [World.size_join_cwdPath isPlaced_deepProject.names Manifest.isName_fileName, sizes, depth,
    file_size] at in_limit
  exact absurd in_limit (by decide)

/-- The manifest in the current directory is not a document, and the default one is planned. -/
theorem deep_manifest_is_overlooked :
    Request.ofWords ["plan"] = .ok (.act {} (.plan [])) ∧ deepProject.IsPlaced ∧
      Misconfigured {} (.plan []) none deepProject ∧
      (∃ file, deepProject.tree.file? (deepProject.cwd ++ [Manifest.fileName]) = some file ∧
        file.content = Utf8.encode "[toolchain\n") ∧
      (Toml.parse "[toolchain\n").toOption.isNone = true ∧
      ∀ runner, ∃ after, run { words := ["plan"] } runner deepProject = .ended 0 {} after ∧
        .printed "# dieselc (executable)" ∈ after.trace := by
  have requested : Request.ofWords ["plan"] = .ok (.act {} (.plan [])) := by decide +kernel
  have chosen : manifestFile? {} deepProject =
      some (deepProject.cwdPath.join Manifest.fileName) := by
    simp only [manifestFile?, file?_deepProject, Option.map_some]
  have found := project_of_overlooked isPlaced_deepProject deepProject_overlooked none
  have selection : (fallback {} none deepProject).manifest.select [] =
      .ok Manifest.default.allTargets := rfl
  refine ⟨requested, isPlaced_deepProject,
    .manifest chosen (Manifest.unusable_of_unread deepProject_overlooked.2.2),
    ⟨_, file?_deepProject, rfl⟩, by decide +kernel, fun runner => ?_⟩
  have ran := @run_of_found { words := ["plan"] } {} (.plan []) runner deepProject _ _ requested
    found
  obtain ⟨lines, performed, shown⟩ := plan_shows runner .unix (fallenBack deepProject) selection
    (by decide : (TargetEntry.minimal "dieselc" .executable).target ∈ Manifest.default.allTargets)
  rw [performed] at ran
  exact ⟨_, ran, List.mem_append_right _ (List.mem_map_of_mem shown)⟩

end Program
end StagedBuild
