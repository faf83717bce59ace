import StagedBuild.Proofs.Build.FirstFailure
import StagedBuild.Proofs.Build.Upkeep

/-!
# Where a build works by itself

Between the runs of tools a build creates directories on the way to staging, removes files of the
target that it attempts from staging, and moves such files onto installed ones.  `Build.Move` is
one step of a build, and every build, however it ends, is a sequence of such steps.
-/

namespace StagedBuild

open StagedBuild.Path (IsName)
open Relation (ReflTransGen)
open World (Chores)

/-- The state that an event brings about. -/
def Event.newState? : Event → Option BuildState
  | .state _ after => some after
  | _ => none

namespace World

/-- The state of the build in a world: the last one that was entered. -/
def state? (world : World) : Option BuildState :=
  (world.trace.filterMap Event.newState?).getLast?

variable {world after : World}

theorem state?_of_trace {events : List Event} (trace_eq : after.trace = world.trace ++ events)
    (stateless : ∀ event ∈ events, event.newState? = none) : after.state? = world.state? := by
  rw [state?, trace_eq, List.filterMap_append, List.filterMap_eq_nil_iff.mpr stateless,
    List.append_nil, state?]

theorem state?_emit {events : List Event}
    (stateless : ∀ event ∈ events, event.newState? = none) :
    (world.emit events).state? = world.state? :=
  state?_of_trace rfl stateless

theorem Chores.state? {allowed : Change → Prop} (chores : Chores allowed world after) :
    after.state? = world.state? := by
  obtain ⟨-, events, trace_eq, recorded⟩ := chores.recorded
  refine state?_of_trace trace_eq fun event member => ?_
  rcases recorded event member with quiet | ⟨change, -, rfl⟩
  · cases event with
    | state before after => simp [Event.isRemark] at quiet
    | _ => rfl
  · rfl

theorem state?_transition (before after : BuildState) (world : World) :
    (Build.transition before after world).state? = some after := by
  simp [World.state?, Build.transition, emit, Event.newState?]

end World

namespace StagedArtifact

variable {platform : Platform} {outDir : Path} {target : Target}

/-- The files of a target that may be in staging lie directly in it. -/
theorem mem_leftovers (is_name : IsName (target.fileName platform)) {tree : FileTree}
    {cwd : Location} {path : Path}
    (member : path ∈ (locate platform outDir target).leftovers tree cwd) :
    ∃ name ∈ target.artifactNames platform, IsName name ∧
      path = (stagingOf outDir).join name := by
  rw [leftovers] at member
  rcases List.mem_append.mp member with companion | staged
  · cases listed : (locate platform outDir target).companions tree cwd with
    | error error => simp [listed, Except.toOption] at companion
    | ok paths =>
        obtain ⟨names, rfl, -, chosen⟩ := companions_eq_ok listed
        rw [listed, stagingDir_locate is_name] at companion
        obtain ⟨name, name_mem, rfl⟩ := List.mem_map.mp companion
        have kind := (chosen name name_mem).1
        exact ⟨name, mem_artifactNames kind, (isName_of_isCompanionName is_name kind).1, rfl⟩
  · obtain rfl := List.mem_singleton.mp staged
    exact ⟨target.fileName platform, List.mem_cons_self, is_name, rfl⟩

/-- A file is installed under each name of the target, in a directory that opens with the output
directory. -/
theorem exists_installed_of_name (is_name : IsName (target.fileName platform))
    {name : String} (own : name ∈ target.artifactNames platform) (cwd : Location) :
    ∃ directory : Path, directory.join name ∈ (locate platform outDir target).installedFiles ∧
      directory.place cwd = outDir.place cwd ∧
      ∀ tree : FileTree, tree.Opens cwd outDir → tree.Opens cwd directory := by
  rcases List.mem_cons.mp own with rfl | companion
  · exact ⟨outDir, List.mem_cons_self, rfl, fun _ opens => opens⟩
  · obtain ⟨suffix, extension, rfl⟩ := List.mem_map.mp companion
    exact ⟨(locate platform outDir target).outDir,
      List.mem_cons_of_mem _ (List.mem_map.mpr ⟨suffix, extension, rfl⟩),
      place_outDir_locate is_name cwd, fun _ opens => opens.directory_join is_name⟩

/-- A target installs a file under each of its names. -/
theorem exists_installedFile (is_name : IsName (target.fileName platform)) {name : String}
    (own : name ∈ target.artifactNames platform) (cwd : Location) :
    ∃ path ∈ (locate platform outDir target).installedFiles,
      path.place cwd = outDir.place cwd ++ [name] := by
  obtain ⟨directory, installed, same_place, -⟩ := @exists_installed_of_name platform outDir target
    is_name name own cwd
  refine ⟨directory.join name, installed, ?_⟩
  rw [Path.place_join_name directory (isName_of_mem_artifactNames is_name own), same_place]

end StagedArtifact

namespace Build

open StagedArtifact (locate stagingOf)

/-- The changes that an attempt at a target may make by itself. -/
inductive Handles (build : Build) (target : Target) (world : World) : Change → Prop
  /-- A missing directory on the way to staging is created. -/
  | creates {place : Location}
      (leads : (stagingOf (world.resolve build.outDir)).LeadsThrough world.cwd place) :
      Handles build target world (.createdDirectory place)
  /-- A file of the target is removed from staging. -/
  | removes {name : String} (own : name ∈ target.artifactNames build.platform) :
      Handles build target world
        (.removedFile ((stagingOf build.outDir).place world.cwd ++ [name]))
  /-- A file of the target is moved from staging onto an installed one. -/
  | installs {name : String} {path : Path} (own : name ∈ target.artifactNames build.platform)
      (installed : path ∈ (locate build.platform build.outDir target).installedFiles) :
      Handles build target world
        (.movedFile ((stagingOf build.outDir).place world.cwd ++ [name]) (path.place world.cwd))

/-- One step of a build of some targets. -/
inductive Move (build : Build) (targets : List Target) : World → World → Prop
  /-- Something is noted that is not a change. -/
  | note {world : World} {event : Event} (still : ∀ change, event ≠ .changed change) :
      Move build targets world (world.emit [event])
  /-- The build itself makes a change for the target that it attempts. -/
  | own {world : World} {tree : FileTree} {change : Change} {index : Nat} {target : Target}
      (running : world.state? = some (.running index)) (attempted : targets[index]? = some target)
      (handles : build.Handles target world change) (makes : change.Makes world.tree tree) :
      Move build targets world (world.change tree [change])
  /-- The tool runs for the target that is attempted, and leaves the files as it likes. -/
  | tool {world : World} {index : Nat} {target : Target} (invocation : Invocation)
      (running : world.state? = some (.running index)) (attempted : targets[index]? = some target) :
      Move build targets world (build.call target invocation world).2

variable {build : Build} {targets : List Target} {target : Target} {index : Nat}
  {world after : World}

theorem handles_of_cwd (same : after.cwd = world.cwd) {change : Change}
    (handles : build.Handles target world change) : build.Handles target after change := by
  cases handles with
  | creates leads =>
      rw [← resolve_of_cwd same, ← same] at leads
      exact .creates leads
  | removes own =>
      rw [← same]
      exact .removes own
  | installs own installed =>
      rw [← same]
      exact .installs own installed

theorem moves_of_withObserver {observer : Observer}
    (moves : ReflTransGen ((build.withObserver observer).Move targets) world after) :
    ReflTransGen (build.Move targets) world after := by
  have each : (build.withObserver observer).Move targets ≤ build.Move targets := by
    intro before next move
    cases move with
    | note still => exact .note still
    | own running attempted handles makes =>
        refine .own running attempted ?_ makes
        cases handles with
        | creates leads => exact .creates leads
        | removes own => exact .removes own
        | installs own installed => exact .installs own installed
    | tool invocation running attempted => exact .tool invocation running attempted
  exact ReflTransGen.mono each _ _ moves

theorem moves_emit {events : List Event}
    (still : ∀ event ∈ events, ∀ change, event ≠ .changed change) :
    ReflTransGen (build.Move targets) world (world.emit events) := by
  induction events generalizing world with
  | nil =>
      have unchanged : world.emit [] = world := by simp [World.emit]
      rw [unchanged]
  | cons event events induction =>
      rw [List.forall_mem_cons] at still
      have one_by_one : (world.emit [event]).emit events = world.emit (event :: events) := by
        simp [World.emit]
      rw [← one_by_one]
      exact ReflTransGen.head (.note still.1) (induction still.2)

theorem not_changed_status {lines : List StatusLine} :
    ∀ event ∈ lines.map Event.status, ∀ change, event ≠ .changed change := by
  intro event member change
  obtain ⟨line, -, rfl⟩ := List.mem_map.mp member
  simp

/-- What the build does by itself in an attempt is a sequence of steps for its target. -/
theorem moves_of_chores {allowed : Change → Prop}
    (running : world.state? = some (.running index)) (attempted : targets[index]? = some target)
    (handled : ∀ change, allowed change → build.Handles target world change)
    (chores : Chores allowed world after) : ReflTransGen (build.Move targets) world after := by
  induction chores with
  | refl => exact ReflTransGen.refl
  | @tail middle last earlier chore induction =>
      apply induction.tail
      cases chore with
      | @remark event quiet =>
          apply Move.note
          rintro change rfl
          simp [Event.isRemark] at quiet
      | change is_allowed makes =>
          have same_cwd := (Chores.recorded earlier).1
          exact .own ((Chores.state? earlier).trans running) attempted
            (handles_of_cwd same_cwd (handled _ is_allowed)) makes

/-- The staging directory and its files are where the output directory says. -/
theorem place_staging_resolve (names : ∀ name ∈ world.cwd, IsName name) :
    (stagingOf (world.resolve build.outDir)).place world.cwd =
      (stagingOf build.outDir).place world.cwd := by
  rw [StagedArtifact.place_stagingOf, StagedArtifact.place_stagingOf, World.place_resolve names]

/-- The steps up to the end of the tool. -/
theorem moves_left {run : ToolRun} (running : world.state? = some (.running index))
    (attempted : targets[index]? = some target)
    (prepared : ReflTransGen (build.Move targets) world (build.prepared target world))
    (ran : build.toolRun? target world = some run) :
    run.left.state? = some (.running index) ∧
      ReflTransGen (build.Move targets) world run.left := by
  have same_state := (StagedArtifact.chores_prepare build.platform build.outDir target world).state?
  rw [toolRun?] at ran
  split at ran
  · simp at ran
  · rename_i artifact middle prepared_eq
    obtain rfl := Option.some.inj ran
    rw [Build.prepared, prepared_eq] at prepared
    rw [prepared_eq] at same_state
    let announced := middle.emit (.started target artifact.path
      :: (build.observer.onStart target artifact.path).map .status)
    have announced_state : announced.state? = some (.running index) := by
      rw [World.state?_emit (by simp [Event.newState?])]
      exact same_state.trans running
    constructor
    · rw [ToolRun.left, World.state?_emit (by simp [Event.newState?])]
      exact (World.state?_emit (by simp [Event.newState?])).trans announced_state
    · apply (prepared.trans (moves_emit _)).tail
        (.tool (build.invocation target artifact) announced_state attempted)
      rw [List.forall_mem_cons]
      exact ⟨by simp, not_changed_status⟩

section Attempt

variable (names : ∀ name ∈ world.cwd, IsName name)
  (is_name : IsName (target.fileName build.platform))

include names is_name

theorem handles_of_prepares {change : Change}
    (prepares : (locate build.platform (world.resolve build.outDir) target).Prepares
      (stagingOf (world.resolve build.outDir)) world.cwd change) :
    build.Handles target world change := by
  rcases prepares with ⟨place, leads, rfl⟩ | rfl
  · exact .creates leads
  · have staged := Path.place_join_name (stagingOf (world.resolve build.outDir)) is_name world.cwd
    rw [place_staging_resolve names] at staged
    rw [locate, staged]
    exact .removes List.mem_cons_self

theorem handles_of_discards {tree : FileTree} {change : Change}
    (discards : StagedArtifact.Discards
      ((locate build.platform (world.resolve build.outDir) target).leftovers tree world.cwd)
      world.cwd change) :
    build.Handles target world change := by
  obtain ⟨path, member, rfl⟩ := discards
  obtain ⟨name, own, file_name, rfl⟩ := StagedArtifact.mem_leftovers is_name member
  rw [Path.place_join_name _ file_name, place_staging_resolve names]
  exact .removes own

theorem handles_of_promotes {tree : FileTree} {change : Change}
    (promotes : (locate build.platform (world.resolve build.outDir) target).Promotes
      ((locate build.platform (world.resolve build.outDir) target).leftovers tree world.cwd)
      world.cwd change) :
    build.Handles target world change := by
  obtain ⟨path, member, name, named, rfl⟩ := promotes
  obtain ⟨own_name, own, file_name, rfl⟩ := StagedArtifact.mem_leftovers is_name member
  obtain rfl : own_name = name :=
    Option.some.inj ((file_name.fileName?_join _).symm.trans named)
  obtain ⟨path, installed, place_eq⟩ :=
    @StagedArtifact.exists_installedFile build.platform build.outDir target is_name own_name own
      world.cwd
  rw [Path.place_join_name _ file_name, place_staging_resolve names,
    Path.place_join_name _ file_name, StagedArtifact.place_outDir_locate is_name,
    World.place_resolve names, ← place_eq]
  exact .installs own installed

/-- An attempt is a sequence of steps for its target, however it ends. -/
theorem moves_attempt (running : world.state? = some (.running index))
    (attempted : targets[index]? = some target) :
    ReflTransGen (build.Move targets) world (build.attempt target world).2 := by
  have prepared : ReflTransGen (build.Move targets) world (build.prepared target world) :=
    moves_of_chores running attempted (fun _ => handles_of_prepares names is_name)
      (StagedArtifact.chores_prepare build.platform build.outDir target world)
  cases ran : build.toolRun? target world with
  | none =>
      obtain ⟨error, refused⟩ := attempt_of_none ran
      rw [refused]
      exact prepared
  | some run =>
      have same_cwd : run.left.cwd = world.cwd := (toolRun_spec ran).2.2.2.1
      have artifact_eq := (toolRun_spec ran).1
      obtain ⟨running, moved⟩ := moves_left running attempted prepared ran
      rw [world_attempt_of_toolRun ran]
      apply moved.trans
      split
      · have committed := run.artifact.chores_commit run.left
        rw [artifact_eq, same_cwd] at committed
        rw [artifact_eq]
        exact moves_of_chores running attempted
          (fun _ promotes => handles_of_cwd same_cwd (handles_of_promotes names is_name promotes))
          committed
      · have discarded := run.artifact.chores_discard run.left
        rw [artifact_eq, same_cwd] at discarded
        rw [artifact_eq]
        exact moves_of_chores running attempted
          (fun _ discards => handles_of_cwd same_cwd (handles_of_discards names is_name discards))
          discarded

end Attempt

/-- A turn is a sequence of steps for its target. -/
theorem moves_finish (names : ∀ name ∈ world.cwd, IsName name)
    (is_name : IsName (target.fileName build.platform))
    (attempted : targets[index]? = some target) :
    ReflTransGen (build.Move targets) world (build.finish (Turn.next index target world)) := by
  have entered : build.Move targets world (transition (.before index) (.running index) world) :=
    .note (by simp)
  have tried : ReflTransGen (build.Move targets)
      (transition (.before index) (.running index) world) _ :=
    moves_attempt names is_name (World.state?_transition _ _ world) attempted
  have reported := (ReflTransGen.single entered).trans tried
  apply reported.trans (moves_emit _)
  rw [List.forall_mem_cons]
  exact ⟨by simp, not_changed_status⟩

theorem cwd_finish (build : Build) (index : Nat) (target : Target) (world : World) :
    (build.finish (Turn.next index target world)).cwd = world.cwd :=
  build.cwd_attempt target _

/-- A run is a sequence of steps for its targets, the first of which has the given index. -/
theorem moves_runFrom {earlier rest : List Target} (names : ∀ name ∈ world.cwd, IsName name)
    (file_names : ∀ target ∈ rest, IsName (target.fileName build.platform)) :
    ReflTransGen (build.Move (earlier ++ rest)) world
      (build.runFrom earlier.length (.before earlier.length) rest world).2.2.2 := by
  induction rest generalizing earlier world with
  | nil => exact ReflTransGen.single (.note (by simp))
  | cons target rest induction =>
      rw [List.forall_mem_cons] at file_names
      have attempted : (earlier ++ target :: rest)[earlier.length]? = some target := by simp
      have turn := moves_finish names file_names.1 attempted
      cases failed : build.turnFails (Turn.next earlier.length target world) with
      | true =>
          rw [runFrom_cons_of_fails failed]
          exact turn.tail (.note (by simp))
      | false =>
          have same_names : ∀ name ∈
              (build.finish (Turn.next earlier.length target world)).cwd, IsName name := by
            rw [cwd_finish]
            exact names
          have later := @induction _ (earlier ++ [target]) same_names file_names.2
          rw [List.append_assoc, List.singleton_append, List.length_append,
            List.length_singleton] at later
          rw [runFrom_cons_of_succeeds failed]
          exact turn.trans later

/-- Every run is a sequence of steps for its targets, however it ends. -/
theorem moves_runAll (names : ∀ name ∈ world.cwd, IsName name)
    (file_names : ∀ target ∈ targets, IsName (target.fileName build.platform)) :
    ReflTransGen (build.Move targets) world (build.runAll targets world).2 :=
  @moves_runFrom build world [] targets names file_names

end Build
end StagedBuild
