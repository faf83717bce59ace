import StagedBuild.Proofs.Build.Relaying
import StagedBuild.Proofs.Program.Confinement

/-!
# The output of a build

On its standard output a build shows the standard output of its tools and nothing else, one after
the other in the order of the targets, and each ended by a newline.  The lines of one tool come in
one piece, in the order in which they were written on each stream; in which order the lines of both
streams arrive makes no difference to either output, nor to anything else.
-/

namespace StagedBuild

open World (Alike)

namespace Project

variable {project : Project} {session : Session} {order reorder : World → Child → List Stream}
  {platform : Platform} {world : World}

/-- The build of a project through a session, with its progress shown. -/
def shown (project : Project) (session : Session) (order : World → Child → List Stream)
    (platform : Platform) : Build :=
  (project.toBuild (session.runner order) platform).withObserver (observer project.root)

/-- The processes that a build of the selected targets launches. -/
def launches (project : Project) (session : Session) (order : World → Child → List Stream)
    (platform : Platform) (wanted : List String) (world : World) : List Launch :=
  (project.shown session order platform).launches session (project.manifest.selected wanted) world

/-- The orders enter through the runner alone. -/
theorem exists_shown (project : Project) (session : Session) (platform : Platform) :
    ∃ base : Build, ∀ order, project.shown session order platform = base.through session order :=
  ⟨project.shown session (fun _ child => child.schedule) platform, fun _ => rfl⟩

theorem build_of_refused {wanted : List String} {problem : UnknownTarget}
    (refused : project.manifest.select wanted = .error problem) :
    project.build (session.runner order) platform wanted world = (.error problem, world) ∧
      project.launches session order platform wanted world = [] := by
  constructor
  · simp only [build, refused]
  · rw [launches, Manifest.selected_of_refused refused]
    rfl

theorem build_of_select {wanted : List String} {targets : List Target}
    {results : List BuildResult} {succeeded : Bool} {state : BuildState} {after : World}
    (selection : project.manifest.select wanted = .ok targets)
    (ran : (project.shown session order platform).runFrom 0 .pending targets world =
      (results, succeeded, state, after)) :
    project.build (session.runner order) platform wanted world =
      (.ok (BuildStatus.exitCode ⟨succeeded, results, state⟩),
        after.emit [.status (closingLine ⟨succeeded, results, state⟩)]) := by
  have run_eq : (project.shown session order platform).runAll targets world =
      (⟨succeeded, results, state⟩, after) := by
    rw [Build.runAll, ran]
  rw [build_eq_of_select selection]
  rw [shown, ← observed] at run_eq
  rw [run_eq]

/-- A build relays the processes that it launches, in the order of the targets. -/
theorem relays_build (project : Project) (session : Session)
    (order : World → Child → List Stream) (platform : Platform) (wanted : List String)
    (world : World) :
    RelaysTo (project.launches session order platform wanted world) world
        (project.build (session.runner order) platform wanted world).2 ∧
      ((project.launches session order platform wanted world).map Launch.target).Sublist
        project.manifest.allTargets := by
  refine ⟨?_, ((project.shown session order platform).targets_launches session _ world).trans
    (project.manifest.selected_sublist wanted)⟩
  cases selection : project.manifest.select wanted with
  | error problem =>
      obtain ⟨build_eq, nothing⟩ :=
        @build_of_refused project session order platform world wanted problem selection
      rw [build_eq, nothing]
      exact RelaysTo.refl world
  | ok targets =>
      rcases ran : (project.shown session order platform).runFrom 0 .pending targets world with
        ⟨results, succeeded, state, after⟩
      obtain ⟨base, shown_eq⟩ := project.exists_shown session platform
      have relayed : RelaysTo ((project.shown session order platform).launches session targets
          world) world after := by
        rw [shown_eq] at ran ⊢
        exact @Build.relays_runFrom session base order world 0 targets results succeeded state after
          ran
      have closed := relayed.trans (RelaysTo.emit_statuses
        (by rfl : (Event.status (closingLine ⟨succeeded, results, state⟩)).isQuiet = true) [])
      rw [List.append_nil] at closed
      rw [launches, Manifest.selected_of_select selection, build_of_select selection ran]
      exact closed

/-- The order of the lines does not decide how a build ends. -/
theorem build_of_alike {other : World} (alike : Alike world other) (wanted : List String) :
    (project.build (session.runner reorder) platform wanted other).1 =
        (project.build (session.runner order) platform wanted world).1 ∧
      Alike (project.build (session.runner order) platform wanted world).2
        (project.build (session.runner reorder) platform wanted other).2 ∧
      project.launches session reorder platform wanted other =
        project.launches session order platform wanted world := by
  cases selection : project.manifest.select wanted with
  | error problem =>
      obtain ⟨build_eq, nothing⟩ :=
        @build_of_refused project session order platform world wanted problem selection
      obtain ⟨rebuild_eq, renothing⟩ :=
        @build_of_refused project session reorder platform other wanted problem selection
      rw [build_eq, rebuild_eq, nothing, renothing]
      exact ⟨rfl, alike, rfl⟩
  | ok targets =>
      rcases ran : (project.shown session order platform).runFrom 0 .pending targets world with
        ⟨results, succeeded, state, after⟩
      obtain ⟨base, shown_eq⟩ := project.exists_shown session platform
      have rerun : ∃ other_after,
          (project.shown session reorder platform).runFrom 0 .pending targets other =
              (results, succeeded, state, other_after) ∧
            Alike after other_after ∧
            (project.shown session reorder platform).launches session targets other =
              (project.shown session order platform).launches session targets world := by
        rw [shown_eq] at ran ⊢
        rw [shown_eq]
        exact @Build.runFrom_of_alike session base order reorder world other alike 0 targets results
          succeeded state after ran
      obtain ⟨other_after, reran, after_alike, launches_eq⟩ := rerun
      rw [launches, launches, Manifest.selected_of_select selection, build_of_select selection ran,
        build_of_select selection reran]
      exact ⟨rfl, after_alike.emit fun _ => rfl, launches_eq⟩

end Project

/-- What a run that ends shows on standard output, with its exit code. -/
def Outcome.shown? : Outcome → Option (Int × Bytes)
  | .refused _ => none
  | .ended code _ world => some (code, Console.stdout world.trace)

namespace Program

open CommandLine (Options Action Request)

variable {session : Session} {order reorder : World → Child → List Stream}
  {surroundings : Surroundings} {options : Options} {wanted : List String} {world : World}

/-- The targets that the project declares, if there is one. -/
def declared (options : Options) (tool : Option String) (world : World) : List Target :=
  (project options tool world).1.toOption.elim [] fun project => project.manifest.allTargets

/-- The processes that a build of the project launches, if there is one. -/
def launches (session : Session) (order : World → Child → List Stream)
    (surroundings : Surroundings) (options : Options) (wanted : List String) (world : World) :
    List Launch :=
  match project options surroundings.tool world with
  | (.error _, _) => []
  | (.ok project, world) => project.launches session order surroundings.platform wanted world

/-- Looking for the project says at most where its manifest is. -/
theorem relays_project (options : Options) (tool : Option String) (world : World) :
    RelaysTo [] world (project options tool world).2 := by
  cases given : options.manifestPath with
  | some path =>
      simp only [project, given, Project.discover]
      exact RelaysTo.refl world
  | none =>
      simp only [project, given, Project.discover, Project.inDirectory, Manifest.discover]
      split <;> exact RelaysTo.emit (by simp [Event.isQuiet])

/-- A command that builds relays the processes that it launches. -/
theorem relays_act (session : Session) (order : World → Child → List Stream)
    (surroundings : Surroundings) (options : Options) (wanted : List String) (world : World) :
    RelaysTo (launches session order surroundings options wanted world) world
        (act surroundings options (.build wanted) (session.runner order) world).2 ∧
      ((launches session order surroundings options wanted world).map Launch.target).Sublist
        (declared options surroundings.tool world) := by
  have looked := relays_project options surroundings.tool world
  rw [act, launches, declared]
  rcases found : project options surroundings.tool world with ⟨result, ready⟩
  rw [found] at looked
  cases result with
  | error error => exact ⟨looked, List.Sublist.slnil⟩
  | ok project =>
      obtain ⟨relayed, sublist⟩ :=
        project.relays_build session order surroundings.platform wanted ready
      have both := looked.trans relayed
      rw [List.nil_append] at both
      exact ⟨both, sublist⟩

/-- The order of the lines does not decide how a command that builds ends. -/
theorem act_reordered (session : Session) (order reorder : World → Child → List Stream)
    (surroundings : Surroundings) (options : Options) (wanted : List String) (world : World) :
    (act surroundings options (.build wanted) (session.runner reorder) world).1 =
        (act surroundings options (.build wanted) (session.runner order) world).1 ∧
      Alike (act surroundings options (.build wanted) (session.runner order) world).2
        (act surroundings options (.build wanted) (session.runner reorder) world).2 ∧
      launches session reorder surroundings options wanted world =
        launches session order surroundings options wanted world := by
  rw [act, act, launches, launches]
  rcases project options surroundings.tool world with ⟨result, ready⟩
  cases result with
  | error error => exact ⟨rfl, Alike.refl ready, rfl⟩
  | ok project =>
      obtain ⟨code_eq, after, launches_eq⟩ := @Project.build_of_alike project session order reorder
        surroundings.platform ready ready (Alike.refl ready) wanted
      exact ⟨congrArg (Except.mapError ProgramError.selection) code_eq, after, launches_eq⟩

theorem conclude_of_alike {result : Except ProgramError Int} {after other : World}
    (alike : Alike after other) :
    (conclude (result, other)).1 = (conclude (result, after)).1 ∧
      Alike (conclude (result, after)).2 (conclude (result, other)).2 := by
  cases result with
  | ok code => exact ⟨rfl, alike⟩
  | error error => exact ⟨rfl, alike.emit fun _ => rfl⟩

theorem relays_conclude {launches : List Launch} {result : Except ProgramError Int} {after : World}
    (relayed : RelaysTo launches world after) :
    RelaysTo launches world (conclude (result, after)).2 := by
  cases result with
  | ok code => exact relayed
  | error error =>
      have ended := relayed.trans (RelaysTo.emit (by simp [Event.isQuiet] :
        ∀ event ∈ [Event.gaveUp error.message], event.isQuiet = true))
      rw [List.append_nil] at ended
      exact ended

/-- In runs of the same command that end alike, the same is shown on standard error. -/
theorem stderr_of_alike {after other : World} {events others : List Event} (console : Console)
    (alike : Alike after other) (trace_eq : after.trace = world.trace ++ events)
    (other_eq : other.trace = world.trace ++ others) :
    console.stderr others = console.stderr events := by
  have whole : other.trace.flatMap console.stderrOf = after.trace.flatMap console.stderrOf := by
    apply alike.flatMap_eq .stdout
    intro event line
    unfold Event.isLineOf at line
    split at line
    · rw [beq_iff_eq] at line
      subst line
      rfl
    · simp at line
  rw [trace_eq, other_eq, List.flatMap_append, List.flatMap_append] at whole
  exact List.append_cancel_left whole

/--
A build shows on its standard output the standard output of the processes that it launches, one
after the other in the order in which the targets are declared, each ended by a newline, and nothing
else; and so it passes on their standard error.  The order in which the lines of a process arrive,
which may be any interleaving of its two streams, decides neither of the outputs, nor the exit code,
nor the files, nor the processes; and whatever it is, the lines of a process come in one piece.
-/
theorem build_output_verbatim (session : Session)
    (requested : Request.ofWords surroundings.words = .ok (.act options (.build wanted)))
    (world : World) :
    ∃ (code : Int) (tree : FileTree) (processes : List Launch) (errors : Bytes),
      (processes.map Launch.target).Sublist (declared options surroundings.tool world) ∧
      (∀ launch ∈ processes, ∀ arrived, Interleaves launch.lines arrived →
        ∃ schedule, interleave schedule (launch.lines .stdout) (launch.lines .stderr) = arrived) ∧
      ∀ order, ∃ after events,
        run surroundings (session.runner order) world =
            .ended code (console options surroundings.terminal) after ∧
          after.tree = tree ∧ after.trace = world.trace ++ events ∧
          launches session order surroundings options wanted world = processes ∧
          (console options surroundings.terminal).stderr events = errors ∧
          ((∀ launch ∈ processes, launch.Undisturbed) →
            Relays Launch.lines processes events ∧
              Console.stdout events =
                processes.flatMap (fun launch => Lines.closed (launch.child.written .stdout)) ∧
              Console.relayed .stderr events =
                processes.flatMap fun launch => Lines.closed (launch.child.written .stderr)) := by
  let schedules : World → Child → List Stream := fun _ child => child.schedule
  obtain ⟨relayed, sublist⟩ := relays_act session schedules surroundings options wanted world
  rcases acted : act surroundings options (.build wanted) (session.runner schedules) world with
    ⟨result, ready⟩
  rw [acted] at relayed
  obtain ⟨events, trace_eq, -⟩ := @relays_conclude world _ result ready relayed
  refine ⟨(conclude (result, ready)).1, (conclude (result, ready)).2.tree,
    launches session schedules surroundings options wanted world,
    (console options surroundings.terminal).stderr events, sublist,
    fun launch _ arrived interleaves => ⟨_, interleave_streams interleaves⟩, fun order => ?_⟩
  obtain ⟨result_eq, ready_alike, launches_eq⟩ :=
    act_reordered session schedules order surroundings options wanted world
  have rerelayed := (relays_act session order surroundings options wanted world).1
  rcases reacted : act surroundings options (.build wanted) (session.runner order) world with
    ⟨other_result, other_ready⟩
  rw [acted, reacted] at result_eq ready_alike
  rw [reacted, launches_eq] at rerelayed
  obtain rfl : other_result = result := result_eq
  obtain ⟨code_eq, ended_alike⟩ := @conclude_of_alike other_result ready other_ready ready_alike
  obtain ⟨others, other_eq, relays⟩ := @relays_conclude world _ other_result other_ready rerelayed
  refine ⟨(conclude (other_result, other_ready)).2, others, ?_, ended_alike.tree, other_eq,
    launches_eq, stderr_of_alike _ ended_alike trace_eq other_eq, fun undisturbed => ?_⟩
  · simp only [run, requested, reacted, code_eq]
  · have as_written : Relays Launch.lines
        (launches session schedules surroundings options wanted world) others :=
      relays.congr fun launch member => (Launch.relayed_eq_lines (undisturbed launch member)).symm
    have closed : ∀ stream, (fun launch : Launch => (launch.lines stream).flatMap Lines.terminate) =
        fun launch => Lines.closed (launch.child.written stream) := fun stream =>
      funext fun launch => Lines.flatMap_terminate_split _
    exact ⟨as_written, by rw [Console.stdout_relays as_written, closed],
      by rw [Console.relayed_relays _ as_written, closed]⟩

theorem undisturbed_launches (undisturbed : session.Undisturbed) :
    ∀ launch ∈ launches session order surroundings options wanted world, launch.Undisturbed := by
  rw [launches]
  split
  · simp
  · exact Build.undisturbed_launches undisturbed

/-- The tool says which call it is, warns, and leaves both artifacts of the default manifest. -/
def chatty : Session where
  searchPath := { text := "/bin" }
  launcher calls := ⟨fun tree _ _ => .ok (
    { stdout := some
        { reads := [.chunk (Utf8.encode "call\n"), .chunk (Utf8.encode (toString calls))] }
      stderr := some { reads := [.chunk (Utf8.encode "warning\n")] }
      wait := fun _ => .ok (.exited 0) },
    ["DSL_BUILD_SYS.so", "dieselc"].foldl (fun tree name =>
      tree.insert ["p", "bin", ".kiln-staging", name] (.file ⟨Utf8.encode name, true⟩)) tree)⟩
  sink := .accepting

/-- The project in `/p`, and a tool. -/
def withTool : World where
  tree := (((FileTree.empty.insert ["p"] .directory).insert ["bin"] .directory).insert
    ["bin", "odin"] (.file ⟨[], true⟩))
  cwd := ["p"]

theorem chatty_undisturbed : chatty.Undisturbed := by
  constructor
  · intro calls tree cwd command child left started stream pipe pipe_eq
    simp only [chatty, Except.ok.injEq, Prod.mk.injEq] at started
    obtain ⟨rfl, -⟩ := started
    cases stream <;> (obtain rfl := Option.some.inj pipe_eq; rfl)
  · exact fun _ _ _ => rfl

/-- Whatever the order of the lines, the calls are shown one after the other. -/
theorem build_output_verbatim_chatty :
    Request.ofWords ["build"] = .ok (.act {} (.build [])) ∧
      ∀ order, ∃ after, run { words := ["build"] } (chatty.runner order) withTool =
          .ended 0 {} after ∧
        Console.stdout after.trace = Utf8.encode "call\n1\ncall\n2\n" := by
  have requested : Request.ofWords ["build"] = .ok (.act {} (.build [])) := by decide +kernel
  obtain ⟨code, tree, processes, errors, -, -, runs⟩ :=
    @build_output_verbatim { words := ["build"] } {} [] chatty requested withTool
  have shown : ∀ order, ∃ after, run { words := ["build"] } (chatty.runner order) withTool =
      .ended code {} after ∧ Console.stdout after.trace =
        processes.flatMap fun launch => Lines.closed (launch.child.written .stdout) := by
    intro order
    obtain ⟨after, events, ran, -, trace_eq, launches_eq, -, verbatim⟩ := runs order
    have undisturbed : ∀ launch ∈ processes, launch.Undisturbed := by
      rw [← launches_eq]
      exact undisturbed_launches chatty_undisturbed
    exact ⟨after, ran, by rw [trace_eq]; exact (verbatim undisturbed).2.1⟩
  obtain ⟨after, ran, stdout_eq⟩ := shown fun _ child => child.schedule
  have first : (run { words := ["build"] } (chatty.runner fun _ child => child.schedule)
      withTool).shown? = some (0, Utf8.encode "call\n1\ncall\n2\n") := by decide +kernel
  rw [ran, Outcome.shown?, stdout_eq] at first
  simp only [Option.some.injEq, Prod.mk.injEq] at first
  rw [← first.1, ← first.2]
  exact ⟨requested, shown⟩

end Program
end StagedBuild
