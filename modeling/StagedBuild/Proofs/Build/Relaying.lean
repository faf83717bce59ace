import StagedBuild.Proofs.Build.History
import StagedBuild.Proofs.Build.Upkeep
import StagedBuild.Proofs.Process.Account

/-!
# A build relays its tools

The events that a build adds are those of the processes that it launches, one for each attempt that
comes so far, in the order of the targets; all else that it adds is quiet.  The orders in which the
lines arrive change nothing else: with other orders a build has the same results, leaves the same
files and launches the same processes.
-/

namespace StagedBuild

open World (Alike Chores)

/-- Without the lines of a stream, an interleaving is the lines of the other one. -/
theorem hide_arrivals {lines : Stream → List Bytes} {arrived : List (Stream × Bytes)}
    (interleaves : Interleaves lines arrived) (stream : Stream) :
    hide stream (arrived.map Event.arrival) =
      (lines stream.other).map fun line => .arrival (stream.other, line) := by
  rw [← interleaves stream.other]
  clear interleaves
  induction arrived with
  | nil => rfl
  | cons item arrived induction =>
      obtain ⟨own, line⟩ := item
      rw [hide] at induction ⊢
      rw [List.map_cons, List.filter_cons, Stream.linesOf_cons, induction]
      cases own <;> cases stream <;> rfl

namespace Session

variable {session : Session} {world other : World} {target : Target} {invocation : Invocation}

theorem processes_of_alike (alike : Alike world other) :
    session.processes other = session.processes world := by
  rw [processes, processes, ProcessRunner.inWorld, ProcessRunner.inWorld, alike.calls,
    alike.linesTaken, alike.linesTaken]

theorem launch?_of_alike (alike : Alike world other) :
    session.launch? target invocation other = session.launch? target invocation world := by
  rw [launch?, launch?, processes_of_alike alike, alike.tree, alike.cwd]

/-- In worlds that are alike, a call does the same but for the order of the lines. -/
theorem run_of_alike (alike : Alike world other) (order reorder : World → Child → List Stream) :
    ((session.runner reorder).run other target invocation).result =
        ((session.runner order).run world target invocation).result ∧
      ((session.runner reorder).run other target invocation).tree =
        ((session.runner order).run world target invocation).tree ∧
      ∀ stream, hide stream (((session.runner reorder).run other target invocation).events.map
          Event.tool) =
        hide stream (((session.runner order).run world target invocation).events.map
          Event.tool) := by
  obtain ⟨result, left, before, after, account⟩ :=
    (session.processes world).exists_account world.tree world.cwd target invocation
  obtain ⟨arrived, interleaves, result_eq, tree_eq, events_eq⟩ := account.accounts (order world)
  obtain ⟨rearrived, reinterleaves, reresult_eq, retree_eq, reevents_eq⟩ :=
    account.accounts (reorder other)
  simp only [runner, processes_of_alike alike, alike.tree, alike.cwd]
  refine ⟨reresult_eq.trans result_eq.symm, retree_eq.trans tree_eq.symm, fun stream => ?_⟩
  rw [events_eq, reevents_eq, hide_append, hide_append, hide_append, hide_append,
    hide_arrivals interleaves, hide_arrivals reinterleaves]

/-- The events of a call are those of the process that it launches. -/
theorem relays_run (session : Session) (order : World → Child → List Stream) (target : Target)
    (invocation : Invocation) (world : World) :
    Relays Launch.relayed (session.launch? target invocation world).toList
      (.called target invocation ::
        ((session.runner order).run world target invocation).events.map Event.tool) := by
  obtain ⟨result, left, before, after, account⟩ :=
    (session.processes world).exists_account world.tree world.cwd target invocation
  obtain ⟨arrived, interleaves, -, -, events_eq⟩ := account.accounts (order world)
  rw [runner, events_eq]
  exact account.relays arrived interleaves

end Session

/-- From one world to another, the new events are those of some processes. -/
def RelaysTo (launches : List Launch) (world after : World) : Prop :=
  ∃ events, after.trace = world.trace ++ events ∧ Relays Launch.relayed launches events

namespace RelaysTo

variable {launches more : List Launch} {world middle after : World}

theorem trans (first : RelaysTo launches world middle) (second : RelaysTo more middle after) :
    RelaysTo (launches ++ more) world after := by
  obtain ⟨events, trace_eq, relays⟩ := first
  obtain ⟨later, later_eq, later_relays⟩ := second
  refine ⟨events ++ later, ?_, relays.append later_relays⟩
  rw [later_eq, trace_eq, List.append_assoc]

theorem refl (world : World) : RelaysTo [] world world :=
  ⟨[], by simp, .quiet (by simp)⟩

theorem emit {events : List Event} (quiet : ∀ event ∈ events, event.isQuiet = true) :
    RelaysTo [] world (world.emit events) :=
  ⟨events, rfl, .quiet quiet⟩

/-- The notes about an artifact or a result, and the status lines that follow. -/
theorem emit_statuses {event : Event} (quiet : event.isQuiet = true) (lines : List StatusLine) :
    RelaysTo [] world (world.emit (event :: lines.map .status)) := by
  apply emit
  rw [List.forall_mem_cons]
  exact ⟨quiet, by simp [Event.isQuiet]⟩

theorem of_chores {allowed : Change → Prop} (chores : Chores allowed world after) :
    RelaysTo [] world after := by
  obtain ⟨-, events, trace_eq, recorded⟩ := chores.recorded
  refine ⟨events, trace_eq, .quiet fun event member => ?_⟩
  rcases recorded event member with remark | ⟨change, -, rfl⟩
  · cases event <;> simp_all [Event.isRemark, Event.isQuiet]
  · rfl

end RelaysTo

namespace Build

variable {session : Session} {build : Build} {order reorder : World → Child → List Stream}
  {target : Target} {world other : World}

/-- The build whose tools are the processes of a session. -/
def through (build : Build) (session : Session) (order : World → Child → List Stream) : Build :=
  { build with runner := session.runner order }

/-- The world in which the tool starts once an artifact is prepared. -/
def startOf (build : Build) (target : Target) (artifact : StagedArtifact) (world : World) : World :=
  (world.emit (.started target artifact.path
    :: (build.observer.onStart target artifact.path).map .status)).emit
      [.called target (build.invocation target artifact)]

/-- The run of a process of the session for a prepared artifact. -/
def runOf (build : Build) (session : Session) (order : World → Child → List Stream)
    (target : Target) (artifact : StagedArtifact) (world : World) : ToolRun :=
  ⟨artifact, build.startOf target artifact world,
    (session.runner order).run (build.startOf target artifact world) target
      (build.invocation target artifact)⟩

/-- The process that an attempt launches, if it launches one. -/
def launch? (build : Build) (session : Session) (target : Target) (world : World) :
    Option Launch := do
  let run ← build.toolRun? target world
  session.launch? target (build.invocation target run.artifact) run.start

section Prepared

variable {artifact : StagedArtifact} {middle : World}
  (prepared : StagedArtifact.prepare build.platform build.outDir target world =
    (.ok artifact, middle))

include prepared

theorem toolRun?_through : (build.through session order).toolRun? target world =
    some (build.runOf session order target artifact middle) := by
  have through_prepared : StagedArtifact.prepare (build.through session order).platform
      (build.through session order).outDir target world = (.ok artifact, middle) := prepared
  rw [toolRun?, through_prepared]
  rfl

theorem launch?_through : (build.through session order).launch? session target world =
    session.launch? target (build.invocation target artifact)
      (build.startOf target artifact middle) := by
  rw [launch?, toolRun?_through prepared]
  rfl

end Prepared

section Refused

variable {error : BuildError} {middle : World}
  (refused : StagedArtifact.prepare build.platform build.outDir target world =
    (.error error, middle))

include refused

theorem attempt_through_of_refused :
    (build.through session order).attempt target world = (.ofError target error 0, middle) ∧
      (build.through session order).launch? session target world = none := by
  have through_refused : StagedArtifact.prepare (build.through session order).platform
      (build.through session order).outDir target world = (.error error, middle) := refused
  rw [attempt, launch?, toolRun?, through_refused]
  exact ⟨rfl, rfl⟩

end Refused

/-- Up to the end of its tool, an attempt relays the process that it launches. -/
theorem relays_left (build : Build) (session : Session) (order : World → Child → List Stream)
    (target : Target) (artifact : StagedArtifact) (world : World) :
    RelaysTo (session.launch? target (build.invocation target artifact)
        (build.startOf target artifact world)).toList world
      (build.runOf session order target artifact world).left := by
  have announced : RelaysTo [] world (world.emit (.started target artifact.path
      :: (build.observer.onStart target artifact.path).map .status)) :=
    RelaysTo.emit_statuses rfl _
  apply announced.trans
  exact ⟨_, List.append_assoc _ _ _, session.relays_run order target _ _⟩

theorem relays_attempt (build : Build) (session : Session)
    (order : World → Child → List Stream) (target : Target) (world : World) :
    RelaysTo ((build.through session order).launch? session target world).toList world
      ((build.through session order).attempt target world).2 := by
  have prepared := RelaysTo.of_chores
    (StagedArtifact.chores_prepare build.platform build.outDir target world)
  rcases prepared_eq : StagedArtifact.prepare build.platform build.outDir target world with
    ⟨result, middle⟩
  rw [prepared_eq] at prepared
  cases result with
  | error error =>
      obtain ⟨attempt_eq, launch_eq⟩ :=
        @attempt_through_of_refused session build order target world error middle prepared_eq
      rw [attempt_eq, launch_eq]
      exact prepared
  | ok artifact =>
      have left := prepared.trans (build.relays_left session order target artifact middle)
      rw [List.nil_append] at left
      rw [launch?_through prepared_eq, world_attempt_of_toolRun (toolRun?_through prepared_eq)]
      generalize build.runOf session order target artifact middle = run at left ⊢
      split
      · have committed := left.trans (.of_chores (run.artifact.chores_commit run.left))
        rw [List.append_nil] at committed
        exact committed
      · have discarded := left.trans (.of_chores (run.artifact.chores_discard run.left))
        rw [List.append_nil] at discarded
        exact discarded

/-- In worlds that are alike, the tool of an attempt starts and ends alike. -/
theorem runOf_of_alike (alike : Alike world other) (artifact : StagedArtifact) :
    (build.runOf session reorder target artifact other).report.result =
        (build.runOf session order target artifact world).report.result ∧
      Alike (build.startOf target artifact world) (build.startOf target artifact other) ∧
      Alike (build.runOf session order target artifact world).left
        (build.runOf session reorder target artifact other).left := by
  have start : Alike (build.startOf target artifact world) (build.startOf target artifact other) :=
    (alike.emit fun _ => rfl).emit fun _ => rfl
  obtain ⟨result_eq, tree_eq, events_eq⟩ :=
    @Session.run_of_alike session _ _ target (build.invocation target artifact) start order reorder
  refine ⟨result_eq, start, ?_⟩
  exact World.Alike.emit ⟨tree_eq, start.cwd, start.trace⟩ events_eq

/-- In worlds that are alike, an attempt has the same result and launches the same process. -/
theorem attempt_of_alike (alike : Alike world other) :
    ((build.through session reorder).attempt target other).1 =
        ((build.through session order).attempt target world).1 ∧
      Alike ((build.through session order).attempt target world).2
        ((build.through session reorder).attempt target other).2 ∧
      (build.through session reorder).launch? session target other =
        (build.through session order).launch? session target world := by
  obtain ⟨same, prepared_alike⟩ := alike.act
    (StagedArtifact.ignoresHistory_prepare build.platform build.outDir target)
  rcases prepared : StagedArtifact.prepare build.platform build.outDir target world with
    ⟨result, middle⟩
  rcases other_prepared : StagedArtifact.prepare build.platform build.outDir target other with
    ⟨other_result, other_middle⟩
  rw [prepared, other_prepared] at same prepared_alike
  obtain rfl : other_result = result := same
  cases other_result with
  | error error =>
      obtain ⟨attempt_eq, launch_eq⟩ :=
        @attempt_through_of_refused session build order target world error middle prepared
      obtain ⟨reattempt_eq, relaunch_eq⟩ :=
        @attempt_through_of_refused session build reorder target other error other_middle
          other_prepared
      rw [attempt_eq, reattempt_eq, launch_eq, relaunch_eq]
      exact ⟨rfl, prepared_alike, rfl⟩
  | ok artifact =>
      obtain ⟨result_eq, start, left⟩ :=
        @runOf_of_alike session build order reorder target middle other_middle prepared_alike
          artifact
      have artifact_eq : (build.runOf session order target artifact middle).artifact = artifact :=
        rfl
      have reartifact_eq :
          (build.runOf session reorder target artifact other_middle).artifact = artifact := rfl
      rw [launch?_through prepared, launch?_through other_prepared, Session.launch?_of_alike start,
        attempt_of_toolRun (toolRun?_through prepared),
        attempt_of_toolRun (toolRun?_through other_prepared), result_eq, artifact_eq,
        reartifact_eq]
      generalize (build.runOf session order target artifact middle).left = world_left at left ⊢
      generalize (build.runOf session reorder target artifact other_middle).left = other_left
        at left ⊢
      split
      · obtain ⟨same_commit, committed_alike⟩ :=
          left.act (StagedArtifact.ignoresHistory_commit artifact)
        rcases committed : artifact.commit world_left with ⟨done, after⟩
        rcases recommitted : artifact.commit other_left with ⟨redone, other_after⟩
        rw [committed, recommitted] at same_commit committed_alike
        obtain rfl : redone = done := same_commit
        cases redone with
        | ok done => exact ⟨rfl, committed_alike, rfl⟩
        | error error => exact ⟨rfl, committed_alike, rfl⟩
      · exact ⟨rfl, (left.act (StagedArtifact.ignoresHistory_discard artifact)).2, rfl⟩

/-- The process that the attempt of a turn launches, if it launches one. -/
def launchOf? (build : Build) (session : Session) (turn : Turn) : Option Launch :=
  build.launch? session turn.target turn.start

/-- The processes that a run launches, the first target of which has the given index. -/
def launchesFrom (build : Build) (session : Session) (index : Nat) (targets : List Target)
    (world : World) : List Launch :=
  (build.taken (build.turnsFrom index targets world)).filterMap (build.launchOf? session)

/-- The processes that a run launches, in order. -/
def launches (build : Build) (session : Session) (targets : List Target) (world : World) :
    List Launch :=
  build.launchesFrom session 0 targets world

/-- A run that ends with its first turn launches the process of that turn. -/
theorem launchesFrom_cons_of_fails {index : Nat} {rest : List Target}
    (failed : build.turnFails (Turn.next index target world) = true) :
    build.launchesFrom session index (target :: rest) world =
      (build.launchOf? session (Turn.next index target world)).toList := by
  rw [launchesFrom, turnsFrom, taken_cons_of_fails failed]
  cases launched : build.launchOf? session (Turn.next index target world) <;> simp [launched]

/-- A run that goes on launches the process of its first turn, and then those of the others. -/
theorem launchesFrom_cons_of_succeeds {index : Nat} {rest : List Target}
    (succeeded : build.turnFails (Turn.next index target world) = false) :
    build.launchesFrom session index (target :: rest) world =
      (build.launchOf? session (Turn.next index target world)).toList ++
        build.launchesFrom session (index + 1) rest
          (build.finish (Turn.next index target world)) := by
  rw [launchesFrom, turnsFrom, taken_cons_of_succeeds succeeded, launchesFrom]
  cases launched : build.launchOf? session (Turn.next index target world) <;> simp [launched]

theorem target_of_launchOf? {turn : Turn} {launch : Launch}
    (launched : build.launchOf? session turn = some launch) : launch.target = turn.target := by
  simp only [launchOf?, Build.launch?, Session.launch?, ProcessRunner.launch?,
    Option.bind_eq_bind, Option.bind_eq_some_iff] at launched
  obtain ⟨run, -, program, -, answer, -, launch_eq⟩ := launched
  rw [← Option.some.inj launch_eq]

/-- Processes are launched for some of the targets, in their order. -/
theorem targets_launches (build : Build) (session : Session) (targets : List Target)
    (world : World) :
    ((build.launches session targets world).map Launch.target).Sublist targets := by
  have of_turns : ∀ turns : List Turn,
      ((turns.filterMap (build.launchOf? session)).map Launch.target).Sublist
        (turns.map Turn.target) := by
    intro turns
    induction turns with
    | nil => exact List.Sublist.slnil
    | cons turn turns induction =>
        rw [List.filterMap_cons, List.map_cons]
        split
        · exact induction.cons turn.target
        · rename_i launch launched
          rw [List.map_cons, target_of_launchOf? launched]
          exact induction.cons_cons turn.target
  have some_turns := (of_turns _).trans
    ((build.taken_prefix (build.turnsFrom 0 targets world)).sublist.map Turn.target)
  rw [targets_turnsFrom] at some_turns
  exact some_turns

theorem undisturbed_launches (undisturbed : session.Undisturbed) {targets : List Target} :
    ∀ launch ∈ build.launches session targets world, launch.Undisturbed := by
  intro launch member
  obtain ⟨turn, -, launched⟩ := List.mem_filterMap.mp member
  rw [launchOf?, Build.launch?, Option.bind_eq_bind, Option.bind_eq_some_iff] at launched
  obtain ⟨run, -, run_launches⟩ := launched
  exact undisturbed.launch run_launches

theorem relays_finish (build : Build) (session : Session) (order : World → Child → List Stream)
    (index : Nat) (target : Target) (world : World) :
    RelaysTo ((build.through session order).launchOf? session
        (Turn.next index target world)).toList world
      ((build.through session order).finish (Turn.next index target world)) := by
  have entered : RelaysTo [] world (transition (.before index) (.running index) world) :=
    RelaysTo.emit (by simp [Event.isQuiet])
  have attempted := build.relays_attempt session order target
    (transition (.before index) (.running index) world)
  rw [finish, resultOf, launchOf?, Turn.next]
  dsimp only
  generalize (build.through session order).attempt target
    (transition (.before index) (.running index) world) = ended at attempted ⊢
  have reported := entered.trans attempted
  rw [List.nil_append] at reported
  have noted := reported.trans (RelaysTo.emit_statuses (by rfl : (Event.finished ended.1).isQuiet)
    ((build.through session order).observer.onFinish ended.1))
  rw [List.append_nil] at noted
  exact noted

/-- A run relays the processes that it launches. -/
theorem relays_runFrom {index : Nat} {targets : List Target} {results : List BuildResult}
    {succeeded : Bool} {state : BuildState} {after : World}
    (ran : (build.through session order).runFrom index (.before index) targets world =
      (results, succeeded, state, after)) :
    RelaysTo ((build.through session order).launchesFrom session index targets world) world
      after := by
  have entered : ∀ (before state : BuildState) (middle : World),
      RelaysTo [] middle (transition before state middle) := fun before state middle =>
    RelaysTo.emit (by simp [Event.isQuiet])
  induction targets generalizing index world results with
  | nil =>
      rw [runFrom] at ran
      simp only [Prod.mk.injEq] at ran
      obtain ⟨-, -, -, rfl⟩ := ran
      exact entered _ _ world
  | cons target rest induction =>
      have finished := build.relays_finish session order index target world
      cases failed : (build.through session order).turnFails (Turn.next index target world) with
      | true =>
          rw [runFrom_cons_of_fails failed] at ran
          simp only [Prod.mk.injEq] at ran
          obtain ⟨-, -, -, rfl⟩ := ran
          have ended := finished.trans (entered (.running index) (.failed index) _)
          rw [List.append_nil] at ended
          rw [launchesFrom_cons_of_fails failed]
          exact ended
      | false =>
          rw [runFrom_cons_of_succeeds failed] at ran
          rcases later : (build.through session order).runFrom (index + 1) (.before (index + 1))
              rest ((build.through session order).finish (Turn.next index target world)) with
            ⟨more, all, final, last⟩
          rw [later] at ran
          simp only [Prod.mk.injEq] at ran
          obtain ⟨-, rfl, rfl, rfl⟩ := ran
          rw [launchesFrom_cons_of_succeeds failed]
          exact finished.trans (induction later)

theorem finish_of_alike (alike : Alike world other) (index : Nat) :
    (build.through session reorder).resultOf (Turn.next index target other) =
        (build.through session order).resultOf (Turn.next index target world) ∧
      Alike ((build.through session order).finish (Turn.next index target world))
        ((build.through session reorder).finish (Turn.next index target other)) ∧
      (build.through session reorder).launchOf? session (Turn.next index target other) =
        (build.through session order).launchOf? session (Turn.next index target world) := by
  have entered : Alike (transition (.before index) (.running index) world)
      (transition (.before index) (.running index) other) := alike.emit fun _ => rfl
  obtain ⟨result_eq, attempted, launch_eq⟩ :=
    @attempt_of_alike session build order reorder target _ _ entered
  have hears : (build.through session reorder).observer =
      (build.through session order).observer := rfl
  simp only [finish, resultOf, launchOf?, Turn.next, result_eq, launch_eq, hears]
  exact ⟨trivial, attempted.emit fun _ => rfl, trivial⟩

/-- In worlds that are alike, a run has the same results and launches the same processes. -/
theorem runFrom_of_alike (alike : Alike world other) {index : Nat} {targets : List Target}
    {results : List BuildResult} {succeeded : Bool} {state : BuildState} {after : World}
    (ran : (build.through session order).runFrom index (.before index) targets world =
      (results, succeeded, state, after)) :
    ∃ other_after,
      (build.through session reorder).runFrom index (.before index) targets other =
          (results, succeeded, state, other_after) ∧
        Alike after other_after ∧
        (build.through session reorder).launchesFrom session index targets other =
          (build.through session order).launchesFrom session index targets world := by
  induction targets generalizing index world other results succeeded state after with
  | nil =>
      rw [runFrom] at ran
      simp only [Prod.mk.injEq] at ran
      obtain ⟨rfl, rfl, rfl, rfl⟩ := ran
      exact ⟨_, rfl, alike.emit fun _ => rfl, rfl⟩
  | cons target rest induction =>
      obtain ⟨result_eq, finished, launch_eq⟩ :=
        @finish_of_alike session build order reorder target _ _ alike index
      have fails_eq : (build.through session reorder).turnFails (Turn.next index target other) =
          (build.through session order).turnFails (Turn.next index target world) := by
        have succeeded_eq := congrArg BuildResult.succeeded result_eq
        rw [succeeded_resultOf, succeeded_resultOf] at succeeded_eq
        exact Bool.not_inj succeeded_eq
      cases failed : (build.through session order).turnFails (Turn.next index target world) with
      | true =>
          have refailed := fails_eq.trans failed
          rw [runFrom_cons_of_fails failed] at ran
          simp only [Prod.mk.injEq] at ran
          obtain ⟨rfl, rfl, rfl, rfl⟩ := ran
          rw [runFrom_cons_of_fails refailed, launchesFrom_cons_of_fails failed,
            launchesFrom_cons_of_fails refailed, launch_eq, result_eq]
          exact ⟨_, rfl, finished.emit fun _ => rfl, rfl⟩
      | false =>
          rw [runFrom_cons_of_succeeds failed] at ran
          rcases later : (build.through session order).runFrom (index + 1) (.before (index + 1))
              rest ((build.through session order).finish (Turn.next index target world)) with
            ⟨more, all, final, last⟩
          rw [later] at ran
          simp only [Prod.mk.injEq] at ran
          obtain ⟨rfl, rfl, rfl, rfl⟩ := ran
          obtain ⟨other_after, relater, after_alike, launches_eq⟩ := induction finished later
          have resucceeded := fails_eq.trans failed
          rw [runFrom_cons_of_succeeds resucceeded, launchesFrom_cons_of_succeeds failed,
            launchesFrom_cons_of_succeeds resucceeded, relater, launch_eq, result_eq, launches_eq]
          exact ⟨other_after, rfl, after_alike, rfl⟩

end Build
end StagedBuild
