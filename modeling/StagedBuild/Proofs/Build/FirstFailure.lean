import StagedBuild.Proofs.Build.Milestones

/-!
# The first failure ends a run

The turns of a run are what would happen if every target were attempted.  The run itself takes them
up to the first one that fails; its results, its final state and its milestones are those of the
turns taken, and nothing is left of the others.
-/

namespace StagedBuild

/-- The state from which the target with an index is attempted, if none before it failed. -/
def BuildState.before : Nat → BuildState
  | 0 => .pending
  | index + 1 => .running index

/-- One target of a run with the world in which it is attempted. -/
structure Turn where
  index : Nat
  target : Target
  /-- The world in which the attempt starts. -/
  start : World

/-- The turn of a target that follows targets none of which has failed. -/
def Turn.next (index : Nat) (target : Target) (world : World) : Turn :=
  ⟨index, target, Build.transition (.before index) (.running index) world⟩

namespace Build

variable {build : Build}

/--
The artifact cannot be prepared, or the runner does not report success, or the commit fails: the
attempt at the target fails.
-/
def fails (build : Build) (target : Target) (world : World) : Bool :=
  (build.toolRun? target world).elim true fun run =>
    !run.report.result.succeeded || !(run.artifact.commit run.left).1.isOk

/-- An attempt has no other reasons to fail. -/
theorem succeeded_attempt (build : Build) (target : Target) (world : World) :
    (build.attempt target world).1.succeeded = !build.fails target world := by
  cases ran : build.toolRun? target world with
  | none =>
      obtain ⟨error, refused⟩ := attempt_of_none ran
      rw [refused, fails, ran]
      rfl
  | some run =>
      rw [attempt_of_toolRun ran, fails, ran, Option.elim_some]
      cases reported : run.report.result.succeeded with
      | false => simp [reported]
      | true =>
          rw [if_pos rfl]
          split <;>
          · rename_i committed
            simp [committed, reported, Except.isOk, Except.toBool, BuildResult.ofError]

/-- The result of a turn. -/
def resultOf (build : Build) (turn : Turn) : BuildResult :=
  (build.attempt turn.target turn.start).1

/-- The attempt of the turn fails. -/
def turnFails (build : Build) (turn : Turn) : Bool :=
  build.fails turn.target turn.start

/-- The world at the end of a turn, when the observer has heard of the result. -/
def finish (build : Build) (turn : Turn) : World :=
  (build.attempt turn.target turn.start).2.emit
    (.finished (build.resultOf turn)
      :: (build.observer.onFinish (build.resultOf turn)).map .status)

/-- The turns of targets the first of which has the given index, as if none could fail. -/
def turnsFrom (build : Build) : Nat → List Target → World → List Turn
  | _, [], _ => []
  | index, target :: rest, world =>
      Turn.next index target world
        :: build.turnsFrom (index + 1) rest (build.finish (Turn.next index target world))

/-- The turns of a run, as if none could fail. -/
def turns (build : Build) (targets : List Target) (world : World) : List Turn :=
  build.turnsFrom 0 targets world

/-- The milestones of a turn: it starts, the tool is called if there is an artifact, it is over. -/
def milestonesOf (build : Build) (turn : Turn) : List Event :=
  [.state (.before turn.index) (.running turn.index)]
    ++ build.announced turn.target turn.start
    ++ [.finished (build.resultOf turn)]

theorem targets_turnsFrom (build : Build) (index : Nat) (targets : List Target) (world : World) :
    (build.turnsFrom index targets world).map Turn.target = targets := by
  induction targets generalizing index world with
  | nil => rfl
  | cons target rest induction => rw [turnsFrom, List.map_cons, induction, Turn.next]

theorem milestones_finish (build : Build) (index : Nat) (target : Target) (world : World) :
    (build.finish (Turn.next index target world)).milestones =
      world.milestones ++ build.milestonesOf (Turn.next index target world) := by
  rw [finish, World.milestones_emit, milestones_attempt, List.filter_cons_of_pos (by rfl),
    filter_isMilestone_status, Turn.next, milestones_transition, milestonesOf]
  simp

/-- The turns that a run takes: up to the first that fails. -/
def taken (build : Build) (turns : List Turn) : List Turn :=
  match turns.findIdx? build.turnFails with
  | some last => turns.take (last + 1)
  | none => turns

/-- The state in which a run ends that starts at an index. -/
def finalState (build : Build) (index : Nat) (turns : List Turn) : BuildState :=
  match turns.findIdx? build.turnFails with
  | some last => .failed (index + last)
  | none => .succeeded

theorem taken_cons_of_fails {turn : Turn} {turns : List Turn}
    (failed : build.turnFails turn = true) : build.taken (turn :: turns) = [turn] := by
  simp [taken, List.findIdx?_cons, failed]

theorem taken_cons_of_succeeds {turn : Turn} {turns : List Turn}
    (succeeded : build.turnFails turn = false) :
    build.taken (turn :: turns) = turn :: build.taken turns := by
  simp only [taken, List.findIdx?_cons, succeeded, Bool.false_eq_true, if_false]
  cases turns.findIdx? build.turnFails <;> rfl

theorem finalState_cons_of_succeeds {turn : Turn} {turns : List Turn} {index : Nat}
    (succeeded : build.turnFails turn = false) :
    build.finalState index (turn :: turns) = build.finalState (index + 1) turns := by
  simp only [finalState, List.findIdx?_cons, succeeded, Bool.false_eq_true, if_false]
  cases turns.findIdx? build.turnFails with
  | none => rfl
  | some last => simp [Nat.add_right_comm, Nat.add_assoc]

theorem succeeded_resultOf (build : Build) (turn : Turn) :
    (build.resultOf turn).succeeded = !build.turnFails turn :=
  succeeded_attempt build turn.target turn.start

/-- A run ends with a turn that fails. -/
theorem runFrom_cons_of_fails {index : Nat} {target : Target} {rest : List Target} {world : World}
    (failed : build.turnFails (Turn.next index target world) = true) :
    build.runFrom index (.before index) (target :: rest) world =
      ([build.resultOf (Turn.next index target world)], false, .failed index,
        transition (.running index) (.failed index)
          (build.finish (Turn.next index target world))) := by
  have result_eq := build.succeeded_resultOf (Turn.next index target world)
  rw [failed] at result_eq
  exact if_pos (congrArg Bool.not result_eq)

/-- A run goes on with the targets left after a turn that does not fail. -/
theorem runFrom_cons_of_succeeds {index : Nat} {target : Target} {rest : List Target}
    {world : World} (succeeded : build.turnFails (Turn.next index target world) = false) :
    build.runFrom index (.before index) (target :: rest) world =
      (build.resultOf (Turn.next index target world)
          :: (build.runFrom (index + 1) (.before (index + 1)) rest
            (build.finish (Turn.next index target world))).1,
        (build.runFrom (index + 1) (.before (index + 1)) rest
          (build.finish (Turn.next index target world))).2) := by
  have result_eq := build.succeeded_resultOf (Turn.next index target world)
  rw [succeeded] at result_eq
  exact if_neg (Bool.eq_false_iff.mp (congrArg Bool.not result_eq))

/-- A run that goes on at an index takes its turns up to the first that fails. -/
theorem runFrom_spec {index : Nat} {targets : List Target} {world after : World}
    {results : List BuildResult} {succeeded : Bool} {state : BuildState}
    (ran : build.runFrom index (.before index) targets world =
      (results, succeeded, state, after)) :
    results = (build.taken (build.turnsFrom index targets world)).map build.resultOf ∧
      succeeded = ((build.turnsFrom index targets world).findIdx? build.turnFails).isNone ∧
      state = build.finalState index (build.turnsFrom index targets world) ∧
      after.milestones = world.milestones
        ++ (build.taken (build.turnsFrom index targets world)).flatMap build.milestonesOf
        ++ [.state (.before (index + (build.taken (build.turnsFrom index targets world)).length))
          state] := by
  induction targets generalizing index world results succeeded state with
  | nil =>
      rw [runFrom] at ran
      simp only [Prod.mk.injEq] at ran
      obtain ⟨rfl, rfl, rfl, rfl⟩ := ran
      refine ⟨rfl, rfl, rfl, ?_⟩
      rw [milestones_transition]
      simp [turnsFrom, taken]
  | cons target rest induction =>
      have finished := build.milestones_finish index target world
      rw [turnsFrom]
      cases failed : build.turnFails (Turn.next index target world) with
      | true =>
          rw [runFrom_cons_of_fails failed] at ran
          simp only [Prod.mk.injEq] at ran
          obtain ⟨rfl, rfl, rfl, rfl⟩ := ran
          rw [taken_cons_of_fails failed]
          refine ⟨rfl, ?_, ?_, ?_⟩
          · simp [List.findIdx?_cons, failed]
          · simp [finalState, List.findIdx?_cons, failed]
          · rw [milestones_transition, finished, List.flatMap_singleton]
            rfl
      | false =>
          rw [runFrom_cons_of_succeeds failed] at ran
          cases later : build.runFrom (index + 1) (.before (index + 1)) rest
              (build.finish (Turn.next index target world)) with
          | mk more tail =>
              obtain ⟨all, last, final⟩ := tail
              rw [later] at ran
              simp only [Prod.mk.injEq] at ran
              obtain ⟨rfl, rfl, rfl, rfl⟩ := ran
              obtain ⟨rest_results, rest_all, rest_state, rest_milestones⟩ := induction later
              rw [taken_cons_of_succeeds failed, finalState_cons_of_succeeds failed]
              refine ⟨?_, ?_, rest_state, ?_⟩
              · rw [List.map_cons, rest_results]
              · rw [rest_all]
                simp [List.findIdx?_cons, failed]
              · rw [rest_milestones, finished, List.flatMap_cons, List.length_cons,
                  Nat.add_right_comm index 1, Nat.add_assoc index]
                simp only [List.append_assoc]

theorem taken_prefix (build : Build) (turns : List Turn) : build.taken turns <+: turns := by
  rw [taken]
  split
  · exact List.take_prefix _ _
  · exact List.prefix_rfl

theorem index_turnsFrom (build : Build) (index : Nat) (targets : List Target) (world : World) :
    (build.turnsFrom index targets world).map Turn.index =
      List.range' index targets.length := by
  induction targets generalizing index world with
  | nil => rfl
  | cons target rest induction => rw [turnsFrom, List.map_cons, induction]; rfl

/-- With a turn that fails, the turns taken are those before it, which succeed, and this one. -/
theorem taken_of_findIdx? {turns : List Turn} {first : Nat}
    (found : turns.findIdx? build.turnFails = some first) :
    ∃ before last, build.taken turns = before ++ [last] ∧ before.length = first ∧
      build.turnFails last = true ∧ ∀ turn ∈ before, build.turnFails turn = false := by
  obtain ⟨bound, last_fails, earlier⟩ := List.findIdx?_eq_some_iff_getElem.mp found
  refine ⟨turns.take first, turns[first], ?_, by simp [Nat.le_of_lt bound], last_fails, ?_⟩
  · rw [taken, found]
    simp
  · intro turn member
    obtain ⟨index, small, rfl⟩ := List.mem_take_iff_getElem.mp member
    simpa using earlier index (Nat.lt_of_lt_of_le small (Nat.min_le_left _ _))

/-- The results of turns up to the first that fails. -/
theorem results_of_failure {turns : List Turn} {first : Nat}
    (found : turns.findIdx? build.turnFails = some first) :
    ((build.taken turns).map build.resultOf).length = first + 1 ∧
      (∀ index < first, ∃ result,
        ((build.taken turns).map build.resultOf)[index]? = some result ∧
          result.succeeded = true) ∧
      ∃ result, ((build.taken turns).map build.resultOf)[first]? = some result ∧
        result.succeeded = false ∧
        ((build.taken turns).map build.resultOf).find? (fun result => !result.succeeded) =
          some result := by
  obtain ⟨before, last, taken_eq, before_length, last_fails, before_succeed⟩ :=
    taken_of_findIdx? found
  have cut : (build.taken turns).map build.resultOf =
      before.map build.resultOf ++ [build.resultOf last] := by
    rw [taken_eq, List.map_append, List.map_singleton]
  have succeeds : ∀ result ∈ before.map build.resultOf, result.succeeded = true := by
    intro result member
    obtain ⟨turn, turn_mem, rfl⟩ := List.mem_map.mp member
    rw [succeeded_resultOf, before_succeed turn turn_mem, Bool.not_false]
  have fails : (build.resultOf last).succeeded = false := by
    rw [succeeded_resultOf, last_fails, Bool.not_true]
  rw [cut]
  refine ⟨by simp [before_length], fun index small => ?_, build.resultOf last, ?_, fails, ?_⟩
  · have bound : index < (before.map build.resultOf).length := by simpa [before_length]
    refine ⟨(before.map build.resultOf)[index], ?_, succeeds _ (List.getElem_mem bound)⟩
    rw [List.getElem?_append_left bound, List.getElem?_eq_getElem bound]
  · rw [List.getElem?_append_right (by simp [before_length])]
    simp [before_length]
  · rw [List.find?_eq_some_iff_append]
    refine ⟨by simp [fails], before.map build.resultOf, [], rfl, fun result member => ?_⟩
    simp [succeeds result member]

/-- The results of turns none of which fails. -/
theorem results_of_success {turns : List Turn}
    (none_fails : turns.findIdx? build.turnFails = none) :
    ((build.taken turns).map build.resultOf).length = turns.length ∧
      (∀ result ∈ (build.taken turns).map build.resultOf, result.succeeded = true) ∧
      ((build.taken turns).map build.resultOf).find? (fun result => !result.succeeded) = none := by
  have taken_eq : build.taken turns = turns := by rw [taken, none_fails]
  have all_succeed : ∀ result ∈ (build.taken turns).map build.resultOf,
      result.succeeded = true := by
    intro result member
    obtain ⟨turn, turn_mem, rfl⟩ := List.mem_map.mp member
    rw [succeeded_resultOf, List.findIdx?_eq_none_iff.mp none_fails turn
      ((build.taken_prefix turns).subset turn_mem), Bool.not_false]
  refine ⟨by rw [List.length_map, taken_eq], all_succeed, List.find?_eq_none.mpr ?_⟩
  intro result member
  simp [all_succeed result member]

/-- The turns taken are those of the first targets, in their order. -/
theorem taken_in_order (build : Build) (targets : List Target) (world : World) :
    (build.taken (build.turns targets world)).map Turn.target =
        targets.take (build.taken (build.turns targets world)).length ∧
      (build.taken (build.turns targets world)).map Turn.index =
        List.range (build.taken (build.turns targets world)).length := by
  have start := build.taken_prefix (build.turns targets world)
  have all_targets : (build.turns targets world).map Turn.target = targets :=
    build.targets_turnsFrom 0 targets world
  have all_indices : (build.turns targets world).map Turn.index =
      List.range targets.length := by
    rw [List.range_eq_range']
    exact build.index_turnsFrom 0 targets world
  constructor
  · have cut := congrArg (List.take (build.taken (build.turns targets world)).length) all_targets
    rw [← List.map_take, ← List.prefix_iff_eq_take.mp start] at cut
    exact cut
  · have bound : (build.taken (build.turns targets world)).length ≤ targets.length := by
      have lengths := congrArg List.length all_targets
      rw [List.length_map] at lengths
      exact lengths ▸ start.length_le
    have cut := congrArg (List.take (build.taken (build.turns targets world)).length) all_indices
    rw [← List.map_take, ← List.prefix_iff_eq_take.mp start, List.take_range,
      Nat.min_eq_left bound] at cut
    exact cut

/--
A run stops at the first failure and nowhere else.  Its turns are taken in the order of the targets,
and each of them leaves its change of state, the announcement of its artifact and the call of the
runner if the artifact could be prepared, and the result that the run records for it.
-/
theorem runAll_stops_at_first_failure (build : Build) (targets : List Target) (world : World) :
    let turns := build.turns targets world
    let status := (build.runAll targets world).1
    (∀ first, turns.findIdx? build.turnFails = some first →
      status.results.length = first + 1 ∧
        (∀ index < first, ∃ result,
          status.results[index]? = some result ∧ result.succeeded = true) ∧
        (∃ result, status.results[first]? = some result ∧ result.succeeded = false ∧
          status.failed? = some result) ∧
        status.succeeded = false ∧ status.state = .failed first) ∧
      (turns.findIdx? build.turnFails = none →
        status.results.length = targets.length ∧
          (∀ result ∈ status.results, result.succeeded = true) ∧
          status.succeeded = true ∧ status.state = .succeeded ∧ status.failed? = none) ∧
      status.results = (build.taken turns).map build.resultOf ∧
      (build.taken turns).map Turn.target = targets.take (build.taken turns).length ∧
      (build.taken turns).map Turn.index = List.range (build.taken turns).length ∧
      (build.runAll targets world).2.milestones = world.milestones
        ++ (build.taken turns).flatMap build.milestonesOf
        ++ [.state (.before (build.taken turns).length) status.state] := by
  intro turns status
  cases ran : build.runFrom 0 .pending targets world with
  | mk results rest =>
      obtain ⟨succeeded, state, after⟩ := rest
      have run_eq : build.runAll targets world = (⟨succeeded, results, state⟩, after) := by
        rw [runAll, ran]
      have status_eq : status = ⟨succeeded, results, state⟩ := congrArg Prod.fst run_eq
      obtain ⟨results_eq, succeeded_eq, state_eq, milestones_eq⟩ :
          results = (build.taken turns).map build.resultOf ∧
            succeeded = (turns.findIdx? build.turnFails).isNone ∧
            state = build.finalState 0 turns ∧
            after.milestones = world.milestones
              ++ (build.taken turns).flatMap build.milestonesOf
              ++ [Event.state (.before (0 + (build.taken turns).length)) state] :=
        @runFrom_spec build 0 targets world after results succeeded state ran
      rw [Nat.zero_add] at milestones_eq
      obtain ⟨order_targets, order_indices⟩ := build.taken_in_order targets world
      rw [status_eq, run_eq]
      refine ⟨fun first found => ?_, fun none_fails => ?_, results_eq, order_targets,
        order_indices, milestones_eq⟩
      · obtain ⟨length_eq, earlier, failure⟩ := results_of_failure found
        rw [← results_eq] at length_eq earlier failure
        exact ⟨length_eq, earlier, failure, by rw [succeeded_eq, found, Option.isNone_some],
          by simp [state_eq, finalState, found]⟩
      · obtain ⟨length_eq, all_succeed, no_failure⟩ := results_of_success none_fails
        rw [← results_eq] at length_eq all_succeed no_failure
        have lengths := congrArg List.length (build.targets_turnsFrom 0 targets world)
        rw [List.length_map] at lengths
        exact ⟨length_eq.trans lengths, all_succeed,
          by rw [succeeded_eq, none_fails, Option.isNone_none],
          by rw [state_eq, finalState, none_fails], no_failure⟩

end Build
end StagedBuild
