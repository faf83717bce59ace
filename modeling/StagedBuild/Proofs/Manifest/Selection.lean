import Mathlib.Data.List.Nodup
import StagedBuild.Proofs.Build.FirstFailure
import StagedBuild.Proofs.Manifest.Names

/-!
# Selecting targets by name

A selection is a filter of the declared targets.  The names that are asked for are looked up in the
order in which they are given, and the first that is not declared is reported; if all are declared,
the targets come in declared order.  So the order and the repetitions of a request never change
which targets it selects, but they may change which unknown name is reported.
-/

namespace StagedBuild

/-- The event is a call of the runner for a target with this name. -/
def Event.isCallFor (name : String) : Event → Bool
  | .called target _ => target.name == name
  | _ => false

/-- How often the runner was called for a target with this name. -/
def World.callsFor (world : World) (name : String) : Nat :=
  world.trace.countP (Event.isCallFor name)

theorem World.callsFor_eq_milestones (world : World) (name : String) :
    world.callsFor name = world.milestones.countP (Event.isCallFor name) := by
  rw [callsFor, milestones, List.countP_filter]
  refine List.countP_congr fun event _ => ?_
  cases event <;> simp [Event.isCallFor, Event.isMilestone]

namespace Build

variable {build : Build}

theorem countP_milestonesOf (build : Build) (turn : Turn) (name : String) :
    (build.milestonesOf turn).countP (Event.isCallFor name) ≤
      if turn.target.name == name then 1 else 0 := by
  rw [milestonesOf, announced]
  cases build.toolRun? turn.target turn.start <;> simp [List.countP_cons, Event.isCallFor]

/-- Turns call the runner for a name at most as often as they attempt a target of that name. -/
theorem countP_flatMap_milestonesOf (build : Build) (turns : List Turn) (name : String) :
    (turns.flatMap build.milestonesOf).countP (Event.isCallFor name) ≤
      (turns.map fun turn => turn.target.name).count name := by
  induction turns with
  | nil => simp
  | cons turn turns induction =>
      rw [List.flatMap_cons, List.countP_append, List.map_cons, List.count_cons]
      have first := build.countP_milestonesOf turn name
      omega

/-- Over targets with names of their own, a run attempts none twice. -/
theorem runAll_attempts_once {targets : List Target} (distinct : (targets.map Target.name).Nodup)
    (build : Build) (world : World) :
    (build.runAll targets world).1.results =
        (build.taken (build.turns targets world)).map build.resultOf ∧
      ((build.taken (build.turns targets world)).map fun turn => turn.target.name).Nodup ∧
      ∀ name, (build.runAll targets world).2.callsFor name ≤ world.callsFor name + 1 := by
  have names_distinct :
      ((build.taken (build.turns targets world)).map fun turn => turn.target.name).Nodup := by
    have first_names := congrArg (List.map Target.name) (build.taken_in_order targets world).1
    rw [List.map_map, List.map_take] at first_names
    exact first_names ▸ distinct.sublist (List.take_sublist _ _)
  cases ran : build.runFrom 0 .pending targets world with
  | mk results rest =>
      obtain ⟨succeeded, state, after⟩ := rest
      obtain ⟨results_eq, -, -, milestones_eq⟩ :=
        @runFrom_spec build 0 targets world after results succeeded state ran
      rw [runAll, ran]
      refine ⟨results_eq, names_distinct, fun name => ?_⟩
      have called := build.countP_flatMap_milestonesOf
        (build.taken (build.turnsFrom 0 targets world)) name
      have once := List.nodup_iff_count_le_one.mp names_distinct name
      rw [turns] at once
      rw [World.callsFor_eq_milestones, milestones_eq, List.countP_append, List.countP_append,
        World.callsFor_eq_milestones]
      simp only [List.countP_singleton, Event.isCallFor, Bool.false_eq_true, if_false]
      omega

end Build

namespace Manifest

variable {manifest : Manifest} {wanted others : List String}

/-- The first name of a request that is not declared. -/
def unknown? (manifest : Manifest) (wanted : List String) : Option String :=
  wanted.find? fun name => !manifest.names.contains name

theorem unknown?_eq_some_iff {name : String} :
    manifest.unknown? wanted = some name ↔ name ∉ manifest.names ∧
      ∃ before after, wanted = before ++ name :: after ∧
        ∀ earlier ∈ before, earlier ∈ manifest.names := by
  rw [unknown?, List.find?_eq_some_iff_append]
  simp

theorem unknown?_eq_none_iff :
    manifest.unknown? wanted = none ↔ ∀ name ∈ wanted, name ∈ manifest.names := by
  rw [unknown?, List.find?_eq_none]
  simp

/-- A repeated name is looked up at its first place. -/
theorem unknown?_eraseDups (manifest : Manifest) (wanted : List String) :
    manifest.unknown? wanted.eraseDups = manifest.unknown? wanted := by
  cases wanted with
  | nil => rfl
  | cons name rest =>
      have later := manifest.unknown?_eraseDups (rest.filter fun other => !other == name)
      rw [unknown?, unknown?] at later
      rw [List.eraseDups_cons, unknown?, unknown?, List.find?_cons, List.find?_cons, later]
      split
      · rfl
      · -- the names that are left out are declared, as the first one is
        rename_i declared
        rw [List.find?_filter]
        congr 1
        funext other
        by_cases same : other = name
        · rw [same, declared]
          simp
        · simp [same]
termination_by wanted.length
decreasing_by exact Nat.lt_succ_of_le (List.length_filter_le _ _)

theorem select_nil (manifest : Manifest) : manifest.select [] = .ok manifest.allTargets :=
  rfl

theorem select_of_unknown {name : String} (unknown : manifest.unknown? wanted = some name) :
    manifest.select wanted = .error ⟨name, manifest.names⟩ := by
  have asked : wanted ≠ [] := by
    rintro rfl
    exact nomatch unknown
  rw [select, if_neg (by simpa using asked)]
  rw [unknown?] at unknown
  rw [unknown]

theorem select_of_declared (asked : wanted ≠ [])
    (declared : ∀ name ∈ wanted, name ∈ manifest.names) :
    manifest.select wanted =
      .ok (manifest.allTargets.filter fun target => decide (target.name ∈ wanted)) := by
  rw [select, if_neg (by simpa using asked)]
  have known := unknown?_eq_none_iff.mpr declared
  rw [unknown?] at known
  rw [known, allTargets, List.filter_map]
  have same_names : (fun entry : TargetEntry => wanted.contains entry.name) =
      (fun target : Target => decide (target.name ∈ wanted)) ∘ TargetEntry.target := by
    funext entry
    rw [Function.comp_apply, List.contains_eq_mem, TargetEntry.target]
  rw [same_names]

theorem select_eq_ok_iff (asked : wanted ≠ []) {targets : List Target} :
    manifest.select wanted = .ok targets ↔ (∀ name ∈ wanted, name ∈ manifest.names) ∧
      targets = manifest.allTargets.filter fun target => decide (target.name ∈ wanted) := by
  cases unknown : manifest.unknown? wanted with
  | none =>
      have declared := unknown?_eq_none_iff.mp unknown
      rw [select_of_declared asked declared, Except.ok.injEq, eq_comm]
      exact (and_iff_right declared).symm
  | some name =>
      obtain ⟨undeclared, before, after, rfl, -⟩ := unknown?_eq_some_iff.mp unknown
      rw [select_of_unknown unknown]
      simp only [reduceCtorEq, false_iff, not_and]
      exact fun declared => absurd (declared name (by simp)) undeclared

theorem select_eq_error_iff {problem : UnknownTarget} :
    manifest.select wanted = .error problem ↔
      manifest.unknown? wanted = some problem.name ∧ problem.available = manifest.names := by
  cases unknown : manifest.unknown? wanted with
  | some name =>
      rw [select_of_unknown unknown]
      cases problem
      simp [eq_comm]
  | none =>
      by_cases asked : wanted = []
      · subst asked
        simp [select_nil]
      · simp [select_of_declared asked (unknown?_eq_none_iff.mp unknown)]

/-- Requests for the same names select the same targets, if they select any. -/
theorem toOption_select_congr (asked : wanted ≠ []) (also_asked : others ≠ [])
    (same : ∀ name, name ∈ wanted ↔ name ∈ others) :
    (manifest.select wanted).toOption = (manifest.select others).toOption := by
  apply Option.ext
  intro targets
  have success (result : Except UnknownTarget (List Target)) :
      result.toOption = some targets ↔ result = .ok targets := by
    cases result <;> simp [Except.toOption]
  rw [success, success, select_eq_ok_iff asked, select_eq_ok_iff also_asked]
  simp only [same]

/-- Beyond its targets, the answer to a request depends on the first unknown name alone. -/
theorem select_eq_select_iff (asked : wanted ≠ []) (also_asked : others ≠ [])
    (same : ∀ name, name ∈ wanted ↔ name ∈ others) :
    manifest.select wanted = manifest.select others ↔
      manifest.unknown? wanted = manifest.unknown? others := by
  constructor
  · intro equal
    apply Option.ext
    intro name
    have refused := @select_eq_error_iff manifest wanted ⟨name, manifest.names⟩
    rw [equal, select_eq_error_iff] at refused
    simpa using refused.symm
  · intro equal
    cases unknown : manifest.unknown? wanted with
    | some name => rw [select_of_unknown unknown, select_of_unknown (equal ▸ unknown)]
    | none =>
        rw [select_of_declared asked (unknown?_eq_none_iff.mp unknown),
          select_of_declared also_asked (unknown?_eq_none_iff.mp (equal ▸ unknown))]
        simp only [same]

/-- Repetitions in a request change nothing. -/
theorem select_eraseDups (manifest : Manifest) (wanted : List String) :
    manifest.select wanted.eraseDups = manifest.select wanted := by
  by_cases asked : wanted = []
  · rw [asked]
    rfl
  · have also_asked : wanted.eraseDups ≠ [] := by
      obtain ⟨name, rest, rfl⟩ := List.exists_cons_of_ne_nil asked
      simp [List.eraseDups_cons]
    exact (select_eq_select_iff also_asked asked fun name => List.mem_eraseDups).mpr
      (manifest.unknown?_eraseDups wanted)

theorem nodup_selected (accepted : manifest.validate = .ok ()) (wanted : List String) :
    ((manifest.selected wanted).map Target.name).Nodup :=
  ((map_name_allTargets manifest).symm ▸ nodup_names accepted).sublist
    ((manifest.selected_sublist wanted).map Target.name)

/--
Selection is a filter that keeps the declared order.  No names at all stand for every target; the
first unknown name is reported; otherwise the targets are the declared ones that are asked for, as
often as they are declared.  Two requests for the same names select the same targets or are both
refused, and they get the same answer exactly when the first unknown name is the same; repetitions
change nothing.  In an accepted manifest every selected target appears once, and a run over the
selection attempts it at most once.
-/
theorem select_keeps_declared_order (manifest : Manifest) :
    manifest.select [] = .ok manifest.allTargets ∧
      (∀ before name after, (∀ earlier ∈ before, earlier ∈ manifest.names) →
        name ∉ manifest.names →
          manifest.select (before ++ name :: after) = .error ⟨name, manifest.names⟩) ∧
      (∀ wanted, wanted ≠ [] → (∀ name ∈ wanted, name ∈ manifest.names) →
        ∃ targets, manifest.select wanted = .ok targets ∧
          targets = manifest.allTargets.filter (fun target => decide (target.name ∈ wanted)) ∧
          targets.Sublist manifest.allTargets ∧
          ∀ target, targets.count target =
            if target.name ∈ wanted then manifest.allTargets.count target else 0) ∧
      (∀ wanted others, wanted ≠ [] → others ≠ [] → (∀ name, name ∈ wanted ↔ name ∈ others) →
        (manifest.select wanted).toOption = (manifest.select others).toOption ∧
          (manifest.select wanted = manifest.select others ↔
            manifest.unknown? wanted = manifest.unknown? others)) ∧
      (∀ wanted, manifest.select wanted.eraseDups = manifest.select wanted) ∧
      (manifest.validate = .ok () → ∀ wanted targets, manifest.select wanted = .ok targets →
        (targets.map Target.name).Nodup ∧ (∀ target ∈ targets, targets.count target = 1) ∧
          ∀ (build : Build) (world : World),
            (build.runAll targets world).1.results =
                (build.taken (build.turns targets world)).map build.resultOf ∧
              ((build.taken (build.turns targets world)).map fun turn => turn.target.name).Nodup ∧
              ∀ name, (build.runAll targets world).2.callsFor name ≤ world.callsFor name + 1) := by
  refine ⟨manifest.select_nil, ?_, ?_, ?_, manifest.select_eraseDups, ?_⟩
  · intro before name after declared undeclared
    exact select_of_unknown (unknown?_eq_some_iff.mpr ⟨undeclared, before, after, rfl, declared⟩)
  · intro wanted asked declared
    refine ⟨_, select_of_declared asked declared, rfl, List.filter_sublist, fun target => ?_⟩
    split
    · rename_i asked_for
      exact List.count_filter (decide_eq_true asked_for)
    · rename_i left_out
      rw [List.count_eq_zero, List.mem_filter, decide_eq_true_iff]
      exact fun member => left_out member.2
  · intro wanted others asked also_asked same
    exact ⟨toOption_select_congr asked also_asked same, select_eq_select_iff asked also_asked same⟩
  · intro accepted wanted targets selection
    have distinct := nodup_selected accepted wanted
    rw [selected_of_select selection] at distinct
    exact ⟨distinct, fun target member => List.count_eq_one_of_mem distinct.of_map member,
      Build.runAll_attempts_once distinct⟩

/-- Of two unknown names, the one that is asked for first is reported. -/
theorem select_reports_in_requested_order :
    Manifest.default.validate = .ok () ∧ ["x", "y"].Perm ["y", "x"] ∧
      Manifest.default.select ["x", "y"] = .error ⟨"x", ["DSL_BUILD_SYS", "dieselc"]⟩ ∧
      Manifest.default.select ["y", "x"] = .error ⟨"y", ["DSL_BUILD_SYS", "dieselc"]⟩ ∧
      Manifest.default.select ["x", "y"] ≠ Manifest.default.select ["y", "x"] :=
  ⟨by decide, List.Perm.swap "y" "x" [], by decide, by decide, by decide⟩

end Manifest
end StagedBuild
