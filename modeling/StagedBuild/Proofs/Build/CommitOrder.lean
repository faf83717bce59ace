import StagedBuild.Proofs.Build.StagedAgreement
import StagedBuild.Proofs.FileTree.Listing

/-!
# The order of a commit

A commit moves the companions in the order of their names and then the artifact, up to the first
file that cannot be moved, and does nothing else.  The order in which the staging directory is
listed decides neither the result, nor what is moved and when, nor what the tree holds afterwards.
-/

namespace StagedBuild

open StagedBuild.Path (IsName)

/-! ## Worlds that hold the same -/

/-- The worlds have one current directory and hold the same, perhaps listed in another order. -/
structure World.SameView (world other : World) : Prop where
  cwd : other.cwd = world.cwd
  tree : world.tree.SameView other.tree

variable {world other : World}

/-- Two runs have one result and the same events, and leave worlds that hold the same. -/
structure SameRun {α : Type} (world other : World) (run otherRun : α × World) : Prop where
  result : otherRun.1 = run.1
  /-- The same happened. -/
  events : ∃ events, run.2.trace = world.trace ++ events ∧ otherRun.2.trace = other.trace ++ events
  left : run.2.SameView otherRun.2

theorem SameRun.refl {α : Type} (same : world.SameView other) (result : α) :
    SameRun world other (result, world) (result, other) :=
  ⟨rfl, ⟨[], by simp⟩, same⟩

/-- Two runs with one result, taken apart. -/
theorem SameRun.exists_result {α : Type} {run otherRun : α × World}
    (same_run : SameRun world other run otherRun) :
    ∃ result after other_after, run = (result, after) ∧ otherRun = (result, other_after) := by
  obtain ⟨result, after⟩ := run
  obtain ⟨other_result, other_after⟩ := otherRun
  obtain rfl : other_result = result := same_run.result
  exact ⟨other_result, after, other_after, rfl, rfl⟩

/-- What happens after the same events, to worlds that hold the same, is the same as a whole. -/
theorem SameRun.after {α β : Type} {run otherRun : α × World} {next otherNext : β × World}
    (first : SameRun world other run otherRun) (rest : SameRun run.2 otherRun.2 next otherNext) :
    SameRun world other next otherNext := by
  obtain ⟨-, ⟨early, trace_eq, other_trace_eq⟩, -⟩ := first
  obtain ⟨result, ⟨late, next_eq, other_next_eq⟩, left⟩ := rest
  refine ⟨result, ⟨early ++ late, ?_, ?_⟩, left⟩
  · rw [next_eq, trace_eq, List.append_assoc]
  · rw [other_next_eq, other_trace_eq, List.append_assoc]

theorem World.SameView.moveFile (same : world.SameView other) (source destination : Path) :
    SameRun world other (world.moveFile source destination)
      (other.moveFile source destination) := by
  rw [World.moveFile, World.moveFile, same.cwd]
  rcases same.tree.moveFile world.cwd source destination with
    ⟨error, refused, other_refused⟩ | ⟨after, other_after, places, moved, other_moved, same_after⟩
  · rw [refused, other_refused]
    exact .refl same _
  · rw [moved, other_moved]
    exact ⟨rfl, ⟨_, rfl, rfl⟩, same.cwd, same_after⟩

namespace StagedArtifact

/-! ## Listing order -/

section SameRuns

variable (artifact : StagedArtifact) (same : world.SameView other)

include same

theorem promote_sameRun (staged : Path) :
    SameRun world other (artifact.promote staged world) (artifact.promote staged other) := by
  rw [promote, promote]
  split
  · exact .refl same _
  · rename_i name _
    have moved := same.moveFile staged (artifact.outDir.join name)
    obtain ⟨result, after, other_after, run_eq, other_eq⟩ := moved.exists_result
    rw [run_eq, other_eq] at moved
    simp only [run_eq, other_eq]
    cases result <;> exact ⟨rfl, moved.events, moved.left⟩

theorem promoteAll_sameRun (staged : List Path) :
    SameRun world other (artifact.promoteAll staged world) (artifact.promoteAll staged other) := by
  induction staged generalizing world other with
  | nil => exact .refl same _
  | cons path staged induction =>
      have first := artifact.promote_sameRun same path
      obtain ⟨result, after, other_after, run_eq, other_eq⟩ := first.exists_result
      rw [run_eq, other_eq] at first
      rw [promoteAll, promoteAll, run_eq, other_eq]
      cases result with
      | ok done => exact first.after (induction first.left)
      | error error => exact first

/-- The same companions are found, in the same order. -/
theorem companions_eq_of_sameView :
    artifact.companions other.tree other.cwd = artifact.companions world.tree world.cwd := by
  rw [companions, companions, same.cwd]
  rcases same.tree.readDirectory world.cwd artifact.stagingDir with
    ⟨error, refused, other_refused⟩ | ⟨names, other_names, listed, other_listed, perm⟩
  · simp only [refused, other_refused, bind, Except.bind]
  · rw [listed, other_listed]
    simp only [bind, Except.bind, ← same.tree.isFileAt world.cwd]
    rw [mergeSort_eq_of_perm (perm.filter _)]

/-- A commit does not depend on the order in which directories are listed. -/
theorem commit_sameRun : SameRun world other (artifact.commit world) (artifact.commit other) := by
  rw [commit, commit, artifact.companions_eq_of_sameView same, same.cwd,
    ← same.tree.isFileAt world.cwd]
  split
  · exact .refl same _
  · split
    · exact .refl same _
    · rename_i companions _
      have moved := artifact.promoteAll_sameRun same (companions ++ [artifact.stagingPath])
      obtain ⟨result, after, other_after, run_eq, other_eq⟩ := moved.exists_result
      rw [run_eq, other_eq] at moved
      simp only [run_eq, other_eq]
      cases result with
      | ok done => exact moved.after ⟨rfl, ⟨_, rfl, rfl⟩, moved.left.cwd, moved.left.tree⟩
      | error error => exact moved

end SameRuns

/-! ## Moves in order -/

variable {platform : Platform} {outDir : Path} {target : Target}

/-- The events of moving the files of these names from staging into place. -/
def moves (artifact : StagedArtifact) (cwd : Location) (names : List String) : List Event :=
  names.map fun name =>
    .changed (.movedFile (artifact.stagingDir.place cwd ++ [name])
      (artifact.outDir.place cwd ++ [name]))

/-- The files of `moved` went into place in this order, and the first of `rest` was refused. -/
structure Promoted (artifact : StagedArtifact) (world : World) (moved rest : List String)
    (result : Except BuildError Unit) (after : World) : Prop where
  cwd : after.cwd = world.cwd
  /-- The moves are all that happened. -/
  events : after.trace = world.trace ++ artifact.moves world.cwd moved
  /-- The moves are all that changed. -/
  tree : Transfers (artifact.stagingDir.place world.cwd) (artifact.outDir.place world.cwd) moved
    world.tree after.tree
  /-- Without a refusal the result is good. -/
  completed : rest = [] → result = .ok ()
  /-- The refusal of the next file is the result. -/
  stopped : ∀ name later, rest = name :: later → ∃ error, result = .error error ∧
    artifact.promote (artifact.stagingDir.join name) after = (.error error, after)

theorem Promoted.ok_iff {artifact : StagedArtifact} {after : World} {moved rest : List String}
    {result : Except BuildError Unit} (promoted : artifact.Promoted world moved rest result after) :
    result = .ok () ↔ rest = [] := by
  refine ⟨fun ok => ?_, promoted.completed⟩
  cases rest with
  | nil => rfl
  | cons name later =>
      obtain ⟨error, failed, -⟩ := promoted.stopped name later rfl
      rw [ok] at failed
      contradiction

theorem promote_refused {artifact : StagedArtifact} {after : World} {staged : Path}
    {error : BuildError} (refused : artifact.promote staged world = (.error error, after)) :
    after = world := by
  rw [promote] at refused
  split at refused
  · simp at refused
  · simp only [World.moveFile] at refused
    split at refused
    · simp at refused
    · rename_i moved
      split at moved
      · simp at moved
      · obtain ⟨-, rfl⟩ := Prod.mk.inj moved
        exact (Prod.mk.inj refused).2.symm

/-- A file that is moved leaves one event. -/
theorem trace_of_promote {after : World} {name : String}
    (file_name : IsName (target.fileName platform)) (is_name : IsName name)
    (promoted : (locate platform outDir target).promote ((stagingOf outDir).join name) world =
      (.ok (), after)) :
    after.trace = world.trace ++ (locate platform outDir target).moves world.cwd [name] := by
  simp only [promote, is_name.fileName?_join, World.moveFile] at promoted
  cases moved : world.tree.moveFile world.cwd ((stagingOf outDir).join name)
      ((locate platform outDir target).outDir.join name) with
  | error error => simp [moved] at promoted
  | ok outcome =>
      obtain ⟨tree, source, destination⟩ := outcome
      obtain ⟨rfl, rfl, -⟩ := FileTree.moveFile_spec moved
      rw [moved] at promoted
      obtain ⟨-, rfl⟩ := Prod.mk.inj promoted
      simp only [World.change, moves, stagingDir_locate file_name, Path.place_join_name _ is_name,
        List.map_cons, List.map_nil]

/-- Staged files are moved one after the other, up to the first that is refused. -/
theorem promoteAll_promoted {names : List String} {after : World}
    {result : Except BuildError Unit} (file_name : IsName (target.fileName platform))
    (distinct : names.Nodup)
    (staged : ∀ name ∈ names, IsName name ∧
      world.tree.isFileAt world.cwd ((stagingOf outDir).join name) = true)
    (promoted : (locate platform outDir target).promoteAll (names.map (stagingOf outDir).join)
      world = (result, after)) :
    ∃ moved rest, names = moved ++ rest ∧
      (locate platform outDir target).Promoted world moved rest result after := by
  induction names generalizing world with
  | nil =>
      obtain ⟨rfl, rfl⟩ := Prod.mk.inj promoted
      exact ⟨[], [], rfl, rfl, by simp [moves], .nil, fun _ => rfl, by simp⟩
  | cons name names induction =>
      obtain ⟨fresh, distinct_rest⟩ := List.nodup_cons.mp distinct
      rw [List.map_cons, promoteAll] at promoted
      split at promoted
      · rename_i middle first
        obtain ⟨-, same_cwd, -, transferred, still_staged⟩ :=
          promote_ok_spec file_name fresh staged first
        obtain ⟨moved, rest, rfl, later⟩ := induction distinct_rest still_staged promoted
        have is_name := (staged name List.mem_cons_self).1
        refine ⟨name :: moved, rest, rfl, later.cwd.trans same_cwd, ?_, ?_, later.completed,
          later.stopped⟩
        · rw [later.events, trace_of_promote file_name is_name first, same_cwd, List.append_assoc]
          rfl
        · have rest_moved := later.tree
          rw [same_cwd, stagingDir_locate file_name, place_outDir_locate file_name] at rest_moved
          rw [stagingDir_locate file_name, place_outDir_locate file_name]
          exact transferred.cons (staging_apart outDir world.cwd)
            (fun member => fresh (List.mem_append_left rest member)) rest_moved
      · rename_i error middle first
        obtain ⟨rfl, rfl⟩ := Prod.mk.inj promoted
        obtain rfl := promote_refused first
        refine ⟨[], name :: names, rfl, rfl, by simp [moves], .nil, by simp, ?_⟩
        rintro next later ⟨rfl, rfl⟩
        rw [stagingDir_locate file_name]
        exact ⟨error, rfl, first⟩

/-- The companions of a staged artifact are found in the order of their names. -/
theorem companions_sorted {tree : FileTree} {cwd : Location}
    (file_name : IsName (target.fileName platform))
    (found : tree.isFileAt cwd (locate platform outDir target).stagingPath = true) :
    ∃ names : List String, (locate platform outDir target).companions tree cwd =
        .ok (names.map (stagingOf outDir).join) ∧
      names.Pairwise (· < ·) ∧
      ∀ name, name ∈ names ↔ isCompanionName target.outputName name = true ∧
        tree.isFileAt cwd ((stagingOf outDir).join name) = true := by
  refine ⟨_, companions_of_isFileAt file_name found, ?_, fun name => ?_⟩
  · have distinct := (List.mergeSort_perm _ fun left right => !decide (right < left)).nodup_iff.mpr
      (@nodup_companionNames platform outDir target tree cwd)
    exact (List.Pairwise.and (pairwise_mergeSort_le _) distinct).imp
      fun both => lt_of_le_of_ne both.1 both.2
  · rw [List.mem_mergeSort, mem_companionNames_iff file_name]

/-- A commit of a staged artifact moves the companions in order, and then the artifact. -/
theorem commit_promoted {left : World} {result : Except BuildError Unit}
    (file_name : IsName (target.fileName platform))
    (found : world.tree.isFileAt world.cwd (locate platform outDir target).stagingPath = true)
    (committed : (locate platform outDir target).commit world = (result, left)) :
    ∃ (companions moved rest : List String) (after : World),
      companions.Pairwise (· < ·) ∧
      (∀ name, name ∈ companions ↔ isCompanionName target.outputName name = true ∧
        world.tree.isFileAt world.cwd ((stagingOf outDir).join name) = true) ∧
      companions ++ [target.fileName platform] = moved ++ rest ∧
      (locate platform outDir target).Promoted world moved rest result after ∧
      left = if rest = [] then
        after.debug ("committed " ++ (locate platform outDir target).path.text) else after := by
  obtain ⟨companions, listed, sorted, chosen⟩ := companions_sorted file_name found
  rw [commit, if_neg (by rw [found]; decide)] at committed
  simp only [listed, map_join_concat] at committed
  cases all : (locate platform outDir target).promoteAll
      ((companions ++ [target.fileName platform]).map (stagingOf outDir).join) world with
  | mk outcome after =>
      obtain ⟨moved, rest, cut, promoted⟩ := promoteAll_promoted file_name
        (nodup_concat_fileName file_name (sorted.imp ne_of_lt) fun name member =>
          ((chosen name).mp member).1)
        (staged_of_chosen file_name found fun name => (chosen name).mp) all
      refine ⟨companions, moved, rest, after, sorted, chosen, cut, ?_⟩
      rw [all] at committed
      cases outcome with
      | ok done =>
          obtain ⟨rfl, rfl⟩ := Prod.mk.inj committed
          exact ⟨promoted, (if_pos (promoted.ok_iff.mp rfl)).symm⟩
      | error error =>
          obtain ⟨rfl, rfl⟩ := Prod.mk.inj committed
          have refused : rest ≠ [] := by
            intro complete
            simpa using promoted.ok_iff.mpr complete
          exact ⟨promoted, (if_neg refused).symm⟩

/--
A commit moves nothing when the staged artifact is not a file.  Otherwise it moves the companions
that are files, sorted, and then the artifact, up to the first that is refused, and succeeds when
none is; nothing else changes.  Worlds that hold the same are committed alike, in whatever order
they list their directories.
-/
theorem commit_moves_in_order {before prepared world left : World} {artifact : StagedArtifact}
    {result : Except BuildError Unit}
    (obtained : prepare platform outDir target before = (.ok artifact, prepared))
    (committed : artifact.commit world = (result, left)) :
    (world.tree.isFileAt world.cwd artifact.stagingPath = false →
      result = .error (.io ("toolchain reported success but wrote no artifact at `"
        ++ artifact.stagingPath.text ++ "`") (.bare .notFound)) ∧ left = world) ∧
    (world.tree.isFileAt world.cwd artifact.stagingPath = true →
      ∃ (companions moved rest : List String) (after : World),
        companions.Pairwise (· < ·) ∧
        (∀ name, name ∈ companions ↔ target.outputName ≠ "" ∧
          (∃ suffix ∈ companionExtensions, name = companionName target.outputName suffix) ∧
          world.tree.isFileAt world.cwd (artifact.stagingDir.join name) = true) ∧
        companions ++ [target.fileName platform] = moved ++ rest ∧
        artifact.Promoted world moved rest result after ∧
        left = if rest = [] then after.debug ("committed " ++ artifact.path.text) else after) ∧
    ∀ other, world.SameView other → SameRun world other (result, left) (artifact.commit other) := by
  obtain ⟨rfl, plain, -, -⟩ := (prepare_spec obtained).2.2 artifact rfl
  refine ⟨fun absent => ?_, fun found => ?_, fun other same => ?_⟩
  · rw [commit, if_pos (by rw [absent]; rfl)] at committed
    obtain ⟨rfl, rfl⟩ := Prod.mk.inj committed
    exact ⟨rfl, rfl⟩
  · have file_name : IsName (target.fileName platform) := FileTree.isName_of_isFileAt plain found
    obtain ⟨companions, moved, rest, after, sorted, chosen, moves⟩ :=
      commit_promoted file_name found committed
    refine ⟨companions, moved, rest, after, sorted, fun name => ?_, moves⟩
    rw [chosen, isCompanionName_iff, and_assoc, stagingDir_locate file_name]
  · rw [← committed]
    exact commit_sameRun _ same

/-- Files staged in a project, listed in the given order, with a directory in the place of `app`. -/
def stagedWorld (listed : List String) : World where
  tree := listed.foldl
    (fun tree name => tree.insert ["p", "bin", ".kiln-staging", name] (.file ⟨[], false⟩))
    (((World.project.tree.insert ["p", "bin"] .directory).insert
      ["p", "bin", ".kiln-staging"] .directory).insert ["p", "bin", "app"] .directory)
  cwd := ["p"]

/-- A commit that a directory stops has moved the library before, however staging is listed. -/
theorem stopped_commit_moves_library :
    let artifact := locate .unix ⟨"/p/bin"⟩ .application
    let world := stagedWorld ["app", "app.map", "app.lib"]
    let other := stagedWorld ["app.lib", "app", "app.map"]
    (prepare .unix ⟨"bin"⟩ .application .project).1 = .ok artifact ∧
      world.SameView other ∧
      (artifact.commit world).2.trace = artifact.moves ["p"] ["app.lib"] ∧
      (artifact.commit other).2.trace = artifact.moves ["p"] ["app.lib"] ∧
      (artifact.commit other).1.isOk = false := by
  intro artifact world other
  have ready : (prepare .unix ⟨"bin"⟩ .application .project).1 = .ok artifact := by
    decide +kernel
  have obtained : prepare .unix ⟨"bin"⟩ .application .project =
      (.ok artifact, (prepare .unix ⟨"bin"⟩ .application .project).2) := by
    rw [← ready]
  have same : world.SameView other := by
    refine ⟨rfl, fun place => ?_⟩
    simp only [world, other, stagedWorld, List.foldl_cons, List.foldl_nil, FileTree.entry?_insert]
    split_ifs <;> rfl
  have moved : (artifact.commit world).2.trace = artifact.moves ["p"] ["app.lib"] := by
    decide +kernel
  have stopped : (artifact.commit world).1.isOk = false := by decide +kernel
  obtain ⟨-, -, alike⟩ :=
    commit_moves_in_order obtained (Prod.mk.eta (p := artifact.commit world)).symm
  obtain ⟨same_result, ⟨events, trace_eq, other_trace_eq⟩, -⟩ := alike other same
  exact ⟨ready, same, moved,
    other_trace_eq.trans (trace_eq.symm.trans moved), by rw [same_result, stopped]⟩

/-- Without an output name a file that is called like a companion has no extension, and stays. -/
theorem nameless_library_keeps_companion :
    let target := Target.named "" .library ⟨"."⟩
    let artifact := locate .unix ⟨"/p/bin"⟩ target
    let world := stagedWorld [".so", ".lib"]
    (prepare .unix ⟨"bin"⟩ target .project).1 = .ok artifact ∧
      companionName target.outputName "lib" = ".lib" ∧
      world.tree.isFileAt world.cwd (artifact.stagingDir.join ".lib") = true ∧
      (artifact.commit world).1.isOk = true ∧
      (artifact.commit world).2.tree.isFileAt world.cwd
        (artifact.stagingDir.join ".lib") = true := by
  decide +kernel

end StagedArtifact
end StagedBuild
