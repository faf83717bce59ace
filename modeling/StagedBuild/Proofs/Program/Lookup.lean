import StagedBuild.Proofs.Manifest.Placement
import StagedBuild.Proofs.Program.Confinement

/-!
# Where the tool of a project is looked for

A tool of more than one component is taken from the root of the project, and a bare name is looked
for in the search path.  So the working directory of a target has no part in which program its tool
is found to be, unless the tool is a bare name and the search path has a relative entry: such an
entry is taken from the working directory.
-/

namespace StagedBuild

open StagedBuild.Path (IsName)

namespace Path

variable {path : Path}

/-- Without the `.` in front of it, a relative path has the components that move. -/
theorem dropWhile_current (relative : path.isAbsolute = false) :
    path.components.dropWhile (· == .current) = path.inner := by
  have moves : ∀ parts : List Component, (∀ part ∈ parts, part ≠ .current) →
      parts.dropWhile (· == .current) = parts := by
    intro parts others
    cases parts with
    | nil => rfl
    | cons part parts =>
        rw [List.dropWhile_cons_of_neg]
        simpa using others part List.mem_cons_self
  have inner_moves := moves path.inner fun part member => by
    rcases mem_inner member with rfl | ⟨name, rfl, -⟩ <;> simp
  rw [inner_eq] at inner_moves ⊢
  rw [components]
  rcases leading_cases path with ⟨absolute, -, -⟩ | ⟨-, lead, -⟩ | ⟨-, lead, -⟩
  · rw [relative] at absolute
    contradiction
  · rw [lead, List.singleton_append, List.dropWhile_cons_of_pos (by rfl), inner_moves]
  · rw [lead, List.nil_append, inner_moves]

end Path

namespace SearchPath

/-- The directories that are named by a search path, relative ones as they are written. -/
def entries (searchPath : SearchPath) : List Path :=
  (Text.fields ':' searchPath.text).map fun entry => expandHome searchPath.home ⟨entry⟩

/-- No entry is relative. -/
def IsFixed (searchPath : SearchPath) : Prop :=
  ∀ entry ∈ searchPath.entries, entry.isAbsolute = true

instance (searchPath : SearchPath) : Decidable searchPath.IsFixed :=
  inferInstanceAs (Decidable (∀ _ ∈ _, _))

theorem directories_eq_map (searchPath : SearchPath) (cwd : Path) :
    searchPath.directories cwd = searchPath.entries.map (Tool.anchor cwd) := by
  rw [directories, entries, List.map_map]
  rfl

theorem directories_of_isFixed {searchPath : SearchPath} (fixed : searchPath.IsFixed) (cwd : Path) :
    searchPath.directories cwd = searchPath.entries := by
  have stays : ∀ entry ∈ searchPath.entries, Tool.anchor cwd entry = entry :=
    fun entry member => if_pos (fixed entry member)
  rw [directories_eq_map, List.map_congr_left stays, List.map_id']

end SearchPath

namespace Tool

variable {searchPath : SearchPath} {root : Path} {tool : String}

/-- A tool of more than one component that is joined to an absolute path is absolute, and still has
more than one component. -/
theorem isPath_join (absolute : root.isAbsolute = true) (is_path : isPath tool = true) :
    (root.join tool).isAbsolute = true ∧ isPath (root.join tool).text = true := by
  cases given : (Path.mk tool).isAbsolute with
  | true =>
      rw [Path.join, if_pos given]
      exact ⟨given, is_path⟩
  | false =>
      have whole : (root.join tool).isAbsolute = true :=
        (Path.isAbsolute_join root given).trans absolute
      refine ⟨whole, ?_⟩
      have moves : 0 < ((Path.mk tool).segments.filterMap Path.bodyComponent).length := by
        rw [isPath, decide_eq_true_iff, Path.components, List.length_append] at is_path
        rcases Path.leading_cases (Path.mk tool) with ⟨-, lead, -⟩ | ⟨-, lead, -⟩ | ⟨-, lead, -⟩ <;>
        · simp only [lead, List.length_cons, List.length_nil] at is_path
          omega
      have parts : (root.join tool).components = .root ::
          (root.front.filterMap Path.bodyComponent
            ++ (Path.mk tool).segments.filterMap Path.bodyComponent) := by
        rw [Path.components_of_isAbsolute whole, Path.segments_join root given,
          List.filterMap_append]
      rw [isPath, decide_eq_true_iff, parts, List.length_cons, List.length_append]
      omega

/-- An absolute tool of more than one component is looked for at its own place and nowhere else. -/
theorem candidates_of_isAbsolute (absolute : (Path.mk tool).isAbsolute = true)
    (is_path : isPath tool = true) (searchPath : SearchPath) (cwd : Path) :
    candidates searchPath cwd tool = [⟨tool⟩] := by
  rw [candidates, if_pos is_path, anchor, if_pos absolute]

theorem candidates_of_bare (bare : isPath tool = false) (searchPath : SearchPath) (cwd : Path) :
    candidates searchPath cwd tool = (searchPath.directories cwd).map (·.join tool) := by
  rw [candidates, if_neg (by simp [bare])]

/-- Below another directory, a relative entry names another place. -/
theorem anchor_join_ne {entry : Path} (relative : entry.isAbsolute = false)
    (tool_relative : (Path.mk tool).isAbsolute = false) {name : String} (is_name : IsName name) :
    (anchor root entry).join tool ≠ (anchor (root.join name) entry).join tool := by
  intro same
  have anchored : ∀ base : Path, ((anchor base entry).join tool).segments =
      base.front ++ entry.inner.map Path.componentText ++ (Path.mk tool).segments := by
    intro base
    rw [Path.segments_join _ tool_relative, anchor, if_neg (by simp [relative]),
      Path.dropWhile_current relative, Path.front_joinAll (List.Subset.refl _)]
  have lengths := congrArg (fun path => path.segments.length) same
  simp only [anchored, Path.front_join_name root is_name, List.length_append,
    List.length_singleton] at lengths
  omega

/-- A bare name is looked for at the same places from everywhere if the search path is fixed. -/
theorem candidates_of_isFixed (bare : isPath tool = false)
    (fixed : searchPath.IsFixed ∨ (Path.mk tool).isAbsolute = true) (cwd other : Path) :
    candidates searchPath cwd tool = candidates searchPath other tool := by
  rw [candidates_of_bare bare, candidates_of_bare bare]
  rcases fixed with fixed | absolute
  · rw [SearchPath.directories_of_isFixed fixed, SearchPath.directories_of_isFixed fixed]
  · have replaced : (fun directory : Path => directory.join tool) = fun _ => ⟨tool⟩ :=
      funext fun directory => if_pos absolute
    rw [replaced, SearchPath.directories_eq_map, SearchPath.directories_eq_map]
    simp

/-- Only in a fixed search path is a bare name looked for at the same places from two directories of
which one is inside the other. -/
theorem isFixed_of_candidates_eq (bare : isPath tool = false)
    (relative : (Path.mk tool).isAbsolute = false) {name : String} (is_name : IsName name)
    (same : candidates searchPath root tool = candidates searchPath (root.join name) tool) :
    searchPath.IsFixed := by
  intro entry member
  rw [candidates_of_bare bare, candidates_of_bare bare, SearchPath.directories_eq_map,
    SearchPath.directories_eq_map, List.map_map, List.map_map, List.map_inj_left] at same
  by_contra moves
  exact anchor_join_ne (by simpa using moves) relative is_name (same entry member)

end Tool

/-- The places at which the program of an invocation is looked for, in order. -/
def Invocation.places (invocation : Invocation) (searchPath : SearchPath) : List Path :=
  Tool.candidates searchPath invocation.cwd invocation.program

/-- The program that the tool of an invocation is found to be. -/
def Invocation.program? (invocation : Invocation) (searchPath : SearchPath) (tree : FileTree)
    (cwd : Location) : Option Path :=
  Tool.resolve searchPath tree cwd invocation.program invocation.cwd

namespace Project

variable {project : Project} {searchPath : SearchPath} {given : Option String}

/-- The tool of a project: the one that is asked for, or else the one in the manifest. -/
def toolName (project : Project) (given : Option String) : String :=
  given.getD project.manifest.toolchain.tool

theorem tool_adjusted (project : Project) (given : Option String) (outDir : Option Path) :
    (project.adjusted given outDir).manifest.toolchain.tool = project.toolName given := by
  cases given <;> cases outDir <;> rfl

/-- The program of every invocation: a path from the root of the project, or a bare name. -/
theorem program_invocation (project : Project) (given : Option String) (outDir : Option Path)
    (runner : Runner) (platform : Platform) (target : Target) (artifact : StagedArtifact) :
    (((project.adjusted given outDir).toBuild runner platform).invocation target artifact).program =
      if Tool.isPath (project.toolName given) then (project.root.join (project.toolName given)).text
      else project.toolName given := by
  have anchored : (((project.adjusted given outDir).toBuild runner platform).invocation target
      artifact).program =
        ((project.adjusted given outDir).manifest.toolchainAt
          (project.adjusted given outDir).root).tool := rfl
  rw [anchored, Manifest.toolchainAt, tool_adjusted, root_adjusted]
  by_cases is_path : 1 < (Path.mk (project.toolName given)).components.length
  · have whole : Tool.isPath (project.toolName given) = true := decide_eq_true is_path
    rw [if_pos is_path, if_pos whole]
  · have bare : ¬ Tool.isPath (project.toolName given) = true := mt of_decide_eq_true is_path
    rw [if_neg is_path, if_neg bare, tool_adjusted]

section Places

variable (absolute : project.root.isAbsolute = true) (searchPath : SearchPath)
  (given : Option String) (outDir : Option Path) (runner : Runner) (platform : Platform)

include absolute in
/-- A tool of more than one component is looked for in one place, below the root of the project. -/
theorem places_of_isPath (is_path : Tool.isPath (project.toolName given) = true) (target : Target)
    (artifact : StagedArtifact) :
    (((project.adjusted given outDir).toBuild runner platform).invocation target artifact).places
      searchPath = [project.root.join (project.toolName given)] := by
  obtain ⟨whole, still_path⟩ := Tool.isPath_join absolute is_path
  rw [Invocation.places, program_invocation, if_pos is_path]
  exact Tool.candidates_of_isAbsolute whole still_path searchPath _

theorem places_of_bare (bare : Tool.isPath (project.toolName given) = false) (target : Target)
    (artifact : StagedArtifact) :
    (((project.adjusted given outDir).toBuild runner platform).invocation target artifact).places
        searchPath =
      Tool.candidates searchPath
        (((project.adjusted given outDir).toBuild runner platform).workingDir target)
        (project.toolName given) := by
  rw [Invocation.places, program_invocation, if_neg (by simp [bare])]
  rfl

include absolute in
/-- The places do not depend on the working directory exactly when the tool is a path, or the search
path has no relative entry.  (A bare name can also be the root, which is never a program.) -/
theorem places_unmoved_iff :
    (∀ left right leftArtifact rightArtifact,
        (((project.adjusted given outDir).toBuild runner platform).invocation left
            leftArtifact).places searchPath =
          (((project.adjusted given outDir).toBuild runner platform).invocation right
            rightArtifact).places searchPath) ↔
      Tool.isPath (project.toolName given) = true ∨ searchPath.IsFixed ∨
        (Path.mk (project.toolName given)).isAbsolute = true := by
  constructor
  · intro unmoved
    cases bare : Tool.isPath (project.toolName given) with
    | true => exact .inl rfl
    | false =>
        right
        rw [or_iff_not_imp_right, Bool.not_eq_true]
        intro relative
        -- A target in the root and one in a directory below it tell a relative entry apart.
        let target := Target.named "" .library ⟨""⟩
        have same := unmoved target (target.withWorkingDir ⟨"x"⟩)
          (StagedArtifact.locate platform ⟨""⟩ target) (StagedArtifact.locate platform ⟨""⟩ target)
        rw [places_of_bare searchPath given outDir runner platform bare,
          places_of_bare searchPath given outDir runner platform bare] at same
        have here : ((project.adjusted given outDir).toBuild runner platform).workingDir target =
            project.root := project.root_adjusted given outDir
        have below : ((project.adjusted given outDir).toBuild runner platform).workingDir
            (target.withWorkingDir ⟨"x"⟩) = project.root.join "x" :=
          congrArg (·.join "x") (project.root_adjusted given outDir)
        rw [here, below] at same
        exact Tool.isFixed_of_candidates_eq bare relative (by decide) same
  · intro unmoved left right leftArtifact rightArtifact
    cases bare : Tool.isPath (project.toolName given) with
    | true =>
        rw [places_of_isPath absolute searchPath given outDir runner platform bare,
          places_of_isPath absolute searchPath given outDir runner platform bare]
    | false =>
        rw [places_of_bare searchPath given outDir runner platform bare,
          places_of_bare searchPath given outDir runner platform bare]
        rw [bare] at unmoved
        exact Tool.candidates_of_isFixed bare (by simpa using unmoved) _ _

/--
The working directory of a target has no part in which program its tool is found to be, if the tool
is of more than one component or the search path has no relative entry.  In the first case the
program is the one at the path of the tool from the root of the project.  The places at which the
program is looked for are the same for all targets in no other case.
-/
theorem tool_keeps_its_place (absolute : project.root.isAbsolute = true) (searchPath : SearchPath)
    (given : Option String) (outDir : Option Path) (runner : Runner) (platform : Platform) :
    let build := (project.adjusted given outDir).toBuild runner platform
    let tool := project.toolName given
    (Tool.isPath tool = true → ∀ tree cwd target artifact elsewhere,
      (build.invocation target artifact).program? searchPath tree cwd =
          Tool.resolve searchPath tree cwd (project.root.join tool).text elsewhere ∧
        (build.invocation target artifact).program? searchPath tree cwd =
          if Tool.isExecutableAt tree cwd (project.root.join tool) then
            some (project.root.join tool)
          else none) ∧
      (Tool.isPath tool = true ∨ searchPath.IsFixed →
        ∀ tree cwd left right leftArtifact rightArtifact,
          (build.invocation left leftArtifact).program? searchPath tree cwd =
            (build.invocation right rightArtifact).program? searchPath tree cwd) ∧
      ((∀ left right leftArtifact rightArtifact,
          (build.invocation left leftArtifact).places searchPath =
            (build.invocation right rightArtifact).places searchPath) ↔
        Tool.isPath tool = true ∨ searchPath.IsFixed ∨ (Path.mk tool).isAbsolute = true) := by
  intro build tool
  have unmoved_iff := places_unmoved_iff absolute searchPath given outDir runner platform
  refine ⟨fun is_path tree cwd target artifact elsewhere => ?_,
    fun settled tree cwd left right leftArtifact rightArtifact => ?_, unmoved_iff⟩
  · obtain ⟨whole, still_path⟩ := Tool.isPath_join absolute is_path
    have found : (build.invocation target artifact).program? searchPath tree cwd =
        [project.root.join tool].find? (Tool.isExecutableAt tree cwd) :=
      congrArg (List.find? _)
        (places_of_isPath absolute searchPath given outDir runner platform is_path target artifact)
    have alone : Tool.candidates searchPath elsewhere (project.root.join tool).text =
        [project.root.join tool] :=
      Tool.candidates_of_isAbsolute whole still_path searchPath elsewhere
    refine ⟨?_, ?_⟩
    · rw [found, Tool.resolve, alone]
    · rw [found, List.find?_singleton]
  · exact congrArg (List.find? _)
      (unmoved_iff.mpr (settled.imp_right Or.inl) left right leftArtifact rightArtifact)

end Places

/-- The program of a target of the project in `/p`, built with the given tool. -/
def programIn (tree : FileTree) (searchPath : SearchPath) (tool : String) (target : TargetEntry) :
    Option Path :=
  let build :=
    (Program.undescribed.adjusted (some tool) none).toBuild Program.executableWriter .unix
  (build.invocation target.target
    (.locate .unix build.outDir target.target)).program? searchPath tree []

/-- A tree with one program below the root of the project, and one below the `BuildSystem` in it. -/
def twoTools : FileTree :=
  ([["p"], ["p", "tools"], ["p", "BuildSystem"], ["p", "BuildSystem", "tools"]].foldl
      (fun tree place => tree.insert place .directory) FileTree.empty)
    |>.insert ["p", "tools", "odin"] (.file ⟨[], true⟩)
    |>.insert ["p", "BuildSystem", "tools", "odin"] (.file ⟨[], true⟩)

/-- The default targets run in different working directories, and share the tool of the project. -/
theorem default_targets_share_tool :
    Program.undescribed.root.isAbsolute = true ∧
      Tool.isPath "./tools//odin" = true ∧
      (SearchPath.mk "/usr/bin:~/tools" (some ⟨"/p"⟩)).IsFixed ∧
      ∀ target, programIn twoTools ⟨"tools", none⟩ "./tools//odin" target =
          some ⟨"/p/./tools//odin"⟩ ∧
        programIn twoTools ⟨"/usr/bin:~/tools", some ⟨"/p"⟩⟩ "odin" target =
          some ⟨"/p/tools/odin"⟩ := by
  have absolute : Program.undescribed.root.isAbsolute = true := by decide +kernel
  have is_path : Tool.isPath "./tools//odin" = true := by decide +kernel
  have fixed : (SearchPath.mk "/usr/bin:~/tools" (some ⟨"/p"⟩)).IsFixed := by decide +kernel
  refine ⟨absolute, is_path, fixed, fun target => ⟨?_, ?_⟩⟩
  · have below := (tool_keeps_its_place absolute ⟨"tools", none⟩ (some "./tools//odin") none
      Program.executableWriter .unix).1 is_path twoTools []
    exact (below target.target _ ⟨"/p"⟩).2.trans (by decide +kernel)
  · have shared := (tool_keeps_its_place absolute ⟨"/usr/bin:~/tools", some ⟨"/p"⟩⟩ (some "odin")
      none Program.executableWriter .unix).2.1 (.inr fixed) twoTools []
    have here : programIn twoTools ⟨"/usr/bin:~/tools", some ⟨"/p"⟩⟩ "odin"
        (.minimal "dieselc" .executable) = some ⟨"/p/tools/odin"⟩ := by
      decide +kernel
    exact (shared target.target (TargetEntry.minimal "dieselc" .executable).target _ _).trans here

/-- A relative entry of the search path is taken from the working directory, so the default targets
are built by different programs. -/
theorem relative_entry_moves_tool :
    Program.undescribed.root.isAbsolute = true ∧
      (Manifest.defaultTargets.map fun target =>
          programIn twoTools ⟨"tools", none⟩ "odin" target) =
        [some ⟨"/p/BuildSystem/tools/odin"⟩, some ⟨"/p/tools/odin"⟩] := by
  decide +kernel

end Project
end StagedBuild
