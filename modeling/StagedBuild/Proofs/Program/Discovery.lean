import StagedBuild.Proofs.Manifest.Placement
import StagedBuild.Proofs.Program.Confinement
import StagedBuild.Proofs.Program.CurrentDirectory

/-!
# Two ways to the same project

A project is found by the path of its manifest, or from the directory that holds the manifest.  When
the path, made absolute, has the components of the manifest in the directory, both ways read the
same file and arrive at the same root, which is absolute; so it does no harm that the output
directory is joined to the root twice.  Only a path that ends in a separator is refused, because a
file has nothing below it.
-/

namespace StagedBuild

open StagedBuild.Path (IsName)

namespace Path

/-- Cutting off the name that was joined to the root gives the root back. -/
theorem directory_join_root {name : String} (is_name : IsName name) :
    ((Path.mk "/").join name).directory = ⟨"/"⟩ := by
  have joined : ((Path.mk "/").join name).segments = ["", name] := by
    rw [segments_join_name _ is_name]
    rfl
  have absolute : ((Path.mk "/").join name).isAbsolute = true := is_name.isAbsolute_join (by decide)
  have lead : ((Path.mk "/").join name).leading = [.root] := by
    rw [leading, if_pos absolute]
  have trimmed : trimEnd ((Path.mk "/").join name).body = [] ++ [name] := by
    rw [body, lead, joined]
    exact trimEnd_concat [] is_name.2.1
  rw [directory_of_trimEnd (is_name.fileName?_join _) trimmed, lead]
  rfl

/-- Cutting off the name that was joined to a directory written from the root gives it back. -/
theorem parent?_join_names {names : List String} {name : String}
    (all_names : ∀ segment ∈ names, IsName segment) (is_name : IsName name) :
    ((Path.mk ("/" ++ String.intercalate "/" names)).join name).parent? =
      some ⟨"/" ++ String.intercalate "/" names⟩ := by
  rw [parent?_of_fileName (is_name.fileName?_join _), Option.some.injEq]
  rcases List.eq_nil_or_concat names with rfl | ⟨before, last, rfl⟩
  · exact directory_join_root is_name
  · rw [List.concat_eq_append] at all_names ⊢
    have cut : (Path.mk ("/" ++ String.intercalate "/" (before ++ [last]))).segments =
        ("" :: before) ++ [last] := by
      have seam := segments_append_separator "" (String.intercalate "/" (before ++ [last]))
      rw [segments_intercalate (by simp) fun segment member => (all_names segment member).1,
        segments_empty] at seam
      exact seam
    exact directory_join_name cut (all_names last (by simp)) is_name

end Path

namespace FileTree

variable {tree : FileTree} {cwd place : Location} {path : Path} {file : File}

/-- What is read at a path is the text of the file that it leads to. -/
theorem readText_of_locate (located : tree.locate cwd path = .ok place)
    (holds : tree.file? place = some file) :
    tree.readText cwd path =
      match Utf8.decode? file.content with
      | some text => .ok text
      | none => .error .notUtf8 := by
  have content : tree.readFile cwd path = .ok file.content := by
    simp only [readFile, located, holds, bind, Except.bind]
  rw [readText, content]
  rfl

/-- There is no text to read at a path that the system does not take. -/
theorem readText_of_refused {error : IoError} (refused : admissible path = .error error) :
    tree.readText cwd path = .error error := by
  simp only [readText, readFile, locate, refused, bind, Except.bind]

end FileTree

namespace ProjectError

/-- The path that an error is about. -/
def path : ProjectError → Path
  | unreadable path _ | malformed path _ _ | unfit path _ | invalid path _ | badPath path _
  | noDirectory path => path

/-- The same error about a path that is spelled in another way. -/
def respelled (path : Path) : ProjectError → ProjectError
  | unreadable _ error => unreadable path error
  | malformed _ line column => malformed path line column
  | unfit _ problem => unfit path problem
  | invalid _ problem => invalid path problem
  | badPath _ error => badPath path error
  | noDirectory _ => noDirectory path

theorem respelled_path (error : ProjectError) : error.respelled error.path = error := by
  cases error <;> rfl

end ProjectError

namespace Manifest

variable {tree : FileTree} {cwd place : Location} {path other : Path} {file : File}

theorem isName_fileName : IsName fileName := by
  decide

theorem short_fileName : Utf8.size fileName ≤ FileTree.nameLimit := by
  decide

/-- What a text describes depends on its path in nothing but the errors. -/
theorem ofText_respelled (path other : Path) (text : String) :
    ofText other text = (ofText path text).mapError (.respelled other) := by
  simp only [ofText]
  cases Toml.parse text with
  | error error => rfl
  | ok table =>
      cases decoded : Schema.decode table with
      | error problem => simp only [FileTree.mapError_ok, decoded, bind, Except.bind]; rfl
      | ok manifest =>
          simp only [FileTree.mapError_ok, decoded, bind, Except.bind]
          cases manifest.validate <;> rfl

/-- Two paths that lead to the same file give the same manifest or the same error. -/
theorem load_respelled (located : tree.locate cwd path = .ok place)
    {otherTree : FileTree} {otherCwd otherPlace : Location}
    (other_located : otherTree.locate otherCwd other = .ok otherPlace)
    (holds : tree.file? place = some file) (other_holds : otherTree.file? otherPlace = some file) :
    load otherTree otherCwd other = (load tree cwd path).mapError (.respelled other) := by
  rw [load, load, FileTree.readText_of_locate located holds,
    FileTree.readText_of_locate other_located other_holds]
  cases Utf8.decode? file.content with
  | none => rfl
  | some text =>
      simp only [FileTree.mapError_ok, bind, Except.bind]
      exact ofText_respelled path other text

/-- A manifest that is not loaded has no text, or its text is refused at one of three stages. -/
theorem load_error_cases {error : ProjectError} (refused : load tree cwd path = .error error) :
    (∃ problem, tree.readText cwd path = .error problem ∧ error = .unreadable path problem) ∨
      (∃ line column, error = .malformed path line column) ∨
      (∃ problem, error = .unfit path problem) ∨ ∃ problem, error = .invalid path problem := by
  rw [load, FileTree.bind_eq_error_iff] at refused
  obtain unreadable | ⟨text, -, refused⟩ := refused
  · obtain ⟨problem, unread, rfl⟩ := FileTree.mapError_eq_error_iff.mp unreadable
    exact .inl ⟨problem, unread, rfl⟩
  rw [ofText, FileTree.bind_eq_error_iff] at refused
  obtain malformed | ⟨table, -, refused⟩ := refused
  · obtain ⟨problem, -, rfl⟩ := FileTree.mapError_eq_error_iff.mp malformed
    exact .inr (.inl ⟨_, _, rfl⟩)
  rw [FileTree.bind_eq_error_iff] at refused
  obtain unfit | ⟨manifest, -, refused⟩ := refused
  · obtain ⟨problem, -, rfl⟩ := FileTree.mapError_eq_error_iff.mp unfit
    exact .inr (.inr (.inl ⟨problem, rfl⟩))
  rw [FileTree.bind_eq_error_iff] at refused
  obtain invalid | ⟨done, -, refused⟩ := refused
  · obtain ⟨problem, -, rfl⟩ := FileTree.mapError_eq_error_iff.mp invalid
    exact .inr (.inr (.inr ⟨problem, rfl⟩))
  · cases refused

/-- An error in the loading of a manifest is about the path of the manifest. -/
theorem path_of_load {error : ProjectError} (refused : load tree cwd path = .error error) :
    error.path = path := by
  obtain ⟨_, -, rfl⟩ | ⟨_, _, rfl⟩ | ⟨_, rfl⟩ | ⟨_, rfl⟩ := load_error_cases refused <;> rfl

/-- A file that is found is not refused for what its path leads to. -/
theorem load_ne_unreadable {error : IoError} (located : tree.locate cwd path = .ok place)
    (holds : tree.file? place = some file) (other_error : error ≠ .notUtf8) (spelling : Path) :
    load tree cwd path ≠ .error (.unreadable spelling error) := by
  intro refused
  obtain ⟨problem, unread, same⟩ | ⟨_, _, same⟩ | ⟨_, same⟩ | ⟨_, same⟩ := load_error_cases refused
  · obtain ⟨-, rfl⟩ := ProjectError.unreadable.inj same
    rw [FileTree.readText_of_locate located holds] at unread
    split at unread
    · cases unread
    · exact other_error (Except.error.inj unread).symm
  all_goals cases same

end Manifest

/-! ## Spellings of the path of a file in the current directory -/

section Spelling

variable {here there : World} {path absolute : Path} {name : String} {file : File}

/-- The steps to a file in the current directory are the names on the way to it. -/
theorem filter_front_of_sameComponents (names : ∀ name ∈ here.cwd, IsName name)
    (is_name : IsName name) (same : absolute.sameComponents (here.cwdPath.join name) = true) :
    (absolute.front.filter fun segment => !Path.isTrivial segment) = here.cwd ++ [name] := by
  have inner_eq : absolute.inner = (here.cwdPath.join name).inner := by
    rw [Path.inner, Path.inner, eq_of_beq same]
  have all_names : ∀ segment ∈ here.cwd ++ [name], IsName segment :=
    List.forall_mem_append.mpr ⟨names, List.forall_mem_singleton.mpr is_name⟩
  have kept : ∀ segment ∈ here.cwd ++ [name], (!Path.isTrivial segment) = true :=
    fun segment member => by rw [(all_names segment member).2.1, Bool.not_false]
  rw [← Path.map_componentText_inner, inner_eq, Path.map_componentText_inner,
    Path.front_join_name _ is_name, World.front_cwdPath names, List.cons_append,
    List.filter_cons_of_neg (by decide), List.filter_eq_self.mpr kept]

/-- A path made absolute is its root, and steps none of which is trivial. -/
theorem exists_steps (names : ∀ name ∈ there.cwd, IsName name)
    (spelled : Path.absoluteFrom there.cwdPath path = .ok absolute) :
    ∃ steps, absolute.front = path.rootSegments ++ steps ∧
      ∀ step ∈ steps, (!Path.isTrivial step) = true := by
  cases rooted : path.isAbsolute with
  | true =>
      exact ⟨_, Path.front_absoluteFrom rooted spelled,
        fun step member => (List.mem_filter.mp member).2⟩
  | false =>
      refine ⟨there.cwd ++ path.front.filter fun segment => !Path.isTrivial segment, ?_, ?_⟩
      · rw [Path.front_absoluteFrom_of_relative rooted spelled, World.front_cwdPath names,
          Path.rootSegments, Path.hasDoubleRoot_of_relative rooted]
        rfl
      · intro step member
        rcases List.mem_append.mp member with above | later
        · simp [(names step above).2.1]
        · exact (List.mem_filter.mp later).2

/-- A path that names something below the root leads there. -/
theorem place_of_filter_front {steps : List String} (all_names : ∀ step ∈ steps, IsName step)
    (rooted : absolute.isAbsolute = true)
    (cut : (absolute.front.filter fun segment => !Path.isTrivial segment) = steps) :
    absolute.place [] = steps := by
  rw [Path.place, FileTree.origin, rooted, if_pos rfl, ← Path.foldl_enter_filter,
    ← Path.filter_front, cut, Path.foldl_enter_names all_names, List.nil_append]

/-- Where the spelling of a path has led to when only separators are left. -/
theorem walk_spelled (placed : here.IsPlaced) (is_name : IsName name)
    (short : Utf8.size name ≤ FileTree.nameLimit)
    (holds : here.tree.file? (here.cwd ++ [name]) = some file) :
    here.tree.walk [] (path.rootSegments ++ (here.cwd ++ [name])) = .ok (here.cwd ++ [name]) := by
  have present := (FileTree.file?_eq_some_iff _).mp holds
  have stepped : here.tree.step here.cwd name = .ok (here.cwd ++ [name]) :=
    FileTree.step_eq_ok_iff.mpr ⟨placed.directories here.cwd List.prefix_rfl,
      (Path.enter_of_bodyComponent is_name.bodyComponent _).symm,
      fun _ => ⟨short, by simp [present]⟩⟩
  rw [FileTree.walk_append_eq_ok_iff]
  refine ⟨[], FileTree.walk_trivial (placed.directories [] List.nil_prefix)
    (Path.rootSegments_trivial path), ?_⟩
  rw [FileTree.walk_append_eq_ok_iff]
  exact ⟨here.cwd, placed.walk_cwd, FileTree.walk_cons_eq_ok_iff.mpr ⟨_, stepped, rfl⟩⟩

/-- A path that is read in some spelling is read as it is written most simply. -/
theorem admissible_of_spelled (placed : here.IsPlaced) (is_name : IsName name)
    (same : absolute.sameComponents (here.cwdPath.join name) = true)
    (rooted : absolute.isAbsolute = true)
    (read : FileTree.admissible absolute = .ok ()) :
    FileTree.admissible (here.cwdPath.join name) = .ok () := by
  refine Path.admissible_of_sublist ?_ (Path.text_join_name_ne_empty _ is_name) read
  obtain ⟨rest, front_eq⟩ := Path.front_of_isAbsolute rooted
  have cut := filter_front_of_sameComponents placed.names is_name same
  rw [front_eq, List.filter_append, Path.filter_rootSegments, List.nil_append] at cut
  have root_first : [""].Sublist absolute.rootSegments := by
    rw [Path.rootSegments]
    split <;> decide
  rw [Path.segments_join_name _ is_name, World.front_cwdPath placed.names, List.cons_append, ← cut]
  refine List.Sublist.trans ?_ (Path.front_begins absolute).sublist
  rw [front_eq]
  exact root_first.append List.filter_sublist

section File

variable (placed : here.IsPlaced) (elsewhere : there.IsPlaced) (same_tree : there.tree = here.tree)
  (is_name : IsName name) (holds : here.tree.file? (here.cwd ++ [name]) = some file)
  (spelled : Path.absoluteFrom there.cwdPath path = .ok absolute)
  (same : absolute.sameComponents (here.cwdPath.join name) = true)

include placed elsewhere same_tree is_name holds spelled same

/-- A spelling of the path of a file in the current directory, segment by segment. -/
theorem segments_of_spelled :
    absolute.segments = path.rootSegments ++ (here.cwd ++ [name]) ++
      if path.endsInSeparator then [""] else [] := by
  have cut := filter_front_of_sameComponents placed.names is_name same
  have all_names : ∀ step ∈ here.cwd ++ [name], IsName step :=
    List.forall_mem_append.mpr ⟨placed.names, List.forall_mem_singleton.mpr is_name⟩
  -- A path without components stays where it is taken, and there is no file there.
  have goes_on : path.inner ≠ [] := by
    intro stays
    obtain ⟨rooted, place_eq⟩ := Path.absoluteFrom_spec there.isAbsolute_cwdPath
      (World.place_cwdPath elsewhere.names).2 spelled
    rw [place_of_filter_front all_names rooted cut, Path.place, ← Path.foldl_follow_filterMap,
      ← Path.inner_eq, stays, List.foldl_nil, FileTree.origin] at place_eq
    split at place_eq
    · simp at place_eq
    · have here_too := elsewhere.directories there.cwd List.prefix_rfl
      rw [same_tree, ← place_eq, FileTree.isDirectory_iff,
        (FileTree.file?_eq_some_iff _).mp holds] at here_too
      simp at here_too
  obtain ⟨steps, front_eq, kept⟩ := exists_steps elsewhere.names spelled
  rw [front_eq, List.filter_append, Path.filter_rootSegments, List.nil_append,
    List.filter_eq_self.mpr kept] at cut
  rw [Path.segments_absoluteFrom goes_on spelled, front_eq, cut]

/-- With one separator in front and none at the end, the spelling is the simplest one. -/
theorem eq_join_of_spelled (closed : path.endsInSeparator = false)
    (single : path.hasDoubleRoot = false) : absolute = here.cwdPath.join name := by
  apply Path.eq_of_segments
  rw [segments_of_spelled placed elsewhere same_tree is_name holds spelled same, closed,
    Path.rootSegments, single, Path.segments_join_name _ is_name, World.front_cwdPath placed.names]
  simp

/-- Every spelling without a separator at the end leads to the file; a file has nothing below it. -/
theorem locate_spelled (short : Utf8.size name ≤ FileTree.nameLimit)
    (read : FileTree.admissible absolute = .ok ()) :
    here.tree.locate there.cwd absolute =
      if path.endsInSeparator then .error (.system .notDirectory)
      else .ok (here.cwd ++ [name]) := by
  have rooted := Path.isAbsolute_absoluteFrom there.isAbsolute_cwdPath spelled
  have walked := @walk_spelled here path name file placed is_name short holds
  have not_directory : here.tree.isDirectory (here.cwd ++ [name]) = false := by
    simp [FileTree.isDirectory, (FileTree.file?_eq_some_iff _).mp holds]
  rw [FileTree.locate, read, FileTree.origin, if_pos rooted,
    segments_of_spelled placed elsewhere same_tree is_name holds spelled same,
    FileTree.walk_append, walked]
  split
  · simp only [Except.bind, FileTree.walk, FileTree.step_of_not_directory not_directory]
    rfl
  · rfl

end File

end Spelling

namespace Project

variable {here there : World} {path absolute : Path} {file : File}

/-- Two answers to the search for a project that differ at most in how paths are spelled. -/
inductive SameAnswer : Except ProjectError Project → Except ProjectError Project → Prop
  | found {left right : Project} (root : left.root.sameComponents right.root = true)
      (manifest : left.manifest = right.manifest) : SameAnswer (.ok left) (.ok right)
  | failed {error : ProjectError} {spelling : Path}
      (same : spelling.sameComponents error.path = true) :
      SameAnswer (.error (error.respelled spelling)) (.error error)

/-- What agrees with an answer that a file cannot be read is such an answer for the same reason. -/
theorem SameAnswer.unreadable {answer : Except ProjectError Project} {spelling : Path}
    {error : IoError} (agree : SameAnswer (.error (.unreadable spelling error)) answer) :
    ∃ other, answer = .error (.unreadable other error) := by
  generalize refusal : Except.error (ProjectError.unreadable spelling error) = left at agree
  cases agree with
  | found => simp at refusal
  | @failed problem =>
      cases problem with
      | unreadable other reason =>
          have same_problem := Except.error.inj refusal
          rw [ProjectError.respelled, ProjectError.unreadable.injEq] at same_problem
          exact ⟨other, by rw [same_problem.2]⟩
      | _ => simp [ProjectError.respelled] at refusal

theorem discover_inside (placed : here.IsPlaced)
    (holds : here.tree.file? (here.cwd ++ [Manifest.fileName]) = some file)
    (read : FileTree.admissible (here.cwdPath.join Manifest.fileName) = .ok ()) :
    (discover none here).1 =
      (Manifest.load here.tree here.cwd (here.cwdPath.join Manifest.fileName)).map
        (Project.mk here.cwdPath) := by
  have found := (placed.isFileAt_join_iff Manifest.isName_fileName Manifest.short_fileName).mpr
    ⟨read, file, holds⟩
  simp only [discover, inDirectory, Manifest.discover, found, if_true]

/-- Without a file that the system finds, the default manifest is taken. -/
theorem discover_overlooked (placed : here.IsPlaced)
    (unread : FileTree.admissible (here.cwdPath.join Manifest.fileName) ≠ .ok ()) :
    discover none here =
      (.ok ⟨here.cwdPath, .default⟩,
        here.debug ("no " ++ Manifest.fileName ++ " in " ++ here.cwdPath.text ++
          ", using defaults")) := by
  have unseen : here.tree.isFileAt here.cwd (here.cwdPath.join Manifest.fileName) = false := by
    rw [← Bool.not_eq_true,
      placed.isFileAt_join_iff Manifest.isName_fileName Manifest.short_fileName]
    exact fun found => unread found.1
  simp only [discover, inDirectory, Manifest.discover, unseen]
  rfl

theorem root_of_map {answer : Except ProjectError Manifest} {root : Path} {project : Project}
    (found : answer.map (Project.mk root) = .ok project) : project.root = root := by
  cases answer with
  | error error => simp [Except.map] at found
  | ok manifest => exact congrArg Project.root (Except.ok.inj found).symm

/-- A path with the components of a file in the current directory has that directory for parent. -/
theorem parent_of_sameComponents {name : String} (is_name : IsName name)
    (rooted : absolute.isAbsolute = true)
    (same : absolute.sameComponents (here.cwdPath.join name) = true) :
    absolute.parent? = some absolute.directory ∧ absolute.directory.isAbsolute = true ∧
      absolute.directory.sameComponents here.cwdPath = true := by
  have components_eq : absolute.components = here.cwdPath.components ++ [.name name] :=
    (eq_of_beq same).trans (Path.components_join_name here.isAbsolute_cwdPath is_name)
  have last : absolute.fileName? = some name := by
    rw [Path.fileName?, components_eq, List.getLast?_concat]
  obtain ⟨directory_absolute, cut⟩ := Path.components_directory rooted last
  refine ⟨Path.parent?_of_fileName last, directory_absolute, ?_⟩
  rw [components_eq] at cut
  rw [Path.sameComponents, List.append_cancel_right cut, beq_self_eq_true]

/-- A project that is found from the current directory has it for its root. -/
theorem root_of_discover_none {project : Project} (found : (discover none here).1 = .ok project) :
    project.root = here.cwdPath := by
  simp only [discover, inDirectory] at found
  exact root_of_map found

/-- A project that is found by the path of its manifest has the directory above it for its root. -/
theorem root_of_discover_some {project : Project}
    (spelled : Path.absoluteFrom there.cwdPath path = .ok absolute)
    (parent : absolute.parent? = some absolute.directory)
    (found : (discover (some path) there).1 = .ok project) :
    project.root = absolute.directory := by
  simp only [discover, ofManifest, spelled, parent, FileTree.mapError_ok, bind,
    Except.bind] at found
  cases loaded : Manifest.load there.tree there.cwd absolute with
  | error error => simp [loaded] at found
  | ok manifest =>
      simp only [loaded] at found
      rw [← Except.ok.inj found]

/-- A path that the system does not take is refused. -/
theorem discover_refused {error : IoError}
    (spelled : Path.absoluteFrom there.cwdPath path = .ok absolute)
    (refused : FileTree.admissible absolute = .error error) :
    (discover (some path) there).1 = .error (.unreadable absolute error) := by
  simp only [discover, ofManifest, spelled, Manifest.load, FileTree.readText_of_refused refused,
    FileTree.mapError_ok, FileTree.mapError_error, bind, Except.bind]

section Spelled

variable (placed : here.IsPlaced) (elsewhere : there.IsPlaced) (same_tree : there.tree = here.tree)
  (holds : here.tree.file? (here.cwd ++ [Manifest.fileName]) = some file)
  (spelled : Path.absoluteFrom there.cwdPath path = .ok absolute)
  (same : absolute.sameComponents (here.cwdPath.join Manifest.fileName) = true)

include placed elsewhere same_tree holds spelled same

/-- Behind a separator there is nothing to read. -/
theorem discover_separated (read : FileTree.admissible absolute = .ok ())
    (separated : path.endsInSeparator = true) :
    (discover (some path) there).1 =
      .error (.unreadable absolute (.system .notDirectory)) := by
  have located := locate_spelled placed elsewhere same_tree Manifest.isName_fileName
    holds spelled same Manifest.short_fileName read
  rw [separated, if_pos rfl, ← same_tree] at located
  simp only [discover, ofManifest, spelled, Manifest.load, FileTree.readText, FileTree.readFile,
    located, FileTree.mapError_ok, FileTree.mapError_error, bind, Except.bind]

/-- Otherwise the manifest is read, and its errors show the path as it is spelled. -/
theorem discover_spelled (read : FileTree.admissible absolute = .ok ())
    (closed : path.endsInSeparator = false) :
    (discover (some path) there).1 =
      ((Manifest.load here.tree here.cwd (here.cwdPath.join Manifest.fileName)).mapError
        (.respelled absolute)).map (Project.mk absolute.directory) := by
  have rooted := Path.isAbsolute_absoluteFrom there.isAbsolute_cwdPath spelled
  have simple := admissible_of_spelled placed Manifest.isName_fileName same rooted read
  have other_located := locate_spelled placed elsewhere same_tree Manifest.isName_fileName
    holds spelled same Manifest.short_fileName read
  rw [closed, if_neg (by simp), ← same_tree] at other_located
  have located := placed.locate_join Manifest.isName_fileName Manifest.short_fileName simple holds
  have loaded := Manifest.load_respelled located other_located holds (same_tree ▸ holds)
  simp only [discover, ofManifest, spelled, FileTree.mapError_ok, bind, Except.bind, loaded,
    (parent_of_sameComponents Manifest.isName_fileName rooted same).1]
  cases Manifest.load here.tree here.cwd (here.cwdPath.join Manifest.fileName) <;> rfl

/-- The two ways part exactly at a separator. -/
theorem sameAnswer_iff (read : FileTree.admissible absolute = .ok ()) :
    SameAnswer (discover (some path) there).1 (discover none here).1 ↔
      path.endsInSeparator = false := by
  have rooted := Path.isAbsolute_absoluteFrom there.isAbsolute_cwdPath spelled
  have simple := admissible_of_spelled placed Manifest.isName_fileName same rooted read
  obtain ⟨-, -, same_root⟩ := parent_of_sameComponents Manifest.isName_fileName rooted same
  rw [discover_inside placed holds simple]
  constructor
  · intro agree
    by_contra separated
    rw [discover_separated placed elsewhere same_tree holds spelled same read
      (by simpa using separated)] at agree
    obtain ⟨other, refused⟩ := agree.unreadable
    have refusal : Manifest.load here.tree here.cwd (here.cwdPath.join Manifest.fileName) =
        .error (.unreadable other (.system .notDirectory)) := by
      cases loaded : Manifest.load here.tree here.cwd (here.cwdPath.join Manifest.fileName) with
      | ok manifest => simp [loaded, Except.map] at refused
      | error error =>
          rw [loaded] at refused
          rw [Except.error.inj refused]
    exact Manifest.load_ne_unreadable (placed.locate_join Manifest.isName_fileName
      Manifest.short_fileName simple holds) holds (by decide) other refusal
  · intro closed
    rw [discover_spelled placed elsewhere same_tree holds spelled same read closed]
    cases loaded : Manifest.load here.tree here.cwd (here.cwdPath.join Manifest.fileName) with
    | ok manifest => exact .found same_root rfl
    | error error =>
        refine .failed ?_
        rw [Manifest.path_of_load loaded]
        exact same

/-- With one separator in front and none at the end, both ways give the same answer. -/
theorem discover_eq_of_closed (read : FileTree.admissible absolute = .ok ())
    (closed : path.endsInSeparator = false) (single : path.hasDoubleRoot = false) :
    (discover (some path) there).1 = (discover none here).1 := by
  have rooted := Path.isAbsolute_absoluteFrom there.isAbsolute_cwdPath spelled
  have simple := admissible_of_spelled placed Manifest.isName_fileName same rooted read
  have simplest := eq_join_of_spelled placed elsewhere same_tree Manifest.isName_fileName holds
    spelled same closed single
  have parent : absolute.directory = here.cwdPath := by
    have names_parent := Path.parent?_join_names placed.names Manifest.isName_fileName
    rw [← World.cwdPath, ← simplest, (parent_of_sameComponents Manifest.isName_fileName rooted
      same).1] at names_parent
    exact Option.some.inj names_parent
  rw [discover_inside placed holds simple,
    discover_spelled placed elsewhere same_tree holds spelled same read closed, parent]
  cases loaded : Manifest.load here.tree here.cwd (here.cwdPath.join Manifest.fileName) with
  | ok manifest => rfl
  | error error =>
      rw [FileTree.mapError_error, simplest, ← Manifest.path_of_load loaded, error.respelled_path]

/--
A project that is found by the path of its manifest, from wherever the path is taken, is the one
that is found in the directory of the manifest; and where one way fails, the other fails with the
same error.  The exception is a path that ends in a separator, which is refused.  The spelling of
the path shows in the root and in errors only if it has two separators in front.

A path that the system does not take is refused too.  From the directory the manifest is loaded if
the system takes its path there, and passed over if not.  Both roots are absolute.  Whatever the
output directory is set to, the build of either project installs into the output directory of the
project.
-/
theorem discover_agrees_iff :
    (FileTree.admissible absolute = .ok () →
      (SameAnswer (discover (some path) there).1 (discover none here).1 ↔
        path.endsInSeparator = false) ∧
      (path.endsInSeparator = false → path.hasDoubleRoot = false →
        (discover (some path) there).1 = (discover none here).1)) ∧
    (∀ error, FileTree.admissible absolute = .error error →
      (discover (some path) there).1 = .error (.unreadable absolute error)) ∧
    (FileTree.admissible (here.cwdPath.join Manifest.fileName) = .ok () →
      (discover none here).1 =
        (Manifest.load here.tree here.cwd (here.cwdPath.join Manifest.fileName)).map
          (Project.mk here.cwdPath)) ∧
    (FileTree.admissible (here.cwdPath.join Manifest.fileName) ≠ .ok () →
      (discover none here).1 = .ok ⟨here.cwdPath, .default⟩) ∧
    ∀ project, (discover (some path) there).1 = .ok project ∨ (discover none here).1 = .ok project →
      project.root.sameComponents here.cwdPath = true ∧ project.root.isAbsolute = true ∧
        ∀ tool outDir runner platform,
          ((project.adjusted tool outDir).toBuild runner platform).outDir =
            (project.adjusted tool outDir).outDir := by
  have rooted := Path.isAbsolute_absoluteFrom there.isAbsolute_cwdPath spelled
  obtain ⟨cut, root_absolute, same_root⟩ :=
    parent_of_sameComponents Manifest.isName_fileName rooted same
  have installs : ∀ project : Project, project.root.isAbsolute = true →
      ∀ tool outDir runner platform,
        ((project.adjusted tool outDir).toBuild runner platform).outDir =
          (project.adjusted tool outDir).outDir := by
    intro project absolute tool outDir runner platform
    apply outDir_toBuild
    rw [root_adjusted]
    exact absolute
  refine ⟨fun read => ⟨sameAnswer_iff placed elsewhere same_tree holds spelled same read,
      discover_eq_of_closed placed elsewhere same_tree holds spelled same read⟩,
    fun error => discover_refused spelled, discover_inside placed holds,
    fun unread => congrArg Prod.fst (discover_overlooked placed unread), ?_⟩
  rintro project (found | found)
  · rw [← root_of_discover_some spelled cut found] at same_root root_absolute
    exact ⟨same_root, root_absolute, installs project root_absolute⟩
  · have here_absolute := here.isAbsolute_cwdPath
    rw [← root_of_discover_none found] at here_absolute ⊢
    exact ⟨beq_self_eq_true _, here_absolute, installs project here_absolute⟩

end Spelled

/-- A project in `/p` whose manifest sets a dotted output directory. -/
def dotted : World :=
  .inside ["p"] "Kiln.toml" (Utf8.encode "[build]\nout-dir = \"./out//\"\n")

theorem isPlaced_dotted : dotted.IsPlaced :=
  World.isPlaced_inside (by decide) (by decide) _ _

/-- The manifest is spelled with dots from the root, and its project is the one in `/p`. -/
theorem dotted_manifest_is_discovered :
    Path.absoluteFrom ⟨"/"⟩ ⟨".//p/./Kiln.toml"⟩ = .ok ⟨"/p/Kiln.toml"⟩ ∧
      (discover (some ⟨".//p/./Kiln.toml"⟩) { dotted with cwd := [] }).1 =
        (discover none dotted).1 ∧
      (discover none dotted).1.toOption.map Project.outDir = some ⟨"/p/./out//"⟩ := by
  have elsewhere : World.IsPlaced { dotted with cwd := [] } :=
    ⟨by simp, by simp,
      fun place begins => by simp [List.prefix_nil.mp begins, FileTree.isDirectory]⟩
  have spelled : Path.absoluteFrom ⟨"/"⟩ ⟨".//p/./Kiln.toml"⟩ = .ok ⟨"/p/Kiln.toml"⟩ := by
    decide +kernel
  have agrees := discover_agrees_iff isPlaced_dotted elsewhere rfl (World.file?_inside _ _ _)
    spelled (by decide +kernel)
  exact ⟨spelled, (agrees.1 (by decide +kernel)).2 (by decide +kernel) (by decide +kernel),
    by decide +kernel⟩

/-- With a separator behind it, the same manifest is found from its directory only. -/
theorem separated_manifest_is_refused :
    dotted.tree.file? ["p", "Kiln.toml"] ≠ none ∧
      Path.absoluteFrom dotted.cwdPath ⟨"Kiln.toml/"⟩ = .ok ⟨"/p/Kiln.toml/"⟩ ∧
      (Path.mk "/p/Kiln.toml/").sameComponents ⟨"/p/Kiln.toml"⟩ = true ∧
      (discover none dotted).1.toOption.map Project.root = some ⟨"/p"⟩ ∧
      (discover (some ⟨"Kiln.toml/"⟩) dotted).1.mapError ProjectError.message =
        .error "failed to read file: /p/Kiln.toml/: Not a directory (os error 20)" ∧
      ¬ SameAnswer (discover (some ⟨"Kiln.toml/"⟩) dotted).1 (discover none dotted).1 := by
  have spelled : Path.absoluteFrom dotted.cwdPath ⟨"Kiln.toml/"⟩ = .ok ⟨"/p/Kiln.toml/"⟩ := by
    decide +kernel
  refine ⟨by decide +kernel, spelled, by decide +kernel, by decide +kernel, by decide +kernel, ?_⟩
  rw [sameAnswer_iff isPlaced_dotted isPlaced_dotted rfl (World.file?_inside _ _ _) spelled
    (by decide +kernel) (by decide +kernel)]
  decide

end Project
end StagedBuild
