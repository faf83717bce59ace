import StagedBuild.Proofs.FileTree.Walk

/-!
# Looking paths up

A path that is looked up successfully leads to its place.  A path whose last segment is looked up
apart lies directly inside the directory that is found, and for a joined name that directory is the
one that the first part leads to.
-/

namespace StagedBuild
namespace FileTree

open StagedBuild.Path (IsName)

variable {tree : FileTree} {cwd : Location} {path : Path}

theorem mapError_ok {α β γ : Type} (change : α → β) (value : γ) :
    (Except.ok value).mapError change = .ok value := rfl

theorem mapError_error {α β γ : Type} (change : α → β) (error : α) :
    (Except.error error : Except α γ).mapError change = .error (change error) := rfl

theorem mapError_eq_error_iff {α β γ : Type} {computed : Except α γ} {change : α → β} {result : β} :
    computed.mapError change = .error result ↔
      ∃ error, computed = .error error ∧ change error = result := by
  cases computed with
  | error error => simp [mapError_error]
  | ok value => simp [mapError_ok]

theorem locate_eq_ok_iff {place : Location} :
    tree.locate cwd path = .ok place ↔
      admissible path = .ok () ∧ tree.walk (origin cwd path) path.segments = .ok place := by
  rw [locate]
  cases admissible path with
  | error error => simp [bind, Except.bind]
  | ok checked =>
      cases tree.walk (origin cwd path) path.segments with
      | error errno => simp [bind, Except.bind, mapError_error]
      | ok last => simp [bind, Except.bind, mapError_ok]

/-- A path leads nowhere but to its place. -/
theorem place_of_locate {place : Location} (located : tree.locate cwd path = .ok place) :
    place = path.place cwd :=
  walk_eq_enter (locate_eq_ok_iff.mp located).2

theorem isFileAt_iff :
    tree.isFileAt cwd path = true ↔
      tree.locate cwd path = .ok (path.place cwd) ∧
        ∃ file, tree.file? (path.place cwd) = some file := by
  rw [isFileAt]
  cases located : tree.locate cwd path with
  | error error => simp
  | ok place =>
      obtain rfl := place_of_locate located
      simp [Option.isSome_iff_exists]

theorem isDirectoryAt_iff :
    tree.isDirectoryAt cwd path = true ↔
      tree.locate cwd path = .ok (path.place cwd) ∧
        tree.isDirectory (path.place cwd) = true := by
  rw [isDirectoryAt]
  cases located : tree.locate cwd path with
  | error error => simp
  | ok place =>
      obtain rfl := place_of_locate located
      simp

theorem locateLast_eq_ok_iff {directory : Location} {last : Last} :
    tree.locateLast cwd path = .ok (directory, last) ↔
      admissible path = .ok () ∧
        tree.walk (origin cwd path) (splitLast path).1 = .ok directory ∧
        (splitLast path).2 = last ∧ tree.isDirectory directory = true := by
  rw [locateLast]
  cases admissible path with
  | error error => simp [bind, Except.bind]
  | ok checked =>
      cases walked : tree.walk (origin cwd path) (splitLast path).1 with
      | error errno => simp [bind, Except.bind, walked, mapError_error]
      | ok place =>
          by_cases found : tree.isDirectory place = true
          · simp only [bind, Except.bind, walked, mapError_ok, found, if_true, Except.ok.injEq,
              Prod.mk.injEq, true_and]
            constructor
            · rintro ⟨rfl, rfl⟩
              exact ⟨rfl, rfl, found⟩
            · rintro ⟨rfl, rfl, -⟩
              exact ⟨rfl, rfl⟩
          · simp only [bind, Except.bind, walked, mapError_ok, found]
            constructor
            · simp
            · rintro ⟨-, place_eq, -, directory_found⟩
              obtain rfl := Except.ok.inj place_eq
              exact absurd directory_found found

/-- The segments around a last segment that is a name. -/
theorem segments_of_splitLast {before : List String} {segment : String} {separated : Bool}
    (split : splitLast path = (before, .name segment separated)) :
    IsName segment ∧ ∃ blanks, path.segments = before ++ segment :: blanks ∧
      ∀ blank ∈ blanks, blank = "" := by
  rw [splitLast] at split
  have reassembled := List.takeWhile_append_dropWhile (p := (· == "")) (l := path.segments.reverse)
  cases kept : path.segments.reverse.dropWhile (· == "") with
  | nil => simp [kept] at split
  | cons last front =>
      have nonblank : last ≠ "" := by
        have first := List.head_dropWhile_not (· == "") (l := path.segments.reverse) (by simp [kept])
        simpa [kept] using first
      have segments_eq : path.segments = front.reverse ++ last ::
          (path.segments.reverse.takeWhile (· == "")).reverse := by
        rw [kept] at reassembled
        simpa using (congrArg List.reverse reassembled).symm
      simp only [kept, Prod.mk.injEq] at split
      obtain ⟨rfl, last_eq⟩ := split
      split at last_eq
      · simp at last_eq
      · rename_i not_dot
        split at last_eq
        · simp at last_eq
        · rename_i not_above
          obtain ⟨rfl, -⟩ : last = segment ∧ _ := by simpa using last_eq
          refine ⟨⟨?_, ?_, by simpa using not_above⟩, _, segments_eq, ?_⟩
          · have whole : last ∈ path.segments := by
              rw [segments_eq]
              simp
            exact Path.separator_not_mem_of_mem_segments whole
          · simpa [Path.isTrivial, nonblank] using not_dot
          · intro blank member
            simpa using List.all_eq_true.mp List.all_takeWhile blank (List.mem_reverse.mp member)

/-- A path that ends in a name lies directly inside the directory that is found for it. -/
theorem place_of_locateLast {directory : Location} {segment : String} {separated : Bool}
    (located : tree.locateLast cwd path = .ok (directory, .name segment separated)) :
    path.place cwd = directory ++ [segment] ∧ IsName segment ∧
      tree.isDirectory directory = true := by
  obtain ⟨-, walked, last_eq, found⟩ := locateLast_eq_ok_iff.mp located
  obtain ⟨is_name, blanks, segments_eq, blank⟩ :=
    @segments_of_splitLast path _ _ _ (Prod.ext rfl last_eq)
  refine ⟨?_, is_name, found⟩
  rw [Path.place, segments_eq, List.foldl_append, List.foldl_cons, ← walk_eq_enter walked,
    Path.enter_of_bodyComponent is_name.bodyComponent, Path.foldl_enter_of_isTrivial]
  intro other member
  simp [blank other member, Path.isTrivial]

/-- The path leads through directories to a directory. -/
def Opens (tree : FileTree) (cwd : Location) (path : Path) : Prop :=
  tree.walk (origin cwd path) path.segments = .ok (path.place cwd) ∧
    tree.isDirectory (path.place cwd) = true

theorem Opens.mono {other : FileTree} (opens : tree.Opens cwd path)
    (kept : ∀ place, tree.isDirectory place = true → other.isDirectory place = true) :
    other.Opens cwd path :=
  ⟨walk_of_directories kept opens.1 opens.2, kept _ opens.2⟩

theorem isDirectoryAt_iff_opens :
    tree.isDirectoryAt cwd path = true ↔ admissible path = .ok () ∧ tree.Opens cwd path := by
  rw [isDirectoryAt_iff, locate_eq_ok_iff, Opens, and_assoc]

/-- A directory is listed when the system takes its path and it opens. -/
theorem readDirectory_eq_ok_iff {names : List String} :
    tree.readDirectory cwd path = .ok names ↔
      admissible path = .ok () ∧ tree.Opens cwd path ∧ tree.names (path.place cwd) = names := by
  rw [← and_assoc, ← isDirectoryAt_iff_opens, isDirectoryAt_iff, readDirectory]
  cases located : tree.locate cwd path with
  | error error => simp [bind, Except.bind]
  | ok place =>
      obtain rfl := place_of_locate located
      cases directory : tree.isDirectory (path.place cwd) <;> simp [bind, Except.bind, directory]

/-- An open segment at the end of a path asks for a directory and nothing else. -/
theorem opens_of_front {place : Location}
    (walked : tree.walk (origin cwd path) path.front = .ok place)
    (directory : tree.isDirectory place = true) : place = path.place cwd ∧ tree.Opens cwd path := by
  have place_eq : place = path.place cwd := by
    rw [Path.place, ← Path.foldl_enter_front]
    exact walk_eq_enter walked
  rw [place_eq] at walked directory
  refine ⟨place_eq, ?_, directory⟩
  rcases Path.segments_eq_front path with cut | cut
  · rw [cut, walked]
  · rw [cut, walk_append_eq_ok_iff]
    exact ⟨_, walked, walk_trivial directory (by simp [Path.isTrivial])⟩

theorem Opens.walk_front (opens : tree.Opens cwd path) :
    tree.walk (origin cwd path) path.front = .ok (path.place cwd) := by
  obtain ⟨rest, cut⟩ := Path.front_begins path
  have walked := opens.1
  rw [← cut, walk_append_eq_ok_iff] at walked
  obtain ⟨middle, front_walked, -⟩ := walked
  have middle_eq : middle = path.place cwd := by
    rw [Path.place, ← Path.foldl_enter_front]
    exact walk_eq_enter front_walked
  rw [front_walked, middle_eq]

theorem origin_join {other : String} (relative : (Path.mk other).isAbsolute = false) :
    origin cwd (path.join other) = origin cwd path := by
  rw [origin, Path.isAbsolute_join path relative, origin]

/-- Whatever is reached behind a joined path is reached through its first part. -/
theorem opens_of_walk_join {other : String} {last : Location}
    (relative : (Path.mk other).isAbsolute = false)
    (walked : tree.walk (origin cwd (path.join other)) (path.join other).segments = .ok last) :
    tree.Opens cwd path := by
  rw [Path.segments_join path relative, origin_join relative, walk_append_eq_ok_iff] at walked
  obtain ⟨middle, front_walked, rest⟩ := walked
  exact (opens_of_front front_walked (isDirectory_of_walk rest (Path.segments_ne_nil _))).2

theorem splitLast_join_name (path : Path) {name : String} (is_name : IsName name) :
    splitLast (path.join name) = (path.front, .name name false) := by
  have not_dot : name ≠ "." := by
    rintro rfl
    simp [IsName, Path.isTrivial] at is_name
  rw [splitLast, Path.segments_join_name path is_name, List.reverse_concat,
    List.dropWhile_cons_of_neg (by simpa using is_name.ne_empty)]
  simp [not_dot, is_name.2.2, Path.endsInSeparator_join_name path is_name]

/-- A joined name is looked up in the directory that the first part leads to. -/
theorem locateLast_join_name_iff {name : String} (is_name : IsName name) {directory : Location}
    {last : Last} :
    tree.locateLast cwd (path.join name) = .ok (directory, last) ↔
      admissible (path.join name) = .ok () ∧ tree.Opens cwd path ∧
        directory = path.place cwd ∧ last = .name name false := by
  rw [locateLast_eq_ok_iff, splitLast_join_name path is_name, origin_join is_name.not_isAbsolute]
  constructor
  · rintro ⟨read, walked, last_eq, found⟩
    obtain ⟨directory_eq, opens⟩ := opens_of_front walked found
    exact ⟨read, opens, directory_eq, last_eq.symm⟩
  · rintro ⟨read, opens, rfl, rfl⟩
    exact ⟨read, opens.walk_front, rfl, opens.2⟩

/-- A joined name is found when its directory opens and holds an entry of that name. -/
theorem locate_join_name_iff {name : String} (is_name : IsName name) {place : Location} :
    tree.locate cwd (path.join name) = .ok place ↔
      admissible (path.join name) = .ok () ∧ tree.Opens cwd path ∧
        Utf8.size name ≤ nameLimit ∧ place = path.place cwd ++ [name] ∧
        (tree.entry? place).isSome = true := by
  have relative := is_name.not_isAbsolute
  rw [locate_eq_ok_iff, Path.segments_join_name path is_name, origin_join relative,
    walk_append_eq_ok_iff]
  constructor
  · rintro ⟨read, middle, walked, rest⟩
    obtain ⟨next, stepped, ended⟩ := walk_cons_eq_ok_iff.mp rest
    obtain rfl := Except.ok.inj ended
    obtain ⟨directory, next_eq, named⟩ := step_eq_ok_iff.mp stepped
    obtain ⟨middle_eq, opens⟩ := opens_of_front walked directory
    obtain ⟨short, found⟩ := named is_name.bodyComponent
    rw [Path.enter_of_bodyComponent is_name.bodyComponent, middle_eq] at next_eq
    exact ⟨read, opens, short, next_eq, found⟩
  · rintro ⟨read, opens, short, rfl, found⟩
    refine ⟨read, _, opens.walk_front, walk_cons_eq_ok_iff.mpr
      ⟨_, step_eq_ok_iff.mpr ⟨opens.2, ?_, fun _ => ⟨short, found⟩⟩, rfl⟩⟩
    exact (Path.enter_of_bodyComponent is_name.bodyComponent _).symm

theorem isFileAt_join_name_iff {name : String} (is_name : IsName name) :
    tree.isFileAt cwd (path.join name) = true ↔
      admissible (path.join name) = .ok () ∧ tree.Opens cwd path ∧ Utf8.size name ≤ nameLimit ∧
        ∃ file, tree.file? (path.place cwd ++ [name]) = some file := by
  rw [isFileAt_iff, locate_join_name_iff is_name, Path.place_join_name path is_name]
  constructor
  · rintro ⟨⟨read, opens, short, -, -⟩, found⟩
    exact ⟨read, opens, short, found⟩
  · rintro ⟨read, opens, short, file, holds⟩
    rw [file?_eq_some_iff] at holds
    exact ⟨⟨read, opens, short, rfl, by rw [holds]; rfl⟩, file, (file?_eq_some_iff _).mpr holds⟩

/-- The directory that is cut off a joined name opens where the first part does. -/
theorem Opens.directory_join (opens : tree.Opens cwd path) {name : String}
    (is_name : IsName name) : tree.Opens cwd (path.join name).directory := by
  obtain ⟨front, gap, front_eq, kept, absolute⟩ := Path.segments_directory_join path is_name
  have origin_eq : origin cwd (path.join name).directory = origin cwd path := by
    rw [origin, absolute, origin]
  have walked := opens.walk_front
  rw [front_eq, walk_append_eq_ok_iff] at walked
  obtain ⟨middle, front_walked, rest⟩ := walked
  have middle_directory := isDirectory_start rest opens.2
  have directory_walked : tree.walk (origin cwd (path.join name).directory)
      (path.join name).directory.segments = .ok middle := by
    rw [origin_eq]
    rcases kept with kept | kept
    · rw [kept, front_walked]
    · rw [kept, walk_append_eq_ok_iff]
      exact ⟨middle, front_walked, walk_trivial middle_directory (by simp [Path.isTrivial])⟩
  have middle_eq : middle = (path.join name).directory.place cwd := walk_eq_enter directory_walked
  rw [middle_eq] at directory_walked middle_directory
  exact ⟨directory_walked, middle_directory⟩

/-- A plain name at which there is a file has nothing behind it. -/
theorem isName_of_isFileAt {text : String} (plain : Path.isPlainName text = true)
    (found : tree.isFileAt cwd (path.join text) = true) : IsName text := by
  obtain ⟨relative, name, rest, segments_eq, is_name, trivials⟩ :=
    Path.segments_of_isPlainName plain
  have text_eq : String.intercalate "/" (name :: rest) = text :=
    segments_eq ▸ Path.intercalate_segments (Path.mk text)
  rcases List.eq_nil_or_concat rest with rfl | ⟨init, last, rfl⟩
  · rw [String.intercalate_singleton] at text_eq
    exact text_eq ▸ is_name
  · obtain ⟨located, file, holds⟩ := isFileAt_iff.mp found
    have walked := (locate_eq_ok_iff.mp located).2
    rw [Path.segments_join path relative, segments_eq, List.concat_eq_append, ← List.cons_append,
      ← List.append_assoc, walk_append_eq_ok_iff] at walked
    obtain ⟨middle, -, ended⟩ := walked
    obtain ⟨next, stepped, stopped⟩ := walk_cons_eq_ok_iff.mp ended
    obtain ⟨directory, next_eq, -⟩ := step_eq_ok_iff.mp stepped
    rw [Path.enter_of_isTrivial (trivials last (by simp))] at next_eq
    rw [← Except.ok.inj stopped, next_eq, file?_eq_some_iff,
      (isDirectory_iff _).mp directory] at holds
    simp at holds

end FileTree
end StagedBuild
