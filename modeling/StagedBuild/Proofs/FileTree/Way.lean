import StagedBuild.Proofs.FileTree.Effect
import StagedBuild.Proofs.Path.Absolute
import StagedBuild.Proofs.Path.Length

/-!
# The way of a path

The way of a path is the places that it leads through.  Trivial segments add nothing to it, so it
stays the same when an absolute path is rewritten; a joined name adds one place at the end.  A walk
succeeds when everything on the way is a directory, and with no file on the way it can only fail for
want of a directory.
-/

namespace StagedBuild

open FileTree (origin)

namespace Path

variable {path : Path} {cwd place : Location} {name : String}

theorem foldl_enter_filter (segments : List String) (place : Location) :
    (segments.filter fun segment => !isTrivial segment).foldl enter place =
      segments.foldl enter place := by
  induction segments generalizing place with
  | nil => rfl
  | cons segment segments induction =>
      cases trivial : isTrivial segment with
      | true =>
          rw [List.filter_cons_of_neg (by simp [trivial]), induction, List.foldl_cons,
            enter_of_isTrivial trivial]
      | false =>
          rw [List.filter_cons_of_pos (by simp [trivial]), List.foldl_cons, induction,
            List.foldl_cons]

/-- The segments that are not trivial decide the way of a path. -/
theorem leadsThrough_iff_filter :
    path.LeadsThrough cwd place ↔
      ∃ steps, steps <+: path.front.filter (fun segment => !isTrivial segment) ∧
        steps.foldl enter (origin cwd path) = place := by
  rw [filter_front]
  constructor
  · rintro ⟨front, begins, rfl⟩
    exact ⟨_, begins.filter _, foldl_enter_filter front _⟩
  · rintro ⟨steps, begins, rfl⟩
    obtain ⟨front, front_begins, rfl⟩ := List.prefix_filter_iff.mp begins
    exact ⟨front, front_begins, (foldl_enter_filter front _).symm⟩

/-- An absolute path has the same way before and after it is made absolute. -/
theorem leadsThrough_absoluteFrom_iff {base result : Path} (base_absolute : base.isAbsolute = true)
    (path_absolute : path.isAbsolute = true) (absolute : absoluteFrom base path = .ok result) :
    result.LeadsThrough cwd place ↔ path.LeadsThrough cwd place := by
  have result_absolute := isAbsolute_absoluteFrom base_absolute absolute
  have same_origin : origin cwd result = origin cwd path := by
    rw [origin, origin, result_absolute, path_absolute]
  rw [leadsThrough_iff_filter, leadsThrough_iff_filter, same_origin,
    front_absoluteFrom path_absolute absolute, List.filter_append, filter_rootSegments,
    List.nil_append, List.filter_filter]
  simp only [Bool.and_self]

theorem leadsThrough_iff_front :
    path.LeadsThrough cwd place ↔
      ∃ front, front <+: path.front ∧ front.foldl enter (origin cwd path) = place := by
  constructor
  · rintro ⟨front, begins, rfl⟩
    rcases segments_eq_front path with whole | open_end
    · exact ⟨front, whole ▸ begins, rfl⟩
    · rw [open_end, List.prefix_concat_iff] at begins
      rcases begins with rfl | inner
      · refine ⟨path.front, List.prefix_rfl, ?_⟩
        rw [List.foldl_append, foldl_enter_blank]
      · exact ⟨front, inner, rfl⟩
  · rintro ⟨front, begins, rfl⟩
    exact ⟨front, begins.trans (front_begins path), rfl⟩

/-- A joined name is one place further on the same way. -/
theorem leadsThrough_join_name_iff (is_name : IsName name) :
    (path.join name).LeadsThrough cwd place ↔
      path.LeadsThrough cwd place ∨ place = path.place cwd ++ [name] := by
  rw [@leadsThrough_iff_front path, LeadsThrough, segments_join_name path is_name,
    FileTree.origin_join is_name.not_isAbsolute]
  have ended : (path.front ++ [name]).foldl enter (origin cwd path) =
      path.place cwd ++ [name] := by
    rw [List.foldl_append, foldl_enter_front]
    exact enter_of_bodyComponent is_name.bodyComponent _
  constructor
  · rintro ⟨front, begins, rfl⟩
    rcases List.prefix_concat_iff.mp begins with rfl | inner
    · exact Or.inr ended
    · exact Or.inl ⟨front, inner, rfl⟩
  · rintro (⟨front, begins, rfl⟩ | rfl)
    · exact ⟨front, begins.trans (List.prefix_append _ _), rfl⟩
    · exact ⟨_, List.prefix_rfl, ended⟩

/-- The directory of a joined path has no place that was not on the way of its first part. -/
theorem LeadsThrough.of_directory_join (is_name : IsName name)
    (leads : (path.join name).directory.LeadsThrough cwd place) : path.LeadsThrough cwd place := by
  obtain ⟨-, -, -, -, absolute⟩ := segments_directory_join path is_name
  obtain ⟨front, begins, rfl⟩ := leadsThrough_iff_front.mp leads
  refine leadsThrough_iff_front.mpr
    ⟨front, begins.trans (front_directory_join path is_name), ?_⟩
  rw [origin, origin, absolute]

/-- No place that the path leads through lies in the directory that it leads to. -/
def StaysAbove (path : Path) (cwd : Location) : Prop :=
  ∀ place, path.LeadsThrough cwd place → ¬ FileTree.IsBelow (path.place cwd) place

/-- A path without `..` does not lead through the directory that it leads to. -/
theorem staysAbove_of_forward (forward : ".." ∉ path.segments) (cwd : Location) :
    path.StaysAbove cwd := by
  intro place leads below
  have above := leads.prefix_of_forward forward
  exact below.2 (above.eq_of_length_le below.1.length_le)

end Path

namespace FileTree

open StagedBuild.Path (IsName enter)

variable {tree : FileTree} {cwd place : Location} {path : Path} {name : String}
  {segments : List String}

/-- The system reads the path and takes every name in it. -/
def Takes (path : Path) : Prop :=
  admissible path = .ok () ∧ ∀ segment ∈ path.segments, Utf8.size segment ≤ nameLimit

instance (path : Path) : Decidable (Takes path) :=
  decidable_of_iff _ (and_congr_left' Path.admissible_eq_ok_iff.symm)

/-- Everything on the way of the path is a directory. -/
def IsOpen (tree : FileTree) (cwd : Location) (path : Path) : Prop :=
  ∀ place, path.LeadsThrough cwd place → tree.isDirectory place = true

/-- Nothing on the way of the path is a file. -/
def IsClear (tree : FileTree) (cwd : Location) (path : Path) : Prop :=
  ∀ place, path.LeadsThrough cwd place → tree.file? place = none

/-- A walk over directories only fails for a name that is too long. -/
theorem walk_eq_ok (short : ∀ segment ∈ segments, Utf8.size segment ≤ nameLimit)
    (directories : ∀ front, front <+: segments →
      tree.isDirectory (front.foldl enter place) = true) :
    tree.walk place segments = .ok (segments.foldl enter place) := by
  induction segments generalizing place with
  | nil => rfl
  | cons segment segments induction =>
      rw [List.forall_mem_cons] at short
      have here : tree.isDirectory place = true := directories [] List.nil_prefix
      have next : ∀ front, front <+: segments →
          tree.isDirectory (front.foldl enter (enter place segment)) = true :=
        fun front begins => directories (segment :: front)
          (List.cons_prefix_cons.mpr ⟨rfl, begins⟩)
      have found := (isDirectory_iff tree).mp (next [] List.nil_prefix)
      refine walk_cons_eq_ok_iff.mpr ⟨_, step_eq_ok_iff.mpr ⟨here, rfl, fun _ => ⟨short.1, ?_⟩⟩,
        induction short.2 next⟩
      rw [List.foldl_nil] at found
      rw [found]
      rfl

/-- With no file on the way a walk that lacks a directory finds nothing there. -/
theorem walk_eq_noEntry (above : ∀ other, other <+: place → tree.isDirectory other = true)
    (short : ∀ segment ∈ segments, Utf8.size segment ≤ nameLimit)
    (clear : ∀ front, front <+: segments → tree.file? (front.foldl enter place) = none)
    {missing : List String} (begins : missing <+: segments)
    (lacking : tree.isDirectory (missing.foldl enter place) = false) :
    tree.walk place segments = .error .noEntry := by
  induction segments generalizing place missing with
  | nil =>
      obtain rfl := List.prefix_nil.mp begins
      rw [List.foldl_nil, above place List.prefix_rfl] at lacking
      simp at lacking
  | cons segment segments induction =>
      rw [List.forall_mem_cons] at short
      have here := above place List.prefix_rfl
      obtain ⟨more, rfl, more_begins⟩ : ∃ more, missing = segment :: more ∧ more <+: segments := by
        rcases List.prefix_cons_iff.mp begins with rfl | cut
        · rw [List.foldl_nil, here] at lacking
          simp at lacking
        · exact cut
      rw [List.foldl_cons] at lacking
      have next_clear : ∀ front, front <+: segments →
          tree.file? (front.foldl enter (enter place segment)) = none :=
        fun front begins => clear (segment :: front) (List.cons_prefix_cons.mpr ⟨rfl, begins⟩)
      -- Once the step is taken, what lies above the next place are directories again.
      have onwards : tree.step place segment = .ok (enter place segment) →
          (∀ other, other <+: enter place segment → tree.isDirectory other = true) →
          tree.walk place (segment :: segments) = .error .noEntry := by
        intro stepped next_above
        rw [walk, stepped]
        exact induction next_above short.2 next_clear more_begins lacking
      cases component : Path.bodyComponent segment with
      | none =>
          have trivial := Path.bodyComponent_eq_none_iff.mp component
          rw [Path.enter_of_isTrivial trivial] at onwards
          exact onwards (step_trivial here trivial) above
      | some part =>
          rcases Path.eq_of_bodyComponent component with ⟨rfl, rfl⟩ | ⟨rfl, -, -⟩
          · have up : enter place ".." = place.dropLast := by simp [enter, Path.isTrivial]
            rw [up] at onwards
            exact onwards (step_above here) fun other begins =>
              above other (begins.trans (List.dropLast_prefix place))
          · have down : enter place segment = place ++ [segment] :=
              Path.enter_of_bodyComponent component place
            have named := step_name here component
            rw [if_neg (Nat.not_lt.mpr short.1)] at named
            cases found : tree.entry? (place ++ [segment]) with
            | none =>
                rw [found] at named
                rw [walk, named]
                rfl
            | some entry =>
                rw [found, Option.isSome_some, if_pos rfl] at named
                have next_directory : tree.isDirectory (place ++ [segment]) = true := by
                  have free := next_clear [] List.nil_prefix
                  rw [List.foldl_nil, down] at free
                  rw [isDirectory_iff, found]
                  cases entry with
                  | directory => rfl
                  | file file => simp [file?, found] at free
                rw [down] at onwards
                refine onwards named fun other begins => ?_
                rcases List.prefix_concat_iff.mp begins with rfl | inner
                · exact next_directory
                · exact above other inner

theorem Opens.isOpen (opens : tree.Opens cwd path) : tree.IsOpen cwd path := by
  rintro place ⟨front, ⟨rest, cut⟩, rfl⟩
  have walked := opens.1
  rw [← cut, walk_append_eq_ok_iff] at walked
  obtain ⟨middle, front_walked, rest_walked⟩ := walked
  rw [← walk_eq_enter front_walked]
  exact isDirectory_start rest_walked opens.2

theorem IsOpen.opens (is_open : tree.IsOpen cwd path)
    (short : ∀ segment ∈ path.segments, Utf8.size segment ≤ nameLimit) : tree.Opens cwd path :=
  ⟨walk_eq_ok short fun front begins => is_open _ ⟨front, begins, rfl⟩,
    is_open _ (path.leadsThrough_place cwd)⟩

/-- An absolute path opens before it is made absolute exactly when it does afterwards. -/
theorem opens_absoluteFrom_iff {base result : Path} (base_absolute : base.isAbsolute = true)
    (path_absolute : path.isAbsolute = true)
    (absolute : Path.absoluteFrom base path = .ok result) :
    tree.Opens cwd result ↔ tree.Opens cwd path := by
  have same_origin : origin cwd result = origin cwd path := by
    rw [origin, origin, Path.isAbsolute_absoluteFrom base_absolute absolute, path_absolute]
  have same_steps : (result.segments.filter fun segment => !Path.isTrivial segment) =
      path.segments.filter fun segment => !Path.isTrivial segment := by
    rw [← Path.filter_front, ← Path.filter_front, Path.front_absoluteFrom path_absolute absolute,
      List.filter_append, Path.filter_rootSegments, List.nil_append, List.filter_filter]
    simp only [Bool.and_self]
  have same_place : result.place cwd = path.place cwd := by
    rw [Path.place, Path.place, ← Path.foldl_enter_filter, same_steps, same_origin,
      Path.foldl_enter_filter]
  rw [Opens, Opens, same_place, same_origin]
  refine and_congr_left fun directory => ?_
  rw [← walk_filter_eq_ok_iff directory, same_steps, walk_filter_eq_ok_iff directory]

theorem short_of_takes_join (is_name : IsName name) (takes : Takes (path.join name)) :
    Utf8.size name ≤ nameLimit ∧ ∀ segment ∈ path.segments, Utf8.size segment ≤ nameLimit := by
  obtain ⟨-, short⟩ := takes
  rw [Path.segments_join_name path is_name] at short
  refine ⟨short name (by simp), fun segment member => ?_⟩
  rcases Path.segments_eq_front path with whole | open_end
  · exact short segment (List.mem_append_left _ (whole ▸ member))
  · rw [open_end] at member
    rcases List.mem_append.mp member with inner | blank
    · exact short segment (List.mem_append_left _ inner)
    · obtain rfl := List.mem_singleton.mp blank
      decide

theorem walk_of_closed {segments : List String} (absolute : path.isAbsolute = true)
    (short : ∀ segment ∈ segments, Utf8.size segment ≤ nameLimit)
    (clear : ∀ front, front <+: segments →
      tree.file? (front.foldl enter (origin cwd path)) = none)
    {missing : List String} (begins : missing <+: segments)
    (lacking : tree.isDirectory (missing.foldl enter (origin cwd path)) = false) :
    tree.walk (origin cwd path) segments = .error .noEntry := by
  refine walk_eq_noEntry (fun other above => ?_) short clear begins lacking
  rw [origin, if_pos absolute] at above
  rw [List.prefix_nil.mp above, isDirectory_iff, entry?_nil]

theorem exists_lacking (closed : ¬ tree.IsOpen cwd path) :
    ∃ place, path.LeadsThrough cwd place ∧ tree.isDirectory place = false := by
  simpa [IsOpen] using closed

/-- A path that is not open leads nowhere, and no file is to blame. -/
theorem locate_of_closed (absolute : path.isAbsolute = true) (takes : Takes path)
    (clear : tree.IsClear cwd path) (closed : ¬ tree.IsOpen cwd path) :
    tree.locate cwd path = .error (.system .noEntry) := by
  obtain ⟨place, ⟨missing, begins, rfl⟩, lacking⟩ := exists_lacking closed
  have walked := walk_of_closed absolute takes.2 (fun front begins => clear _ ⟨front, begins, rfl⟩)
    begins lacking
  rw [locate, takes.1, walked]
  rfl

/-- A name that is joined to a path that is not open is not looked up at all. -/
theorem locateLast_of_closed (is_name : IsName name) (absolute : path.isAbsolute = true)
    (takes : Takes (path.join name)) (clear : tree.IsClear cwd path)
    (closed : ¬ tree.IsOpen cwd path) :
    tree.locateLast cwd (path.join name) = .error (.system .noEntry) := by
  obtain ⟨place, leads, lacking⟩ := exists_lacking closed
  obtain ⟨missing, begins, rfl⟩ := Path.leadsThrough_iff_front.mp leads
  have short : ∀ segment ∈ path.front, Utf8.size segment ≤ nameLimit := fun segment member =>
    (short_of_takes_join is_name takes).2 segment ((Path.front_begins path).subset member)
  have walked := walk_of_closed absolute short
    (fun front begins => clear _ (Path.leadsThrough_iff_front.mpr ⟨front, begins, rfl⟩))
    begins lacking
  rw [locateLast, takes.1, splitLast_join_name path is_name,
    origin_join is_name.not_isAbsolute]
  simp only [bind, Except.bind, walked, mapError_error]

/-- A file is removed at a joined name, and otherwise there is nothing at that name. -/
theorem removeFile_join (is_name : IsName name) (absolute : path.isAbsolute = true)
    (takes : Takes (path.join name)) (clear : tree.IsClear cwd path)
    (free : tree.isDirectory (path.place cwd ++ [name]) = false)
    (gone : ¬ tree.IsOpen cwd path → tree.entry? (path.place cwd ++ [name]) = none) :
    tree.removeFile cwd (path.join name) =
      if tree.entry? (path.place cwd ++ [name]) = none then .error (.system .noEntry)
      else .ok (tree.erase (path.place cwd ++ [name]), path.place cwd ++ [name]) := by
  obtain ⟨name_short, short⟩ := short_of_takes_join is_name takes
  rw [removeFile]
  by_cases is_open : tree.IsOpen cwd path
  · have located := (locateLast_join_name_iff is_name).mpr
      ⟨takes.1, is_open.opens short, rfl, rfl⟩
    have placed : placeOfName (path.place cwd) name = .ok (path.place cwd ++ [name]) :=
      placeOfName_eq_ok_iff.mpr ⟨name_short, rfl⟩
    rw [located]
    simp only [bind, Except.bind, placed]
    split
    · rename_i missing
      rw [if_pos missing]
    · rename_i directory
      rw [(isDirectory_iff tree).mpr directory] at free
      simp at free
    · rename_i file holds
      simp [holds]
  · rw [locateLast_of_closed is_name absolute takes clear is_open, if_pos (gone is_open)]
    rfl

/-- A directory that cannot be created may leave directories on the way to it. -/
theorem ensureDirectory_refused (is_name : IsName name) {after : FileTree}
    {changes : List Change} {error : IoError}
    (made : tree.ensureDirectory cwd (path.join name) = (after, changes, .error error)) :
    ∃ places, (∀ place ∈ places, path.LeadsThrough cwd place) ∧ GrowsAt places tree after := by
  refine ⟨_, fun place member => ?_, makeChain_refused made⟩
  obtain ⟨ancestor, tried, rfl⟩ := List.mem_map.mp member
  rw [ancestors, if_neg (by simpa using Path.text_join_name_ne_empty path is_name),
    List.tail_cons] at tried
  split at tried
  · rename_i parent parent_eq
    have directory_eq : (path.join name).directory = parent := by
      rw [Path.directory, parent_eq, Option.getD_some]
    apply Path.LeadsThrough.of_directory_join is_name
    rw [directory_eq]
    exact leadsThrough_of_mem_ancestors tried (ancestor.leadsThrough_place cwd)
  · simp at tried

end FileTree
end StagedBuild
