import StagedBuild.FileTree.Walk
import StagedBuild.Proofs.Path.Parent

/-!
# Places of paths

In a tree without links a path leads to one location at most, and its text says which.  Joining a
name goes one step down from the place of a path, the directory of a path lies one step above it,
and making a path absolute does not change its place.
-/

namespace StagedBuild
namespace Path

/-- The location one segment further. -/
def enter (place : Location) (segment : String) : Location :=
  if isTrivial segment then place
  else if segment == ".." then place.dropLast
  else place ++ [segment]

/-- The only location that a path can lead to. -/
def place (path : Path) (cwd : Location) : Location :=
  path.segments.foldl enter (FileTree.origin cwd path)

theorem enter_of_isTrivial {segment : String} (trivial : isTrivial segment = true)
    (place : Location) : enter place segment = place := by
  simp [enter, trivial]

theorem enter_of_bodyComponent {segment name : String}
    (body : bodyComponent segment = some (.name name)) (place : Location) :
    enter place segment = place ++ [name] := by
  obtain ⟨rfl, nontrivial, other⟩ := bodyComponent_eq_name_iff.mp body
  simp [enter, nontrivial, other]

theorem foldl_enter_of_isTrivial {segments : List String}
    (trivials : ∀ segment ∈ segments, isTrivial segment = true) (place : Location) :
    segments.foldl enter place = place := by
  induction segments generalizing place with
  | nil => rfl
  | cons segment segments induction =>
      rw [List.foldl_cons, enter_of_isTrivial (trivials segment List.mem_cons_self)]
      exact induction (fun other member => trivials other (List.mem_cons_of_mem _ member)) place

theorem foldl_enter_blank (place : Location) : [""].foldl enter place = place :=
  foldl_enter_of_isTrivial (by decide) place

/-- Segments that stand for one name go one step down. -/
theorem foldl_enter_name {segments : List String} {name : String}
    (body : segments.filterMap bodyComponent = [.name name]) (place : Location) :
    segments.foldl enter place = place ++ [name] := by
  induction segments generalizing place with
  | nil => simp at body
  | cons segment segments induction =>
      rw [List.foldl_cons]
      cases component : bodyComponent segment with
      | none =>
          rw [List.filterMap_cons_none component] at body
          rw [enter_of_isTrivial (bodyComponent_eq_none_iff.mp component)]
          exact induction body place
      | some part =>
          rw [List.filterMap_cons_some component, List.cons.injEq] at body
          obtain ⟨rfl, rest_empty⟩ := body
          rw [enter_of_bodyComponent component, foldl_enter_of_isTrivial]
          intro other member
          exact bodyComponent_eq_none_iff.mp (List.filterMap_eq_nil_iff.mp rest_empty other member)

theorem foldl_enter_front (path : Path) (place : Location) :
    path.front.foldl enter place = path.segments.foldl enter place := by
  rcases segments_eq_front path with cut | cut
  · rw [cut]
  · rw [cut, List.foldl_append, foldl_enter_blank]

/-- A joined path leads on from the place of the first part. -/
theorem place_join (path : Path) {other : String} (relative : (Path.mk other).isAbsolute = false)
    (cwd : Location) :
    (path.join other).place cwd = (Path.mk other).segments.foldl enter (path.place cwd) := by
  rw [place, segments_join path relative, List.foldl_append, foldl_enter_front, place,
    FileTree.origin, isAbsolute_join path relative, FileTree.origin]

theorem place_join_name (path : Path) {name : String} (is_name : IsName name) (cwd : Location) :
    (path.join name).place cwd = path.place cwd ++ [name] := by
  rw [place_join path is_name.not_isAbsolute, is_name.segments]
  exact enter_of_bodyComponent is_name.bodyComponent _

/-- The directory of a path lies one step above the place of the path. -/
theorem place_eq_directory {path : Path} {name : String} (last : path.fileName? = some name)
    (cwd : Location) : path.place cwd = path.directory.place cwd ++ [name] := by
  obtain ⟨front, back, segments_eq, back_name, kept, absolute⟩ := segments_directory last
  have directory_place : path.directory.place cwd =
      front.foldl enter (FileTree.origin cwd path) := by
    rw [place, FileTree.origin, absolute, ← FileTree.origin]
    rcases kept with kept | kept
    · rw [kept]
    · rw [kept, List.foldl_append, foldl_enter_blank]
  rw [directory_place, place, segments_eq, List.foldl_append, foldl_enter_name back_name]

/-- A beginning of the path leads to the place `through`. -/
def LeadsThrough (path : Path) (cwd through : Location) : Prop :=
  ∃ front, front <+: path.segments ∧ front.foldl enter (FileTree.origin cwd path) = through

theorem leadsThrough_place (path : Path) (cwd : Location) :
    path.LeadsThrough cwd (path.place cwd) :=
  ⟨path.segments, List.prefix_rfl, rfl⟩

theorem LeadsThrough.of_parent {path parent : Path} {cwd through : Location}
    (parent_eq : path.parent? = some parent) (nonempty : parent.text ≠ "")
    (leads : parent.LeadsThrough cwd through) : path.LeadsThrough cwd through := by
  obtain ⟨front, back, segments_eq, kept, absolute⟩ := segments_parent? parent_eq nonempty
  obtain ⟨beginning, begins, rfl⟩ := leads
  have same_origin : FileTree.origin cwd parent = FileTree.origin cwd path := by
    rw [FileTree.origin, absolute, FileTree.origin]
  rw [same_origin]
  rcases kept with kept | kept
  · rw [kept] at begins
    exact ⟨beginning, begins.trans (segments_eq ▸ List.prefix_append front back), rfl⟩
  · rw [kept, List.prefix_concat_iff] at begins
    rcases begins with whole | begins
    · refine ⟨front, segments_eq ▸ List.prefix_append front back, ?_⟩
      rw [whole, List.foldl_append, foldl_enter_blank]
    · exact ⟨beginning, begins.trans (segments_eq ▸ List.prefix_append front back), rfl⟩

/-- Without `..` a path leads only through places above its own. -/
theorem LeadsThrough.prefix_of_forward {path : Path} {cwd through : Location}
    (forward : ".." ∉ path.segments) (leads : path.LeadsThrough cwd through) :
    through <+: path.place cwd := by
  have goes_down : ∀ (segments : List String) (place : Location), ".." ∉ segments →
      place <+: segments.foldl enter place := by
    intro segments
    induction segments with
    | nil => exact fun _ _ => List.prefix_rfl
    | cons segment segments induction =>
        intro place onward
        rw [List.mem_cons, not_or] at onward
        have step : place <+: enter place segment := by
          rw [enter]
          split
          · exact List.prefix_rfl
          · rw [if_neg (by simpa using Ne.symm onward.1)]
            exact List.prefix_append place [segment]
        exact step.trans (induction _ onward.2)
  obtain ⟨front, ⟨back, cut⟩, rfl⟩ := leads
  rw [place, ← cut, List.foldl_append]
  apply goes_down
  rw [← cut, List.mem_append, not_or] at forward
  exact forward.2

/-- A plain name is a name, perhaps with separators and `.` segments behind it. -/
theorem segments_of_isPlainName {text : String} (plain : isPlainName text = true) :
    (Path.mk text).isAbsolute = false ∧ ∃ name rest, (Path.mk text).segments = name :: rest ∧
      IsName name ∧ ∀ segment ∈ rest, isTrivial segment = true := by
  obtain ⟨only, components_eq⟩ : ∃ only, (Path.mk text).components = [.name only] := by
    rw [isPlainName] at plain
    split at plain
    · rename_i only components_eq
      exact ⟨only, components_eq⟩
    · simp at plain
  rw [components] at components_eq
  have text_eq := intercalate_segments (Path.mk text)
  cases cut : (Path.mk text).segments with
  | nil => exact absurd cut (segments_ne_nil _)
  | cons first rest =>
      rw [cut] at components_eq text_eq
      rcases leading_cases (Path.mk text) with ⟨-, lead, -⟩ | ⟨-, lead, -⟩ | ⟨relative, lead, -⟩
      · simp [lead] at components_eq
      · simp [lead] at components_eq
      · refine ⟨relative, first, rest, rfl, ?_⟩
        rw [lead, List.nil_append] at components_eq
        cases component : bodyComponent first with
        | none =>
            rcases (isTrivial_iff first).mp (bodyComponent_eq_none_iff.mp component) with
              rfl | rfl
            · cases rest with
              | nil => simp [component] at components_eq
              | cons next rest =>
                  rw [String.intercalate_cons_cons] at text_eq
                  rw [isAbsolute, ← text_eq] at relative
                  simp at relative
            · simp [leading, relative, cut] at lead
        | some part =>
            rw [List.filterMap_cons_some component, List.cons.injEq] at components_eq
            obtain ⟨rfl, rest_empty⟩ := components_eq
            obtain ⟨rfl, nontrivial, other⟩ := bodyComponent_eq_name_iff.mp component
            refine ⟨⟨separator_not_mem_of_mem_segments (cut ▸ List.mem_cons_self), nontrivial,
              other⟩, fun segment member => ?_⟩
            exact bodyComponent_eq_none_iff.mp
              (List.filterMap_eq_nil_iff.mp rest_empty segment member)

theorem IsName.isPlainName {text : String} (name : IsName text) : isPlainName text = true := by
  have lead : (Path.mk text).leading = [] := by
    rcases leading_cases (Path.mk text) with ⟨absolute, -, -⟩ | ⟨-, -, cut⟩ | ⟨-, lead, -⟩
    · simp [name.not_isAbsolute] at absolute
    · rw [name.segments, List.cons.injEq] at cut
      have nontrivial := name.2.1
      simp [cut.1, isTrivial] at nontrivial
    · exact lead
  simp [Path.isPlainName, components, lead, name.segments, name.bodyComponent]

theorem place_of_isAbsolute {path : Path} (absolute : path.isAbsolute = true)
    (cwd : Location) : path.place cwd = path.place [] := by
  simp [place, FileTree.origin, absolute]

/-- The location one component further. -/
def follow (place : Location) : Component → Location
  | .root | .current => place
  | .parent => place.dropLast
  | .name segment => place ++ [segment]

theorem foldl_follow_filterMap (segments : List String) (place : Location) :
    (segments.filterMap bodyComponent).foldl follow place = segments.foldl enter place := by
  induction segments generalizing place with
  | nil => rfl
  | cons segment segments induction =>
      by_cases trivial : isTrivial segment = true
      · rw [List.filterMap_cons_none (bodyComponent_eq_none_iff.mpr trivial), induction,
          List.foldl_cons, enter_of_isTrivial trivial]
      · by_cases above : segment = ".."
        · subst above
          have component : bodyComponent ".." = some .parent := by decide
          rw [List.filterMap_cons_some component, List.foldl_cons, List.foldl_cons, induction]
          simp [follow, enter, trivial]
        · have component : bodyComponent segment = some (.name segment) :=
            bodyComponent_eq_name_iff.mpr ⟨rfl, by simpa using trivial, above⟩
          rw [List.filterMap_cons_some component, List.foldl_cons, List.foldl_cons, induction,
            enter_of_bodyComponent component]
          rfl

/-- The components that are kept when a path is made absolute. -/
def inner (path : Path) : List Component :=
  path.components.filter fun part => part != .root && part != .current

theorem inner_eq (path : Path) : path.inner = path.segments.filterMap bodyComponent := by
  have body_kept : ∀ part ∈ path.segments.filterMap bodyComponent,
      (part != .root && part != .current) = true := by
    intro part member
    obtain ⟨segment, -, segment_eq⟩ := List.mem_filterMap.mp member
    rcases eq_of_bodyComponent segment_eq with ⟨rfl, -⟩ | ⟨rfl, -⟩ <;> rfl
  rw [inner, components, List.filter_append, List.filter_eq_self.mpr body_kept]
  rcases leading_cases path with ⟨-, lead, -⟩ | ⟨-, lead, -⟩ | ⟨-, lead, -⟩ <;>
    simp [lead]

theorem mem_inner {path : Path} {part : Component} (member : part ∈ path.inner) :
    part = .parent ∨ ∃ name, part = .name name ∧ IsName name := by
  rw [inner_eq] at member
  obtain ⟨segment, segment_mem, segment_eq⟩ := List.mem_filterMap.mp member
  rcases eq_of_bodyComponent segment_eq with ⟨parent, -⟩ | ⟨named, nontrivial, other⟩
  · exact Or.inl parent
  · exact Or.inr ⟨segment, named, separator_not_mem_of_mem_segments segment_mem, nontrivial,
      other⟩

theorem isAbsolute_componentText {path : Path} {part : Component} (member : part ∈ path.inner) :
    (Path.mk (componentText part)).isAbsolute = false := by
  rcases mem_inner member with rfl | ⟨name, rfl, is_name⟩
  · decide
  · exact is_name.not_isAbsolute

theorem place_join_component {path : Path} {part : Component} (member : part ∈ path.inner)
    (base : Path) (cwd : Location) :
    (base.join (componentText part)).place cwd = follow (base.place cwd) part := by
  rcases mem_inner member with rfl | ⟨name, rfl, is_name⟩
  · rw [componentText, place_join base (by decide), segments_above]
    simp [enter, follow, isTrivial]
  · exact place_join_name base is_name cwd

theorem joinAll_inner {path : Path} {parts : List Component} (inside : parts ⊆ path.inner)
    (base : Path) (cwd : Location) :
    (base.joinAll parts).isAbsolute = base.isAbsolute ∧
      (base.joinAll parts).place cwd = parts.foldl follow (base.place cwd) := by
  induction parts generalizing base with
  | nil => exact ⟨rfl, rfl⟩
  | cons part parts induction =>
      have part_mem : part ∈ path.inner := inside List.mem_cons_self
      obtain ⟨absolute, joined⟩ :=
        induction (List.subset_of_cons_subset inside) (base.join (componentText part))
      constructor
      · exact absolute.trans (isAbsolute_join base (isAbsolute_componentText part_mem))
      · rw [joinAll, List.foldl_cons, List.foldl_cons, ← place_join_component part_mem]
        exact joined

/-- Making a path absolute leaves its place alone, and the result is absolute. -/
theorem absoluteFrom_spec {base path result : Path} {cwd : Location}
    (base_absolute : base.isAbsolute = true) (base_place : base.place [] = cwd)
    (absolute : absoluteFrom base path = .ok result) :
    result.isAbsolute = true ∧ result.place [] = path.place cwd := by
  rw [absoluteFrom] at absolute
  split at absolute
  · simp at absolute
  · have start : ∃ root : Path, root.isAbsolute = true ∧
        root.place [] = FileTree.origin cwd path ∧
        result = (if path.endsInSeparator then (root.joinAll path.inner).join ""
          else root.joinAll path.inner) := by
      refine ⟨_, ?_, ?_, (Except.ok.inj absolute).symm⟩
      · split
        · decide
        · split
          · decide
          · exact base_absolute
      · split
        · rename_i double
          have path_absolute : path.isAbsolute = true := by
            rw [hasDoubleRoot] at double
            split at double
            · simp at double
            · rename_i rest _ chars
              simp [isAbsolute, chars]
            · simp at double
          rw [FileTree.origin, if_pos path_absolute]
          decide
        · split
          · rename_i path_absolute
            rw [FileTree.origin, if_pos path_absolute]
            decide
          · rename_i path_relative
            rw [FileTree.origin, if_neg path_relative, base_place]
    obtain ⟨root, root_absolute, root_place, rfl⟩ := start
    obtain ⟨joined_absolute, joined_place⟩ :=
      joinAll_inner (List.Subset.refl path.inner) root []
    have place_eq : (root.joinAll path.inner).place [] = path.place cwd := by
      rw [joined_place, root_place, inner_eq, foldl_follow_filterMap, place]
    split
    · refine ⟨(isAbsolute_join _ (by decide)).trans (joined_absolute.trans root_absolute), ?_⟩
      rw [place_join _ (by decide), segments_empty, foldl_enter_blank, place_eq]
    · exact ⟨joined_absolute.trans root_absolute, place_eq⟩

end Path
end StagedBuild
