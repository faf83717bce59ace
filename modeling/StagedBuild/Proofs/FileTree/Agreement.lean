import StagedBuild.Proofs.FileTree.Effect

/-!
# Trees that agree along a path

What becomes of a path depends on the places that it leads through and on nothing else.  Trees that
agree there answer every look-up alike; and an operation that creates directories refuses alike in
both, creates the same directories, and leaves the trees in agreement wherever they agreed.
-/

namespace StagedBuild

open StagedBuild.Path (IsName enter)

namespace FileTree

/-- The trees hold the same wherever the path leads through. -/
def AgreeAlong (tree other : FileTree) (cwd : Location) (path : Path) : Prop :=
  ∀ place, path.LeadsThrough cwd place → tree.entry? place = other.entry? place

variable {tree other : FileTree} {cwd : Location} {path : Path}

theorem step_congr {place : Location} {segment : String}
    (here : tree.entry? place = other.entry? place)
    (there : tree.entry? (enter place segment) = other.entry? (enter place segment)) :
    tree.step place segment = other.step place segment := by
  rw [enter] at there
  rw [step, step, isDirectory_congr here]
  by_cases trivial : Path.isTrivial segment = true
  · simp [trivial]
  · by_cases above : segment = ".."
    · simp [above]
    · simp only [trivial, above, beq_iff_eq, Bool.false_eq_true, if_false] at there ⊢
      rw [there]

/-- A walk depends on the places that it comes through. -/
theorem walk_congr {place : Location} {segments : List String}
    (same : ∀ front, front <+: segments →
      tree.entry? (front.foldl enter place) = other.entry? (front.foldl enter place)) :
    tree.walk place segments = other.walk place segments := by
  induction segments generalizing place with
  | nil => rfl
  | cons segment segments induction =>
      have here : tree.entry? place = other.entry? place := same [] List.nil_prefix
      have there : tree.entry? (enter place segment) = other.entry? (enter place segment) :=
        same [segment] (List.cons_prefix_cons.mpr ⟨rfl, List.nil_prefix⟩)
      rw [walk, walk, step_congr here there]
      cases stepped : other.step place segment with
      | error errno => rfl
      | ok next =>
          obtain ⟨-, rfl, -⟩ := step_eq_ok_iff.mp stepped
          apply induction
          intro front begins
          exact same (segment :: front) (List.cons_prefix_cons.mpr ⟨rfl, begins⟩)

theorem splitLast_begins (path : Path) : (splitLast path).1 <+: path.segments := by
  rw [splitLast]
  split
  · exact List.nil_prefix
  · rename_i last before kept
    have suffix := List.dropWhile_suffix (l := path.segments.reverse) (· == "")
    rw [kept, ← List.reverse_prefix, List.reverse_reverse, List.reverse_cons] at suffix
    exact (List.prefix_append _ _).trans suffix

theorem locate_congr (agree : tree.AgreeAlong other cwd path) :
    tree.locate cwd path = other.locate cwd path := by
  have walked := walk_congr fun front begins => agree _ ⟨front, begins, rfl⟩
  rw [locate, locate, walked]

theorem isDirectoryAt_congr (agree : tree.AgreeAlong other cwd path) :
    tree.isDirectoryAt cwd path = other.isDirectoryAt cwd path := by
  rw [isDirectoryAt, isDirectoryAt, locate_congr agree]
  cases located : other.locate cwd path with
  | error error => rfl
  | ok place =>
      obtain rfl := place_of_locate located
      exact isDirectory_congr (agree _ (path.leadsThrough_place cwd))

theorem opens_congr (agree : tree.AgreeAlong other cwd path) :
    tree.Opens cwd path ↔ other.Opens cwd path := by
  rw [Opens, Opens, walk_congr fun front begins => agree _ ⟨front, begins, rfl⟩,
    isDirectory_congr (agree _ (path.leadsThrough_place cwd))]

/-- Looking up the last segment apart does not depend on what is there. -/
theorem locateLast_congr (same : ∀ front, front <+: (splitLast path).1 →
      tree.entry? (front.foldl enter (origin cwd path)) =
        other.entry? (front.foldl enter (origin cwd path))) :
    tree.locateLast cwd path = other.locateLast cwd path := by
  rw [locateLast, locateLast]
  generalize splitLast path = cut at same ⊢
  obtain ⟨before, last⟩ := cut
  cases admissible path with
  | error error => rfl
  | ok checked =>
      simp only [bind, Except.bind, walk_congr same]
      cases walked : other.walk (origin cwd path) before with
      | error errno => rfl
      | ok place =>
          have there := same before List.prefix_rfl
          rw [← walk_eq_enter walked] at there
          simp only [mapError_ok, isDirectory_congr there]

theorem AgreeAlong.locateLast (agree : tree.AgreeAlong other cwd path) :
    tree.locateLast cwd path = other.locateLast cwd path :=
  locateLast_congr fun front begins => agree _ ⟨front, begins.trans (splitLast_begins path), rfl⟩

/-- A directory is refused in both trees or created at one place in both. -/
theorem AgreeAlong.makeDirectory (agree : tree.AgreeAlong other cwd path) :
    (∃ error, tree.makeDirectory cwd path = .error error ∧
      other.makeDirectory cwd path = .error error) ∨
    ∃ place, tree.makeDirectory cwd path = .ok (tree.insert place .directory, place) ∧
      other.makeDirectory cwd path = .ok (other.insert place .directory, place) := by
  rw [FileTree.makeDirectory, FileTree.makeDirectory, agree.locateLast]
  cases located : other.locateLast cwd path with
  | error error => exact Or.inl ⟨error, rfl, rfl⟩
  | ok found =>
      obtain ⟨directory, last⟩ := found
      cases last with
      | name segment separated =>
          simp only [bind, Except.bind]
          cases placed : placeOfName directory segment with
          | error error => exact Or.inl ⟨error, rfl, rfl⟩
          | ok place =>
              have place_eq : path.place cwd = place := by
                rw [(place_of_locateLast located).1, (placeOfName_eq_ok_iff.mp placed).2]
              have same := agree _ (path.leadsThrough_place cwd)
              rw [place_eq] at same
              simp only [same]
              split
              · exact Or.inl ⟨_, rfl, rfl⟩
              · exact Or.inr ⟨place, rfl, rfl⟩
      | _ => exact Or.inl ⟨_, rfl, rfl⟩

/-- The removal of a file is refused for the same reasons in both trees, unless there is nothing. -/
def RefuseAlike (tree other : FileTree) (cwd : Location) (path : Path) : Prop :=
  ∀ error : IoError, error.kind ≠ .notFound →
    (other.removeFile cwd path = .error error ↔ tree.removeFile cwd path = .error error)

theorem AgreeAlong.refuseAlike (agree : tree.AgreeAlong other cwd path) :
    tree.RefuseAlike other cwd path := by
  intro error _
  rw [FileTree.removeFile, FileTree.removeFile, agree.locateLast]
  cases located : other.locateLast cwd path with
  | error failure => exact Iff.rfl
  | ok found =>
      obtain ⟨directory, last⟩ := found
      cases last with
      | name segment separated =>
          simp only [bind, Except.bind]
          cases placed : placeOfName directory segment with
          | error failure => exact Iff.rfl
          | ok place =>
              have place_eq : path.place cwd = place := by
                rw [(place_of_locateLast located).1, (placeOfName_eq_ok_iff.mp placed).2]
              have same := agree _ (path.leadsThrough_place cwd)
              rw [place_eq] at same
              simp only [same]
              split
              · exact Iff.rfl
              · exact Iff.rfl
              · cases separated with
                | true => exact Iff.rfl
                | false => simp
      | _ => exact Iff.rfl

/-- Where there is no directory, a name is refused for the way to it or for its length. -/
theorem removeFile_join_error_iff {name : String} (is_name : IsName name)
    (free : tree.isDirectory (path.place cwd ++ [name]) = false) {error : IoError}
    (serious : error.kind ≠ .notFound) :
    tree.removeFile cwd (path.join name) = .error error ↔
      (tree.locateLast cwd (path.join name) >>= fun _ => placeOfName (path.place cwd) name) =
        .error error := by
  rw [removeFile]
  cases located : tree.locateLast cwd (path.join name) with
  | error failure => simp only [bind, Except.bind, Except.error.injEq]
  | ok found =>
      obtain ⟨directory, last⟩ := found
      obtain ⟨-, -, rfl, rfl⟩ := (locateLast_join_name_iff is_name).mp located
      simp only [bind, Except.bind]
      cases placed : placeOfName (path.place cwd) name with
      | error failure => simp only [Except.error.injEq]
      | ok place =>
          obtain ⟨-, rfl⟩ := placeOfName_eq_ok_iff.mp placed
          refine iff_of_false (fun refused => ?_) (by simp)
          dsimp only at refused
          split at refused
          · obtain rfl := Except.error.inj refused
            exact serious (by decide)
          · rename_i directory
            rw [(isDirectory_iff tree).mpr directory] at free
            simp at free
          · simp at refused

/-- A joined name may be a file in one tree and nothing in the other. -/
theorem AgreeAlong.refuseAlike_join (agree : tree.AgreeAlong other cwd path) {name : String}
    (is_name : IsName name) (free : tree.isDirectory (path.place cwd ++ [name]) = false)
    (other_free : other.isDirectory (path.place cwd ++ [name]) = false) :
    tree.RefuseAlike other cwd (path.join name) := by
  have same : tree.locateLast cwd (path.join name) = other.locateLast cwd (path.join name) := by
    apply locateLast_congr
    rw [splitLast_join_name path is_name, origin_join is_name.not_isAbsolute]
    intro front begins
    exact agree _ ⟨front, begins.trans (Path.front_begins path), rfl⟩
  intro error serious
  rw [removeFile_join_error_iff is_name free serious,
    removeFile_join_error_iff is_name other_free serious, same]

/-- Where two trees agree, the trees that come of them agree. -/
def KeepsAgreement (tree other after otherAfter : FileTree) : Prop :=
  ∀ place, tree.entry? place = other.entry? place → after.entry? place = otherAfter.entry? place

variable {middle otherMiddle after otherAfter : FileTree}

theorem KeepsAgreement.trans (first : KeepsAgreement tree other middle otherMiddle)
    (second : KeepsAgreement middle otherMiddle after otherAfter) :
    KeepsAgreement tree other after otherAfter :=
  fun place same => second place (first place same)

theorem KeepsAgreement.along (kept : KeepsAgreement tree other after otherAfter)
    (agree : tree.AgreeAlong other cwd path) : after.AgreeAlong otherAfter cwd path :=
  fun place leads => kept place (agree place leads)

theorem keepsAgreement_insert (tree other : FileTree) (place : Location) (entry : Entry) :
    KeepsAgreement tree other (tree.insert place entry) (other.insert place entry) := by
  intro at_place same
  rw [entry?_insert, entry?_insert, same]

theorem makeOrAccept_congr (agree : tree.AgreeAlong other cwd path) :
    (∃ error, tree.makeOrAccept cwd path = .error error ∧
      other.makeOrAccept cwd path = .error error) ∨
    ∃ after otherAfter changes, tree.makeOrAccept cwd path = .ok (after, changes) ∧
      other.makeOrAccept cwd path = .ok (otherAfter, changes) ∧
      KeepsAgreement tree other after otherAfter := by
  rw [makeOrAccept, makeOrAccept, isDirectoryAt_congr agree]
  rcases agree.makeDirectory with ⟨error, made, other_made⟩ | ⟨place, made, other_made⟩
  · rw [made, other_made]
    simp only
    split
    · exact Or.inr ⟨tree, other, [], rfl, rfl, fun _ same => same⟩
    · exact Or.inl ⟨error, rfl, rfl⟩
  · rw [made, other_made]
    exact Or.inr ⟨_, _, _, rfl, rfl, keepsAgreement_insert tree other place .directory⟩

theorem makeChain_congr {chain : List Path}
    (agree : ∀ path ∈ chain, tree.AgreeAlong other cwd path) :
    (tree.makeChain cwd chain).2 = (other.makeChain cwd chain).2 ∧
      KeepsAgreement tree other (tree.makeChain cwd chain).1 (other.makeChain cwd chain).1 := by
  induction chain with
  | nil => exact ⟨rfl, fun _ same => same⟩
  | cons path outer induction =>
      rw [List.forall_mem_cons] at agree
      obtain ⟨outer_same, outer_kept⟩ := induction agree.2
      rw [makeChain, makeChain, isDirectoryAt_congr agree.1]
      rcases agree.1.makeDirectory with ⟨error, made, other_made⟩ | ⟨place, made, other_made⟩
      · rw [made, other_made]
        simp only
        split
        · -- The directories above come first, and after them the trees still agree.
          generalize tree.makeChain cwd outer = inner at outer_same outer_kept ⊢
          generalize other.makeChain cwd outer = other_inner at outer_same outer_kept ⊢
          obtain ⟨middle, changes, result⟩ := inner
          obtain ⟨other_middle, other_changes, other_result⟩ := other_inner
          obtain ⟨rfl, rfl⟩ := Prod.mk.inj outer_same
          cases result with
          | error error => exact ⟨rfl, outer_kept⟩
          | ok done =>
              rcases makeOrAccept_congr (outer_kept.along agree.1) with
                ⟨error, accepted, other_accepted⟩ |
                ⟨after, other_after, more, accepted, other_accepted, kept⟩
              · simp only [accepted, other_accepted]
                exact ⟨trivial, outer_kept⟩
              · simp only [accepted, other_accepted]
                exact ⟨trivial, outer_kept.trans kept⟩
        · split <;> exact ⟨rfl, fun _ same => same⟩
      · rw [made, other_made]
        exact ⟨rfl, keepsAgreement_insert tree other place .directory⟩

theorem AgreeAlong.ensureDirectory (agree : tree.AgreeAlong other cwd path) :
    (tree.ensureDirectory cwd path).2 = (other.ensureDirectory cwd path).2 ∧
      KeepsAgreement tree other (tree.ensureDirectory cwd path).1
        (other.ensureDirectory cwd path).1 :=
  makeChain_congr fun _ tried place leads =>
    agree place (leadsThrough_of_mem_ancestors tried leads)

end FileTree
end StagedBuild
