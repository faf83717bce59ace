import Mathlib.Data.List.Perm.Basic
import StagedBuild.Manifest.Schema

/-!
# Manifests and the documents that describe them

A manifest may be written in many ways: the keys of a table come in any order, and what equals its
default may be left out, be it a single field or a whole table.  Every such document reads back as
the manifest, and none of its tables may hold one more key.

The order of keys does not matter because each field changes a part of the record of its own: a
record is known once every key has been settled, either by an entry or by the default.
-/

namespace StagedBuild
namespace Schema

open Toml (Value Table)

/-! ## Tables of fields -/

/-- The short table holds entries of the full one in any order, and what it lacks may be omitted. -/
def Abridges (omittable : String × Value → Prop) (full short : Table) : Prop :=
  ∃ omitted, (short ++ omitted).Perm full ∧ ∀ entry ∈ omitted, omittable entry

/-- The wide table is the other one with one more entry somewhere. -/
def Widens (entry : String × Value) (table wide : Table) : Prop :=
  ∃ before after, table = before ++ after ∧ wide = before ++ entry :: after

theorem Abridges.refl (omittable : String × Value → Prop) (full : Table) :
    Abridges omittable full full :=
  ⟨[], by rw [List.append_nil], by simp⟩

section Reading

variable {α : Type} {fields : List (Field α)} {settled : String → α → Prop} {start goal : α}
  {omittable : String × Value → Prop} {full entries before after : Table}

theorem readEntries_append (before after : Table) (start : α) :
    readEntries fields start (before ++ after) =
      (readEntries fields start before).bind fun next => readEntries fields next after :=
  List.foldlM_append

theorem readEntries_cons (start : α) (entry : String × Value) (rest : Table) :
    readEntries fields start (entry :: rest) =
      (setByKey fields start entry).bind fun next => readEntries fields next rest :=
  List.foldlM_cons

/-- The entry can be read whatever was read before; it settles its own key and unsettles none. -/
def Settles (fields : List (Field α)) (settled : String → α → Prop)
    (entry : String × Value) : Prop :=
  ∀ record, ∃ next, setByKey fields record entry = .ok next ∧ settled entry.1 next ∧
    ∀ key, settled key record → settled key next

/-- What is settled after reading entries is what they name and what was settled before. -/
theorem readEntries_settles (start : α)
    (settles : ∀ entry ∈ entries, Settles fields settled entry) :
    ∃ last, readEntries fields start entries = .ok last ∧
      ∀ key, key ∈ entries.map Prod.fst ∨ settled key start → settled key last := by
  induction entries generalizing start with
  | nil => exact ⟨start, rfl, by simp⟩
  | cons entry entries induction =>
      rw [List.forall_mem_cons] at settles
      obtain ⟨next, read, own, others⟩ := settles.1 start
      obtain ⟨last, rest, kept⟩ := induction next settles.2
      refine ⟨last, by rw [readEntries_cons, read]; exact rest, fun key given => kept key ?_⟩
      rw [List.map_cons, List.mem_cons] at given
      rcases given with (rfl | later) | earlier
      · exact .inr own
      · exact .inl later
      · exact .inr (others key earlier)

/-- An abridged table reads as the record in which every key is settled. -/
theorem readEntries_abridged (settles : ∀ entry ∈ full, Settles fields settled entry)
    (complete : ∀ last, (∀ key, settled key last) → last = goal)
    (absent : ∀ key, key ∉ full.map Prod.fst → settled key start)
    (default : ∀ entry ∈ full, omittable entry → settled entry.1 start)
    (abridged : Abridges omittable full entries) :
    readEntries fields start entries = .ok goal := by
  obtain ⟨omitted, same, may_omit⟩ := abridged
  have among : ∀ entry, entry ∈ full ↔ entry ∈ entries ∨ entry ∈ omitted := by
    intro entry
    rw [← same.mem_iff, List.mem_append]
  obtain ⟨last, read, kept⟩ := readEntries_settles start fun entry member =>
    settles entry ((among entry).mpr (.inl member))
  rw [read, complete last fun key => kept key ?_]
  by_cases named : key ∈ full.map Prod.fst
  · obtain ⟨entry, member, rfl⟩ := List.mem_map.mp named
    rcases (among entry).mp member with present | missing
    · exact .inl (List.mem_map_of_mem present)
    · exact .inr (default entry member (may_omit entry missing))
  · exact .inr (absent key named)

/-- A key that the record does not have cannot be read. -/
theorem setByKey_unknown {key : String} (outside : key ∉ fields.map Field.key) (record : α)
    (value : Value) :
    setByKey fields record (key, value) = .error (.unknownField key (fields.map Field.key)) := by
  have missing : fields.find? (fun field => field.key == key) = none := by
    rw [List.find?_eq_none]
    intro field member same
    exact outside (List.mem_map.mpr ⟨field, member, by simpa using same⟩)
  rw [setByKey, missing]

/-- Where a table can be read, so can every part of it, one after the other. -/
theorem readEntries_between {last : α}
    (readable : readEntries fields start (before ++ after) = .ok last) :
    ∃ between, readEntries fields start before = .ok between ∧
      readEntries fields between after = .ok last := by
  rw [readEntries_append] at readable
  cases front : readEntries fields start before with
  | error problem => simp [front, Except.bind] at readable
  | ok between => exact ⟨between, rfl, by simpa [front, Except.bind] using readable⟩

/-- The first entry that cannot be read decides. -/
theorem readEntries_refused {between : α} {entry : String × Value} {problem : SchemaProblem}
    (front : readEntries fields start before = .ok between)
    (refused : setByKey fields between entry = .error problem) :
    readEntries fields start (before ++ entry :: after) = .error problem := by
  rw [readEntries_append, front, Except.bind, readEntries_cons, refused]
  rfl

/-- A table that can be read cannot be read any more once it holds an unknown key. -/
theorem readEntries_widened {last : α} {key : String} {value : Value} {table wide : Table}
    (outside : key ∉ fields.map Field.key) (widens : Widens (key, value) table wide)
    (readable : readEntries fields start table = .ok last) :
    readEntries fields start wide = .error (.unknownField key (fields.map Field.key)) := by
  obtain ⟨before, after, rfl, rfl⟩ := widens
  obtain ⟨between, front, -⟩ := readEntries_between readable
  exact readEntries_refused front (setByKey_unknown outside between value)

end Reading

/-- What cannot be read is not read on. -/
theorem bind_replaced {α β : Type} {first worse : Decoded α} {next : α → Decoded β} {result : β}
    {problem : SchemaProblem} (worsens : ∀ value, first = .ok value → worse = .error problem)
    (readable : first.bind next = .ok result) : worse.bind next = .error problem := by
  cases first with
  | error other => simp [Except.bind] at readable
  | ok value =>
      rw [worsens value rfl]
      rfl

/-- Replacing the value of an entry by one that cannot be read makes the table unreadable. -/
theorem readEntries_replaced {α : Type} {fields : List (Field α)} {start last : α}
    {before after : Table} {key : String} {value worse : Value} {problem : SchemaProblem}
    (worsens : ∀ record next, setByKey fields record (key, value) = .ok next →
      setByKey fields record (key, worse) = .error problem)
    (readable : readEntries fields start (before ++ (key, value) :: after) = .ok last) :
    readEntries fields start (before ++ (key, worse) :: after) = .error problem := by
  obtain ⟨between, front, rest⟩ := readEntries_between readable
  rw [readEntries_cons] at rest
  have refused := bind_replaced (worsens between) rest
  rw [readEntries_append, front, Except.bind, readEntries_cons, refused]

/-! ## Arrays -/

section Arrays

variable {α : Type} {read : Value → Decoded α}

/-- Values that can be read one by one can be read together. -/
theorem mapM_ok {values : List Value} {results : List α}
    (reads : List.Forall₂ (fun result value => read value = .ok result) results values) :
    values.mapM read = .ok results := by
  induction reads with
  | nil => rfl
  | cons first _ induction =>
      rw [List.mapM_cons, first, induction]
      rfl

/-- Replacing one of several readable values by one that cannot be read makes them unreadable. -/
theorem mapM_replaced {front back : List Value} {value worse : Value} {results : List α}
    {problem : SchemaProblem}
    (worsens : ∀ result, read value = .ok result → read worse = .error problem)
    (readable : (front ++ value :: back).mapM read = .ok results) :
    (front ++ worse :: back).mapM read = .error problem := by
  induction front generalizing results with
  | nil =>
      rw [List.nil_append, List.mapM_cons] at readable ⊢
      exact bind_replaced worsens readable
  | cons item front induction =>
      rw [List.cons_append, List.mapM_cons] at readable ⊢
      cases first : read item with
      | error other => simp [first, bind, Except.bind] at readable
      | ok result =>
          cases rest : (front ++ value :: back).mapM read with
          | error other => simp [first, rest, bind, Except.bind] at readable
          | ok others =>
              rw [induction rest]
              rfl

theorem sequence_strings (texts : List String) : sequence string (strings texts) = .ok texts := by
  refine mapM_ok ?_
  induction texts with
  | nil => exact .nil
  | cons first texts induction => exact .cons rfl induction

theorem strings_inj {texts others : List String} :
    strings texts = strings others ↔ texts = others := by
  rw [strings, strings, Value.array.injEq]
  exact List.map_inj_right fun _ _ same => by simpa using same

end Arrays

theorem eq_of_text {path other : Path} (same : path.text = other.text) : path = other := by
  cases path
  cases other
  simpa using same

/-! ## Toolchains -/

/-- The field under the key is the one of the other toolchain. -/
def SameToolchain (goal : Toolchain) (key : String) (read : Toolchain) : Prop :=
  (key = "tool" → read.tool = goal.tool) ∧
    (key = "subcommand" → read.subcommand = goal.subcommand) ∧
    (key = "library-args" → read.libraryArgs = goal.libraryArgs)

/-- Every field of a toolchain may be left out where it is the one of the default toolchain. -/
def AbridgedToolchain (toolchain : Toolchain) : Table → Prop :=
  Abridges (· ∈ encodeToolchain .odin) (encodeToolchain toolchain)

theorem settles_encodeToolchain (toolchain : Toolchain) :
    ∀ entry ∈ encodeToolchain toolchain,
      Settles toolchainFields (SameToolchain toolchain) entry := by
  simp only [encodeToolchain, List.forall_mem_cons, List.not_mem_nil, false_implies, implies_true,
    and_true]
  refine ⟨fun record => ⟨{ record with tool := toolchain.tool }, rfl, ?_⟩,
    fun record => ⟨{ record with subcommand := toolchain.subcommand }, rfl, ?_⟩,
    fun record => ⟨{ record with libraryArgs := toolchain.libraryArgs }, ?_, ?_⟩⟩
  · simp +contextual [SameToolchain]
  · simp +contextual [SameToolchain]
  · change (sequence string (strings toolchain.libraryArgs)).bind _ = _
    rw [sequence_strings]
    rfl
  · simp +contextual [SameToolchain]

theorem read_toolchain {toolchain : Toolchain} {table : Table}
    (abridged : AbridgedToolchain toolchain table) :
    readEntries toolchainFields .odin table = .ok toolchain := by
  refine readEntries_abridged (settles_encodeToolchain toolchain) ?complete ?absent ?default
    abridged
  case complete =>
    intro last same
    have tool := (same "tool").1 rfl
    have subcommand := (same "subcommand").2.1 rfl
    have args := (same "library-args").2.2 rfl
    cases last
    cases toolchain
    simp_all
  case absent =>
    simp +contextual [encodeToolchain, SameToolchain]
  case default =>
    simp +contextual [encodeToolchain, SameToolchain, strings_inj]

/-! ## Output directories -/

/-- The table of the build settings. -/
def encodeBuild (outDir : Path) : Table :=
  [("out-dir", .string outDir.text)]

/-- The output directory may be left out where it is the default one. -/
def AbridgedBuild (outDir : Path) : Table → Prop :=
  Abridges (· ∈ encodeBuild Manifest.defaultOutDir) (encodeBuild outDir)

theorem read_build {outDir : Path} {table : Table} (abridged : AbridgedBuild outDir table) :
    readEntries buildFields Manifest.defaultOutDir table = .ok outDir := by
  have settles : ∀ entry ∈ encodeBuild outDir,
      Settles buildFields (fun key read => key = "out-dir" → read = outDir) entry := by
    intro entry member record
    rw [encodeBuild, List.mem_singleton] at member
    exact ⟨outDir, by rw [member]; rfl, by simp, by simp⟩
  refine readEntries_abridged settles ?complete ?absent ?default abridged
  case complete =>
    exact fun last same => same "out-dir" rfl
  case absent =>
    simp +contextual [encodeBuild]
  case default =>
    rintro _ (member : _ ∈ [_]) omitted -
    rw [encodeBuild, List.mem_singleton] at omitted
    rw [List.mem_singleton.mp member, Prod.mk.injEq, Value.string.injEq] at omitted
    exact (eq_of_text omitted.2).symm

/-! ## Targets -/

/-- The field under the key is the one of the target. -/
def SameTarget (goal : TargetEntry) (key : String) (read : TargetDraft) : Prop :=
  (key = "name" → read.name = some goal.name) ∧
    (key = "kind" → read.kind = some goal.kind) ∧
    (key = "source-root" → read.sourceRoot = goal.sourceRoot) ∧
    (key = "output-name" → read.outputName = goal.outputName) ∧
    (key = "working-dir" → read.workingDir = goal.workingDir) ∧
    (key = "extra-args" → read.extraArgs = goal.extraArgs)

/-- The source root of a target may be left out where it is the default one. -/
def AbridgedTarget (entry : TargetEntry) : Table → Prop :=
  Abridges (· = ("source-root", .string TargetEntry.defaultSourceRoot.text)) (encodeTarget entry)

theorem kind_name (kind : TargetKind) : Schema.kind (.string kind.name) = .ok kind := by
  cases kind <;> rfl

theorem settles_encodeTarget (entry : TargetEntry) :
    ∀ field ∈ encodeTarget entry, Settles targetFields (SameTarget entry) field := by
  intro field member record
  simp only [encodeTarget, List.mem_append, List.mem_cons, List.not_mem_nil, or_false,
    Option.mem_toList, Option.map_eq_some_iff, List.mem_ite_nil_left] at member
  rcases member with
    ((((rfl | rfl | rfl) | ⟨name, given, rfl⟩) | ⟨directory, given, rfl⟩) | ⟨_, rfl⟩)
  · refine ⟨{ record with name := some entry.name }, rfl, ?_⟩
    simp +contextual [SameTarget]
  · refine ⟨{ record with kind := some entry.kind }, ?_, ?_⟩
    · change (kind (.string entry.kind.name)).bind _ = _
      rw [kind_name]
      rfl
    · simp +contextual [SameTarget]
  · refine ⟨{ record with sourceRoot := entry.sourceRoot }, rfl, ?_⟩
    simp +contextual [SameTarget]
  · refine ⟨{ record with outputName := some name }, rfl, ?_⟩
    simp +contextual [SameTarget, given]
  · refine ⟨{ record with workingDir := some directory }, rfl, ?_⟩
    simp +contextual [SameTarget, given]
  · refine ⟨{ record with extraArgs := entry.extraArgs }, ?_, ?_⟩
    · change (sequence string (strings entry.extraArgs)).bind _ = _
      rw [sequence_strings]
      rfl
    · simp +contextual [SameTarget]

/-- What the table of a target does not mention is what a target has by itself. -/
theorem sameTarget_of_absent {entry : TargetEntry} {key : String}
    (absent : key ∉ (encodeTarget entry).map Prod.fst) : SameTarget entry key {} := by
  refine ⟨?_, ?_, ?_, ?_, ?_, ?_⟩ <;> rintro rfl
  · simp [encodeTarget] at absent
  · simp [encodeTarget] at absent
  · simp [encodeTarget] at absent
  · cases given : entry.outputName with
    | none => rfl
    | some name => simp [encodeTarget, given] at absent
  · cases given : entry.workingDir with
    | none => rfl
    | some directory => simp [encodeTarget, given] at absent
  · cases given : entry.extraArgs with
    | nil => rfl
    | cons first rest => simp [encodeTarget, given] at absent

theorem read_target {entry : TargetEntry} {table : Table} (abridged : AbridgedTarget entry table) :
    target (.table table) = .ok entry := by
  let draft : TargetDraft :=
    ⟨some entry.name, some entry.kind, entry.sourceRoot, entry.outputName, entry.workingDir,
      entry.extraArgs⟩
  have read : readEntries targetFields {} table = .ok draft := by
    refine readEntries_abridged (settles_encodeTarget entry) ?complete
      (fun _ => sameTarget_of_absent) ?default abridged
    case complete =>
      intro last same
      have name := (same "name").1 rfl
      have kind := (same "kind").2.1 rfl
      have root := (same "source-root").2.2.1 rfl
      have output := (same "output-name").2.2.2.1 rfl
      have directory := (same "working-dir").2.2.2.2.1 rfl
      have args := (same "extra-args").2.2.2.2.2 rfl
      cases last
      simp_all [draft]
    case default =>
      rintro _ member rfl
      have root : entry.sourceRoot = TargetEntry.defaultSourceRoot :=
        (eq_of_text (by simpa [encodeTarget] using member)).symm
      simp [SameTarget, root]
  change (readEntries targetFields {} table).bind _ = _
  rw [read]
  rfl

/-! ## Manifests -/

/-- The entry is that of a part of the manifest that is as it is by default. -/
def IsDefaultPart (manifest : Manifest) (entry : String × Value) : Prop :=
  (entry.1 = "toolchain" ∧ manifest.toolchain = .odin) ∨
    (entry.1 = "build" ∧ manifest.outDir = Manifest.defaultOutDir) ∨
    (entry.1 = "target" ∧ manifest.targets = Manifest.defaultTargets)

/--
The table describes the manifest: it has the form of the encoded manifest, but the keys of every
table stand in any order, and what equals its default may be missing.
-/
inductive Describes (manifest : Manifest) : Table → Prop
  | intro {toolchain build table : Table} {targets : List Table} {list : Value}
      (toolchain_abridged : AbridgedToolchain manifest.toolchain toolchain)
      (build_abridged : AbridgedBuild manifest.outDir build)
      (targets_abridged : List.Forall₂ AbridgedTarget manifest.targets targets)
      (lists : list.items? = some (targets.map .table))
      (abridged : Abridges (IsDefaultPart manifest)
        [("toolchain", .table toolchain), ("build", .table build), ("target", list)] table) :
      Describes manifest table

/-- The part under the key is the one of the other manifest. -/
def SameManifest (goal : Manifest) (key : String) (read : Manifest) : Prop :=
  (key = "toolchain" → read.toolchain = goal.toolchain) ∧
    (key = "build" → read.outDir = goal.outDir) ∧
    (key = "target" → read.targets = goal.targets)

theorem describes_encode (manifest : Manifest) : Describes manifest (encode manifest) :=
  .intro (.refl _ _) (.refl _ _) (by
    rw [List.forall₂_map_right_iff]
    exact List.forall₂_same.mpr fun entry _ => .refl _ _) rfl (.refl _ _)

/-- Every document that describes a manifest reads as that manifest. -/
theorem decode_of_describes {manifest : Manifest} {table : Table}
    (describes : Describes manifest table) : decode table = .ok manifest := by
  obtain ⟨toolchain_abridged, build_abridged, targets_abridged, lists, abridged⟩ := describes
  rename_i toolchain build targets list
  have list_read : sequence target list = .ok manifest.targets := by
    rw [sequence, lists]
    refine mapM_ok (List.forall₂_map_right_iff.mpr ?_)
    exact targets_abridged.imp fun _ _ => read_target
  have settles : ∀ entry ∈ [("toolchain", .table toolchain), ("build", .table build),
      ("target", list)], Settles manifestFields (SameManifest manifest) entry := by
    simp only [List.forall_mem_cons, List.not_mem_nil, false_implies, implies_true, and_true]
    refine ⟨fun record => ⟨{ record with toolchain := manifest.toolchain }, ?_, ?_⟩,
      fun record => ⟨{ record with outDir := manifest.outDir }, ?_, ?_⟩,
      fun record => ⟨{ record with targets := manifest.targets }, ?_, ?_⟩⟩
    · change (readEntries toolchainFields .odin toolchain).bind _ = _
      rw [read_toolchain toolchain_abridged]
      rfl
    · simp +contextual [SameManifest]
    · change (readEntries buildFields Manifest.defaultOutDir build).bind _ = _
      rw [read_build build_abridged]
      rfl
    · simp +contextual [SameManifest]
    · change (sequence target list).bind _ = _
      rw [list_read]
      rfl
    · simp +contextual [SameManifest]
  refine readEntries_abridged settles ?complete ?absent ?default abridged
  case complete =>
    intro last same
    have toolchain := (same "toolchain").1 rfl
    have outDir := (same "build").2.1 rfl
    have targets := (same "target").2.2 rfl
    cases last
    cases manifest
    simp_all
  case absent =>
    simp +contextual [SameManifest]
  case default =>
    rintro entry member (⟨key, same⟩ | ⟨key, same⟩ | ⟨key, same⟩) <;>
      simp [SameManifest, key, same, Manifest.default]

/-- Reading undoes writing. -/
theorem decode_encode (manifest : Manifest) : decode (encode manifest) = .ok manifest :=
  decode_of_describes (describes_encode manifest)

/--
The wide table is the other one after a key has been added to it or to one of the tables in it,
where the record in that place has other keys only.
-/
inductive Intrudes (key : String) (value : Value) : List String → Table → Table → Prop
  | manifest {table wide : Table} (outside : key ∉ manifestFields.map Field.key)
      (widens : Widens (key, value) table wide) :
      Intrudes key value (manifestFields.map Field.key) table wide
  | toolchain {inner wider before after : Table}
      (outside : key ∉ toolchainFields.map Field.key) (widens : Widens (key, value) inner wider) :
      Intrudes key value (toolchainFields.map Field.key)
        (before ++ ("toolchain", .table inner) :: after)
        (before ++ ("toolchain", .table wider) :: after)
  | build {inner wider before after : Table}
      (outside : key ∉ buildFields.map Field.key) (widens : Widens (key, value) inner wider) :
      Intrudes key value (buildFields.map Field.key)
        (before ++ ("build", .table inner) :: after)
        (before ++ ("build", .table wider) :: after)
  | target {inner wider before after : Table} {earlier later : List Value} {list longer : Value}
      (outside : key ∉ targetFields.map Field.key) (widens : Widens (key, value) inner wider)
      (lists : list.items? = some (earlier ++ .table inner :: later))
      (lists_wider : longer.items? = some (earlier ++ .table wider :: later)) :
      Intrudes key value (targetFields.map Field.key)
        (before ++ ("target", list) :: after) (before ++ ("target", longer) :: after)

theorem target_widened {inner wider : Table} {key : String} {value : Value} {entry : TargetEntry}
    (outside : key ∉ targetFields.map Field.key) (widens : Widens (key, value) inner wider)
    (readable : target (.table inner) = .ok entry) :
    target (.table wider) = .error (.unknownField key (targetFields.map Field.key)) := by
  change (readEntries targetFields {} inner).bind _ = _ at readable
  change (readEntries targetFields {} wider).bind _ = _
  exact bind_replaced (fun _ read => readEntries_widened outside widens read) readable

/-- A document that reads as a manifest is refused once a key intrudes into one of its tables. -/
theorem decode_intruded {manifest : Manifest} {table wide : Table} {key : String} {value : Value}
    {expected : List String} (intrudes : Intrudes key value expected table wide)
    (readable : decode table = .ok manifest) :
    decode wide = .error (.unknownField key expected) := by
  cases intrudes with
  | manifest outside widens => exact readEntries_widened outside widens readable
  | toolchain outside widens =>
      refine readEntries_replaced (fun record next read => ?_) readable
      change (readEntries toolchainFields .odin _).bind _ = _ at read
      change (readEntries toolchainFields .odin _).bind _ = _
      exact bind_replaced (fun _ read => readEntries_widened outside widens read) read
  | build outside widens =>
      refine readEntries_replaced (fun record next read => ?_) readable
      change (readEntries buildFields Manifest.defaultOutDir _).bind _ = _ at read
      change (readEntries buildFields Manifest.defaultOutDir _).bind _ = _
      exact bind_replaced (fun _ read => readEntries_widened outside widens read) read
  | target outside widens lists lists_wider =>
      refine readEntries_replaced (fun record next read => ?_) readable
      change (sequence target _).bind _ = _ at read
      change (sequence target _).bind _ = _
      refine bind_replaced (fun targets read => ?_) read
      rw [sequence, lists] at read
      rw [sequence, lists_wider]
      exact mapM_replaced (fun _ read => target_widened outside widens read) read

/--
Whatever is left out of a document and in whatever order it stands, reading it answers the manifest
that it describes.  With one more key anywhere, be it in the document itself or in one of the tables
in it, it is refused for that key.
-/
theorem described_manifest_decodes {manifest : Manifest} {table : Table}
    (describes : Describes manifest table) :
    decode table = .ok manifest ∧
      ∀ key value expected wide, Intrudes key value expected table wide →
        decode wide = .error (.unknownField key expected) :=
  have read := decode_of_describes describes
  ⟨read, fun _ _ _ _ intrudes => decode_intruded intrudes read⟩

/-- A project with a tool of its own and one target. -/
def workshop : Manifest :=
  ⟨{ Toolchain.odin with tool := "zig" }, Manifest.defaultOutDir,
    [TargetEntry.minimal "app" .executable]⟩

/-- A document for it, given the entries of its only target. -/
def workshopTable (target : Table) : Table :=
  [("target", .array [.table target]), ("toolchain", .table [("tool", .string "zig")])]

/-- The kind of the only target, and then its name. -/
def workshopTarget : Table :=
  [("kind", .string "executable"), ("name", .string "app")]

theorem workshop_decodes :
    Describes workshop (workshopTable workshopTarget) ∧
      decode (workshopTable workshopTarget) = .ok workshop ∧
      decode (workshopTable (workshopTarget ++ [("jobs", .integer 4)])) =
        .error (.unknownField "jobs" (targetFields.map Field.key)) := by
  have toolchain : AbridgedToolchain workshop.toolchain [("tool", .string "zig")] :=
    ⟨(encodeToolchain .odin).tail, .refl _, fun _ member => List.mem_of_mem_tail member⟩
  have build : AbridgedBuild workshop.outDir [] :=
    ⟨encodeBuild workshop.outDir, .refl _, fun _ member => member⟩
  have target : AbridgedTarget (.minimal "app" .executable) workshopTarget :=
    ⟨[("source-root", .string ".")], .swap _ _ _, by simp [TargetEntry.defaultSourceRoot]⟩
  have describes : Describes workshop (workshopTable workshopTarget) :=
    .intro toolchain build (.cons target .nil) rfl
      ⟨[("build", .table [])], @List.perm_append_comm _ [_] [_, _],
        by simp [IsDefaultPart, workshop]⟩
  obtain ⟨read, refused⟩ := described_manifest_decodes describes
  have widens : Widens ("jobs", .integer 4) workshopTarget
      (workshopTarget ++ [("jobs", .integer 4)]) :=
    ⟨workshopTarget, [], (List.append_nil _).symm, rfl⟩
  have outside : "jobs" ∉ targetFields.map Field.key := by decide
  exact ⟨describes, read, refused "jobs" (.integer 4) _ _
    (@Intrudes.target _ _ _ _ [] _ [] [] _ _ outside widens rfl rfl)⟩

end Schema
end StagedBuild
