import StagedBuild.Manifest.Basic
import StagedBuild.Text.Quoted
import StagedBuild.Toml.Value

/-!
# Manifests as documents

A manifest is read off the table of a document and written back to one.  Reading visits the keys in
the order in which they stand and stops at the first problem; what is missing takes its default, and
an unknown key is a problem.  A record may also be given as an array of its fields in order.
-/

namespace StagedBuild

open Toml (Value Table)

/-- Why the content of a document is not a manifest. -/
inductive SchemaProblem where
  | unknownField (name : String) (expected : List String)
  | missingField (name : String)
  | invalidType (found : Value) (wanted : String)
  /-- An array that is too short for its record. -/
  | invalidLength (count : Nat) (wanted : String)
  | unknownKind (word : String)
  /-- A kind that is neither a word nor a table. -/
  | kindForm
  | kindEmpty
  /-- A kind given as a table with more than one key. -/
  | kindAmbiguous
  /-- A kind whose key leads to something other than a table or an array. -/
  | kindContent (found : Value)
  /-- A kind whose key leads to a table, or an array between brackets, that holds something. -/
  | kindNotEmptyTable
  /-- A kind whose key leads to an array of tables. -/
  | kindNotEmptyArray

namespace SchemaProblem

def ticked (word : String) : String :=
  "`" ++ word ++ "`"

/-- The end of a message that lists what would be accepted. -/
def expectedOneOf : List String → String
  | [] => "there are no fields"
  | [first] => "expected " ++ ticked first
  | [first, second] => "expected " ++ ticked first ++ " or " ++ ticked second
  | words => "expected one of " ++ String.intercalate ", " (words.map ticked)

def describe : Value → String
  | .string text => "string " ++ Text.quoted text
  | .integer value => "integer " ++ ticked (toString value)
  | .float value => "floating point " ++ ticked value.text
  | .boolean value => "boolean " ++ ticked (if value then "true" else "false")
  | .datetime _ => "map"
  | .array _ => "sequence"
  | .table _ => "map"
  | .tables _ => "sequence"

def message : SchemaProblem → String
  | unknownField name expected => "unknown field " ++ ticked name ++ ", " ++ expectedOneOf expected
  | missingField name => "missing field " ++ ticked name
  | invalidType found wanted => "invalid type: " ++ describe found ++ ", expected " ++ wanted
  | invalidLength count wanted =>
      "invalid length " ++ toString count ++ ", expected " ++ wanted
  | unknownKind word =>
      "unknown variant " ++ ticked word ++ ", "
        ++ expectedOneOf (TargetKind.libraryWords ++ TargetKind.executableWords)
  | kindForm => "wanted string or table"
  | kindEmpty => "wanted exactly 1 element, found 0 elements"
  | kindAmbiguous => "wanted exactly 1 element, more than 1 element"
  | kindContent found => "expected table, found " ++ found.typeName
  | kindNotEmptyTable => "expected empty table"
  | kindNotEmptyArray => "expected empty array"

end SchemaProblem

namespace Schema

/-- What reading a value answers. -/
abbrev Decoded (α : Type) := Except SchemaProblem α

def text (wanted : String) : Value → Decoded String
  | .string text => .ok text
  | found => .error (.invalidType found wanted)

def string : Value → Decoded String := text "a string"

def path (value : Value) : Decoded Path :=
  (text "path string" value).map Path.mk

def sequence {α : Type} (item : Value → Decoded α) (value : Value) : Decoded (List α) :=
  match value.items? with
  | some items => items.mapM item
  | none => .error (.invalidType value "a sequence")

def kindOfWord (word : String) : Decoded TargetKind :=
  match TargetKind.ofWord? word with
  | some kind => .ok kind
  | none => .error (.unknownKind word)

/-- The content of a kind that is given as a table, which must hold nothing. -/
def emptyContent : Value → Decoded Unit
  | .table [] | .array [] | .tables [] => .ok ()
  | .table _ | .array _ => .error .kindNotEmptyTable
  | .tables _ => .error .kindNotEmptyArray
  | found => .error (.kindContent found)

/-- The kind of a target: a word, or a table whose only key is that word and leads to nothing. -/
def kind : Value → Decoded TargetKind
  | .string word => kindOfWord word
  | .table [] => .error .kindEmpty
  | .table [(word, content)] => do
      let kind ← kindOfWord word
      emptyContent content
      .ok kind
  | .table _ => .error .kindAmbiguous
  | _ => .error .kindForm

/-- A field of a record: its key, and how its value changes the record. -/
structure Field (α : Type) where
  key : String
  set : α → Value → Decoded α

/-- The key under which a date counts as a table. -/
def dateKey : String := "$__toml_private_datetime"

def setByKey {α : Type} (fields : List (Field α)) (record : α) (entry : String × Value) :
    Decoded α :=
  match fields.find? fun field => field.key == entry.1 with
  | some field => field.set record entry.2
  | none => .error (.unknownField entry.1 (fields.map Field.key))

def readEntries {α : Type} (fields : List (Field α)) (record : α) (entries : Table) : Decoded α :=
  entries.foldlM (setByKey fields) record

/-- Read the items of an array into the fields of a record, in order; further items are ignored. -/
def readItems {α : Type} : List (Field α) → α → List Value → Decoded α
  | field :: fields, record, value :: values => do
      readItems fields (← field.set record value) values
  | _, record, _ => .ok record

/-- A record of which every field has a default. -/
def record {α : Type} (name : String) (fields : List (Field α)) (default : α) :
    Value → Decoded α
  | .table entries => readEntries fields default entries
  | .array items => readItems fields default items
  | .tables items => readItems fields default (items.map .table)
  | .datetime _ => .error (.unknownField dateKey (fields.map Field.key))
  | found => .error (.invalidType found ("struct " ++ name))

def toolchainFields : List (Field Toolchain) :=
  [⟨"tool", fun toolchain value => do
      let tool ← string value
      .ok { toolchain with tool := tool }⟩,
    ⟨"subcommand", fun toolchain value => do
      let subcommand ← string value
      .ok { toolchain with subcommand := subcommand }⟩,
    ⟨"library-args", fun toolchain value => do
      let args ← sequence string value
      .ok { toolchain with libraryArgs := args }⟩]

def buildFields : List (Field Path) :=
  [⟨"out-dir", fun _ value => path value⟩]

/-- A target of which not every field has been read. -/
structure TargetDraft where
  name : Option String := none
  kind : Option TargetKind := none
  sourceRoot : Path := TargetEntry.defaultSourceRoot
  outputName : Option String := none
  workingDir : Option Path := none
  extraArgs : List String := []

def targetFields : List (Field TargetDraft) :=
  [⟨"name", fun draft value => do
      let name ← string value
      .ok { draft with name := some name }⟩,
    ⟨"kind", fun draft value => do
      let kind ← kind value
      .ok { draft with kind := some kind }⟩,
    ⟨"source-root", fun draft value => do
      let root ← path value
      .ok { draft with sourceRoot := root }⟩,
    ⟨"output-name", fun draft value => do
      let name ← string value
      .ok { draft with outputName := some name }⟩,
    ⟨"working-dir", fun draft value => do
      let directory ← path value
      .ok { draft with workingDir := some directory }⟩,
    ⟨"extra-args", fun draft value => do
      let args ← sequence string value
      .ok { draft with extraArgs := args }⟩]

/-- The finished target, unless a field without default is missing. -/
def TargetDraft.finish (draft : TargetDraft) (missing : String → SchemaProblem) :
    Decoded TargetEntry :=
  match draft.name, draft.kind with
  | none, _ => .error (missing "name")
  | some _, none => .error (missing "kind")
  | some name, some kind =>
      .ok ⟨name, kind, draft.sourceRoot, draft.outputName, draft.workingDir, draft.extraArgs⟩

def targetShape : String := "struct TargetConfig with 6 elements"

def target (value : Value) : Decoded TargetEntry := do
  let draft ← record "TargetConfig" targetFields {} value
  match value.items? with
  | some items => draft.finish fun _ => .invalidLength items.length targetShape
  | none => draft.finish .missingField

def manifestFields : List (Field Manifest) :=
  [⟨"toolchain", fun manifest value => do
      let toolchain ← record "ToolchainConfig" toolchainFields .odin value
      .ok { manifest with toolchain := toolchain }⟩,
    ⟨"build", fun manifest value => do
      let outDir ← record "BuildConfig" buildFields Manifest.defaultOutDir value
      .ok { manifest with outDir := outDir }⟩,
    ⟨"target", fun manifest value => do
      let targets ← sequence target value
      .ok { manifest with targets := targets }⟩]

def decode (entries : Table) : Decoded Manifest :=
  readEntries manifestFields Manifest.default entries

def strings (texts : List String) : Value :=
  .array (texts.map .string)

def encodeToolchain (toolchain : Toolchain) : Table :=
  [("tool", .string toolchain.tool), ("subcommand", .string toolchain.subcommand),
    ("library-args", strings toolchain.libraryArgs)]

/-- The table of a target; what is absent or empty is left out. -/
def encodeTarget (entry : TargetEntry) : Table :=
  [("name", .string entry.name), ("kind", .string entry.kind.name),
    ("source-root", .string entry.sourceRoot.text)]
    ++ (entry.outputName.map fun name => ("output-name", Value.string name)).toList
    ++ (entry.workingDir.map fun directory => ("working-dir", Value.string directory.text)).toList
    ++ (if entry.extraArgs.isEmpty then [] else [("extra-args", strings entry.extraArgs)])

def encode (manifest : Manifest) : Table :=
  [("toolchain", .table (encodeToolchain manifest.toolchain)),
    ("build", .table [("out-dir", .string manifest.outDir.text)]),
    ("target", .tables (manifest.targets.map encodeTarget))]

end Schema
end StagedBuild
