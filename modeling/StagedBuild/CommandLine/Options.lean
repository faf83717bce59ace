import StagedBuild.Console.Shell

/-!
# Command-line options

Options are switches, settings with a value, and the request for the version.  Switches and settings
may stand in front of a command or behind it, once on each side; a list of targets belongs to its
command and may have any length.
-/

namespace StagedBuild
namespace CommandLine

inductive Switch where
  | verbose
  | quiet
  deriving DecidableEq, Repr

inductive Setting where
  | color
  | manifestPath
  | tool
  | outDir
  /-- One more target; this setting may be repeated. -/
  | target
  deriving DecidableEq, Repr

inductive CommandName where
  | build
  | plan
  | clean
  deriving DecidableEq, Repr

/-- The side of the command on which options stand. -/
inductive Scope where
  | front
  | behind (command : CommandName)
  deriving DecidableEq, Repr

/-- Why a command line is refused. -/
inductive UsageError where
  | unexpected (word : String)
  /-- A switch or setting that was given before on the same side. -/
  | repeated (name : String)
  | missingValue (name : String)
  | needlessValue (name : String)
  | badValue (name value : String)
  deriving DecidableEq, Repr

namespace UsageError

def message : UsageError → String
  | unexpected word => "unexpected argument '" ++ word ++ "' found"
  | repeated name => "the argument '--" ++ name ++ "' cannot be used multiple times"
  | missingValue name => "a value is required for '--" ++ name ++ "' but none was supplied"
  | needlessValue name => "unexpected value for '--" ++ name ++ "' found; no more were expected"
  | badValue name value => "invalid value '" ++ value ++ "' for '--" ++ name ++ "'"

def exitCode : Int := 2

end UsageError

namespace Switch

def name : Switch → String
  | verbose => "verbose"
  | quiet => "quiet"

def letter : Switch → Char
  | verbose => 'v'
  | quiet => 'q'

def all : List Switch := [verbose, quiet]

end Switch

namespace Setting

def name : Setting → String
  | color => "color"
  | manifestPath => "manifest-path"
  | tool => "tool"
  | outDir => "out-dir"
  | target => "target"

def common : List Setting := [color, manifestPath, tool, outDir]

end Setting

namespace CommandName

def word : CommandName → String
  | build => "build"
  | plan => "plan"
  | clean => "clean"

def all : List CommandName := [build, plan, clean]

def takesTargets : CommandName → Bool
  | build | plan => true
  | clean => false

def ofWord? (word : String) : Option CommandName :=
  all.find? fun command => command.word == word

end CommandName

namespace Scope

/-- The settings that may stand on this side. -/
def settings : Scope → List Setting
  | front => Setting.common
  | behind command => Setting.common ++ (if command.takesTargets then [.target] else [])

end Scope

/-- The options given on one side of the command. -/
structure Options where
  verbose : Bool := false
  quiet : Bool := false
  color : Option ColorChoice := none
  manifestPath : Option Path := none
  tool : Option String := none
  outDir : Option Path := none
  targets : List String := []
  deriving DecidableEq, Repr

namespace Options

def turnOn (options : Options) (switch : Switch) : Except UsageError Options :=
  match switch with
  | .verbose =>
      if options.verbose then .error (.repeated switch.name)
      else .ok { options with verbose := true }
  | .quiet =>
      if options.quiet then .error (.repeated switch.name)
      else .ok { options with quiet := true }

/-- A path given as a value must not be empty. -/
def pathValue (setting : Setting) (value : String) : Except UsageError Path :=
  if value == "" then .error (.badValue setting.name value) else .ok ⟨value⟩

def unlessGiven {α : Type} (setting : Setting) (current : Option α) : Except UsageError Unit :=
  if current.isSome then .error (.repeated setting.name) else .ok ()

def assign (options : Options) (setting : Setting) (value : String) :
    Except UsageError Options := do
  match setting with
  | .color =>
      unlessGiven setting options.color
      let choice ← (ColorChoice.ofWord value).mapError fun _ => .badValue setting.name value
      .ok { options with color := some choice }
  | .manifestPath =>
      unlessGiven setting options.manifestPath
      .ok { options with manifestPath := some (← pathValue setting value) }
  | .tool =>
      unlessGiven setting options.tool
      .ok { options with tool := some value }
  | .outDir =>
      unlessGiven setting options.outDir
      .ok { options with outDir := some (← pathValue setting value) }
  | .target => .ok { options with targets := options.targets ++ [value] }

/-- The options of both sides; where both give a value, the one behind the command counts. -/
def merge (front behind : Options) : Options where
  verbose := front.verbose || behind.verbose
  quiet := front.quiet || behind.quiet
  color := behind.color <|> front.color
  manifestPath := behind.manifestPath <|> front.manifestPath
  tool := behind.tool <|> front.tool
  outDir := behind.outDir <|> front.outDir
  targets := front.targets ++ behind.targets

end Options
end CommandLine
end StagedBuild
