import StagedBuild.CommandLine.Options

/-!
# Requests

A command line is read word by word from the left.  In front of the command the request for the
version ends the reading, and so does the first error on either side.  A command line without a
command asks for a build of all targets.
-/

namespace StagedBuild
namespace CommandLine

/-- How reading the words of one side ended. -/
inductive Ending where
  | finished
  | version
  /-- A command came up, with these words behind it. -/
  | command (name : CommandName) (rest : List String)
  deriving DecidableEq, Repr

inductive LongOption where
  | switch (switch : Switch)
  | setting (setting : Setting)
  | version
  deriving DecidableEq, Repr

def versionName : String := "version"

def versionLetter : Char := 'V'

def longOption? (scope : Scope) (name : String) : Option LongOption :=
  match Switch.all.find? fun switch => switch.name == name with
  | some switch => some (.switch switch)
  | none =>
      match scope.settings.find? fun setting => setting.name == name with
      | some setting => some (.setting setting)
      | none => if scope == .front && name == versionName then some .version else none

/-- A long option without its hyphens, cut at the first `=`. -/
def splitLong (body : List Char) : String × Option String :=
  (String.ofList (body.takeWhile (· != '=')),
    match body.dropWhile (· != '=') with
    | [] => none
    | _ :: value => some (String.ofList value))

/-- The word is not taken as the value of the option in front of it. -/
def isHyphenated (word : String) : Bool :=
  match word.toList with
  | '-' :: _ :: _ => true
  | _ => false

/-- Read the letters of one word; the flag says that the version was asked for. -/
def readLetters (scope : Scope) (word : String) :
    Options → List Char → Except UsageError (Options × Bool)
  | options, [] => .ok (options, false)
  | options, letter :: rest =>
      match Switch.all.find? fun switch => switch.letter == letter with
      | some switch => do readLetters scope word (← options.turnOn switch) rest
      | none =>
          if scope == .front && letter == versionLetter then .ok (options, true)
          else .error (.unexpected word)

/-- Read the words of one side. -/
def readWords (scope : Scope) : Options → List String → Except UsageError (Options × Ending)
  | options, [] => .ok (options, .finished)
  | options, word :: rest =>
      match word.toList with
      | ['-', '-'] =>
          match rest with
          | [] => .ok (options, .finished)
          | extra :: _ => .error (.unexpected extra)
      | '-' :: '-' :: body =>
          let (name, value?) := splitLong body
          match longOption? scope name, value? with
          | none, _ => .error (.unexpected word)
          | some .version, none => .ok (options, .version)
          | some .version, some _ => .error (.needlessValue name)
          | some (.switch switch), none => do
              readWords scope (← options.turnOn switch) rest
          | some (.switch _), some _ => .error (.needlessValue name)
          | some (.setting setting), some value => do
              readWords scope (← options.assign setting value) rest
          | some (.setting setting), none =>
              match rest with
              | [] => .error (.missingValue name)
              | value :: rest =>
                  if isHyphenated value then .error (.missingValue name)
                  else do readWords scope (← options.assign setting value) rest
      | '-' :: letter :: letters => do
          let (options, version) ← readLetters scope word options (letter :: letters)
          if version then .ok (options, .version) else readWords scope options rest
      | _ =>
          match scope, CommandName.ofWord? word with
          | .front, some name => .ok (options, .command name rest)
          | _, _ => .error (.unexpected word)

/-- What a command is to do. -/
inductive Action where
  | build (targets : List String)
  | plan (targets : List String)
  | clean
  deriving DecidableEq, Repr

/-- What a command line asks for. -/
inductive Request where
  | version
  | act (options : Options) (action : Action)
  deriving DecidableEq, Repr

namespace Request

def action (command : CommandName) (targets : List String) : Action :=
  match command with
  | .build => .build targets
  | .plan => .plan targets
  | .clean => .clean

/-- The request that a command line makes. -/
def ofWords (words : List String) : Except UsageError Request := do
  match ← readWords .front {} words with
  | (_, .version) => .ok .version
  | (front, .finished) => .ok (.act front (.build []))
  | (front, .command command rest) =>
      let (behind, _) ← readWords (.behind command) {} rest
      .ok (.act (front.merge behind) (action command behind.targets))

end Request
end CommandLine
end StagedBuild
