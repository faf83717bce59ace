import StagedBuild.Console.Shell

/-!
# What a user sees

The two outputs of the program are read off the events of a run.  Lines of tools go to the stream
that the tool wrote them on, printed lines go to standard output, and all else goes to standard
error.  What the program itself writes there is taken to arrive; only the lines of tools go through
a sink that may refuse them.
-/

namespace StagedBuild

/-- How the events of a run are shown. -/
structure Console where
  shell : Shell := {}
  verbose : Bool := false
  deriving DecidableEq, Repr

namespace LogLevel

/-- The word in front of a log message, aligned to the longest one. -/
def label : LogLevel → String
  | debug => "DEBUG"
  | warn => " WARN"

end LogLevel

namespace Console

def hexDigit (digit : Nat) : Char :=
  if digit < 10 then Char.ofNat (0x30 + digit) else Char.ofNat (0x61 + (digit - 10))

def hexPair (value : Nat) : List Char :=
  [hexDigit (value / 16 % 16), hexDigit (value % 16)]

/-- Controls that could command a terminal: bell, backspace, form feed, escape, delete. -/
def terminalControls : List Nat := [0x07, 0x08, 0x0C, 0x1B, 0x7F]

/-- A character of a log message as it is shown; what could command a terminal is spelled out. -/
def logChar (char : Char) : List Char :=
  let code := char.toNat
  if terminalControls.contains code then '\\' :: 'x' :: hexPair code
  else if 0x80 ≤ code ∧ code ≤ 0x9F then
    ['\\', 'u', '\x7b'] ++ hexPair code ++ ['\x7d']
  else [char]

def logText (console : Console) (level : LogLevel) (message : String) : String :=
  if level == .debug && !console.verbose then ""
  else
    level.label ++ " " ++ String.ofList (message.toList.flatMap logChar) ++ "\n"

def stateMessage (before after : BuildState) : String :=
  "build state " ++ before.label ++ " -> " ++ after.label

/-- What an event shows on standard output. -/
def stdoutOf : Event → Bytes
  | .tool (.line .stdout bytes) => Lines.terminate bytes
  | .printed text => Utf8.encode (text ++ "\n")
  | _ => []

/-- What an event shows on standard error. -/
def stderrOf (console : Console) : Event → Bytes
  | .tool (.line .stderr bytes) => Lines.terminate bytes
  | .log level message | .tool (.log level message) =>
      Utf8.encode (console.logText level message)
  | .state before after => Utf8.encode (console.logText .debug (stateMessage before after))
  | .status line => Utf8.encode (console.shell.text line)
  | .gaveUp message => Utf8.encode ("error: " ++ message ++ "\n")
  | _ => []

def stdout (trace : List Event) : Bytes :=
  trace.flatMap stdoutOf

def stderr (console : Console) (trace : List Event) : Bytes :=
  trace.flatMap console.stderrOf

end Console
end StagedBuild
