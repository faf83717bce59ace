import StagedBuild.Build.Event

/-!
# Status lines

A status line is a word, right-aligned to a fixed width and possibly coloured, and a message.  A
quiet shell shows nothing but errors.
-/

namespace StagedBuild

inductive ColorChoice where
  /-- When the output goes to a terminal. -/
  | auto
  | always
  | never
  deriving DecidableEq, Repr

structure InvalidColorChoice where
  word : String
  deriving DecidableEq, Repr

namespace InvalidColorChoice

def message (problem : InvalidColorChoice) : String :=
  "invalid color choice '" ++ problem.word ++ "'; expected 'auto', 'always', or 'never'"

end InvalidColorChoice

namespace ColorChoice

def name : ColorChoice → String
  | auto => "auto"
  | always => "always"
  | never => "never"

def all : List ColorChoice := [auto, always, never]

/-- The choice that a word stands for, in capitals or not. -/
def ofWord (word : String) : Except InvalidColorChoice ColorChoice :=
  match all.find? fun choice => choice.name == word.toLower with
  | some choice => .ok choice
  | none => .error ⟨word⟩

end ColorChoice

namespace Status

def word : Status → String
  | built => "Built"
  | finished => "Finished"
  | removed => "Removed"
  | building => "Building"
  | error => "error"

/-- The terminal code that switches the colour of a status on: green, cyan or red. -/
def colorCode : Status → String
  | built | finished | removed => "\x1b[1;32m"
  | building => "\x1b[1;36m"
  | error => "\x1b[1;31m"

end Status

/-- How status lines are shown. -/
structure Shell where
  quiet : Bool := false
  colored : Bool := false
  deriving DecidableEq, Repr

namespace Shell

def statusWidth : Nat := 12

def resetCode : String := "\x1b[0m"

/-- The shell of a choice of colours, for output that goes to a terminal or not. -/
def ofChoice (quiet : Bool) (choice : ColorChoice) (terminal : Bool) : Shell where
  quiet := quiet
  colored :=
    match choice with
    | .auto => terminal
    | .always => true
    | .never => false

def alignRight (width : Nat) (text : String) : String :=
  String.ofList (List.replicate (width - text.length) ' ') ++ text

def label (shell : Shell) (status : Status) : String :=
  let aligned := alignRight statusWidth status.word
  if shell.colored then status.colorCode ++ aligned ++ resetCode else aligned

def shows (shell : Shell) (line : StatusLine) : Bool :=
  !shell.quiet || line.status == .error

/-- A status line as it is shown, if it is. -/
def text (shell : Shell) (line : StatusLine) : String :=
  if shell.shows line then shell.label line.status ++ " " ++ line.message ++ "\n" else ""

end Shell
end StagedBuild
