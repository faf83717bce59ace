import StagedBuild.IoError.Errno

/-!
# Errors of the operating system

An error is a system error number, a bare kind, or a kind with a text of its own.  Its message is
fixed by these, and so is its kind.
-/

namespace StagedBuild

/-- An error of the operating system or of the code in front of it. -/
inductive IoError where
  | system (errno : Errno)
  /-- A kind and nothing else. -/
  | bare (kind : IoErrorKind)
  /-- A kind with a text of its own. -/
  | custom (kind : IoErrorKind) (text : String)
  deriving DecidableEq, Repr

namespace IoError

def kind : IoError → IoErrorKind
  | system errno => errno.kind
  | bare kind => kind
  | custom kind _ => kind

def message : IoError → String
  | system errno => errno.description ++ " (os error " ++ toString errno.number ++ ")"
  | bare kind => kind.description
  | custom _ text => text

def nulInPath : IoError := .custom .invalidInput "file name contained an unexpected NUL byte"

def nulInCommand : IoError := .custom .invalidInput "nul byte found in provided data"

def emptyPath : IoError := .custom .invalidInput "cannot make an empty path absolute"

def notUtf8 : IoError := .custom .invalidData "stream did not contain valid UTF-8"

end IoError
end StagedBuild
