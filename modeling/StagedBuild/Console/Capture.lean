import StagedBuild.Process.Stream

/-!
# Captured output

A capture takes every line that it is given.  It records the text of the line without the end of the
line, together with the stream, in the order in which the lines arrive.
-/

namespace StagedBuild

/-- The lines that were recorded so far. -/
structure Capture where
  /-- The texts of the lines with their streams, the newest first. -/
  recorded : List (Stream × String) := []
  deriving DecidableEq, Repr

namespace Capture

def write (capture : Capture) (stream : Stream) (line : Bytes) : Capture :=
  { recorded := (stream, Lines.captured line) :: capture.recorded }

/-- Record lines in the order in which they arrive. -/
def ofArrived (arrived : List (Stream × Bytes)) : Capture :=
  arrived.foldl (fun capture item => capture.write item.1 item.2) {}

def lines (capture : Capture) : List (Stream × String) :=
  capture.recorded.reverse

def streamLines (capture : Capture) (stream : Stream) : List String :=
  (capture.lines.filter fun item => item.1 == stream).map Prod.snd

end Capture
end StagedBuild
