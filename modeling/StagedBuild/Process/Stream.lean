import StagedBuild.IoError.Basic
import StagedBuild.Text.Lines

/-!
# Output streams and their destinations

A running tool writes on two streams.  Its lines go to a sink, which may accept a line, refuse it
with an error, or break down.
-/

namespace StagedBuild

inductive Stream where
  | stdout
  | stderr
  deriving DecidableEq, Repr

namespace Stream

def name : Stream → String
  | stdout => "stdout"
  | stderr => "stderr"

end Stream

inductive SinkReply where
  | accepted
  | refused (error : IoError)
  /-- The sink broke down. -/
  | panicked
  deriving DecidableEq, Repr

/--
A destination for lines.  The answer may depend on the stream, on how many lines of that stream were
taken before, and on the line.
-/
structure Sink where
  reply : Stream → Nat → Bytes → SinkReply

namespace Sink

def accepting : Sink := ⟨fun _ _ _ => .accepted⟩

/-- A sink that takes some lines of each stream and then gives one answer for good. -/
def limited (limit : Stream → Option (Nat × SinkReply)) : Sink where
  reply stream earlier _ :=
    match limit stream with
    | some (count, reply) => if earlier < count then .accepted else reply
    | none => .accepted

/-- The sink as it stands once it has taken some lines of each stream. -/
def later (sink : Sink) (outLines errLines : Nat) : Sink where
  reply stream earlier line :=
    match stream with
    | .stdout => sink.reply .stdout (outLines + earlier) line
    | .stderr => sink.reply .stderr (errLines + earlier) line

end Sink
end StagedBuild
