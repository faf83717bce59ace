import StagedBuild.Process.Stream

/-!
# Relaying a stream to a sink

A relay reads a pipe to its end and offers every line to the sink, in order, until the sink refuses
one; after that it keeps reading, so that the writer never blocks.  What the relay does depends on
the bytes of the pipe and on how the pipe ends, not on the sizes of the pieces that are read.
-/

namespace StagedBuild

inductive PipeRead where
  | chunk (bytes : Bytes)
  /-- The call was interrupted and is made again. -/
  | interrupted
  deriving DecidableEq, Repr

structure Pipe where
  reads : List PipeRead
  /-- The error in which the pipe ends, if it does not end regularly. -/
  failure : Option IoError := none
  deriving DecidableEq, Repr

namespace Pipe

def content (pipe : Pipe) : Bytes :=
  pipe.reads.flatMap fun
    | .chunk bytes => bytes
    | .interrupted => []

end Pipe

inductive RelayOutcome where
  | completed
  | readFailed (error : IoError)
  /-- Everything was read, but a line could not be written. -/
  | writeFailed (error : IoError)
  | panicked
  deriving DecidableEq, Repr

namespace RelayOutcome

/-- The error for which the reading side is given up; a breakdown counts as one. -/
def readFailure? : RelayOutcome → Option IoError
  | readFailed error => some error
  | panicked => some (.custom .other "relay thread panicked")
  | _ => none

def writeFailure? : RelayOutcome → Option IoError
  | writeFailed error => some error
  | _ => none

end RelayOutcome

/-- A relay between two bytes of its pipe. -/
structure Relay where
  /-- Bytes of the line that is not complete yet, the newest first. -/
  unfinished : Bytes := []
  /-- Lines that the sink has taken, the newest first. -/
  taken : List Bytes := []
  count : Nat := 0
  count_eq : count = taken.length := by rfl
  /-- The line that the sink did not take, with its answer; no line is offered after it. -/
  stopped : Option (Bytes × SinkReply) := none
  deriving DecidableEq

namespace Relay

def offered (relay : Relay) : List Bytes :=
  relay.taken.reverse ++ (relay.stopped.map Prod.fst).toList

def offer (sink : Sink) (stream : Stream) (relay : Relay) (line : Bytes) : Relay :=
  if relay.stopped.isSome then relay
  else
    match sink.reply stream relay.count line with
    | .accepted =>
        { relay with
          taken := line :: relay.taken
          count := relay.count + 1
          count_eq := congrArg (· + 1) relay.count_eq }
    | reply => { relay with stopped := some (line, reply) }

def push (sink : Sink) (stream : Stream) (relay : Relay) (byte : UInt8) : Relay :=
  let line := byte :: relay.unfinished
  if byte = Lines.newline then
    { offer sink stream relay line.reverse with unfinished := [] }
  else { relay with unfinished := line }

def step (sink : Sink) (stream : Stream) (relay : Relay) : PipeRead → Relay
  | .chunk bytes => bytes.foldl (push sink stream) relay
  | .interrupted => relay

/-- Offer the line that the regular end of the pipe completes. -/
def close (sink : Sink) (stream : Stream) (relay : Relay) : Relay :=
  if relay.unfinished.isEmpty then relay
  else { offer sink stream relay relay.unfinished.reverse with unfinished := [] }

def drain (sink : Sink) (stream : Stream) (pipe : Pipe) : Relay :=
  let relay := pipe.reads.foldl (step sink stream) {}
  match pipe.failure with
  | some _ => relay
  | none => close sink stream relay

def outcome (relay : Relay) (failure : Option IoError) : RelayOutcome :=
  match relay.stopped.map Prod.snd, failure with
  | some .panicked, _ => .panicked
  | _, some error => .readFailed error
  | some (.refused error), none => .writeFailed error
  | _, none => .completed

/-- What a relay hands over and how it ends; without a pipe there is nothing to do. -/
def run (sink : Sink) (stream : Stream) : Option Pipe → List Bytes × RelayOutcome
  | none => ([], .completed)
  | some pipe =>
      let relay := drain sink stream pipe
      (relay.taken.reverse, relay.outcome pipe.failure)

end Relay

/-- Lines of both streams after those that have arrived, which are given the newest first. -/
def interleaveAfter (arrived : List (Stream × Bytes)) :
    List Stream → List Bytes → List Bytes → List (Stream × Bytes)
  | .stdout :: schedule, line :: out, err =>
      interleaveAfter ((.stdout, line) :: arrived) schedule out err
  | .stderr :: schedule, out, line :: err =>
      interleaveAfter ((.stderr, line) :: arrived) schedule out err
  | _ :: schedule, out, err => interleaveAfter arrived schedule out err
  | [], out, err =>
      arrived.reverse ++ (out.map (Prod.mk .stdout) ++ err.map (Prod.mk .stderr))

/--
The lines of both streams in the order in which they arrive: the schedule names the stream of each
next line while it lasts, and what is left of standard output then precedes what is left of standard
error.
-/
def interleave (schedule : List Stream) (out err : List Bytes) : List (Stream × Bytes) :=
  interleaveAfter [] schedule out err

end StagedBuild
