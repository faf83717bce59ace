import StagedBuild.Console.Transcript
import StagedBuild.Process.Execute
import StagedBuild.Proofs.Build.Plan
import StagedBuild.Proofs.Process.Interleaving
import StagedBuild.Proofs.Process.Relay

/-!
# Processes that are relayed to one sink

A session launches processes one after the other and relays all of them to one sink.  The order in
which the lines of both streams arrive is left open: it may depend on all that has happened.  In the
events of a session, the lines of each process stand together, between the launch and the end of
the process, and are an interleaving of what was relayed of both streams.
-/

namespace StagedBuild

namespace Child

/-- The pipe from a stream, if there is one. -/
def pipe? (child : Child) : Stream → Option Pipe
  | .stdout => child.stdout
  | .stderr => child.stderr

/-- Everything that arrives on a stream. -/
def written (child : Child) (stream : Stream) : Bytes :=
  Relay.delivered (child.pipe? stream)

end Child

/-- The launcher of the same processes whose lines arrive in another order. -/
def Launcher.reordered (launcher : Launcher) (order : Child → List Stream) : Launcher where
  launch tree cwd command :=
    (launcher.launch tree cwd command).map fun (child, tree) =>
      ({ child with schedule := order child }, tree)

/-- The runner of the same processes whose lines arrive in another order. -/
def ProcessRunner.reordered (runner : ProcessRunner) (order : Child → List Stream) :
    ProcessRunner :=
  { runner with launcher := runner.launcher.reordered order }

/-- Where a session finds and launches its processes, and where their output goes. -/
structure Session where
  searchPath : SearchPath
  /-- Starts the processes of each call, given how many calls there were. -/
  launcher : Nat → Launcher
  sink : Sink

/-- A process of a session. -/
structure Launch where
  target : Target
  /-- The sink as it stands at the launch. -/
  sink : Sink
  child : Child

namespace Launch

/-- The lines of a stream that the relay hands over. -/
def relayed (launch : Launch) (stream : Stream) : List Bytes :=
  (Relay.run launch.sink stream (launch.child.pipe? stream)).1

/-- The lines of a stream as the process writes them. -/
def lines (launch : Launch) (stream : Stream) : List Bytes :=
  Lines.split (launch.child.written stream)

/-- No read from the process fails, and the sink takes each of its lines. -/
structure Undisturbed (launch : Launch) : Prop where
  reads : ∀ stream, ∀ pipe ∈ launch.child.pipe? stream, pipe.failure = none
  writes : ∀ stream, launch.sink.Takes stream (launch.lines stream)

theorem relayed_eq_lines {launch : Launch} (undisturbed : launch.Undisturbed) :
    launch.relayed = launch.lines := by
  funext stream
  rw [relayed, Relay.run_eq_split (undisturbed.reads stream) (undisturbed.writes stream)]
  rfl

end Launch

/-- The process that a runner launches, if it launches one. -/
def ProcessRunner.launch? (runner : ProcessRunner) (tree : FileTree) (cwd : Location)
    (target : Target) (invocation : Invocation) : Option Launch := do
  let program ← Tool.resolve runner.searchPath tree cwd invocation.program invocation.cwd
  let (child, _) ← (runner.launcher.launch tree cwd
    ⟨program, invocation.args, invocation.cwd⟩).toOption
  some ⟨target, runner.sink, child⟩

namespace Session

/-- The process runner of a call, with the sink as it stands then. -/
def processes (session : Session) (world : World) : ProcessRunner :=
  ProcessRunner.inWorld
    ⟨session.searchPath, session.launcher world.calls.length, session.sink⟩ world

/-- The runner of a session in which the lines of a process arrive in some order. -/
def runner (session : Session) (order : World → Child → List Stream) : Runner where
  run world target invocation :=
    ((session.processes world).reordered (order world)).run world.tree world.cwd target invocation

/-- The process that a call launches, if it launches one. -/
def launch? (session : Session) (target : Target) (invocation : Invocation) (world : World) :
    Option Launch :=
  (session.processes world).launch? world.tree world.cwd target invocation

/-- Whatever is launched, nothing fails: its pipes end regularly, and its lines are taken. -/
structure Undisturbed (session : Session) : Prop where
  reads : ∀ calls tree cwd command child left,
    (session.launcher calls).launch tree cwd command = .ok (child, left) →
      ∀ stream, ∀ pipe ∈ child.pipe? stream, pipe.failure = none
  writes : ∀ stream earlier line, session.sink.reply stream earlier line = .accepted

theorem Undisturbed.launch {session : Session} (undisturbed : session.Undisturbed) {target : Target}
    {invocation : Invocation} {world : World} {launch : Launch}
    (launched : session.launch? target invocation world = some launch) : launch.Undisturbed := by
  simp only [launch?, ProcessRunner.launch?, Option.bind_eq_bind, Option.bind_eq_some_iff]
    at launched
  obtain ⟨program, -, ⟨child, left⟩, answer, launch_eq⟩ := launched
  obtain rfl := Option.some.inj launch_eq
  constructor
  · cases started : (session.processes world).launcher.launch world.tree world.cwd
        ⟨program, invocation.args, invocation.cwd⟩ with
    | error error => simp [started, Except.toOption] at answer
    | ok pair =>
        rw [started] at answer
        obtain rfl := Option.some.inj answer
        exact undisturbed.reads _ _ _ _ _ _ started
  · intro stream index line _
    cases stream <;> exact undisturbed.writes _ _ line

end Session

/-- The event shows no line of a process and launches none, and prints nothing. -/
def Event.isQuiet : Event → Bool
  | .tool (.line _ _) | .tool (.launched _ true) | .printed _ => false
  | _ => true

/-- The arrival of a line as an event. -/
def Event.arrival (item : Stream × Bytes) : Event :=
  .tool (.line item.1 item.2)

/--
The events are those of some processes, with these lines: each process is launched in its call, its
lines arrive in one piece, and all else is quiet.
-/
inductive Relays (lines : Launch → Stream → List Bytes) : List Launch → List Event → Prop
  | quiet {events : List Event} (quiet : ∀ event ∈ events, event.isQuiet = true) :
      Relays lines [] events
  | launch {launch : Launch} {launches : List Launch} {before later : List Event}
      {invocation : Invocation} {program : Path} {message : String}
      {arrived : List (Stream × Bytes)} (quiet : ∀ event ∈ before, event.isQuiet = true)
      (interleaves : Interleaves (lines launch) arrived) (rest : Relays lines launches later) :
      Relays lines (launch :: launches)
        (before ++ .called launch.target invocation
          :: .tool (.resolved invocation.program (some program)) :: .tool (.log .debug message)
          :: .tool (.launched program true) :: (arrived.map Event.arrival ++ later))

namespace Relays

variable {lines : Launch → Stream → List Bytes} {launches more : List Launch}
  {events later : List Event}

theorem quiet_append (quiet : ∀ event ∈ events, event.isQuiet = true)
    (relays : Relays lines launches later) : Relays lines launches (events ++ later) := by
  cases relays with
  | quiet others =>
      apply Relays.quiet
      intro event member
      exact (List.mem_append.mp member).elim (quiet event) (others event)
  | launch others interleaves rest =>
      rw [← List.append_assoc]
      apply Relays.launch _ interleaves rest
      intro event member
      exact (List.mem_append.mp member).elim (quiet event) (others event)

/-- The events of some processes and then those of others. -/
theorem append (first : Relays lines launches events) (second : Relays lines more later) :
    Relays lines (launches ++ more) (events ++ later) := by
  induction first with
  | quiet quiet => exact second.quiet_append quiet
  | launch quiet interleaves _ induction =>
      simp only [List.append_assoc, List.cons_append]
      exact .launch quiet interleaves induction

theorem congr {others : Launch → Stream → List Bytes}
    (same : ∀ launch ∈ launches, others launch = lines launch)
    (relays : Relays lines launches events) : Relays others launches events := by
  induction relays with
  | quiet quiet => exact .quiet quiet
  | launch quiet interleaves _ induction =>
      rw [List.forall_mem_cons] at same
      exact .launch quiet (same.1 ▸ interleaves) (induction same.2)

end Relays

namespace Console

/-- What the sink writes to a stream for an event. -/
def relayedOf (stream : Stream) : Event → Bytes
  | .tool (.line other bytes) => if other = stream then Lines.terminate bytes else []
  | _ => []

/-- Everything that the sink writes to a stream. -/
def relayed (stream : Stream) (trace : List Event) : Bytes :=
  trace.flatMap (relayedOf stream)

/-- A view of events that are quiet or lines of processes, when quiet events do not show in it. -/
theorem flatMap_relays {view : Event → Bytes} {stream : Stream}
    {lines : Launch → Stream → List Bytes} {launches : List Launch} {events : List Event}
    (silent : ∀ event : Event, event.isQuiet = true → view event = [])
    (unseen : ∀ program, view (.tool (.launched program true)) = [])
    (shows : ∀ item : Stream × Bytes, view (.arrival item) =
      if item.1 = stream then Lines.terminate item.2 else [])
    (relays : Relays lines launches events) :
    events.flatMap view =
      launches.flatMap fun launch => (lines launch stream).flatMap Lines.terminate := by
  have silent_all : ∀ events : List Event, (∀ event ∈ events, event.isQuiet = true) →
      events.flatMap view = [] := fun events quiet =>
    List.flatMap_eq_nil_iff.mpr fun event member => silent event (quiet event member)
  have arrivals : ∀ arrived : List (Stream × Bytes), (arrived.map Event.arrival).flatMap view =
      (stream.linesOf arrived).flatMap Lines.terminate := by
    intro arrived
    induction arrived with
    | nil => rfl
    | cons item arrived induction =>
        rw [List.map_cons, List.flatMap_cons, induction, shows, Stream.linesOf_cons]
        split
        · rfl
        · rfl
  induction relays with
  | quiet quiet => exact silent_all _ quiet
  | launch quiet interleaves _ induction =>
      rw [List.flatMap_append, silent_all _ quiet, List.flatMap_cons, List.flatMap_cons,
        List.flatMap_cons, List.flatMap_cons, List.flatMap_append, arrivals, interleaves stream,
        induction, silent _ rfl, silent _ rfl, silent _ rfl, unseen]
      rfl

theorem stdout_relays {lines : Launch → Stream → List Bytes} {launches : List Launch}
    {events : List Event} (relays : Relays lines launches events) :
    stdout events =
      launches.flatMap fun launch => (lines launch .stdout).flatMap Lines.terminate := by
  apply flatMap_relays _ (fun _ => rfl) _ relays
  · intro event quiet
    unfold stdoutOf
    split <;> simp_all [Event.isQuiet]
  · rintro ⟨stream, bytes⟩
    cases stream <;> rfl

theorem relayed_relays (stream : Stream) {lines : Launch → Stream → List Bytes}
    {launches : List Launch} {events : List Event} (relays : Relays lines launches events) :
    relayed stream events =
      launches.flatMap fun launch => (lines launch stream).flatMap Lines.terminate := by
  apply flatMap_relays _ (fun _ => rfl) (fun _ => rfl) relays
  intro event quiet
  unfold relayedOf
  split <;> simp_all [Event.isQuiet]

end Console
end StagedBuild
