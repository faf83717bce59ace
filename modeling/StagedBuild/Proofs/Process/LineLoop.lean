import Mathlib.Data.List.TakeWhile
import StagedBuild.Proofs.Process.Offering

/-!
# Reading line by line through a buffer

A relay may also read its lines through a buffer, which holds what was read beyond the line.  Where
the pipe cuts its bytes, how often it is interrupted and what is left in the buffer all make no
difference: the sink is offered the lines of the whole stream, and the pipe is read to its end even
where the sink does not take them.
-/

namespace StagedBuild

open Lines (newline split)

namespace Pipe

variable {sink : Sink} {stream : Stream} {relay : Relay} {failure : Option IoError}
  {line buffer : Bytes} {reads : List PipeRead}

/-! ## Reading through a buffer -/

/-- All bytes of these answers. -/
def bytesOf (reads : List PipeRead) : Bytes :=
  content ⟨reads, none⟩

/--
Read one line, of which some bytes have been read.  The answer is the line, without its newline if
the pipe ended first, with what is left in the buffer; an interrupted call is made again, and an
answer without bytes is taken for the end.
-/
def readLine (failure : Option IoError) (line buffer : Bytes) (reads : List PipeRead) :
    Except IoError (Bytes × Bytes) × List PipeRead :=
  match buffer.dropWhile (· != newline) with
  | last :: rest => (.ok (line ++ buffer.takeWhile (· != newline) ++ [last], rest), reads)
  | [] =>
      match reads with
      | [] =>
          match failure with
          | some error => (.error error, [])
          | none => (.ok (line ++ buffer, []), [])
      | .interrupted :: reads => readLine failure (line ++ buffer) [] reads
      | .chunk bytes :: reads =>
          if bytes.isEmpty then (.ok (line ++ buffer, []), reads)
          else readLine failure (line ++ buffer) bytes reads

/-- No answer without bytes, which would be an end. -/
def IsProper (pipe : Pipe) : Prop :=
  .chunk [] ∉ pipe.reads

theorem readLine_of_newline {front : Bytes} (failure : Option IoError) (line : Bytes)
    (open_front : newline ∉ front) (rest : Bytes) (reads : List PipeRead) :
    readLine failure line (front ++ newline :: rest) reads =
      (.ok (line ++ front ++ [newline], rest), reads) := by
  have before : ∀ byte ∈ front, (byte != newline) = true := by
    intro byte member
    simpa using fun same : byte = newline => open_front (same ▸ member)
  have dropped : (front ++ newline :: rest).dropWhile (· != newline) = newline :: rest := by
    rw [List.dropWhile_append_of_pos before]
    rfl
  have taken : (front ++ newline :: rest).takeWhile (· != newline) = front := by
    rw [List.takeWhile_append_of_pos before]
    simp
  unfold readLine
  rw [dropped, taken]

/-- How reading goes on where the buffer holds no end of a line. -/
theorem readLine_of_open (failure : Option IoError) (line : Bytes) (open_buffer : newline ∉ buffer)
    (reads : List PipeRead) :
    readLine failure line buffer reads =
      match reads with
      | [] => (failure.elim (.ok (line ++ buffer, [])) .error, [])
      | .interrupted :: reads => readLine failure (line ++ buffer) [] reads
      | .chunk bytes :: reads =>
          if bytes.isEmpty then (.ok (line ++ buffer, []), reads)
          else readLine failure (line ++ buffer) bytes reads := by
  have dropped : buffer.dropWhile (· != newline) = [] := by
    rw [List.dropWhile_eq_nil_iff]
    intro byte member
    simpa using fun same : byte = newline => open_buffer (same ▸ member)
  rw [readLine.eq_def, dropped]
  cases reads with
  | nil => cases failure <;> rfl
  | cons read reads => cases read <;> rfl

/-- The buffer holds the end of a line, or it does not. -/
theorem exists_newline_or_open (buffer : Bytes) :
    newline ∉ buffer ∨ ∃ front rest, newline ∉ front ∧ buffer = front ++ newline :: rest := by
  by_cases ends : newline ∈ buffer
  · obtain ⟨front, rest, rfl, open_front⟩ := List.eq_append_cons_of_mem ends
    exact .inr ⟨front, rest, open_front, rfl⟩
  · exact .inl ends

theorem bytesOf_interrupted (reads : List PipeRead) :
    bytesOf (.interrupted :: reads) = bytesOf reads := rfl

theorem bytesOf_chunk (bytes : Bytes) (reads : List PipeRead) :
    bytesOf (.chunk bytes :: reads) = bytes ++ bytesOf reads := rfl

/-- Reading a line neither loses a byte nor adds one. -/
theorem readLine_bytes {whole rest : Bytes} {unread : List PipeRead}
    (read : readLine failure line buffer reads = (.ok (whole, rest), unread)) :
    line ++ buffer ++ bytesOf reads = whole ++ (rest ++ bytesOf unread) := by
  induction reads generalizing line buffer with
  | nil =>
      rcases exists_newline_or_open buffer with open_buffer | ⟨front, rest, open_front, rfl⟩
      · rw [readLine_of_open failure line open_buffer] at read
        cases failure <;> cases read
        simp
      · rw [readLine_of_newline failure line open_front] at read
        cases read
        simp
  | cons answer reads induction =>
      rcases exists_newline_or_open buffer with open_buffer | ⟨front, rest, open_front, rfl⟩
      · rw [readLine_of_open failure line open_buffer] at read
        cases answer with
        | interrupted =>
            rw [bytesOf_interrupted, ← induction read, List.append_nil]
        | chunk bytes =>
            dsimp only at read
            split at read
            · rename_i empty
              cases read
              rw [List.isEmpty_iff.mp empty]
              simp [bytesOf_chunk]
            · rw [bytesOf_chunk, ← induction read]
              simp
      · rw [readLine_of_newline failure line open_front] at read
        cases read
        simp

/-- Reading found the end of a line: these bytes are in front of it, and the others behind. -/
def FindsLine (failure : Option IoError) (line buffer : Bytes) (reads : List PipeRead) : Prop :=
  ∃ front rest unread, newline ∉ front ∧ unread <:+ reads ∧
    line ++ buffer ++ bytesOf reads = front ++ newline :: (rest ++ bytesOf unread) ∧
    readLine failure line buffer reads = (.ok (front ++ [newline], rest), unread)

/-- Reading found the end of the pipe: all bytes belong to the last line, if it is not cut. -/
def FindsEnd (failure : Option IoError) (line buffer : Bytes) (reads : List PipeRead) : Prop :=
  newline ∉ line ++ buffer ++ bytesOf reads ∧
    readLine failure line buffer reads =
      (failure.elim (.ok (line ++ buffer ++ bytesOf reads, [])) .error, [])

theorem findsLine_of_newline {front : Bytes} (failure : Option IoError) (open_line : newline ∉ line)
    (open_front : newline ∉ front) (rest : Bytes) (reads : List PipeRead) :
    FindsLine failure line (front ++ newline :: rest) reads :=
  ⟨line ++ front, rest, reads, by simp [open_line, open_front], List.suffix_rfl, by simp,
    readLine_of_newline failure line open_front rest reads⟩

/-- Reading from a proper pipe finds the end of a line or that of the pipe. -/
theorem readLine_spec (proper : .chunk [] ∉ reads) (open_line : newline ∉ line) :
    FindsLine failure line buffer reads ∨ FindsEnd failure line buffer reads := by
  induction reads generalizing line buffer with
  | nil =>
      rcases exists_newline_or_open buffer with open_buffer | ⟨front, rest, open_front, rfl⟩
      · refine .inr ⟨by simp [bytesOf, content, open_line, open_buffer], ?_⟩
        rw [readLine_of_open failure line open_buffer]
        simp [bytesOf, content]
      · exact .inl (findsLine_of_newline failure open_line open_front rest [])
  | cons answer reads induction =>
      rw [List.mem_cons, not_or] at proper
      rcases exists_newline_or_open buffer with open_buffer | ⟨front, rest, open_front, rfl⟩
      · have open_both : newline ∉ line ++ buffer := by simp [open_line, open_buffer]
        -- What is read next stands behind the bytes of the line so far.
        have goes_on : ∀ bytes, bytesOf (answer :: reads) = bytes ++ bytesOf reads →
            readLine failure line buffer (answer :: reads) =
              readLine failure (line ++ buffer) bytes reads →
            FindsLine failure line buffer (answer :: reads) ∨
              FindsEnd failure line buffer (answer :: reads) := by
          intro bytes bytes_eq read_eq
          have later := @induction (line ++ buffer) bytes proper.2 open_both
          rw [FindsLine, FindsEnd, List.append_assoc _ bytes, ← bytes_eq, ← read_eq] at later
          refine later.imp_left fun found => ?_
          obtain ⟨front, rest, unread, open_front, suffix, found⟩ := found
          exact ⟨front, rest, unread, open_front, suffix.trans (List.suffix_cons _ _), found⟩
        cases answer with
        | interrupted => exact goes_on [] rfl (readLine_of_open failure line open_buffer _)
        | chunk bytes =>
            refine goes_on bytes rfl ((readLine_of_open failure line open_buffer _).trans ?_)
            have some_byte : ¬ bytes.isEmpty = true := by
              intro empty
              rw [List.isEmpty_iff.mp empty] at proper
              exact proper.1 rfl
            exact if_neg some_byte
      · exact .inl (findsLine_of_newline failure open_line open_front rest (answer :: reads))

/-! ## The loop -/

/-- What following a pipe to its end came to. -/
structure Followed where
  relay : Relay
  /-- The error in which reading ended. -/
  failure : Option IoError := none
  /-- What was not asked for any more. -/
  unread : List PipeRead := []

/-- Follow a pipe line by line, and offer each line to the sink; a sink that breaks down ends it. -/
def followFrom (sink : Sink) (stream : Stream) (failure : Option IoError) (relay : Relay)
    (buffer : Bytes) (reads : List PipeRead) : Followed :=
  match _read : readLine failure [] buffer reads with
  | (.error error, unread) => ⟨relay, some error, unread⟩
  | (.ok ([], _), unread) => ⟨relay, none, unread⟩
  | (.ok (byte :: bytes, rest), unread) =>
      let relay := Relay.offer sink stream relay (byte :: bytes)
      if relay.stopped.map Prod.snd = some .panicked then ⟨relay, none, unread⟩
      else followFrom sink stream failure relay rest unread
termination_by buffer.length + (bytesOf reads).length
decreasing_by
  have kept := congrArg List.length (readLine_bytes _read)
  simp at kept
  omega

/-- Follow a pipe from its start, with an empty buffer. -/
def follow (sink : Sink) (stream : Stream) (pipe : Pipe) : Followed :=
  followFrom sink stream pipe.failure .fresh [] pipe.reads

/-- How following a pipe ended. -/
def Followed.outcome (followed : Followed) : RelayOutcome :=
  followed.relay.outcome followed.failure

/-- What reading a line answers is the first line that is left, or tells that there is none. -/
theorem readLine_lines (failure : Option IoError) (buffer : Bytes) (proper : .chunk [] ∉ reads) :
    match readLine failure [] buffer reads with
    | (.error error, unread) =>
        failure = some error ∧ unread = [] ∧ Lines.upTo failure (buffer ++ bytesOf reads) = []
    | (.ok ([], _), unread) =>
        failure = none ∧ unread = [] ∧ Lines.upTo failure (buffer ++ bytesOf reads) = []
    | (.ok (byte :: bytes, rest), unread) =>
        .chunk [] ∉ unread ∧ Lines.upTo failure (buffer ++ bytesOf reads) =
          (byte :: bytes) :: Lines.upTo failure (rest ++ bytesOf unread) := by
  rcases @readLine_spec failure [] buffer reads proper (by simp) with
    ⟨front, rest, unread, open_front, suffix, bytes_eq, read⟩ | ⟨open_bytes, read⟩
  · have proper_unread : .chunk [] ∉ unread := fun member => proper (suffix.subset member)
    rw [List.nil_append] at bytes_eq
    rw [read, bytes_eq, Lines.upTo_append_newline failure open_front]
    cases front <;> exact ⟨proper_unread, rfl⟩
  · rw [List.nil_append] at open_bytes read
    rw [read, Lines.upTo_of_not_mem failure open_bytes]
    cases failure with
    | some error => simp
    | none =>
        cases bytes : buffer ++ bytesOf reads with
        | nil => simp
        | cons byte bytes => simp [Lines.upTo, split, bytesOf, content]

/-- To follow a pipe is to offer its lines, and to read it to its end if the sink lets it. -/
theorem followFrom_spec (proper : .chunk [] ∉ reads) :
    let followed := followFrom sink stream failure relay buffer reads
    let last := Relay.offerAll sink stream relay (Lines.upTo failure (buffer ++ bytesOf reads))
    followed.relay = last ∧
      (last.stopped.map Prod.snd ≠ some .panicked →
        followed.failure = failure ∧ followed.unread = []) := by
  have lines := readLine_lines failure buffer proper
  fun_induction followFrom sink stream failure relay buffer reads
  case case1 read =>
    rw [read] at lines
    obtain ⟨failure_eq, unread_eq, nothing⟩ := lines
    rw [nothing]
    exact ⟨rfl, fun _ => ⟨failure_eq.symm, unread_eq⟩⟩
  case case2 read =>
    rw [read] at lines
    obtain ⟨failure_eq, unread_eq, nothing⟩ := lines
    rw [nothing]
    exact ⟨rfl, fun _ => ⟨failure_eq.symm, unread_eq⟩⟩
  case case3 read _ panicked =>
    rw [read] at lines
    obtain ⟨-, lines_eq⟩ := lines
    have stopped := congrArg Option.isSome panicked
    rw [Option.isSome_map] at stopped
    rw [lines_eq, Relay.offerAll_cons, Relay.offerAll_of_stopped stopped]
    exact ⟨rfl, fun sound => absurd panicked sound⟩
  case case4 read _ _ induction =>
    rw [read] at lines
    obtain ⟨proper_unread, lines_eq⟩ := lines
    rw [lines_eq, Relay.offerAll_cons]
    exact induction proper_unread (readLine_lines failure _ proper_unread)

/-- The lines that a relay of the pipe has to offer. -/
def lines (pipe : Pipe) : List Bytes :=
  Lines.upTo pipe.failure pipe.content

/-- To take in what a pipe answers is to take in its bytes. -/
theorem foldl_step (reads : List PipeRead) (relay : Relay) :
    reads.foldl (Relay.step sink stream) relay =
      (bytesOf reads).foldl (Relay.push sink stream) relay := by
  induction reads generalizing relay with
  | nil => rfl
  | cons answer reads induction =>
      rw [List.foldl_cons, induction]
      cases answer with
      | interrupted => rfl
      | chunk bytes =>
          rw [bytesOf_chunk, List.foldl_append]
          rfl

/-- The relay that takes in one byte at a time offers the lines of its pipe. -/
theorem settled_drain (sink : Sink) (stream : Stream) (pipe : Pipe) :
    (Relay.drain sink stream pipe).settled = Relay.offerAll sink stream .fresh pipe.lines := by
  have drained : Relay.drain sink stream pipe =
      Relay.finish sink stream pipe.failure
        ((bytesOf pipe.reads).foldl (Relay.push sink stream) {}) := by
    rw [Relay.drain, foldl_step]
    cases pipe.failure <;> rfl
  rw [drained, Relay.settled_finish_pushed pipe.failure (bytesOf pipe.reads) (by simp)]
  rfl

/-- Following a pipe comes to the same as offering its lines. -/
theorem follow_spec (sink : Sink) (stream : Stream) {pipe : Pipe} (proper : pipe.IsProper) :
    let last := Relay.offerAll sink stream .fresh pipe.lines
    (pipe.follow sink stream).relay = last ∧
      (pipe.follow sink stream).outcome = last.outcome pipe.failure ∧
      (last.stopped.map Prod.snd ≠ some .panicked → (pipe.follow sink stream).unread = []) := by
  intro last
  obtain ⟨relay_eq, sound⟩ : (pipe.follow sink stream).relay = last ∧
      (last.stopped.map Prod.snd ≠ some .panicked →
        (pipe.follow sink stream).failure = pipe.failure ∧
          (pipe.follow sink stream).unread = []) :=
    @followFrom_spec sink stream .fresh pipe.failure [] pipe.reads proper
  refine ⟨relay_eq, ?_, fun no_panic => (sound no_panic).2⟩
  rw [Followed.outcome, relay_eq]
  by_cases panicked : last.stopped.map Prod.snd = some .panicked
  · rw [Relay.outcome_of_panicked panicked, Relay.outcome_of_panicked panicked]
  · rw [(sound panicked).1]

/--
A relay that reads line by line offers its sink the lines of the stream, in order, up to and
including the first that the sink does not take, and reads on to the end of the pipe unless the sink
breaks down.  An error in which reading ends counts before one that the sink answered.  The relay
that takes in one byte at a time comes to the same, and neither where the pipe cuts its bytes nor
how often it is interrupted makes a difference.
-/
theorem relay_is_exact (sink : Sink) (stream : Stream) {pipe : Pipe} (proper : pipe.IsProper) :
    let lines := pipe.lines
    let patience := sink.patience stream lines
    let failing := (sink.replies stream lines)[patience]?
    let followed := pipe.follow sink stream
    followed.relay.offered = lines.take (patience + 1) ∧
      (failing ≠ some .panicked → followed.unread = [] ∧
        (∀ error, pipe.failure = some error → followed.outcome = .readFailed error) ∧
        (∀ error, pipe.failure = none → failing = some (.refused error) →
          followed.outcome = .writeFailed error) ∧
        (pipe.failure = none → failing = none → followed.outcome = .completed)) ∧
      (failing = some .panicked → followed.outcome = .panicked) ∧
      Relay.run sink stream (some pipe) = (lines.take patience, followed.outcome) ∧
      (Relay.drain sink stream pipe).offered = followed.relay.offered ∧
      ∀ other : Pipe, other.IsProper → other.content = pipe.content →
        other.failure = pipe.failure →
          (other.follow sink stream).relay.offered = followed.relay.offered ∧
            (other.follow sink stream).outcome = followed.outcome := by
  intro lines patience failing followed
  obtain ⟨relay_eq, outcome_eq, consumed⟩ := follow_spec sink stream proper
  obtain ⟨taken, offered, stopped⟩ :=
    @Relay.offerAll_spec sink stream .fresh rfl Sink.takes_nil lines
  rw [Relay.taken_fresh, List.reverse_nil, List.nil_append] at taken offered stopped
  have drained := settled_drain sink stream pipe
  rw [stopped] at consumed
  have followed_offered : followed.relay.offered = lines.take (patience + 1) := by
    rw [relay_eq]
    exact offered
  have drain_offered : (Relay.drain sink stream pipe).offered = lines.take (patience + 1) := by
    rw [← offered, ← drained]
    rfl
  rw [outcome_eq]
  refine ⟨followed_offered, fun no_panic => ⟨consumed no_panic, ?_⟩, fun panic => ?_, ?_,
    drain_offered.trans followed_offered.symm, ?_⟩
  · have ends := @Relay.outcome_of_sound (Relay.offerAll sink stream .fresh lines) pipe.failure
      (by rwa [stopped])
    rwa [stopped] at ends
  · exact Relay.outcome_of_panicked (stopped.trans panic)
  · rw [← taken, ← drained]
    rfl
  · intro other other_proper same_bytes same_ending
    obtain ⟨other_relay_eq, other_outcome_eq, -⟩ := follow_spec sink stream other_proper
    have same_lines : other.lines = pipe.lines := by
      rw [Pipe.lines, Pipe.lines, same_bytes, same_ending]
    rw [other_relay_eq, other_outcome_eq, same_lines, same_ending, relay_eq]
    exact ⟨rfl, rfl⟩

/-- Three lines in two pieces, with an interruption in the middle of the second line. -/
def uneven : Pipe where
  reads := [.chunk (Utf8.encode "one\ntw"), .interrupted, .chunk (Utf8.encode "o\nthree")]

/-- The sink refuses the second line, is not asked again, and the pipe is read to its end. -/
theorem uneven_is_exact :
    let sink := Sink.limited fun _ => some (1, .refused (.bare .brokenPipe))
    uneven.IsProper ∧
      (uneven.follow sink .stdout).relay.offered = [Utf8.encode "one\n", Utf8.encode "two\n"] ∧
      (uneven.follow sink .stdout).unread = [] ∧
      (uneven.follow sink .stdout).outcome = .writeFailed (.bare .brokenPipe) := by
  intro sink
  have proper : uneven.IsProper := by
    rw [IsProper]
    decide +kernel
  obtain ⟨offered, sound, -⟩ := relay_is_exact sink .stdout proper
  have failing : (sink.replies .stdout uneven.lines)[sink.patience .stdout uneven.lines]? =
      some (.refused (.bare .brokenPipe)) := by decide +kernel
  obtain ⟨consumed, -, refused, -⟩ := sound (by simp [failing])
  refine ⟨proper, offered.trans ?_, consumed, refused _ rfl failing⟩
  decide +kernel

end Pipe
end StagedBuild
