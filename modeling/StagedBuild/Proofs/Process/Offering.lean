import Mathlib.Data.List.Basic
import StagedBuild.Proofs.Process.Relay

/-!
# Offering lines to a sink

A sink is offered lines one after the other, up to the first that it does not take, and never again.
The relay that takes in one byte at a time comes to the same as offering the lines of its stream.
-/

namespace StagedBuild

open Lines (newline split isTerminated)

namespace Lines

/-- The lines of a stream that ends in a failure or not; a failure takes the line that it cuts. -/
def upTo (failure : Option IoError) (bytes : Bytes) : List Bytes :=
  match failure with
  | none => split bytes
  | some _ => (split bytes).filter isTerminated

variable {failure : Option IoError} {line : Bytes}

theorem upTo_append_newline (failure : Option IoError) (open_line : newline ∉ line)
    (rest : Bytes) :
    upTo failure (line ++ newline :: rest) = (line ++ [newline]) :: upTo failure rest := by
  cases failure with
  | none => exact split_append_newline open_line rest
  | some error =>
      rw [upTo, upTo, split_append_newline open_line,
        List.filter_cons_of_pos (isTerminated_append_newline line)]

theorem upTo_of_not_mem (failure : Option IoError) (open_line : newline ∉ line) :
    upTo failure line = if line.isEmpty || failure.isSome then [] else [line] := by
  cases failure with
  | none => simp [upTo, split_of_not_mem open_line]
  | some error =>
      have unterminated : ¬ isTerminated line = true := by
        rw [isTerminated, beq_iff_eq]
        exact fun ends => open_line (List.mem_of_getLast? ends)
      rw [upTo, split_of_not_mem open_line]
      cases line.isEmpty <;> simp [unterminated]

end Lines

namespace Sink

/-- The answers of the sink to lines of a stream, as long as it takes them. -/
def replies (sink : Sink) (stream : Stream) (lines : List Bytes) : List SinkReply :=
  lines.mapIdx (sink.reply stream)

/-- How many lines the sink takes before the first that it does not take. -/
def patience (sink : Sink) (stream : Stream) (lines : List Bytes) : Nat :=
  (sink.replies stream lines).findIdx (· != .accepted)

variable {sink : Sink} {stream : Stream} {lines later : List Bytes} {line : Bytes}

theorem takes_nil : sink.Takes stream [] := by
  intro index line found
  simp at found

theorem Takes.concat (takes : sink.Takes stream lines)
    (accepted : sink.reply stream lines.length line = .accepted) :
    sink.Takes stream (lines ++ [line]) := by
  intro index other found
  rcases Nat.lt_trichotomy index lines.length with earlier | last | beyond
  · exact takes index other (by rwa [List.getElem?_append_left earlier] at found)
  · subst last
    rw [List.getElem?_concat_length] at found
    rw [← Option.some.inj found]
    exact accepted
  · rw [List.getElem?_eq_none (by simpa using Nat.succ_le_of_lt beyond)] at found
    contradiction

theorem replies_of_takes (takes : sink.Takes stream lines) :
    ∀ reply ∈ sink.replies stream lines, reply = .accepted := by
  intro reply member
  obtain ⟨index, bound, rfl⟩ := List.mem_mapIdx.mp member
  exact takes index _ (List.getElem?_eq_getElem bound)

theorem patience_of_takes (takes : sink.Takes stream lines) :
    sink.patience stream lines = lines.length := by
  rw [patience, List.findIdx_eq_length_of_false, replies, List.length_mapIdx]
  intro reply member
  simp [replies_of_takes takes reply member]

theorem patience_of_fails (takes : sink.Takes stream lines)
    (fails : sink.reply stream lines.length line ≠ .accepted) (later : List Bytes) :
    sink.patience stream (lines ++ line :: later) = lines.length ∧
      (sink.replies stream (lines ++ line :: later))[lines.length]? =
        some (sink.reply stream lines.length line) := by
  have split_replies : sink.replies stream (lines ++ line :: later) =
      sink.replies stream lines ++ sink.reply stream lines.length line ::
        later.mapIdx fun index => sink.reply stream (index + 1 + lines.length) := by
    simp [replies, List.mapIdx_append, List.mapIdx_cons]
  constructor
  · have before : (sink.replies stream lines).findIdx (· != .accepted) = lines.length :=
      patience_of_takes takes
    have first : (sink.reply stream lines.length line != .accepted) = true := by simpa using fails
    rw [patience, split_replies, List.findIdx_append, before, List.findIdx_cons, first]
    simp [replies]
  · rw [split_replies]
    simp [replies]

end Sink

namespace Relay

variable {sink : Sink} {stream : Stream} {relay : Relay} {failure : Option IoError}

/-! ## Offering the lines of a stream -/

theorem count_nil : 0 = ([] : List Bytes).length :=
  rfl

theorem count_cons (relay : Relay) (line : Bytes) :
    relay.count + 1 = (line :: relay.taken).length :=
  congrArg (· + 1) relay.count_eq

/-- The relay before the first line. -/
def fresh : Relay :=
  { count_eq := count_nil }

@[simp] theorem taken_fresh : fresh.taken = [] :=
  rfl

/-- The relay once the sink has taken one more line. -/
def accept (relay : Relay) (line : Bytes) : Relay :=
  { relay with
    taken := line :: relay.taken
    count := relay.count + 1
    count_eq := relay.count_cons line }

theorem offer_of_stopped (stopped : relay.stopped.isSome = true) (line : Bytes) :
    offer sink stream relay line = relay :=
  if_pos stopped

theorem offer_of_accepted {line : Bytes} (running : relay.stopped = none)
    (accepted : sink.reply stream relay.count line = .accepted) :
    offer sink stream relay line = relay.accept line := by
  rw [offer, if_neg (by simp [running]), accepted]
  rfl

theorem offer_of_fails {line : Bytes} (running : relay.stopped = none)
    (fails : sink.reply stream relay.count line ≠ .accepted) :
    offer sink stream relay line =
      { relay with stopped := some (line, sink.reply stream relay.count line) } := by
  rw [offer, if_neg (by simp [running])]
  split
  · contradiction
  · rfl

/-- Offer lines one after the other. -/
def offerAll (sink : Sink) (stream : Stream) (relay : Relay) (lines : List Bytes) : Relay :=
  lines.foldl (offer sink stream) relay

theorem offerAll_cons (relay : Relay) (line : Bytes) (lines : List Bytes) :
    offerAll sink stream relay (line :: lines) =
      offerAll sink stream (offer sink stream relay line) lines := rfl

/-- A sink that did not take a line is not called again. -/
theorem offerAll_of_stopped (stopped : relay.stopped.isSome = true) (lines : List Bytes) :
    offerAll sink stream relay lines = relay := by
  induction lines with
  | nil => rfl
  | cons line lines induction => rw [offerAll_cons, offer_of_stopped stopped, induction]

/-- The sink is offered every line up to the first that it does not take. -/
theorem offerAll_spec (running : relay.stopped = none)
    (takes : sink.Takes stream relay.taken.reverse) (later : List Bytes) :
    let lines := relay.taken.reverse ++ later
    let patience := sink.patience stream lines
    let last := offerAll sink stream relay later
    last.taken.reverse = lines.take patience ∧ last.offered = lines.take (patience + 1) ∧
      last.stopped.map Prod.snd = (sink.replies stream lines)[patience]? := by
  induction later generalizing relay with
  | nil =>
      intro lines patience last
      have all_taken : patience = lines.length :=
        Sink.patience_of_takes (by simpa [lines] using takes)
      rw [all_taken, List.take_length, List.take_of_length_le (Nat.le_succ _),
        List.getElem?_eq_none (by simp [Sink.replies])]
      simp [last, lines, offerAll, offered, running]
  | cons line later induction =>
      intro lines patience last
      have count_eq : relay.count = relay.taken.reverse.length := by
        rw [List.length_reverse, relay.count_eq]
      by_cases accepted : sink.reply stream relay.count line = .accepted
      · have next_takes : sink.Takes stream (relay.accept line).taken.reverse := by
          rw [accept, List.reverse_cons]
          exact takes.concat (by rwa [count_eq] at accepted)
        have lines_eq : (relay.accept line).taken.reverse ++ later = lines := by
          simp [accept, lines]
        have rest := @induction (relay.accept line) running next_takes
        rw [lines_eq, ← offer_of_accepted running accepted] at rest
        exact rest
      · have last_eq : last =
            { relay with stopped := some (line, sink.reply stream relay.count line) } := by
          simp only [last]
          rw [offerAll_cons, offer_of_fails running accepted]
          exact offerAll_of_stopped rfl later
        obtain ⟨patience_eq, reply_eq⟩ :=
          Sink.patience_of_fails takes (by rwa [count_eq] at accepted) later
        have patience_eq : patience = relay.taken.reverse.length := patience_eq
        have reply_eq : (sink.replies stream lines)[patience]? =
            some (sink.reply stream relay.count line) := by
          rw [patience_eq, count_eq]
          exact reply_eq
        have lines_eq : lines = relay.taken.reverse ++ [line] ++ later := by simp [lines]
        rw [reply_eq, last_eq, patience_eq]
        refine ⟨(List.take_left' rfl).symm, ?_, rfl⟩
        rw [lines_eq, offered]
        exact (List.take_left' (by simp)).symm

/-- What was offered to the sink, apart from the bytes that wait for the end of their line. -/
def settled (relay : Relay) : Relay :=
  { relay with unfinished := [] }

theorem settled_offer (relay : Relay) (line : Bytes) :
    (offer sink stream relay line).settled = offer sink stream relay.settled line := by
  cases stopped : relay.stopped with
  | some refused =>
      have stops : relay.stopped.isSome = true := by rw [stopped]; rfl
      rw [offer_of_stopped stops]
      exact (@offer_of_stopped sink stream relay.settled stops line).symm
  | none =>
      by_cases accepted : sink.reply stream relay.count line = .accepted
      · rw [offer_of_accepted stopped accepted]
        exact (@offer_of_accepted sink stream relay.settled line stopped accepted).symm
      · rw [offer_of_fails stopped accepted]
        exact (@offer_of_fails sink stream relay.settled line stopped accepted).symm

/-- The end of the pipe: a regular one completes the last line. -/
def finish (sink : Sink) (stream : Stream) (failure : Option IoError) (relay : Relay) : Relay :=
  match failure with
  | some _ => relay
  | none => close sink stream relay

/-- To take in bytes one by one is to offer the lines that they complete. -/
theorem settled_finish_pushed (failure : Option IoError) (bytes : Bytes)
    (open_line : newline ∉ relay.unfinished) :
    (finish sink stream failure (bytes.foldl (push sink stream) relay)).settled =
      offerAll sink stream relay.settled
        (Lines.upTo failure (relay.unfinished.reverse ++ bytes)) := by
  induction bytes generalizing relay with
  | nil =>
      have waiting : newline ∉ relay.unfinished.reverse := by simpa using open_line
      rw [List.foldl_nil, List.append_nil, Lines.upTo_of_not_mem failure waiting]
      cases failure with
      | some error => simp [finish, offerAll]
      | none =>
          rw [finish, close]
          cases nothing : relay.unfinished with
          | nil => simp [offerAll]
          | cons byte bytes =>
              simp [offerAll, ← settled_offer]
              rfl
  | cons byte bytes induction =>
      rw [List.foldl_cons, push]
      by_cases ends : byte = newline
      · subst ends
        have waiting : newline ∉ relay.unfinished.reverse := by simpa using open_line
        rw [if_pos rfl, induction (by simp), Lines.upTo_append_newline failure waiting,
          offerAll_cons, ← settled_offer, List.reverse_cons]
        rfl
      · rw [if_neg ends, induction (by simp [open_line, Ne.symm ends])]
        simp [settled]

/-- A sink that breaks down decides how the relay ends, whatever happens to the pipe. -/
theorem outcome_of_panicked (panicked : relay.stopped.map Prod.snd = some .panicked) :
    relay.outcome failure = .panicked := by
  simp only [outcome.eq_def, panicked]

/-- An error of the pipe counts before one of the sink. -/
theorem outcome_of_sound (sound : relay.stopped.map Prod.snd ≠ some .panicked) :
    (∀ error, failure = some error → relay.outcome failure = .readFailed error) ∧
      (∀ error, failure = none → relay.stopped.map Prod.snd = some (.refused error) →
        relay.outcome failure = .writeFailed error) ∧
      (failure = none → relay.stopped.map Prod.snd = none →
        relay.outcome failure = .completed) := by
  refine ⟨?_, ?_, ?_⟩
  · rintro error rfl
    rw [outcome.eq_def]
    split <;> simp_all
  · rintro error rfl refused
    simp only [outcome.eq_def, refused]
  · rintro rfl running
    simp only [outcome.eq_def, running]

end Relay

end StagedBuild
