import StagedBuild.Process.Relay
import StagedBuild.Proofs.Text.Lines

/-!
# A relay hands over the lines of its stream

Where no read fails and the sink takes every line, a relay hands over the lines of everything that
its pipe delivers, however the pipe cuts it into pieces.
-/

namespace StagedBuild

/-- The sink takes these lines of a stream one after the other. -/
def Sink.Takes (sink : Sink) (stream : Stream) (lines : List Bytes) : Prop :=
  ∀ index line, lines[index]? = some line → sink.reply stream index line = .accepted

namespace Relay

open Lines (newline split)

/-- The relay has handed over the first of these lines, and the others are still to be read. -/
structure Awaits (lines : List Bytes) (relay : Relay) (rest : Bytes) : Prop where
  running : relay.stopped = none
  /-- The unfinished line has not come to its end. -/
  open_line : newline ∉ relay.unfinished
  /-- What was handed over and what is to be read are the lines. -/
  covers : relay.taken.reverse ++ split (relay.unfinished.reverse ++ rest) = lines

variable {sink : Sink} {stream : Stream} {relay : Relay} {lines : List Bytes} {rest : Bytes}

/-- A sink that takes the lines takes the next one. -/
theorem offer_next (takes : sink.Takes stream lines) (running : relay.stopped = none)
    {line : Bytes} {later : List Bytes} (lines_eq : relay.taken.reverse ++ line :: later = lines) :
    (offer sink stream relay line).taken = line :: relay.taken ∧
      (offer sink stream relay line).stopped = none := by
  have accepted : sink.reply stream relay.count line = .accepted := by
    apply takes
    rw [← lines_eq, relay.count_eq, ← List.length_reverse,
      List.getElem?_append_right (Nat.le_refl _)]
    simp
  have goes_on : ¬ relay.stopped.isSome = true := by simp [running]
  rw [offer, if_neg goes_on, accepted]
  exact ⟨rfl, running⟩

/-- A byte that completes no line waits in the unfinished one, and a newline completes it. -/
theorem awaits_push (takes : sink.Takes stream lines) {byte : UInt8}
    (awaits : Awaits lines relay (byte :: rest)) :
    Awaits lines (push sink stream relay byte) rest := by
  obtain ⟨running, open_line, covers⟩ := awaits
  rw [push]
  by_cases ends : byte = newline
  · subst ends
    have first : newline ∉ relay.unfinished.reverse := by simpa using open_line
    rw [Lines.split_append_newline first] at covers
    obtain ⟨taken_eq, goes_on⟩ := offer_next takes running covers
    rw [if_pos rfl, List.reverse_cons]
    refine ⟨goes_on, by simp, ?_⟩
    rw [← covers]
    simp [taken_eq]
  · rw [if_neg ends]
    refine ⟨running, by simp [open_line, Ne.symm ends], ?_⟩
    rw [← covers]
    simp

theorem awaits_foldl_push (takes : sink.Takes stream lines) (bytes : Bytes)
    (awaits : Awaits lines relay (bytes ++ rest)) :
    Awaits lines (bytes.foldl (push sink stream) relay) rest := by
  induction bytes generalizing relay with
  | nil => exact awaits
  | cons byte bytes induction => exact induction (awaits_push takes awaits)

/-- The pieces in which a pipe delivers its bytes do not matter. -/
theorem awaits_reads (takes : sink.Takes stream lines) (reads : List PipeRead)
    (awaits : Awaits lines relay (Pipe.content ⟨reads, none⟩ ++ rest)) :
    Awaits lines (reads.foldl (step sink stream) relay) rest := by
  induction reads generalizing relay with
  | nil => exact awaits
  | cons read reads induction =>
      cases read with
      | interrupted => exact induction awaits
      | chunk bytes =>
          apply induction
          apply awaits_foldl_push takes bytes
          rw [Pipe.content, List.flatMap_cons, List.append_assoc] at awaits
          exact awaits

/-- The end of the pipe completes the last line. -/
theorem close_of_awaits (takes : sink.Takes stream lines) (awaits : Awaits lines relay []) :
    (close sink stream relay).taken.reverse = lines ∧ (close sink stream relay).stopped = none := by
  obtain ⟨running, open_line, covers⟩ := awaits
  have last : newline ∉ relay.unfinished.reverse := by simpa using open_line
  rw [List.append_nil, Lines.split_of_not_mem last] at covers
  rw [close]
  by_cases nothing : relay.unfinished.isEmpty = true
  · rw [if_pos (by simpa using nothing), List.append_nil] at covers
    rw [if_pos nothing]
    exact ⟨covers, running⟩
  · rw [if_neg (by simpa using nothing)] at covers
    obtain ⟨taken_eq, goes_on⟩ := offer_next takes running covers
    rw [if_neg nothing]
    exact ⟨by simpa [taken_eq] using covers, goes_on⟩

/-- Everything that the stream delivers; nothing comes from where there is no pipe. -/
def delivered (pipe? : Option Pipe) : Bytes :=
  pipe?.elim [] Pipe.content

/-- Undisturbed, a relay hands over the lines of its stream and completes. -/
theorem run_eq_split {pipe? : Option Pipe} (regular : ∀ pipe ∈ pipe?, pipe.failure = none)
    (takes : sink.Takes stream (split (delivered pipe?))) :
    run sink stream pipe? = (split (delivered pipe?), .completed) := by
  cases pipe? with
  | none => rfl
  | some pipe =>
      have ends_well : pipe.failure = none := regular pipe rfl
      have start : Awaits (split pipe.content) {} (pipe.content ++ []) :=
        ⟨rfl, by simp, by simp⟩
      obtain ⟨taken_eq, goes_on⟩ := close_of_awaits takes (awaits_reads takes pipe.reads start)
      simp only [run, drain, ends_well, outcome, goes_on, taken_eq]
      rfl

end Relay
end StagedBuild
