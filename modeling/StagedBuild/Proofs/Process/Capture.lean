import StagedBuild.Console.Capture
import StagedBuild.Proofs.Process.Interleaving
import StagedBuild.Proofs.Process.LineLoop
import StagedBuild.Proofs.Text.Decoding

/-!
# What a capture shows

A capture gets the lines of two streams, one line at a time and each stream in its order.  It shows
of each stream the lines of its text, as if the text had been decoded as a whole, and of both
streams an interleaving of these lines.
-/

namespace StagedBuild

open Lines (newline split)

/-! ## The bytes of whole lines -/

namespace Lines

/-- The bytes up to the last newline. -/
def ended (bytes : Bytes) : Bytes :=
  (bytes.reverse.dropWhile fun byte => byte != newline).reverse

theorem ended_of_not_mem {line : Bytes} (open_line : newline ∉ line) : ended line = [] := by
  rw [ended, List.reverse_eq_nil_iff, List.dropWhile_eq_nil_iff]
  intro byte member
  rw [List.mem_reverse] at member
  exact bne_iff_ne.mpr fun ends => open_line (ends ▸ member)

theorem ended_append_newline (line rest : Bytes) :
    ended (line ++ newline :: rest) = line ++ newline :: ended rest := by
  rw [ended, ended, List.reverse_append, List.reverse_cons, List.append_assoc,
    List.dropWhile_append]
  cases kept : rest.reverse.dropWhile fun byte => byte != newline with
  | nil => simp
  | cons byte bytes => simp

/-- The lines of these bytes are those that a failure leaves. -/
theorem split_ended (error : IoError) (bytes : Bytes) :
    split (ended bytes) = upTo (some error) bytes := by
  induction bytes using line_induction with
  | last line open_line =>
      rw [ended_of_not_mem open_line, upTo_of_not_mem (some error) open_line]
      simp [split]
  | next line rest open_line induction =>
      rw [ended_append_newline, split_append_newline open_line, induction,
        upTo_append_newline (some error) open_line]

end Lines

/-- The bytes that a relay hands over line by line: a failure takes the line that it cuts. -/
def Pipe.handedOver (pipe : Pipe) : Bytes :=
  if pipe.failure.isSome then Lines.ended pipe.content else pipe.content

theorem Pipe.split_handedOver (pipe : Pipe) : split pipe.handedOver = pipe.lines := by
  rw [handedOver, lines]
  cases pipe.failure with
  | none => rfl
  | some error => exact Lines.split_ended error pipe.content

theorem Sink.accepting_takes (stream : Stream) (lines : List Bytes) :
    Sink.accepting.Takes stream lines :=
  fun _ _ _ => rfl

/-- A sink that takes every line is handed every line. -/
theorem Relay.run_accepting (stream : Stream) (pipe? : Option Pipe) :
    (Relay.run .accepting stream pipe?).1 = split (pipe?.elim [] Pipe.handedOver) := by
  cases pipe? with
  | none => rfl
  | some pipe =>
      obtain ⟨taken, -, -⟩ :=
        @Relay.offerAll_spec .accepting stream .fresh rfl Sink.takes_nil pipe.lines
      rw [Relay.taken_fresh, List.reverse_nil, List.nil_append,
        Sink.patience_of_takes (Sink.accepting_takes stream pipe.lines), List.take_length,
        ← Pipe.settled_drain] at taken
      rw [Option.elim_some, Pipe.split_handedOver]
      exact taken

/-! ## Two lists in one -/

/-- The third list consists of the elements of the other two, each in their order. -/
inductive IsShuffle {α : Type} : List α → List α → List α → Prop where
  | nil : IsShuffle [] [] []
  | left {item first second whole} (shuffle : IsShuffle first second whole) :
      IsShuffle (item :: first) second (item :: whole)
  | right {item first second whole} (shuffle : IsShuffle first second whole) :
      IsShuffle first (item :: second) (item :: whole)

/-- The elements with a property and those without it make up the list. -/
theorem isShuffle_filter {α : Type} (keep : α → Bool) (items : List α) :
    IsShuffle (items.filter keep) (items.filter fun item => !keep item) items := by
  induction items with
  | nil => exact .nil
  | cons item items induction =>
      cases kept : keep item with
      | true =>
          rw [List.filter_cons_of_pos kept, List.filter_cons_of_neg (by simp [kept])]
          exact .left induction
      | false =>
          rw [List.filter_cons_of_neg (by simp [kept]), List.filter_cons_of_pos (by simp [kept])]
          exact .right induction

/-! ## Recorded lines -/

namespace Capture

variable {arrived : List (Stream × Bytes)}

theorem recorded_foldl_write (capture : Capture) (arrived : List (Stream × Bytes)) :
    (arrived.foldl (fun capture item => capture.write item.1 item.2) capture).recorded =
      (arrived.map fun item => (item.1, Lines.captured item.2)).reverse ++ capture.recorded := by
  induction arrived generalizing capture with
  | nil => rfl
  | cons item arrived induction =>
      rw [List.foldl_cons, induction, List.map_cons, List.reverse_cons, List.append_assoc]
      rfl

theorem lines_ofArrived (arrived : List (Stream × Bytes)) :
    (ofArrived arrived).lines = arrived.map fun item => (item.1, Lines.captured item.2) := by
  rw [lines, ofArrived, recorded_foldl_write]
  simp

/-- A stream shows the texts of its own lines. -/
theorem streamLines_ofArrived (arrived : List (Stream × Bytes)) (stream : Stream) :
    (ofArrived arrived).streamLines stream =
      (stream.linesOf arrived).map Lines.captured := by
  rw [streamLines, lines_ofArrived]
  induction arrived with
  | nil => rfl
  | cons item arrived induction =>
      rw [Stream.linesOf_cons, List.map_cons, List.filter_cons]
      by_cases same : item.1 = stream
      · simp [same, ← induction]
      · simp [same, ← induction]

theorem map_streamLines (capture : Capture) (stream : Stream) :
    (capture.streamLines stream).map (Prod.mk stream) =
      capture.lines.filter fun item => item.1 == stream := by
  rw [streamLines, List.map_map, List.map_congr_left, List.map_id]
  intro item member
  have same : item.1 = stream := by simpa using (List.mem_filter.mp member).2
  rw [← same]
  rfl

/-- All lines are those of the two streams, each in their order. -/
theorem isShuffle_lines (capture : Capture) :
    IsShuffle ((capture.streamLines .stdout).map (Prod.mk .stdout))
      ((capture.streamLines .stderr).map (Prod.mk .stderr)) capture.lines := by
  have other (item : Stream × String) : (!item.1 == .stdout) = (item.1 == .stderr) := by
    cases item.1 <;> rfl
  have shuffle := isShuffle_filter (fun item => item.1 == .stdout) capture.lines
  simp only [other] at shuffle
  rwa [map_streamLines, map_streamLines]

/--
Of each stream that is relayed to it, however its pipe cuts it into pieces, a capture shows the
lines of the text that the whole stream decodes to; and to decode one line at a time puts no
replacement character in another place.  In whatever order the lines of the streams arrive, the
capture shows them interleaved.
-/
theorem captures_decoded_streams (pipes : Stream → Option Pipe)
    (interleaves : Interleaves (fun stream => (Relay.run .accepting stream (pipes stream)).1)
      arrived) :
    let capture := ofArrived arrived
    let text := fun stream => Utf8.decodeLossy ((pipes stream).elim [] Pipe.handedOver)
    (∀ stream, capture.streamLines stream = Lines.ofText (text stream)) ∧
      (∀ stream, String.join ((stream.linesOf arrived).map Utf8.decodeLossy) = text stream) ∧
      IsShuffle ((Lines.ofText (text .stdout)).map (Prod.mk .stdout))
        ((Lines.ofText (text .stderr)).map (Prod.mk .stderr)) capture.lines := by
  intro capture text
  have lines_eq (stream : Stream) :
      stream.linesOf arrived = split ((pipes stream).elim [] Pipe.handedOver) :=
    (interleaves stream).trans (Relay.run_accepting stream (pipes stream))
  have shown (stream : Stream) : capture.streamLines stream = Lines.ofText (text stream) := by
    rw [streamLines_ofArrived, lines_eq, Lines.map_captured_split]
  refine ⟨shown, fun stream => ?_, ?_⟩
  · rw [lines_eq, Lines.join_decodeLossy_split]
  · rw [← shown .stdout, ← shown .stderr]
    exact isShuffle_lines capture

/-- Pipes with sequences that a newline or the end of the stream cuts short. -/
def tornPipes : Stream → Option Pipe
  | .stdout => some { reads := [.chunk [0xE2, 0x82], .chunk [0x0A, 0x61, 0x0D, 0x0A, 0xC3]] }
  | .stderr => some { reads := [.chunk [0xFF, 0x0A], .interrupted, .chunk [0xF0, 0x9F]] }

/-- A sequence that a newline cuts short is replaced once, and the line behind it is as written. -/
theorem torn_streams_are_captured :
    let lines := fun stream => (Relay.run .accepting stream (tornPipes stream)).1
    let arrived := interleave [.stderr, .stdout] (lines .stdout) (lines .stderr)
    Interleaves lines arrived ∧
      (ofArrived arrived).streamLines .stdout = ["\uFFFD", "a", "\uFFFD"] ∧
      (ofArrived arrived).streamLines .stderr = ["\uFFFD", "\uFFFD"] := by
  intro lines arrived
  have interleaves : Interleaves lines arrived := interleaves_interleave [.stderr, .stdout] lines
  obtain ⟨shown, -⟩ := captures_decoded_streams tornPipes interleaves
  exact ⟨interleaves, (shown .stdout).trans (by decide +kernel),
    (shown .stderr).trans (by decide +kernel)⟩

end Capture
end StagedBuild
