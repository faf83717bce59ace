import Mathlib.Data.List.Basic
import StagedBuild.Text.Lines

/-!
# Lines and the stream they come from

Cutting a stream loses nothing: its lines, each ended by a newline, are the stream itself, which is
ended by one more newline if it was not empty and lacked one.
-/

namespace StagedBuild
namespace Lines

/-- The stream with a newline at its end, unless there is nothing to end. -/
def closed (bytes : Bytes) : Bytes :=
  if bytes.isEmpty then [] else terminate bytes

theorem closed_of_ne_nil {bytes : Bytes} (some_byte : bytes ≠ []) :
    closed bytes = terminate bytes := by
  rw [closed, if_neg (by simpa using some_byte)]

/-- What stands in front of a line does not decide how it is ended. -/
theorem terminate_append (front : Bytes) {line : Bytes} (some_byte : line ≠ []) :
    terminate (front ++ line) = front ++ terminate line := by
  have same_end : isTerminated (front ++ line) = isTerminated line := by
    rw [isTerminated, isTerminated, List.getLast?_append_of_ne_nil front some_byte]
  rw [terminate, terminate, same_end]
  split
  · rfl
  · rw [List.append_assoc]

theorem terminate_newline_cons (bytes : Bytes) :
    terminate (newline :: bytes) = newline :: closed bytes := by
  cases bytes with
  | nil => rfl
  | cons byte rest =>
      rw [closed_of_ne_nil (List.cons_ne_nil byte rest)]
      exact terminate_append [newline] (List.cons_ne_nil byte rest)

theorem split_cons (byte : UInt8) (bytes : Bytes) :
    split (byte :: bytes) = cons byte (split bytes) := rfl

theorem split_newline_cons (bytes : Bytes) :
    split (newline :: bytes) = [newline] :: split bytes := by
  rw [split_cons]
  cases split bytes <;> simp [cons]

theorem split_eq_nil_iff {bytes : Bytes} : split bytes = [] ↔ bytes = [] := by
  cases bytes with
  | nil => simp [split]
  | cons byte bytes =>
      rw [split_cons]
      cases split bytes with
      | nil => simp [cons]
      | cons line rest => by_cases ends : byte = newline <;> simp [cons, ends]

/-- No line is empty. -/
theorem ne_nil_of_mem_split {bytes line : Bytes} (member : line ∈ split bytes) : line ≠ [] := by
  induction bytes generalizing line with
  | nil => simp [split] at member
  | cons byte bytes induction =>
      rw [split_cons] at member
      cases lines : split bytes with
      | nil =>
          rw [lines, cons, List.mem_singleton] at member
          simp [member]
      | cons first rest =>
          rw [lines] at induction member
          rw [cons] at member
          split at member <;> rw [List.mem_cons] at member
          · rcases member with rfl | later
            · simp
            · exact induction later
          · rcases member with rfl | later
            · simp
            · exact induction (List.mem_cons_of_mem first later)

/-- The lines of a stream, each ended by a newline, are the stream ended by one. -/
theorem flatMap_terminate_split (bytes : Bytes) :
    (split bytes).flatMap terminate = closed bytes := by
  induction bytes with
  | nil => rfl
  | cons byte bytes induction =>
      rw [closed_of_ne_nil (List.cons_ne_nil byte bytes)]
      by_cases ends : byte = newline
      · subst ends
        rw [split_newline_cons, List.flatMap_cons, induction, terminate_newline_cons bytes]
        rfl
      · rw [split_cons]
        cases lines : split bytes with
        | nil =>
            rw [split_eq_nil_iff.mp lines]
            simp [cons]
        | cons line rest =>
            have some_byte : bytes ≠ [] := by
              intro nothing
              rw [split_eq_nil_iff.mpr nothing] at lines
              simp at lines
            have line_ne : line ≠ [] :=
              ne_nil_of_mem_split (lines ▸ List.mem_cons_self : line ∈ split bytes)
            rw [lines, closed_of_ne_nil some_byte, List.flatMap_cons] at induction
            have front : terminate (byte :: line) = byte :: terminate line :=
              terminate_append [byte] line_ne
            have whole : terminate (byte :: bytes) = byte :: terminate bytes :=
              terminate_append [byte] some_byte
            rw [cons, if_neg ends, List.flatMap_cons, front, whole, ← induction]
            rfl

theorem isTerminated_append_newline (front : Bytes) : isTerminated (front ++ [newline]) = true := by
  simp [isTerminated]

/-- A line ends at its newline, whatever follows. -/
theorem split_append_newline {line : Bytes} (open_line : newline ∉ line) (rest : Bytes) :
    split (line ++ newline :: rest) = (line ++ [newline]) :: split rest := by
  induction line with
  | nil => exact split_newline_cons rest
  | cons byte line induction =>
      simp only [List.mem_cons, not_or] at open_line
      rw [List.cons_append, split_cons, induction open_line.2, cons, if_neg (Ne.symm open_line.1),
        List.cons_append]

/-- Bytes without a newline are at most one line. -/
theorem split_of_not_mem {line : Bytes} (open_line : newline ∉ line) :
    split line = if line.isEmpty then [] else [line] := by
  induction line with
  | nil => rfl
  | cons byte line induction =>
      simp only [List.mem_cons, not_or] at open_line
      rw [split_cons, induction open_line.2]
      cases line with
      | nil => rfl
      | cons next line => simp [cons, Ne.symm open_line.1]

/-- Line by line, up to the bytes behind the last newline. -/
theorem line_induction {motive : Bytes → Prop} (last : ∀ line, newline ∉ line → motive line)
    (next : ∀ line rest, newline ∉ line → motive rest → motive (line ++ newline :: rest))
    (bytes : Bytes) : motive bytes := by
  by_cases ends : newline ∈ bytes
  · obtain ⟨line, rest, cut, open_line⟩ := List.eq_append_cons_of_mem ends
    have shorter : rest.length < bytes.length := by
      rw [cut, List.length_append, List.length_cons]
      omega
    rw [cut]
    exact next line rest open_line (line_induction last next rest)
  · exact last bytes ends
termination_by bytes.length

end Lines
end StagedBuild
