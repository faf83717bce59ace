import StagedBuild.Process.Relay

/-!
# Two streams in one order

Lines of both streams that arrive in some order are an interleaving: each stream has its own lines,
all of them, in their order.  Every schedule gives an interleaving, and every interleaving is the
one of a schedule.
-/

namespace StagedBuild

/-- The lines of a stream among those that arrive. -/
def Stream.linesOf (stream : Stream) (arrived : List (Stream × Bytes)) : List Bytes :=
  arrived.filterMap fun item => if item.1 = stream then some item.2 else none

/-- The lines of both streams arrive, each stream in its order. -/
def Interleaves (lines : Stream → List Bytes) (arrived : List (Stream × Bytes)) : Prop :=
  ∀ stream : Stream, stream.linesOf arrived = lines stream

namespace Stream

theorem linesOf_append (stream : Stream) (first second : List (Stream × Bytes)) :
    stream.linesOf (first ++ second) = stream.linesOf first ++ stream.linesOf second :=
  List.filterMap_append

theorem linesOf_cons (stream : Stream) (item : Stream × Bytes) (arrived : List (Stream × Bytes)) :
    stream.linesOf (item :: arrived) =
      if item.1 = stream then item.2 :: stream.linesOf arrived else stream.linesOf arrived := by
  rw [linesOf, List.filterMap_cons]
  by_cases same : item.1 = stream <;> simp [same, linesOf]

theorem linesOf_map (stream other : Stream) (lines : List Bytes) :
    stream.linesOf (lines.map (Prod.mk other)) = if other = stream then lines else [] := by
  induction lines with
  | nil => simp [linesOf]
  | cons line lines induction =>
      rw [List.map_cons, linesOf_cons, induction]
      by_cases same : other = stream <;> simp [same]

end Stream

/-- Nothing arrives where there are no lines. -/
theorem eq_nil_of_interleaves {arrived : List (Stream × Bytes)}
    (interleaves : Interleaves (fun _ => []) arrived) : arrived = [] := by
  cases arrived with
  | nil => rfl
  | cons item arrived =>
      have own := interleaves item.1
      rw [Stream.linesOf_cons, if_pos rfl] at own
      simp at own

theorem linesOf_interleaveAfter (arrived : List (Stream × Bytes)) (schedule : List Stream)
    (out err : List Bytes) (stream : Stream) :
    stream.linesOf (interleaveAfter arrived schedule out err) =
      stream.linesOf arrived.reverse ++ if stream = .stdout then out else err := by
  induction schedule generalizing arrived out err with
  | nil =>
      rw [interleaveAfter, Stream.linesOf_append, Stream.linesOf_append, Stream.linesOf_map,
        Stream.linesOf_map]
      cases stream <;> simp
  | cons next schedule induction =>
      -- Only the stream that is next loses a line, unless it has none left.
      cases next with
      | stdout =>
          cases out with
          | nil => exact induction arrived [] err
          | cons line out =>
              rw [interleaveAfter, induction, List.reverse_cons, Stream.linesOf_append,
                Stream.linesOf_cons]
              cases stream <;> simp [Stream.linesOf]
      | stderr =>
          cases err with
          | nil => cases out <;> exact induction arrived _ []
          | cons line err =>
              have step : interleaveAfter arrived (.stderr :: schedule) out (line :: err) =
                  interleaveAfter ((.stderr, line) :: arrived) schedule out err := by
                cases out <;> rfl
              rw [step, induction, List.reverse_cons, Stream.linesOf_append, Stream.linesOf_cons]
              cases stream <;> simp [Stream.linesOf]

/-- Every schedule gives an interleaving. -/
theorem interleaves_interleave (schedule : List Stream) (lines : Stream → List Bytes) :
    Interleaves lines (interleave schedule (lines .stdout) (lines .stderr)) := by
  intro stream
  rw [interleave, linesOf_interleaveAfter]
  cases stream <;> rfl

theorem interleaveAfter_streams (before arrived : List (Stream × Bytes)) :
    interleaveAfter before (arrived.map Prod.fst) (Stream.stdout.linesOf arrived)
      (Stream.stderr.linesOf arrived) = before.reverse ++ arrived := by
  induction arrived generalizing before with
  | nil => simp [interleaveAfter, Stream.linesOf]
  | cons item arrived induction =>
      obtain ⟨stream, line⟩ := item
      have later := induction ((stream, line) :: before)
      rw [List.reverse_cons, List.append_assoc] at later
      rw [List.map_cons, Stream.linesOf_cons, Stream.linesOf_cons]
      cases stream with
      | stdout => exact later
      | stderr =>
          refine Eq.trans ?_ later
          simp only [reduceCtorEq, if_false, if_true]
          cases Stream.stdout.linesOf arrived <;> rfl

/-- Every interleaving is given by the schedule of its streams. -/
theorem interleave_streams {lines : Stream → List Bytes} {arrived : List (Stream × Bytes)}
    (interleaves : Interleaves lines arrived) :
    interleave (arrived.map Prod.fst) (lines .stdout) (lines .stderr) = arrived := by
  rw [← interleaves .stdout, ← interleaves .stderr]
  exact interleaveAfter_streams [] arrived

end StagedBuild
