import StagedBuild.Proofs.Text.Fields
import StagedBuild.Proofs.Text.Lines

/-!
# Decoding a stream line by line

A newline ends whatever is being decoded, and nothing else is decoded as one.  So a stream may be
decoded as a whole or one line at a time: the lines of its text are the texts of its lines, with the
same replacement characters in the same places.
-/

namespace StagedBuild

open Lines (newline)

namespace Utf8

/-- A sequence that goes on with bytes outside of ASCII, and ends in a character outside of it. -/
structure Pending.IsLong (sequence : Pending) : Prop where
  /-- The next byte is not in ASCII. -/
  lowest : 0x80 ≤ sequence.lowest.toNat
  /-- Before the last byte the value is too great for the last byte to give one in ASCII. -/
  wide : 2 ≤ sequence.value ∨
    0 < sequence.later ∧ 2 ≤ sequence.value * 64 + (sequence.lowest.toNat - 0x80)

theorem Pending.isLong_of_wide {value later : Nat} {highest : UInt8}
    (wide : 2 ≤ value ∨ 0 < later ∧ 2 ≤ value * 64) : IsLong ⟨value, later, 0x80, highest⟩ :=
  ⟨by simp, by simpa using wide⟩

namespace Decoder

/-- What was read, the newest first, if no byte follows. -/
def closed (decoder : Decoder) : List (Option Char) :=
  if decoder.pending.isSome then none :: decoder.read else decoder.read

/-- The decoder with something read before. -/
def after (decoder : Decoder) (earlier : List (Option Char)) : Decoder :=
  { decoder with read := decoder.read ++ earlier }

/-- The unfinished sequence is one that can be begun. -/
def IsSound (decoder : Decoder) : Prop :=
  ∀ sequence ∈ decoder.pending, sequence.IsLong

variable {decoder : Decoder} {byte : UInt8} {bytes : Bytes}

theorem isSound_initial : initial.IsSound := by
  intro sequence begun
  simp [initial] at begun

/-! ## One byte -/

/-- A byte is a character of its own, malformed, or the start of a sequence. -/
theorem start_cases (read : List (Option Char)) (byte : UInt8) :
    byte.toNat < 0x80 ∧ start read byte = ⟨some (Char.ofNat byte.toNat) :: read, none⟩ ∨
      0x80 ≤ byte.toNat ∧ start read byte = ⟨none :: read, none⟩ ∨
      0x80 ≤ byte.toNat ∧
        ∃ sequence, sequence.IsLong ∧ start read byte = ⟨read, some sequence⟩ := by
  have below (limit : UInt8) : byte < limit ↔ byte.toNat < limit.toNat := UInt8.lt_iff_toNat_lt
  have begins {sequence : Pending} (long : sequence.IsLong) (high : ¬ byte < 0x80) :
      0x80 ≤ byte.toNat ∧ ∃ begun : Pending,
        begun.IsLong ∧ (⟨read, some sequence⟩ : Decoder) = ⟨read, some begun⟩ :=
    ⟨by simpa [below] using high, sequence, long, rfl⟩
  fun_cases start read byte with
  | case1 ascii => exact .inl ⟨by simpa [below] using ascii, rfl⟩
  | case2 high _ => exact .inr (.inl ⟨by simpa [below] using high, rfl⟩)
  | case3 high two =>
      have least : 0xC2 ≤ byte.toNat := by simpa [below] using two
      exact .inr (.inr (begins (Pending.isLong_of_wide (by omega)) high))
  | case4 high => exact .inr (.inr (begins ⟨by decide, by decide⟩ high))
  | case5 high => exact .inr (.inr (begins ⟨by decide, by decide⟩ high))
  | case6 high _ three not_low =>
      have least : 0xE0 ≤ byte.toNat := by simpa [below] using three
      have greater : byte.toNat ≠ 0xE0 := fun same => not_low (UInt8.toNat_inj.mp same)
      exact .inr (.inr (begins (Pending.isLong_of_wide (by omega)) high))
  | case7 high => exact .inr (.inr (begins ⟨by decide, by decide⟩ high))
  | case8 high _ _ _ _ four not_low =>
      have least : 0xF0 ≤ byte.toNat := by simpa [below] using four
      have greater : byte.toNat ≠ 0xF0 := fun same => not_low (UInt8.toNat_inj.mp same)
      exact .inr (.inr (begins (Pending.isLong_of_wide (by omega)) high))
  | case9 high => exact .inr (.inr (begins ⟨by decide, by decide⟩ high))
  | case10 high => exact .inr (.inl ⟨by simpa [below] using high, rfl⟩)

/-- The character of a number outside of ASCII is not the newline. -/
theorem ofNat_ne_newline {value : Nat} (other : value ≠ 10) : Char.ofNat value ≠ '\n' := by
  intro same
  by_cases valid : value.isValidChar
  · rw [Char.ofNat, dif_pos valid] at same
    exact other (congrArg Char.toNat same)
  · rw [Char.ofNat, dif_neg valid] at same
    contradiction

/-- A byte starts over behind what was read, or it is outside of ASCII and goes on with it. -/
theorem step_cases (sound : decoder.IsSound) (byte : UInt8) :
    step decoder byte = start decoder.closed byte ∨
      0x80 ≤ byte.toNat ∧
        ((∃ sequence, sequence.IsLong ∧ step decoder byte = ⟨decoder.read, some sequence⟩) ∨
          ∃ char, char ≠ '\n' ∧ step decoder byte = ⟨some char :: decoder.read, none⟩) := by
  obtain ⟨read, pending⟩ := decoder
  cases pending with
  | none => exact .inl rfl
  | some sequence =>
      obtain ⟨lowest, wide⟩ : sequence.IsLong := sound sequence rfl
      by_cases fits : sequence.lowest ≤ byte ∧ byte ≤ sequence.highest
      · have least : sequence.lowest.toNat ≤ byte.toNat := UInt8.le_iff_toNat_le.mp fits.1
        refine .inr ⟨Nat.le_trans lowest least, ?_⟩
        simp only [step, if_pos fits]
        cases last : sequence.later with
        | zero =>
            have greatest : 2 ≤ sequence.value := by omega
            exact .inr ⟨_, ofNat_ne_newline (by omega), rfl⟩
        | succ later => exact .inl ⟨_, Pending.isLong_of_wide (by omega), rfl⟩
      · exact .inl (if_neg fits)

theorem isSound_start (read : List (Option Char)) (byte : UInt8) : (start read byte).IsSound := by
  intro begun begun_mem
  obtain ⟨-, eq⟩ | ⟨-, eq⟩ | ⟨-, sequence, long, eq⟩ := start_cases read byte
  · simp [eq] at begun_mem
  · simp [eq] at begun_mem
  · rw [eq, Option.mem_some_iff] at begun_mem
    exact begun_mem ▸ long

theorem isSound_step (sound : decoder.IsSound) (byte : UInt8) : (step decoder byte).IsSound := by
  obtain eq | ⟨-, ⟨sequence, long, eq⟩ | ⟨char, -, eq⟩⟩ := step_cases sound byte
  · rw [eq]
    exact isSound_start decoder.closed byte
  · rw [eq]
    intro begun begun_mem
    rw [Option.mem_some_iff] at begun_mem
    exact begun_mem ▸ long
  · rw [eq]
    intro begun begun_mem
    simp at begun_mem

/-- A newline ends what is being decoded and is read as itself. -/
theorem step_newline (sound : decoder.IsSound) :
    step decoder newline = ⟨some '\n' :: decoder.closed, none⟩ := by
  obtain eq | ⟨high, -⟩ := step_cases sound newline
  · rw [eq]
    rfl
  · simp [newline] at high

theorem newline_not_mem_closed :
    some '\n' ∉ decoder.closed ↔ some '\n' ∉ decoder.read := by
  rw [closed]
  split <;> simp

/-- No other byte is read as a newline. -/
theorem newline_not_mem_step (sound : decoder.IsSound) (other : byte ≠ newline)
    (fresh : some '\n' ∉ decoder.read) : some '\n' ∉ (step decoder byte).read := by
  have fresh_closed : some '\n' ∉ decoder.closed := newline_not_mem_closed.mpr fresh
  obtain eq | ⟨-, ⟨sequence, -, eq⟩ | ⟨char, char_ne, eq⟩⟩ := step_cases sound byte
  · have code_ne : byte.toNat ≠ 10 := fun same => other (UInt8.toNat_inj.mp same)
    obtain ⟨-, start_eq⟩ | ⟨-, start_eq⟩ | ⟨-, begun, -, start_eq⟩ :=
      start_cases decoder.closed byte
    · simp [eq, start_eq, fresh_closed, (ofNat_ne_newline code_ne).symm]
    · simp [eq, start_eq, fresh_closed]
    · simp [eq, start_eq, fresh_closed]
  · simpa [eq] using fresh
  · simp [eq, fresh, char_ne.symm]

/-- Every byte leaves a trace. -/
theorem closed_step_ne_nil (sound : decoder.IsSound) (byte : UInt8) :
    (step decoder byte).closed ≠ [] := by
  obtain eq | ⟨-, ⟨sequence, -, eq⟩ | ⟨char, -, eq⟩⟩ := step_cases sound byte
  · obtain ⟨-, start_eq⟩ | ⟨-, start_eq⟩ | ⟨-, begun, -, start_eq⟩ :=
      start_cases decoder.closed byte <;> rw [eq, start_eq, closed] <;> simp
  · simp [eq, closed]
  · simp [eq, closed]

/-! ## Many bytes -/

theorem isSound_foldl (sound : decoder.IsSound) (bytes : Bytes) :
    (bytes.foldl step decoder).IsSound := by
  induction bytes generalizing decoder with
  | nil => exact sound
  | cons byte bytes induction => exact induction (isSound_step sound byte)

theorem newline_not_mem_foldl (sound : decoder.IsSound) (open_line : newline ∉ bytes)
    (fresh : some '\n' ∉ decoder.read) : some '\n' ∉ (bytes.foldl step decoder).read := by
  induction bytes generalizing decoder with
  | nil => exact fresh
  | cons byte bytes induction =>
      simp only [List.mem_cons, not_or] at open_line
      exact induction (isSound_step sound byte) open_line.2
        (newline_not_mem_step sound (Ne.symm open_line.1) fresh)

theorem start_append (read earlier : List (Option Char)) (byte : UInt8) :
    start (read ++ earlier) byte = (start read byte).after earlier := by
  simp only [start, apply_ite fun decoder : Decoder => decoder.after earlier]
  rfl

/-- What was read before does not decide what is read next. -/
theorem step_after (decoder : Decoder) (earlier : List (Option Char)) (byte : UInt8) :
    step (decoder.after earlier) byte = (step decoder byte).after earlier := by
  obtain ⟨read, pending⟩ := decoder
  cases pending with
  | none => exact start_append read earlier byte
  | some sequence =>
      simp only [step, after]
      split
      · cases sequence.later <;> rfl
      · exact start_append (none :: read) earlier byte

theorem foldl_step_after (decoder : Decoder) (earlier : List (Option Char)) (bytes : Bytes) :
    bytes.foldl step (decoder.after earlier) = (bytes.foldl step decoder).after earlier := by
  induction bytes generalizing decoder with
  | nil => rfl
  | cons byte bytes induction => rw [List.foldl_cons, step_after, induction, List.foldl_cons]

theorem closed_after (decoder : Decoder) (earlier : List (Option Char)) :
    (decoder.after earlier).closed = decoder.closed ++ earlier := by
  rw [closed, closed, after]
  split <;> simp_all

end Decoder

/-! ## Pieces of a text -/

open Decoder

theorem pieces_eq (bytes : Bytes) :
    pieces bytes = (bytes.foldl step initial).closed.reverse := rfl

/-- The pieces on both sides of a newline do not depend on each other. -/
theorem pieces_append_newline (front rest : Bytes) :
    pieces (front ++ newline :: rest) = pieces front ++ some '\n' :: pieces rest := by
  have sound : (front.foldl step initial).IsSound := isSound_foldl isSound_initial front
  have anew (read : List (Option Char)) : (⟨read, none⟩ : Decoder) = initial.after read := rfl
  rw [pieces_eq, List.foldl_append, List.foldl_cons, step_newline sound, anew, foldl_step_after,
    closed_after, List.reverse_append, List.reverse_cons, List.append_assoc]
  rfl

/-- No newline is read where none is written. -/
theorem newline_not_mem_pieces {line : Bytes} (open_line : newline ∉ line) :
    some '\n' ∉ pieces line := by
  rw [pieces_eq, List.mem_reverse, newline_not_mem_closed]
  exact newline_not_mem_foldl isSound_initial open_line (by simp [initial])

theorem pieces_eq_nil_iff {bytes : Bytes} : pieces bytes = [] ↔ bytes = [] := by
  constructor
  · intro nothing
    rcases List.eq_nil_or_concat bytes with empty | ⟨front, byte, rfl⟩
    · exact empty
    · rw [pieces_eq, List.reverse_eq_nil_iff, List.concat_eq_append, List.foldl_append] at nothing
      exact absurd nothing (closed_step_ne_nil (isSound_foldl isSound_initial front) byte)
  · rintro rfl
    rfl

theorem decodeLossy_eq_empty_iff {bytes : Bytes} : decodeLossy bytes = "" ↔ bytes = [] := by
  rw [decodeLossy, String.ofList_eq_empty_iff, List.map_eq_nil_iff, pieces_eq_nil_iff]

theorem decodeLossy_nil : decodeLossy [] = "" :=
  decodeLossy_eq_empty_iff.mpr rfl

/-- The texts on both sides of a newline do not depend on each other. -/
theorem decodeLossy_append_newline (front rest : Bytes) :
    decodeLossy (front ++ newline :: rest) =
      decodeLossy front ++ String.singleton '\n' ++ decodeLossy rest := by
  apply String.toList_inj.mp
  simp [decodeLossy, pieces_append_newline]

/-- The text of a line is in one line. -/
theorem newline_not_mem_decodeLossy {line : Bytes} (open_line : newline ∉ line) :
    '\n' ∉ (decodeLossy line).toList := by
  intro member
  rw [decodeLossy, String.toList_ofList, List.mem_map] at member
  obtain ⟨piece, piece_mem, piece_eq⟩ := member
  cases piece with
  | none => exact absurd piece_eq (by decide)
  | some char =>
      rw [Option.getD_some] at piece_eq
      exact newline_not_mem_pieces open_line (piece_eq ▸ piece_mem)

end Utf8

namespace Lines

open Utf8 (decodeLossy)

/-! ## Lines of a text -/

/-- The text without the carriage returns at its end. -/
def stripReturns (text : String) : String :=
  String.ofList (text.toList.reverse.dropWhile fun char => char == '\r').reverse

/--
The lines of a text without their ends.  What stands behind the last newline is a line unless it is
empty.
-/
def ofText (text : String) : List String :=
  let pieces := Text.fields '\n' text
  (if pieces.getLast? = some "" then pieces.dropLast else pieces).map stripReturns

theorem ofText_append {line : String} (whole : '\n' ∉ line.toList) (rest : String) :
    ofText (line ++ String.singleton '\n' ++ rest) = stripReturns line :: ofText rest := by
  obtain ⟨field, later, cut⟩ := List.exists_cons_of_ne_nil (Text.fields_ne_nil '\n' rest)
  rw [ofText, ofText, Text.fields_append, Text.fields_eq_singleton whole, cut,
    List.singleton_append, List.getLast?_cons_cons, List.dropLast_cons_cons]
  split <;> rfl

theorem ofText_of_not_mem {line : String} (whole : '\n' ∉ line.toList) :
    ofText line = if line = "" then [] else [stripReturns line] := by
  rw [ofText, Text.fields_eq_singleton whole]
  by_cases empty : line = "" <;> simp [empty]

/-- A newline at the end is stripped, and so is what stands in front of it. -/
theorem stripEnd_append_newline (text : String) :
    stripEnd (text ++ String.singleton '\n') = stripEnd text := by
  simp [stripEnd]

theorem stripEnd_eq_stripReturns {line : String} (whole : '\n' ∉ line.toList) :
    stripEnd line = stripReturns line := by
  have same (chars : List Char) (absent : '\n' ∉ chars) :
      chars.dropWhile (fun char => char == '\n' || char == '\r') =
        chars.dropWhile fun char => char == '\r' := by
    induction chars with
    | nil => rfl
    | cons char chars induction =>
        simp only [List.mem_cons, not_or] at absent
        simp only [List.dropWhile_cons, beq_false_of_ne (Ne.symm absent.1), Bool.false_or,
          induction absent.2]
  rw [stripEnd, stripReturns, same _ (by simpa using whole)]

theorem captured_eq_stripReturns {line : Bytes} (open_line : newline ∉ line) :
    captured line = stripReturns (decodeLossy line) :=
  stripEnd_eq_stripReturns (Utf8.newline_not_mem_decodeLossy open_line)

theorem captured_terminated {line : Bytes} (open_line : newline ∉ line) :
    captured (line ++ [newline]) = stripReturns (decodeLossy line) := by
  have ended : decodeLossy (line ++ [newline]) = decodeLossy line ++ String.singleton '\n' := by
    rw [Utf8.decodeLossy_append_newline, Utf8.decodeLossy_nil, String.append_empty]
  rw [captured, ended, stripEnd_append_newline]
  exact captured_eq_stripReturns open_line

/-- The texts of the lines of a stream are the lines of its text. -/
theorem map_captured_split (bytes : Bytes) :
    (split bytes).map captured = ofText (decodeLossy bytes) := by
  induction bytes using line_induction with
  | last line open_line =>
      rw [split_of_not_mem open_line,
        ofText_of_not_mem (Utf8.newline_not_mem_decodeLossy open_line)]
      cases line with
      | nil => rfl
      | cons byte line =>
          have some_text : decodeLossy (byte :: line) ≠ "" := by
            simp [Utf8.decodeLossy_eq_empty_iff]
          rw [if_neg some_text]
          simp [captured_eq_stripReturns open_line]
  | next line rest open_line induction =>
      rw [split_append_newline open_line, List.map_cons, captured_terminated open_line, induction,
        Utf8.decodeLossy_append_newline,
        ofText_append (Utf8.newline_not_mem_decodeLossy open_line)]

/-- Decoded one by one, the lines of a stream are its text. -/
theorem join_decodeLossy_split (bytes : Bytes) :
    String.join ((split bytes).map decodeLossy) = decodeLossy bytes := by
  induction bytes using line_induction with
  | last line open_line =>
      rw [split_of_not_mem open_line]
      cases line with
      | nil => rfl
      | cons byte line => simp
  | next line rest open_line induction =>
      rw [split_append_newline open_line, List.map_cons, String.join_cons, induction,
        Utf8.decodeLossy_append_newline, Utf8.decodeLossy_append_newline, Utf8.decodeLossy_nil,
        String.append_empty]

end Lines
end StagedBuild
