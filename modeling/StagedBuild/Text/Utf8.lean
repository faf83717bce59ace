/-!
# UTF-8 text

Bytes are read by a decoder that remembers at most one unfinished sequence.  Strict reading refuses
a text with a malformed piece; lossy reading writes one replacement character for every maximal
malformed piece.  A byte below `0x80` always ends an unfinished sequence, so reading a text line by
line agrees with reading it as a whole.
-/

namespace StagedBuild

abbrev Bytes := List UInt8

namespace Utf8

/-- A sequence whose first bytes have been read; the next one lies between two bounds. -/
structure Pending where
  value : Nat
  /-- Bytes that are still to come after the next one. -/
  later : Nat
  lowest : UInt8
  highest : UInt8
  deriving DecidableEq, Repr

/-- A decoder between two bytes. -/
structure Decoder where
  /-- Characters read so far, the newest first; `none` stands for a malformed piece. -/
  read : List (Option Char)
  pending : Option Pending
  deriving DecidableEq, Repr

namespace Decoder

def initial : Decoder := ⟨[], none⟩

def start (read : List (Option Char)) (byte : UInt8) : Decoder :=
  if byte < 0x80 then ⟨some (Char.ofNat byte.toNat) :: read, none⟩
  else if byte < 0xC2 then ⟨none :: read, none⟩
  else if byte < 0xE0 then ⟨read, some ⟨byte.toNat - 0xC0, 0, 0x80, 0xBF⟩⟩
  else if byte = 0xE0 then ⟨read, some ⟨0x0, 1, 0xA0, 0xBF⟩⟩
  else if byte = 0xED then ⟨read, some ⟨0xD, 1, 0x80, 0x9F⟩⟩
  else if byte < 0xF0 then ⟨read, some ⟨byte.toNat - 0xE0, 1, 0x80, 0xBF⟩⟩
  else if byte = 0xF0 then ⟨read, some ⟨0x0, 2, 0x90, 0xBF⟩⟩
  else if byte < 0xF4 then ⟨read, some ⟨byte.toNat - 0xF0, 2, 0x80, 0xBF⟩⟩
  else if byte = 0xF4 then ⟨read, some ⟨0x4, 2, 0x80, 0x8F⟩⟩
  else ⟨none :: read, none⟩

def step (decoder : Decoder) (byte : UInt8) : Decoder :=
  match decoder.pending with
  | none => start decoder.read byte
  | some sequence =>
      if sequence.lowest ≤ byte ∧ byte ≤ sequence.highest then
        let value := sequence.value * 64 + (byte.toNat - 0x80)
        match sequence.later with
        | 0 => ⟨some (Char.ofNat value) :: decoder.read, none⟩
        | later + 1 => ⟨decoder.read, some ⟨value, later, 0x80, 0xBF⟩⟩
      else start (none :: decoder.read) byte

/-- What was read when no byte follows: an unfinished sequence is malformed. -/
def finish (decoder : Decoder) : List (Option Char) :=
  (if decoder.pending.isSome then none :: decoder.read else decoder.read).reverse

end Decoder

/-- The characters and malformed pieces of `bytes`, in order. -/
def pieces (bytes : Bytes) : List (Option Char) :=
  (bytes.foldl Decoder.step Decoder.initial).finish

def decode? (bytes : Bytes) : Option String :=
  (pieces bytes).mapM id |>.map String.ofList

def replacement : Char := Char.ofNat 0xFFFD

/-- The text of `bytes`, with a replacement character for every malformed piece. -/
def decodeLossy (bytes : Bytes) : String :=
  String.ofList ((pieces bytes).map fun piece => piece.getD replacement)

def encode (text : String) : Bytes :=
  text.toList.flatMap String.utf8EncodeChar

def size (text : String) : Nat :=
  (encode text).length

end Utf8
end StagedBuild
