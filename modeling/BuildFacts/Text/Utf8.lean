/-!
# UTF-8 with replacements

`decodeLossy` reads bytes as UTF-8.  Where the bytes are not UTF-8, each longest
run of bytes that starts a character and cannot be finished, and each byte
that starts none, is read as U+FFFD.

The reader goes through the bytes once.  Between characters it holds nothing;
inside a character it holds a `Pending`.
-/

namespace BuildFacts.Text

/-- A character that is read in part: the number of bytes still owed, the
range of the next one, and the code point bits read so far. -/
structure Pending where
  owed : Nat
  low : Nat
  high : Nat
  bits : Nat

/-- What a byte between characters is. -/
inductive Lead where
  | char (c : Char)
  | opens (pending : Pending)
  | invalid

/-- The part that a byte plays between characters. -/
def Lead.ofByte (byte : UInt8) : Lead :=
  let b := byte.toNat
  if b < 0x80 then .char (Char.ofNat b)
  else if b < 0xC2 then .invalid
  else if b < 0xE0 then .opens ⟨1, 0x80, 0xBF, b - 0xC0⟩
  else if b = 0xE0 then .opens ⟨2, 0xA0, 0xBF, 0⟩
  else if b = 0xED then .opens ⟨2, 0x80, 0x9F, 0xD⟩
  else if b < 0xF0 then .opens ⟨2, 0x80, 0xBF, b - 0xE0⟩
  else if b = 0xF0 then .opens ⟨3, 0x90, 0xBF, 0⟩
  else if b < 0xF4 then .opens ⟨3, 0x80, 0xBF, b - 0xF0⟩
  else if b = 0xF4 then .opens ⟨3, 0x80, 0x8F, 4⟩
  else .invalid

/-- The character that stands for bytes that are not UTF-8. -/
def replacement : Char := '\uFFFD'

/-- Reads bytes from between characters (`none`) or from inside one. -/
def decodeFrom : Option Pending → List UInt8 → List Char
  | none, [] => []
  | some _, [] => [replacement]
  | none, byte :: rest =>
    match Lead.ofByte byte with
    | .char c => c :: decodeFrom none rest
    | .opens pending => decodeFrom (some pending) rest
    | .invalid => replacement :: decodeFrom none rest
  | some pending, byte :: rest =>
    let b := byte.toNat
    if pending.low ≤ b ∧ b ≤ pending.high then
      let bits := pending.bits * 64 + (b - 0x80)
      if pending.owed = 1 then Char.ofNat bits :: decodeFrom none rest
      else decodeFrom (some ⟨pending.owed - 1, 0x80, 0xBF, bits⟩) rest
    else
      replacement ::
        match Lead.ofByte byte with
        | .char c => c :: decodeFrom none rest
        | .opens next => decodeFrom (some next) rest
        | .invalid => replacement :: decodeFrom none rest

/-- The text of bytes, with U+FFFD where they are not UTF-8. -/
def decodeLossy (bytes : List UInt8) : String :=
  String.ofList (decodeFrom none bytes)

end BuildFacts.Text
