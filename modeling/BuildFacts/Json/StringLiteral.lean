import BuildFacts.Json.Fault

/-!
# JSON strings as written

A string literal is scanned into pieces: characters, and the UTF-16 units of
its `\u` escapes.  A literal that does not end well keeps the pieces up to
that place.

The pieces have two readings.  `text` is the text of the literal; a unit that
is half of a surrogate pair must stand with its other half.  `skip` only asks
how the literal ends, for a string whose text is not wanted.
-/

namespace BuildFacts.Json

namespace StringLiteral

/-- What a string literal is made of. -/
inductive Piece where
  | char (c : Char)
  | unit (n : Nat)
  deriving DecidableEq

/-- How a string literal ends. -/
inductive Ending where
  | closed
  | unfinished
  | control
  | unknownEscape
  | malformedUnit
  deriving DecidableEq

end StringLiteral

/-- A string as written, up to its closing quote or to the place where it
stops making sense. -/
structure StringLiteral where
  pieces : List StringLiteral.Piece
  ending : StringLiteral.Ending
  deriving DecidableEq

namespace StringLiteral

/-! ## Scanning -/

/-- The character of an escape that is one letter. -/
def escaped? : Char → Option Char
  | '"' => some '"'
  | '\\' => some '\\'
  | '/' => some '/'
  | 'b' => some '\x08'
  | 'f' => some '\x0c'
  | 'n' => some '\n'
  | 'r' => some '\r'
  | 't' => some '\t'
  | _ => none

/-- The value of a hexadecimal digit. -/
def hexDigit? (c : Char) : Option Nat :=
  if '0' ≤ c ∧ c ≤ '9' then some (c.toNat - '0'.toNat)
  else if 'a' ≤ c ∧ c ≤ 'f' then some (c.toNat - 'a'.toNat + 10)
  else if 'A' ≤ c ∧ c ≤ 'F' then some (c.toNat - 'A'.toNat + 10)
  else none

/-- The number that hexadecimal digits write. -/
def hexNumber? (digits : List Char) : Option Nat :=
  digits.foldlM (fun n c => (hexDigit? c).map (n * 16 + ·)) 0

/-- Puts a piece before a scanned literal. -/
def push (piece : Piece) (scanned : StringLiteral × List Char) : StringLiteral × List Char :=
  (⟨piece :: scanned.1.pieces, scanned.1.ending⟩, scanned.2)

/-- The literal that stops at once, and after it nothing that could be read. -/
def stop (ending : Ending) : StringLiteral × List Char :=
  (⟨[], ending⟩, [])

/-- How a literal ends that has no unit after `\u`.  It is unfinished if fewer
than four bytes are left of the text. -/
def unitEnding (rest : List Char) : Ending :=
  if (String.ofList (rest.take 4)).utf8ByteSize < 4 then .unfinished else .malformedUnit

/-- Scans a literal from behind its opening quote; the second part is what
follows its closing quote. -/
def scan : List Char → StringLiteral × List Char
  | [] => stop .unfinished
  | '"' :: rest => (⟨[], .closed⟩, rest)
  | '\\' :: 'u' :: a :: b :: c :: d :: rest =>
    match hexNumber? [a, b, c, d] with
    | some n => push (.unit n) (scan rest)
    | none => stop (unitEnding (a :: b :: c :: d :: rest))
  | '\\' :: 'u' :: rest => stop (unitEnding rest)
  | '\\' :: e :: rest =>
    match escaped? e with
    | some c => push (.char c) (scan rest)
    | none => stop .unknownEscape
  | ['\\'] => stop .unfinished
  | c :: rest => if c.toNat < 0x20 then stop .control else push (.char c) (scan rest)

/-- What follows a literal is shorter than the text it was scanned from. -/
theorem length_scan_le (text : List Char) : (scan text).2.length ≤ text.length := by
  fun_induction scan text <;> simp_all [push, stop] <;> omega

/-! ## The text of a literal -/

/-- Whether a unit is the first half of a surrogate pair. -/
def isLeading (n : Nat) : Bool := 0xD800 ≤ n && n ≤ 0xDBFF

/-- Whether a unit is the second half of a surrogate pair. -/
def isTrailing (n : Nat) : Bool := 0xDC00 ≤ n && n ≤ 0xDFFF

/-- The character of a surrogate pair. -/
def pairChar (leading trailing : Nat) : Char :=
  Char.ofNat (0x10000 + (leading - 0xD800) * 0x400 + (trailing - 0xDC00))

/-- What is wrong with a literal because of its ending. -/
def Ending.fault? : Ending → Option Fault
  | .closed => none
  | .unfinished => some .endInString
  | .control => some .controlCharacter
  | .unknownEscape => some .invalidEscape
  | .malformedUnit => some .invalidEscape

/-- What is wrong with a literal whose last piece is half of a pair. -/
def Ending.faultInPair : Ending → Fault
  | .unfinished => .endInString
  | .malformedUnit => .invalidEscape
  | _ => .unpairedSurrogate

/-- The characters of pieces. -/
def textOf (ending : Ending) : List Piece → Except Fault (List Char)
  | [] =>
    match ending.fault? with
    | none => .ok []
    | some fault => .error fault
  | .char c :: rest => (c :: ·) <$> textOf ending rest
  | [.unit n] =>
    if isTrailing n then .error .loneSurrogate
    else if isLeading n then .error ending.faultInPair
    else (Char.ofNat n :: ·) <$> textOf ending []
  | .unit n :: .char c :: rest =>
    if isTrailing n then .error .loneSurrogate
    else if isLeading n then .error .unpairedSurrogate
    else (Char.ofNat n :: ·) <$> textOf ending (.char c :: rest)
  | .unit n :: .unit m :: rest =>
    if isTrailing n then .error .loneSurrogate
    else if isLeading n then
      if isTrailing m then (pairChar n m :: ·) <$> textOf ending rest
      else .error .loneSurrogate
    else (Char.ofNat n :: ·) <$> textOf ending (.unit m :: rest)

/-- The text of a literal. -/
def text (literal : StringLiteral) : Except Fault String :=
  String.ofList <$> textOf literal.ending literal.pieces

/-- Passes over a literal. -/
def skip (literal : StringLiteral) : Except Fault Unit :=
  match literal.ending.fault? with
  | none => .ok ()
  | some fault => .error fault

end StringLiteral

end BuildFacts.Json
