import BuildFacts.Number.Shortest

/-!
# JSON numbers

A number is an integer from `-2 ^ 63` to `2 ^ 64 - 1` or a double.  A literal
without fraction and exponent is an integer if it is in this range and is not
`-0`; every other literal is a double.

A literal is scanned first (`NumberLiteral.scan`) and given its value after
that (`NumberLiteral.value?`), because a value that is skipped may be out of
range.

The double of a literal is found in few steps.  The digits give a coefficient
below `2 ^ 64`: digits that would make it larger are left out, and only their
place is kept.  The coefficient is rounded to a double, and so is its product
or quotient with a power of ten.  This is within a few units in the last place
of the nearest double, and exact for short literals.
-/

namespace BuildFacts.Json

open BuildFacts.Number

/-- A number in a JSON value. -/
inductive Number where
  | integer (i : Int)
  | double (d : Double)
  deriving DecidableEq

namespace Number

/-- Whether two numbers are the same integer or the same double.  An integer
is not a double. -/
def same : Number → Number → Bool
  | .integer i, .integer j => i == j
  | .double d, .double e => d.same e
  | _, _ => false

/-- Whether the number has no fraction. -/
def isWhole : Number → Bool
  | .integer _ => true
  | .double d => d.isWhole

/-- Doubles are written without an exponent from `0.00001` up to, not
including, `1e+16`. -/
def style : DecimalStyle := ⟨-5, 15⟩

/-- The text of a number. -/
def write : Number → List Char
  | .integer i => (if i < 0 then ['-'] else []) ++ Nat.toDigits 10 i.natAbs
  | .double d => d.write style

end Number

/-! ## Scanning a literal -/

/-- The parts of a number as written.  An absent fraction has no digits. -/
structure NumberLiteral where
  negative : Bool
  whole : List Nat
  fraction : List Nat
  exponent : Option (Bool × List Nat)

/-- The value of a decimal digit. -/
def digit? (c : Char) : Option Nat :=
  if '0' ≤ c ∧ c ≤ '9' then some (c.toNat - '0'.toNat) else none

/-- The digits at the start of a text, and what follows them. -/
def takeDigits : List Char → List Nat × List Char
  | [] => ([], [])
  | c :: rest =>
    match digit? c with
    | some d => (d :: (takeDigits rest).1, (takeDigits rest).2)
    | none => ([], c :: rest)

theorem length_takeDigits (text : List Char) :
    (takeDigits text).1.length + (takeDigits text).2.length = text.length := by
  induction text with
  | nil => rfl
  | cons c rest ih =>
    rw [takeDigits]
    split
    · simp only [List.length_cons]; omega
    · simp

/-- Whether a text starts with a minus, and what follows it. -/
def takeMinus : List Char → Bool × List Char
  | '-' :: rest => (true, rest)
  | text => (false, text)

theorem length_takeMinus_le (text : List Char) : (takeMinus text).2.length ≤ text.length := by
  unfold takeMinus
  split <;> simp

/-- Whether a text starts with a minus, and what follows its sign. -/
def takeSign : List Char → Bool × List Char
  | '+' :: rest => (false, rest)
  | text => takeMinus text

theorem length_takeSign_le (text : List Char) : (takeSign text).2.length ≤ text.length := by
  unfold takeSign
  split
  · simp
  · exact length_takeMinus_le text

/-- The digits at the start of a text, of which there must be one. -/
def takeSomeDigits (text : List Char) : Option (List Nat × List Char) :=
  if (takeDigits text).1.isEmpty then none else some (takeDigits text)

theorem length_lt_of_takeSomeDigits {text rest : List Char} {digits : List Nat}
    (h : takeSomeDigits text = some (digits, rest)) : rest.length < text.length := by
  have hlength := length_takeDigits text
  unfold takeSomeDigits at h
  split at h
  · simp at h
  · rename_i hne
    simp only [Option.some.injEq] at h
    rw [h] at hlength hne
    have : 0 < digits.length := List.length_pos_iff.2 (by simpa using hne)
    dsimp only at hlength
    omega

/-- The fraction at the start of a text, if there is one: `none` where it has
no digits. -/
def takeFraction : List Char → Option (List Nat × List Char)
  | '.' :: rest => takeSomeDigits rest
  | text => some ([], text)

theorem length_le_of_takeFraction {text rest : List Char} {digits : List Nat}
    (h : takeFraction text = some (digits, rest)) : rest.length ≤ text.length := by
  unfold takeFraction at h
  split at h
  · have := length_lt_of_takeSomeDigits h
    simp only [List.length_cons]
    omega
  · simp only [Option.some.injEq, Prod.mk.injEq] at h
    simp [h.2]

/-- The exponent at the start of a text, if there is one: `none` where it has
no digits. -/
def takeExponent (text : List Char) : Option (Option (Bool × List Nat) × List Char) :=
  match text with
  | [] => some (none, [])
  | c :: rest =>
    if c = 'e' ∨ c = 'E' then
      (takeSomeDigits (takeSign rest).2).map fun (digits, after) =>
        (some ((takeSign rest).1, digits), after)
    else some (none, text)

theorem length_le_of_takeExponent {text rest : List Char} {exponent : Option (Bool × List Nat)}
    (h : takeExponent text = some (exponent, rest)) : rest.length ≤ text.length := by
  cases text with
  | nil =>
    simp only [takeExponent, Option.some.injEq, Prod.mk.injEq] at h
    simp [← h.2]
  | cons c after =>
    simp only [takeExponent] at h
    split at h
    · obtain ⟨⟨digits, behind⟩, hdigits, he⟩ := Option.map_eq_some_iff.1 h
      have hlt := length_lt_of_takeSomeDigits hdigits
      have hle := length_takeSign_le after
      simp only [Prod.mk.injEq] at he
      obtain ⟨_, rfl⟩ := he
      simp only [List.length_cons]
      omega
    · simp only [Option.some.injEq, Prod.mk.injEq] at h
      simp [← h.2]

namespace NumberLiteral

/-- The literal at the start of a text, and what follows it.  A literal has
digits wherever some must stand, and no zero before another digit. -/
def scan (text : List Char) : Option (NumberLiteral × List Char) :=
  match takeSomeDigits (takeMinus text).2 with
  | none => none
  | some (0 :: _ :: _, _) => none
  | some (whole, afterWhole) =>
    match takeFraction afterWhole with
    | none => none
    | some (fraction, afterFraction) =>
      match takeExponent afterFraction with
      | none => none
      | some (exponent, after) => some (⟨(takeMinus text).1, whole, fraction, exponent⟩, after)

/-- What follows a literal is shorter than the text it was scanned from. -/
theorem length_lt_of_scan {text rest : List Char} {literal : NumberLiteral}
    (h : scan text = some (literal, rest)) : rest.length < text.length := by
  have hminus := length_takeMinus_le text
  unfold scan at h
  split at h
  · simp at h
  · simp at h
  · rename_i hwhole
    have hwhole := length_lt_of_takeSomeDigits hwhole
    split at h
    · simp at h
    · rename_i hfraction
      have hfraction := length_le_of_takeFraction hfraction
      split at h
      · simp at h
      · rename_i hexponent
        have hexponent := length_le_of_takeExponent hexponent
        simp only [Option.some.injEq, Prod.mk.injEq] at h
        obtain ⟨_, rfl⟩ := h
        omega

/-! ## The value of a literal -/

/-- The end of the range of coefficients. -/
def coefficientBound : Nat := twoTo 64

/-- Appends digits to a coefficient as long as it stays in range; the digits
that are left over are the second part. -/
def extend (coefficient : Nat) : List Nat → Nat × List Nat
  | [] => (coefficient, [])
  | d :: rest =>
    if coefficient * 10 + d < coefficientBound then extend (coefficient * 10 + d) rest
    else (coefficient, d :: rest)

/-- The number that digits write. -/
def ofDigits (digits : List Nat) : Nat :=
  digits.foldl (fun n d => n * 10 + d) 0

/-- The power of ten with exponent `n`, as a double. -/
def powerOfTen (n : Nat) : Magnitude :=
  (Magnitude.nearest (tenTo n) 1).getD .zero

/-- The greatest exponent of a power of ten that is a double. -/
def maxTenExponent : Nat := 308

/-- Divides by the greatest power of ten `times` times, or until nothing is left. -/
def divideDown (m : Magnitude) : Nat → Option Magnitude
  | 0 => some m
  | times + 1 =>
    if m.mantissa = 0 then some m
    else (m.div (powerOfTen maxTenExponent)).bind fun smaller => divideDown smaller times

/-- `m * 10 ^ -exponent`, in steps that divide by at most `10 ^ 308`. -/
def scaleDown (m : Magnitude) (exponent : Nat) : Option Magnitude :=
  let times := (exponent - 1) / maxTenExponent
  (divideDown m times).bind fun smaller =>
    smaller.div (powerOfTen (exponent - times * maxTenExponent))

/-- `coefficient * 10 ^ exponent` as a double; `none` above the finite ones. -/
def scale (coefficient : Nat) (exponent : Int) : Option Magnitude :=
  match Magnitude.nearest coefficient 1 with
  | none => none
  | some m =>
    if exponent < 0 then scaleDown m exponent.natAbs
    else if exponent.natAbs ≤ maxTenExponent then m.mul (powerOfTen exponent.natAbs)
    else if m.mantissa = 0 then some m
    else none

/-- The exponent that a literal writes, or zero. -/
def writtenExponent (literal : NumberLiteral) : Int :=
  match literal.exponent with
  | none => 0
  | some (negative, digits) => if negative then -(ofDigits digits : Int) else ofDigits digits

/-- The magnitude of a literal that is read as a double. -/
def magnitude? (literal : NumberLiteral) : Option Magnitude :=
  let (whole, droppedWhole) := extend 0 literal.whole
  let (coefficient, droppedFraction) := extend whole literal.fraction
  let usedFraction := literal.fraction.length - droppedFraction.length
  scale coefficient (droppedWhole.length - usedFraction + literal.writtenExponent)

/-- The integer that a literal writes, if it is read as an integer. -/
def integer? (literal : NumberLiteral) : Option Int :=
  if literal.fraction.isEmpty && literal.exponent.isNone then
    let n := ofDigits literal.whole
    if literal.negative then
      if 0 < n ∧ n ≤ twoTo 63 then some (-(n : Int)) else none
    else if n < coefficientBound then some n else none
  else none

/-- The value of a literal; `none` above the finite doubles. -/
def value? (literal : NumberLiteral) : Option Number :=
  match literal.integer? with
  | some i => some (.integer i)
  | none => literal.magnitude?.map fun m => .double ⟨literal.negative, m⟩

end NumberLiteral

end BuildFacts.Json
