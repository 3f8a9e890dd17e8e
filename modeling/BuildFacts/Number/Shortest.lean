import BuildFacts.Number.Double

/-!
# The shortest decimal of a double

The numbers that round to a magnitude form an interval.  `shortest` is the
decimal with the fewest digits in that interval, and of those the nearest to
the magnitude, or of two that are as near the even one.

For one digit, two digits and so on up to seventeen, it tries the two
decimals with that many digits beside the magnitude.  All comparisons are
between natural numbers: a magnitude is counted in steps of `10 ^ -400`,
which are finer than every decimal that is tried.
-/

namespace BuildFacts.Number

/-- A decimal number `0.d₁d₂… * 10 ^ (exponent + 1)`: its digits, and the
exponent of the first one. -/
structure Decimal where
  digits : List Char
  exponent : Int
  deriving DecidableEq

/-- The decimal of `coefficient * 10 ^ place`, without zeros at the end. -/
def Decimal.ofScaled (coefficient : Nat) (place : Int) : Decimal :=
  let digits := Nat.toDigits 10 coefficient
  ⟨(digits.reverse.dropWhile (· == '0')).reverse, place + digits.length - 1⟩

namespace Magnitude

/-- Decimal places that are kept when magnitudes and decimals are compared. -/
def places : Nat := 400

/-- Whether `steps` steps of `10 ^ -400` round to `m`.  The ends of the
interval belong to an even mantissa. -/
def roundsFrom (m : Magnitude) (steps : Nat) : Bool :=
  let ulp := twoTo m.shift
  let below := if m.mantissa = twoTo 52 ∧ m.shift ≠ 0 then ulp else 2 * ulp
  let low := (4 * m.units - below) * tenTo places
  let high := (4 * m.units + 2 * ulp) * tenTo places
  let here := 4 * steps * unit
  if m.mantissa % 2 = 0 then low ≤ here && here ≤ high else low < here && here < high

/-- How far `steps` steps are from `m`. -/
def distance (m : Magnitude) (steps : Nat) : Nat :=
  let here := steps * unit
  let there := m.units * tenTo places
  (here - there) + (there - here)

/-- The exponent of the first digit, counted in steps. -/
def firstPlace (m : Magnitude) : Nat :=
  (Nat.toDigits 10 (m.units * tenTo places / unit)).length - 1

/-- Whether the decimal `below` at `place` is a better one for `m` than the
next one: it is nearer, or as near and even. -/
def prefersBelow (m : Magnitude) (place below : Nat) : Bool :=
  let toBelow := m.distance (below * tenTo place)
  let toAbove := m.distance ((below + 1) * tenTo place)
  toBelow < toAbove || (toBelow == toAbove && below % 2 == 0)

/-- The better of the two decimals beside `m` that end at `place` and round to `m`. -/
def beside? (m : Magnitude) (place : Nat) : Option Nat :=
  let step := tenTo place
  let below := m.units * tenTo places / (unit * step)
  let fits (c : Nat) : Bool := m.roundsFrom (c * step)
  if fits below && (!fits (below + 1) || m.prefersBelow place below) then some below
  else if fits (below + 1) then some (below + 1)
  else none

/-- The first of `places` at which a decimal rounds to `m`. -/
def shortestFrom (m : Magnitude) : List Nat → Option Decimal
  | [] => none
  | place :: finer =>
    match m.beside? place with
    | some c => some (.ofScaled c (place - places))
    | none => shortestFrom m finer

/-- The shortest decimal that rounds to `m`, and of those the nearest, a tie to
the even one. -/
def shortest (m : Magnitude) : Decimal :=
  if m.mantissa = 0 then ⟨['0'], 0⟩
  else
    ((m.shortestFrom ((List.range 17).map (m.firstPlace - ·))).getD
      (.ofScaled (m.units * tenTo places / unit) (-places)))

end Magnitude

/-! ## Writing a decimal -/

/-- Which decimals are written without an exponent: those whose first digit
has an exponent from `least` to `greatest`. -/
structure DecimalStyle where
  least : Int
  greatest : Int

/-- A decimal with a point in place: at least one digit on either side of it. -/
def Decimal.positional (d : Decimal) : List Char :=
  if 0 ≤ d.exponent then
    let before := d.exponent.toNat + 1
    let digits := d.digits ++ List.replicate (before - d.digits.length) '0'
    let after := digits.drop before
    digits.take before ++ '.' :: (if after.isEmpty then ['0'] else after)
  else
    '0' :: '.' :: (List.replicate ((-d.exponent).toNat - 1) '0' ++ d.digits)

/-- A decimal with a point after the first digit, and its exponent. -/
def Decimal.scientific (d : Decimal) : List Char :=
  let fraction := d.digits.drop 1
  d.digits.take 1 ++ (if fraction.isEmpty then [] else '.' :: fraction) ++
    'e' :: (if d.exponent < 0 then '-' else '+') :: Nat.toDigits 10 d.exponent.natAbs

/-- A decimal in a style. -/
def Decimal.write (style : DecimalStyle) (d : Decimal) : List Char :=
  if style.least ≤ d.exponent ∧ d.exponent ≤ style.greatest then d.positional else d.scientific

/-- A double in its shortest decimal. -/
def Double.write (style : DecimalStyle) (d : Double) : List Char :=
  (if d.negative then ['-'] else []) ++ d.magnitude.shortest.write style

end BuildFacts.Number
