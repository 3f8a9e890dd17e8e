/-!
# Finite double-precision numbers

A magnitude is a number `mantissa * 2 ^ shift` of the smallest positive
double, which is `2 ^ -1074`.  Only natural numbers are needed: `nearest`
rounds a quotient of two of them to the nearest magnitude, a tie to the even
mantissa, and answers `none` above the largest one.

A mantissa is below `2 ^ 53`, and below `2 ^ 52` only with `shift = 0`.  So
equal magnitudes are equal numbers.  `nearest` keeps to this form.
-/

namespace BuildFacts.Number

/-- `numerator / denominator` to the nearest natural number, a tie to the even one. -/
def roundDiv (numerator denominator : Nat) : Nat :=
  let floor := numerator / denominator
  let rest := 2 * (numerator % denominator)
  if rest < denominator then floor
  else if denominator < rest then floor + 1
  else floor + floor % 2

/-- The power of two with an exponent. -/
def twoTo (exponent : Nat) : Nat :=
  Nat.pow 2 exponent

/-- The power of ten with an exponent. -/
def tenTo (exponent : Nat) : Nat :=
  Nat.pow 10 exponent

/-- A finite double without its sign, in units of `2 ^ -1074`. -/
structure Magnitude where
  mantissa : Nat
  shift : Nat
  deriving DecidableEq

namespace Magnitude

/-- How many of the smallest positive double make one. -/
def unit : Nat := twoTo 1074

/-- The greatest shift of a finite double. -/
def maxShift : Nat := 2045

/-- The magnitude in units of `2 ^ -1074`. -/
def units (m : Magnitude) : Nat :=
  m.mantissa * twoTo m.shift

/-- The shift at which a quotient of units has a mantissa of 53 bits, or zero. -/
def shiftOf (units : Nat) : Nat :=
  if units = 0 then 0 else units.log2 - 52

/-- The magnitude nearest to `numerator / denominator`; `none` above the finite ones. -/
def nearest (numerator denominator : Nat) : Option Magnitude :=
  let scaled := numerator * unit
  let shift := shiftOf (scaled / denominator)
  let mantissa := roundDiv scaled (denominator * twoTo shift)
  let rounded : Magnitude :=
    if mantissa = twoTo 53 then ⟨twoTo 52, shift + 1⟩ else ⟨mantissa, shift⟩
  if rounded.shift ≤ maxShift then some rounded else none

/-- The zero magnitude. -/
def zero : Magnitude := ⟨0, 0⟩

/-- The rounded product. -/
def mul (a b : Magnitude) : Option Magnitude :=
  nearest (a.units * b.units) (unit * unit)

/-- The rounded quotient, for a divisor that is not zero. -/
def div (a b : Magnitude) : Option Magnitude :=
  nearest a.units b.units

/-- Whether the magnitude is a natural number. -/
def isWhole (m : Magnitude) : Bool :=
  m.units % unit == 0

end Magnitude

/-- A finite double.  Zero has two signs. -/
structure Double where
  negative : Bool
  magnitude : Magnitude
  deriving DecidableEq

namespace Double

/-- Whether two doubles are the same number; the two zeros are. -/
def same (a b : Double) : Bool :=
  a.magnitude == b.magnitude && (a.negative == b.negative || a.magnitude.mantissa == 0)

/-- Whether the double has no fraction. -/
def isWhole (d : Double) : Bool :=
  d.magnitude.isWhole

end Double

end BuildFacts.Number
