import BuildFacts.Json.Number
import BuildFacts.Toml.Text
import BuildFacts.Toml.Value

/-!
# TOML scalars

Numbers, dates, times and the two truth values.  An integer is from `-2 ^ 63`
to `2 ^ 63 - 1`, and a float that is not negative must not round to infinity.
Dates and times must exist, and a minute may have a leap second.
-/

namespace BuildFacts.Toml

open Reader

/-! ## Digits -/

/-- Takes a digit of a base. -/
def digit (base : Nat) : Reader Nat :=
  (charOf fun _ => true).filterMap fun c =>
    (Json.StringLiteral.hexDigit? c).filter (· < base)

/-- Takes digits, with single underscores between them. -/
def digits (base : Nat) : Reader (List Nat) := do
  let first ← digit base
  let more ← many (do let _ ← optional (chars ['_']); digit base)
  return first :: more

/-- The number that digits of a base write. -/
def ofDigits (base : Nat) (digits : List Nat) : Nat :=
  digits.foldl (fun n d => n * base + d) 0

/-- Takes a sign, if there is one: whether it is a minus. -/
def sign : Reader Bool :=
  (do chars ['-']; return true) <|> (do chars ['+']; return false) <|> pure false

/-- Takes decimal digits without a zero before others. -/
def wholeDigits : Reader (List Nat) :=
  (digits 10).guarded fun digits => digits.head? != some 0 || digits.length == 1

/-! ## Integers -/

/-- The end of the range of integers. -/
def integerBound : Nat := Number.twoTo 63

/-- Takes an integer in another base. -/
def basedInteger (letter : Char) (base : Nat) : Reader Int := do
  chars ['0', letter]
  let n := ofDigits base (← digits base)
  if n < integerBound then return n else failure

/-- Takes an integer in base ten. -/
def decimalInteger : Reader Int := do
  let negative ← sign
  let n := ofDigits 10 (← wholeDigits)
  if negative then
    if n ≤ integerBound then return -n else failure
  else if n < integerBound then return n else failure

/-- Takes an integer. -/
def integer : Reader Int :=
  basedInteger 'x' 16 <|> basedInteger 'o' 8 <|> basedInteger 'b' 2 <|> decimalInteger

/-! ## Floats -/

/-- The least number that rounds to infinity. -/
def infinityFrom : Nat := Number.twoTo 1024 - Number.twoTo 970

/-- Whether `digits`, read as a number below one times `10 ^ exponent`, are so
large that they round to infinity. -/
def roundsToInfinity (digits : List Nat) (exponent : Int) : Bool :=
  let n := ofDigits 10 digits
  let power := exponent - digits.length
  if n = 0 || exponent ≤ 0 then false
  else if power < 0 then infinityFrom * Number.tenTo power.natAbs ≤ n
  else 310 ≤ power || infinityFrom ≤ n * Number.tenTo power.natAbs

/-- Takes the fraction of a float. -/
def fraction : Reader (List Nat) := do
  chars ['.']
  digits 10

/-- Takes the exponent of a float. -/
def exponent : Reader Int := do
  chars ['e'] <|> chars ['E']
  let negative ← sign
  let n := ofDigits 10 (← digits 10)
  return if negative then -n else n

/-- Takes a float with digits. -/
def numericFloat : Reader Unit := do
  let negative ← sign
  let whole ← wholeDigits
  let (places, power) ←
    (do let power ← exponent; return ([], power)) <|>
      (do let places ← fraction; let power ← exponent <|> pure 0; return (places, power))
  if !negative && roundsToInfinity (whole ++ places) (power + whole.length) then failure

/-- Takes a float that is no number. -/
def specialFloat : Reader Unit := do
  let _ ← sign
  chars "inf".toList <|> chars "nan".toList

/-! ## Dates and times -/

/-- Takes a number of exactly so many digits within bounds. -/
def numberIn (count least greatest : Nat) : Reader Nat := do
  let n := ofDigits 10 (← (List.range count).mapM fun _ => digit 10)
  if least ≤ n && n ≤ greatest then return n else failure

/-- How many days a month has. -/
def daysIn (year month : Nat) : Nat :=
  if month = 2 then
    if year % 4 = 0 && (year % 100 ≠ 0 || year % 400 = 0) then 29 else 28
  else if month = 4 || month = 6 || month = 9 || month = 11 then 30
  else 31

/-- Takes a date. -/
def date : Reader Unit := do
  let year ← numberIn 4 0 9999
  chars ['-']
  let month ← numberIn 2 1 12
  chars ['-']
  let _ ← numberIn 2 1 (daysIn year month)

/-- Takes hours and minutes. -/
def hourMinute : Reader Unit := do
  let _ ← numberIn 2 0 23
  chars [':']
  let _ ← numberIn 2 0 59

/-- Takes a time of day. -/
def time : Reader Unit := do
  hourMinute
  chars [':']
  let _ ← numberIn 2 0 60
  let _ ← optional (do chars ['.']; atLeastOne (digit 10))

/-- Takes the distance of a time from the universal one. -/
def offset : Reader Unit :=
  (do let _ ← charOf fun c => c == 'Z' || c == 'z') <|>
    (do let _ ← charOf fun c => c == '+' || c == '-'; hourMinute)

/-- Takes a date, a time or both. -/
def moment : Reader Unit :=
  (do
    date
    let _ ← optional (do
      let _ ← charOf fun c => c == 'T' || c == 't' || c == ' '
      time
      optional offset)) <|>
    time

/-! ## Scalars -/

/-- Takes a truth value. -/
def boolean : Reader Bool :=
  (do chars "true".toList; return true) <|> (do chars "false".toList; return false)

/-- Takes a value without parts. -/
def scalar : Reader Value :=
  Value.string <$> string <|>
    (do moment; return .moment) <|>
    (do numericFloat <|> specialFloat; return .float) <|>
    Value.integer <$> integer <|>
    Value.boolean <$> boolean

end BuildFacts.Toml
