import BuildFacts.Json.Value

/-!
# Printing JSON values

`compact` prints a value on one line and without spaces.  `pretty` prints
every item and member on a line of its own, two spaces deeper than its
container; an empty container stays on its line.

In a string, quotes, backslashes and control characters are escaped, and
nothing else is.
-/

namespace BuildFacts.Json

/-- The hexadecimal digit of a number below sixteen. -/
def hexDigit (n : Nat) : Char :=
  if n < 10 then Char.ofNat ('0'.toNat + n) else Char.ofNat ('a'.toNat + n - 10)

/-- One character of a printed string. -/
def escapeChar (c : Char) : List Char :=
  if c = '"' then ['\\', '"']
  else if c = '\\' then ['\\', '\\']
  else if c = '\x08' then ['\\', 'b']
  else if c = '\x0c' then ['\\', 'f']
  else if c = '\n' then ['\\', 'n']
  else if c = '\r' then ['\\', 'r']
  else if c = '\t' then ['\\', 't']
  else if c.toNat < 0x20 then
    ['\\', 'u', '0', '0', hexDigit (c.toNat / 16), hexDigit (c.toNat % 16)]
  else [c]

/-- A printed string. -/
def printString (text : String) : List Char :=
  '"' :: (text.toList.flatMap escapeChar ++ ['"'])

namespace Value

/-- A printed value without parts. -/
def printLeaf : Value → List Char
  | .bool true => "true".toList
  | .bool false => "false".toList
  | .number n => n.write
  | .string s => printString s
  | _ => "null".toList

mutual

/-- A value on one line. -/
def compact : Value → List Char
  | .array items => '[' :: compactItems true items
  | .object members => '\x7b' :: compactMembers true members
  | leaf => leaf.printLeaf

/-- The items of a list and its closing bracket. -/
def compactItems (first : Bool) : List Value → List Char
  | [] => [']']
  | item :: rest => (if first then [] else [',']) ++ compact item ++ compactItems false rest

/-- The members of an object and its closing brace. -/
def compactMembers (first : Bool) : List (String × Value) → List Char
  | [] => ['\x7d']
  | (key, value) :: rest =>
    (if first then [] else [',']) ++ printString key ++ ':' :: compact value ++
      compactMembers false rest

end

/-- A new line at a depth. -/
def newline (depth : Nat) : List Char :=
  '\n' :: List.replicate (2 * depth) ' '

mutual

/-- A value on several lines, at a depth. -/
def prettyAt (depth : Nat) : Value → List Char
  | .array [] => ['[', ']']
  | .array items => '[' :: prettyItems true depth items
  | .object [] => ['\x7b', '\x7d']
  | .object members => '\x7b' :: prettyMembers true depth members
  | leaf => leaf.printLeaf

/-- The items of a list at `depth`, and its closing bracket. -/
def prettyItems (first : Bool) (depth : Nat) : List Value → List Char
  | [] => newline depth ++ [']']
  | item :: rest =>
    (if first then [] else [',']) ++ newline (depth + 1) ++ prettyAt (depth + 1) item ++
      prettyItems false depth rest

/-- The members of an object at `depth`, and its closing brace. -/
def prettyMembers (first : Bool) (depth : Nat) : List (String × Value) → List Char
  | [] => newline depth ++ ['\x7d']
  | (key, value) :: rest =>
    (if first then [] else [',']) ++ newline (depth + 1) ++ printString key ++
      ':' :: ' ' :: prettyAt (depth + 1) value ++ prettyMembers false depth rest

end

/-- A value on several lines. -/
def pretty (value : Value) : List Char :=
  prettyAt 0 value

end Value

end BuildFacts.Json
