import BuildFacts.Json.Value
import BuildFacts.Text.Split

/-!
# JSON pointers

A pointer names a place in a value.  It is a sequence of tokens, each behind a
slash; the empty pointer is the value itself.  In a token `~` is written `~0`
and `/` is written `~1`.

There are two ways to write a token.  `escape` goes through it once, and
`escapeByReplacing` replaces first every `~` and then every `/`.  `unescape`
replaces first every `~1` and then every `~0`.

`resolve?` follows a pointer.
-/

namespace BuildFacts.Json.Pointer

/-! ## Tokens -/

/-- One character of a token. -/
def escapeChar (c : Char) : List Char :=
  if c = '~' then ['~', '0']
  else if c = '/' then ['~', '1']
  else [c]

/-- A token as it is written. -/
def escape (token : String) : String :=
  String.ofList (token.toList.flatMap escapeChar)

/-- Writes `new` for every `old`. -/
def replaceChar (old : Char) (new : List Char) (text : List Char) : List Char :=
  text.flatMap fun c => if c = old then new else [c]

/-- A token as it is written, by two replacements. -/
def escapeByReplacing (token : String) : String :=
  String.ofList (replaceChar '/' ['~', '1'] (replaceChar '~' ['~', '0'] token.toList))

/-- Writes `new` for every `~` with `digit` behind it. -/
def replacePair (digit new : Char) : List Char → List Char
  | [] => []
  | [c] => [c]
  | a :: b :: rest =>
    if a = '~' ∧ b = digit then new :: replacePair digit new rest
    else a :: replacePair digit new (b :: rest)

/-- The token that a written token stands for. -/
def unescape (written : List Char) : List Char :=
  replacePair '0' '~' (replacePair '1' '/' written)

/-! ## Places -/

/-- One step from a value to a part of it. -/
inductive Step where
  | member (name : String)
  | index (n : Nat)
  deriving DecidableEq

/-- The token of a step. -/
def Step.token : Step → String
  | .member name => escape name
  | .index n => Nat.repr n

/-- A pointer as it is written. -/
def write (steps : List Step) : String :=
  steps.foldr (fun step rest => "/" ++ step.token ++ rest) ""

/-- The index that a token writes: digits, and no zero before another digit. -/
def index? (token : List Char) : Option Nat :=
  match token with
  | [] => none
  | '0' :: _ :: _ => none
  | digits => digits.foldlM (fun n c => (digit? c).map (n * 10 + ·)) 0

/-- The part of a value that a written token names. -/
def step? (value : Value) (written : List Char) : Option Value :=
  match value with
  | .object members => members.lookup (String.ofList (unescape written))
  | .array items => (index? (unescape written)).bind (items[·]?)
  | _ => none

/-- The part of a value that a pointer names. -/
def resolve? (root : Value) (pointer : List Char) : Option Value :=
  match pointer with
  | [] => some root
  | '/' :: rest => (Text.splitAt (· == '/') rest).foldlM step? root
  | _ => none

end BuildFacts.Json.Pointer
