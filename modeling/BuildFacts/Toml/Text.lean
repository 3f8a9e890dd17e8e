import BuildFacts.Json.StringLiteral
import BuildFacts.Toml.Reader

/-!
# TOML strings, blanks and keys

A string is basic, with escapes, or literal, without; and either can go over
several lines between three quotes.  A key is bare or a string on one line,
and dotted keys have dots between them.
-/

namespace BuildFacts.Toml

open Reader

/-! ## Blanks, lines and comments -/

/-- Whether a character is a blank within a line. -/
def isSpace (c : Char) : Bool :=
  c == ' ' || c == '\t'

/-- Whether a character may stand in a comment: every one but the control
characters of ASCII other than the tab. -/
def isShown (c : Char) : Bool :=
  c == '\t' || (0x20 ≤ c.toNat && c.toNat != 0x7F)

/-- Takes the blanks within a line. -/
def spaces : Reader Unit := do
  let _ ← charsOf isSpace

/-- Takes the end of a line. -/
def newline : Reader Unit :=
  chars ['\n'] <|> chars ['\r', '\n']

/-- Takes a comment. -/
def comment : Reader Unit := do
  chars ['#']
  let _ ← charsOf isShown

/-- Takes blanks, comments and ends of lines. -/
def gap : Reader Unit := do
  let _ ← many ((do let _ ← runOf isSpace) <|> newline <|> comment)

/-- Takes what may follow on a line, and its end. -/
def lineEnd : Reader Unit := do
  spaces
  let _ ← optional comment
  newline <|> atEnd

/-! ## Escapes -/

/-- The character of an escape that is one letter. -/
def escaped? : Char → Option Char
  | 'b' => some '\x08'
  | 't' => some '\t'
  | 'n' => some '\n'
  | 'f' => some '\x0c'
  | 'r' => some '\r'
  | '"' => some '"'
  | '\\' => some '\\'
  | _ => none

/-- The character with a code point, unless it is a surrogate or too large. -/
def charOfCode? (n : Nat) : Option Char :=
  if n.isValidChar then some (Char.ofNat n) else none

/-- Takes a code point of a number of hexadecimal digits. -/
def codePoint (count : Nat) : Reader Char := do
  let digits ← (List.range count).mapM fun _ =>
    charOf fun c => (Json.StringLiteral.hexDigit? c).isSome
  ((Json.StringLiteral.hexNumber? digits).bind charOfCode? : Option Char)

/-- Takes an escape. -/
def escape : Reader Char := do
  chars ['\\']
  (charOf fun _ => true).filterMap escaped? <|>
    (do chars ['u']; codePoint 4) <|>
    (do chars ['U']; codePoint 8)

/-! ## Strings -/

/-- Whether a character stands for itself in a basic string. -/
def isBasic (c : Char) : Bool :=
  isShown c && c != '"' && c != '\\'

/-- Whether a character may stand in a literal string. -/
def isLiteral (c : Char) : Bool :=
  isShown c && c != '\''

/-- Takes a basic string on one line. -/
def basicString : Reader (List Char) := do
  chars ['"']
  let pieces ← many (runOf isBasic <|> (do let c ← escape; return [c]))
  chars ['"']
  return pieces.flatten

/-- Takes a literal string on one line. -/
def literalString : Reader (List Char) := do
  chars ['\'']
  let text ← charsOf isLiteral
  chars ['\'']
  return text

/-- Takes a backslash at the end of a line, with all blanks and ends of lines
behind it. -/
def continuation : Reader Unit := do
  chars ['\\']
  spaces
  newline
  let _ ← many ((do let _ ← runOf isSpace) <|> newline)

/-- Takes the three quotes at the end of a string over several lines.  One or
two quotes before them belong to the string. -/
def closing (quote : Char) : Reader (List Char) :=
  (do chars (List.replicate 5 quote); return [quote, quote]) <|>
    (do chars (List.replicate 4 quote); return [quote]) <|>
    (do chars (List.replicate 3 quote); return [])

/-- Takes a string over several lines.  The end of a line right behind the
quotes does not count. -/
def longString (quote : Char) (piece : Reader (List Char)) : Reader (List Char) := do
  chars (List.replicate 3 quote)
  let _ ← optional newline
  let pieces ← many
    (piece <|>
      (do newline; return ['\n']) <|>
      (do notBefore (List.replicate 3 quote); chars [quote]; return [quote]))
  let last ← closing quote
  return pieces.flatten ++ last

/-- Takes a basic string over several lines. -/
def longBasicString : Reader (List Char) :=
  longString '"'
    (runOf isBasic <|>
      (do let c ← escape; return [c]) <|>
      (do continuation; return []))

/-- Takes a literal string over several lines. -/
def longLiteralString : Reader (List Char) :=
  longString '\'' (runOf isLiteral)

/-- Takes a string. -/
def string : Reader String :=
  String.ofList <$> (longBasicString <|> longLiteralString <|> basicString <|> literalString)

/-! ## Keys -/

/-- Whether a character may stand in a bare key. -/
def isBare (c : Char) : Bool :=
  c.isAlphanum || c == '-' || c == '_'

/-- Takes a key without dots. -/
def simpleKey : Reader String :=
  String.ofList <$> (runOf isBare <|> basicString <|> literalString)

/-- How many keys with dots between them make one too many. -/
def keyLimit : Nat := 80

/-- Takes a dotted key. -/
def dottedKey : Reader (List String) :=
  (separated (chars ['.']) (do spaces; let key ← simpleKey; spaces; return key)).guarded
    fun keys => keys.length < keyLimit

end BuildFacts.Toml
