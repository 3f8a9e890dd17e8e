/-!
# Readers

A reader takes a part from the start of a text.  It answers with what the part
means and with the rest of the text, or it fails; a choice between two readers
gives the text to the second one if the first one fails.
-/

namespace BuildFacts.Toml

/-- A way to take an `α` from the start of a text. -/
abbrev Reader (α : Type) := StateT (List Char) Option α

namespace Reader

variable {α β : Type}

/-- Takes a character of a class. -/
def charOf (isMember : Char → Bool) : Reader Char
  | [] => none
  | c :: rest => if isMember c then some (c, rest) else none

/-- Takes one certain character. -/
def char (c : Char) : Reader Char :=
  charOf (· == c)

/-- Takes certain characters. -/
def chars : List Char → Reader Unit
  | [] => pure ()
  | c :: rest => do
    let _ ← char c
    chars rest

/-- Takes as many characters of a class as there are. -/
def charsOf (isMember : Char → Bool) : Reader (List Char) := fun text =>
  some (text.takeWhile isMember, text.dropWhile isMember)

/-- Takes as many characters of a class as there are, of which there must be
one. -/
def runOf (isMember : Char → Bool) : Reader (List Char) := do
  let first ← charOf isMember
  let more ← charsOf isMember
  return first :: more

/-- Takes nothing, at the end of the text. -/
def atEnd : Reader Unit
  | [] => some ((), [])
  | _ :: _ => none

/-- Takes nothing, where certain characters do not follow. -/
def notBefore (start : List Char) : Reader Unit := fun text =>
  if start.isPrefixOf text then none else some ((), text)

/-- What a reader takes again and again, as long as it takes something. -/
def repeated (reader : Reader α) (text : List Char) : List α × List Char :=
  match reader text with
  | none => ([], text)
  | some (a, rest) =>
    if rest.length < text.length then
      let more := repeated reader rest
      (a :: more.1, more.2)
    else ([], text)
termination_by text.length

/-- Takes as many parts as there are. -/
def many (reader : Reader α) : Reader (List α) := fun text =>
  some (repeated reader text)

/-- Takes parts of which there must be one. -/
def atLeastOne (reader : Reader α) : Reader (List α) := do
  let first ← reader
  let more ← many reader
  return first :: more

/-- Takes parts with separators between them. -/
def separated (separator : Reader β) (reader : Reader α) : Reader (List α) := do
  let first ← reader
  let more ← many (do let _ ← separator; reader)
  return first :: more

/-- Takes a part unless its meaning is impossible. -/
def filterMap (f : α → Option β) (reader : Reader α) : Reader β := do
  let a ← reader
  f a

/-- Takes a part unless it breaks a condition. -/
def guarded (condition : α → Bool) (reader : Reader α) : Reader α :=
  reader.filterMap fun a => if condition a then some a else none

/-- Reads a whole text. -/
def readAll (reader : Reader α) (text : List Char) : Option α :=
  ((do let a ← reader; atEnd; return a : Reader α).run text).map Prod.fst

end Reader

end BuildFacts.Toml
