import BuildFacts.Toml.Scalar

/-!
# TOML documents

A document is a list of assignments and of sections: a header and the
assignments that follow it.  Each assignment and each header has a line of its
own.  `readDocument` reads them and makes the table that they describe.
-/

namespace BuildFacts.Toml

open Reader

/-! ## Values -/

/-- Takes the items of an array.  They may go over several lines, and a comma
may follow the last one. -/
def arrayOf (value : Reader Value) : Reader Value := do
  chars ['[']
  let items ←
    (do
      let items ← separated (chars [',']) (do gap; let item ← value; gap; return item)
      let _ ← optional (chars [','])
      return items) <|> pure []
  gap
  chars [']']
  return .array items

/-- Takes an assignment without the end of its line. -/
def assignment (value : Reader Value) : Reader Assignment := do
  let key ← dottedKey
  chars ['=']
  spaces
  let value ← value
  spaces
  return ⟨key, value⟩

/-- Takes a table in braces. -/
def inlineTable (value : Reader Value) : Reader Value := do
  chars ['\x7b']
  let assignments ← separated (chars [',']) (assignment value) <|> pure []
  spaces
  chars ['\x7d']
  match assignAll assignments [] with
  | some entries => return .table .inline entries
  | none => failure

/-- Takes a value with at most so many arrays and tables inside each other. -/
def value : Nat → Reader Value
  | 0 => scalar
  | depth + 1 => scalar <|> arrayOf (value depth) <|> inlineTable (value depth)

/-- How many arrays and tables may stand inside each other. -/
def maxDepth : Nat := 79

/-! ## Lines -/

/-- Takes the assignments up to the next header. -/
def assignments : Reader (List Assignment) := do
  gap
  many (do
    let assignment ← assignment (value maxDepth)
    lineEnd
    gap
    return assignment)

/-- Takes a header: whether it has double brackets, and its key. -/
def header : Reader (Bool × List String) :=
  (do
    chars ['[', '[']
    let path ← dottedKey
    chars [']', ']']
    return (true, path)) <|>
  (do
    chars ['[']
    let path ← dottedKey
    chars [']']
    return (false, path))

/-- Takes a section. -/
def readSection : Reader Section := do
  let (isElement, path) ← header
  lineEnd
  let assignments ← assignments
  return ⟨path, isElement, assignments⟩

/-- Takes a document: the assignments before the first header, and the
sections. -/
def document : Reader (List Assignment × List Section) := do
  let _ ← optional (chars ['\uFEFF'])
  let first ← assignments
  let sections ← many readSection
  return (first, sections)

/-- The table that a text describes. -/
def readDocument (text : String) : Option (Table Value) := do
  let (first, sections) ← document.readAll text.toList
  let entries ← assignAll first []
  sections.foldlM addSection entries

end BuildFacts.Toml
