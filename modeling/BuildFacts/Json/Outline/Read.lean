import BuildFacts.Json.Outline.Scan

/-!
# Reading an outline

An outline is read in two ways, and the first break that a reading meets is
its fault.

* `Outline.value` reads a whole value.  It refuses containers that lie too
  deep, numbers that are too large and halves of surrogate pairs.
* `Outline.skip` passes over a value that is not wanted.  It accepts these.

`readAll` applies a reading to a whole text, and `parse` is the reading of a
whole text as a value.
-/

namespace BuildFacts.Json

/-! ## Faults of endings -/

/-- What is wrong with a list because of its ending. -/
def Ending.faultInList? : Ending → Option Fault
  | .closed => none
  | .unfinished => some .endInList
  | .unseparated => some .expectedCommaOrBracket
  | .commaThenClosed => some .trailingComma
  | .commaThenEnd => some .endInValue
  | .commaThenOther => some .expectedValue

/-- What is wrong with an object because of its ending. -/
def Ending.faultInObject? : Ending → Option Fault
  | .closed => none
  | .unfinished => some .endInObject
  | .unseparated => some .expectedCommaOrBrace
  | .commaThenClosed => some .trailingComma
  | .commaThenEnd => some .endInValue
  | .commaThenOther => some .keyNotString

/-- What is wrong with a key that has no colon. -/
def bareKeyFault (atEnd : Bool) : Fault :=
  if atEnd then .endInObject else .expectedColon

/-- `value`, unless there is a fault. -/
def orFault {α : Type} (value : α) : Option Fault → Except Fault α
  | none => .ok value
  | some fault => .error fault

/-- What is wrong with a word because of its spelling. -/
def Spelling.fault? : Spelling → Option Fault
  | .complete => none
  | .unfinished => some .endInValue
  | .wrong => some .expectedWord

/-- The value of a word. -/
def Word.value : Word → Value
  | .null => .null
  | .true => .bool Bool.true
  | .false => .bool Bool.false

/-- The number of a literal. -/
def readNumber : Option NumberLiteral → Except Fault Number
  | none => .error .invalidNumber
  | some literal =>
    match literal.value? with
    | some n => .ok n
    | none => .error .numberOutOfRange

mutual

/-- Reads a value; `depth` is how many containers may still be opened. -/
def Outline.value (depth : Nat) : Outline → Except Fault Value
  | .missing => .error .endInValue
  | .stray => .error .expectedValue
  | .word word spelling => orFault word.value spelling.fault?
  | .number literal => .number <$> readNumber literal
  | .string literal => .string <$> literal.text
  | .array items =>
    match depth with
    | 0 => .error .tooDeep
    | depth + 1 => .array <$> items.values depth
  | .object members =>
    match depth with
    | 0 => .error .tooDeep
    | depth + 1 => (fun entries => .object (Table.ofEntries entries)) <$> members.entries depth

/-- Reads the values of a list. -/
def Items.values (depth : Nat) : Items → Except Fault (List Value)
  | .ends ending => orFault [] ending.faultInList?
  | .item first rest => do
    let value ← first.value depth
    let values ← rest.values depth
    return value :: values

/-- Reads the entries of an object, repeated keys included. -/
def Members.entries (depth : Nat) : Members → Except Fault (List (String × Value))
  | .ends ending => orFault [] ending.faultInObject?
  | .keyless => .error .keyNotString
  | .bare key atEnd => do
    let _ ← key.text
    .error (bareKeyFault atEnd)
  | .member key value rest => do
    let key ← key.text
    let value ← value.value depth
    let entries ← rest.entries depth
    return (key, value) :: entries

end

/-! ## Passing over a value -/

/-- What is wrong with the ending of a list that is passed over. -/
def Ending.faultInSkippedList? : Ending → Option Fault
  | .commaThenClosed => some .expectedValue
  | ending => ending.faultInList?

/-- What is wrong with the ending of an object that is passed over. -/
def Ending.faultInSkippedObject? : Ending → Option Fault
  | .commaThenClosed => some .keyNotString
  | .commaThenEnd => some .endInObject
  | ending => ending.faultInObject?

mutual

/-- Passes over a value. -/
def Outline.skip : Outline → Except Fault Unit
  | .missing => .error .endInValue
  | .stray => .error .expectedValue
  | .word _ spelling => orFault () spelling.fault?
  | .number none => .error .invalidNumber
  | .number (some _) => .ok ()
  | .string literal => literal.skip
  | .array items => items.skip
  | .object members => members.skip

/-- Passes over the items of a list. -/
def Items.skip : Items → Except Fault Unit
  | .ends ending => orFault () ending.faultInSkippedList?
  | .item first rest => do
    first.skip
    rest.skip

/-- Passes over the members of an object. -/
def Members.skip : Members → Except Fault Unit
  | .ends ending => orFault () ending.faultInSkippedObject?
  | .keyless => .error .keyNotString
  | .bare key atEnd => do
    key.skip
    .error (bareKeyFault atEnd)
  | .member key value rest => do
    key.skip
    value.skip
    rest.skip

end

/-! ## Whole texts -/

/-- How many containers may lie inside each other. -/
def maxDepth : Nat := 127

/-- Reads a whole text.  Only space may follow the value. -/
def readAll {α : Type} (read : Outline → Except Fault α) (text : String) : Except Fault α :=
  let (outline, rest) := Outline.scan text.toList
  match read outline with
  | .error fault => .error fault
  | .ok value => if (skipSpace rest).isEmpty then .ok value else .error .trailingCharacters

/-- The value that a text writes. -/
def parse (text : String) : Except Fault Value :=
  readAll (Outline.value maxDepth) text

end BuildFacts.Json
