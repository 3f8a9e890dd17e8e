import BuildFacts.Json.Outline.Read

/-!
# Decoders

A decoder takes data of a type from JSON in two ways: from an outline while a
text is read, and from a value.  The two accept the same data.  They may
report different faults, because an outline can also break off, and because a
value has forgotten members that a later one with the same key replaced.

This module has the decoders of texts, lists, tables and optional data.
`Json.Record` has those of records.
-/

namespace BuildFacts.Json

/-- A way to take an `α` from an outline, with a number of containers that may
still be opened, and from a value. -/
structure Decoder (α : Type) where
  fromOutline : Nat → Outline → Except Fault α
  fromValue : Value → Except Fault α

/-! ## Data of the wrong kind -/

/-- What a value is, for a message. -/
def Found.ofValue : Value → Found
  | .null => .null
  | .bool b => .boolean b
  | .number n => .number n
  | .string s => .string s
  | .array _ => .sequence
  | .object _ => .map

/-- The fault of a value where something else was expected. -/
def Value.mismatch (expected : String) (value : Value) : Fault :=
  .wrongType (.ofValue value) expected

/-- The fault of an outline where something else was expected.  A value
without parts is read first; a container is not. -/
def Outline.mismatch (expected : String) : Outline → Fault
  | .array _ => .wrongType .sequence expected
  | .object _ => .wrongType .map expected
  | leaf =>
    match leaf.value 0 with
    | .ok value => value.mismatch expected
    | .error fault => fault

/-- Opens a container, if one may still be opened. -/
def descend {α : Type} (depth : Nat) (inside : Nat → Except Fault α) : Except Fault α :=
  match depth with
  | 0 => .error .tooDeep
  | depth + 1 => inside depth

namespace Decoder

variable {α β : Type}

/-- Decodes the data and applies a function to it. -/
def map (f : α → β) (decoder : Decoder α) : Decoder β where
  fromOutline depth outline := f <$> decoder.fromOutline depth outline
  fromValue value := f <$> decoder.fromValue value

/-- Takes a text.  `expected` says what it is for. -/
def text (expected : String) : Decoder String where
  fromOutline _ outline :=
    match outline with
    | .string literal => literal.text
    | other => .error (other.mismatch expected)
  fromValue value :=
    match value with
    | .string s => .ok s
    | other => .error (other.mismatch expected)

/-- Takes a text. -/
def string : Decoder String :=
  text "a string"

/-- Takes data that may be `null`. -/
def optional (decoder : Decoder α) : Decoder (Option α) where
  fromOutline depth outline :=
    match outline with
    | .word .null spelling => orFault none spelling.fault?
    | other => some <$> decoder.fromOutline depth other
  fromValue value :=
    match value with
    | .null => .ok none
    | other => some <$> decoder.fromValue other

/-! ## Lists -/

/-- Takes the items of a list while it is read. -/
def items (item : Outline → Except Fault α) : Items → Except Fault (List α)
  | .ends ending => orFault [] ending.faultInList?
  | .item first rest => do
    let a ← item first
    let as ← items item rest
    return a :: as

/-- Takes a list. -/
def list (decoder : Decoder α) : Decoder (List α) where
  fromOutline depth outline :=
    match outline with
    | .array contents => descend depth fun depth => items (decoder.fromOutline depth) contents
    | other => .error (other.mismatch "a sequence")
  fromValue value :=
    match value with
    | .array values => values.mapM decoder.fromValue
    | other => .error (other.mismatch "a sequence")

/-! ## Tables -/

/-- Takes the entries of an object while it is read. -/
def entries (entry : Outline → Except Fault α) : Members → Except Fault (List (String × α))
  | .ends ending => orFault [] ending.faultInObject?
  | .keyless => .error .keyNotString
  | .bare key atEnd => do
    let _ ← key.text
    .error (bareKeyFault atEnd)
  | .member key value rest => do
    let key ← key.text
    let a ← entry value
    let as ← entries entry rest
    return (key, a) :: as

/-- Takes a table with the keys of an object.  Of entries with one key the
last one counts. -/
def table (decoder : Decoder α) : Decoder (Table α) where
  fromOutline depth outline :=
    match outline with
    | .object contents =>
      descend depth fun depth =>
        Table.ofEntries <$> entries (decoder.fromOutline depth) contents
    | other => .error (other.mismatch "a map")
  fromValue value :=
    match value with
    | .object members =>
      Table.ofEntries <$> members.mapM fun member =>
        (fun a => (member.1, a)) <$> decoder.fromValue member.2
    | other => .error (other.mismatch "a map")

/-! ## Whole values -/

/-- Reads a whole value first and then takes the data from it. -/
def ofValue (take : Value → Except Fault α) : Decoder α where
  fromOutline depth outline := outline.value depth >>= take
  fromValue := take

/-- Takes the data from a whole text while it is read. -/
def read (decoder : Decoder α) (input : String) : Except Fault α :=
  readAll (decoder.fromOutline maxDepth) input

end Decoder

end BuildFacts.Json
