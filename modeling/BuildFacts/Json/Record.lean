import BuildFacts.Json.Decoder

/-!
# Records

A record is written as an object with a member for each field, in any order,
or as a list of the fields in the order of their declaration.

In an object, members that are no fields are passed over.  In both forms a
field may be absent unless it is required; it then keeps the value of the
record's `initial` form.

Each field has a decoder of the change that it makes to the record.
-/

namespace BuildFacts.Json

/-- A field of records of type `σ`. -/
structure Field (σ : Type) where
  name : String
  required : Bool
  change : Decoder (σ → σ)

namespace Field

variable {σ α : Type}

/-- A field that may be absent. -/
def optional (name : String) (decoder : Decoder α) (set : α → σ → σ) : Field σ :=
  ⟨name, false, decoder.map set⟩

/-- A field that must be present. -/
def mandatory (name : String) (decoder : Decoder α) (set : α → σ → σ) : Field σ :=
  ⟨name, true, decoder.map set⟩

end Field

/-- The form of records of type `σ`. -/
structure Record (σ : Type) where
  label : String
  fields : List (Field σ)
  initial : σ

namespace Record

variable {σ : Type} (record : Record σ)

/-- What a message calls the record. -/
def expected : String :=
  "struct " ++ record.label

/-- The field with a name. -/
def field? (name : String) : Option (Field σ) :=
  record.fields.find? (·.name == name)

/-- The first required field that is not among those seen. -/
def missing? (seen : List String) : Option String :=
  (record.fields.find? fun field => field.required && !seen.contains field.name).map (·.name)

/-- The record `state`, unless a required field has not been seen. -/
def finish (seen : List String) (state : σ) : Except Fault σ :=
  orFault state ((record.missing? seen).map .missingField)

/-- What is wrong with a list that has no item for the field `index`. -/
def tooShort (index : Nat) : Fault :=
  .wrongLength index
    (record.expected ++ " with " ++ Nat.repr record.fields.length ++ " elements")

/-! ## While reading -/

/-- What is wrong with what follows the last field in a list. -/
def faultAfterFields : Items → Option Fault
  | .ends .closed => none
  | .ends .unfinished => some .endInList
  | .ends .commaThenClosed => some .trailingComma
  | _ => some .trailingCharacters

/-- Takes the fields of a list, from `index` on. -/
def readItems (depth : Nat) (index : Nat) (state : σ) :
    List (Field σ) → Items → Except Fault σ
  | [], items => orFault state (faultAfterFields items)
  | field :: fields, .item first rest => do
    let change ← field.change.fromOutline depth first
    readItems depth (index + 1) (change state) fields rest
  | field :: fields, .ends .closed =>
    if field.required then .error (record.tooShort index)
    else readItems depth (index + 1) state fields (.ends .closed)
  | _ :: _, .ends ending => orFault state ending.faultInList?

/-- Takes the fields of an object.  No field may stand twice. -/
def readMembers (depth : Nat) (seen : List String) (state : σ) : Members → Except Fault σ
  | .ends .closed => record.finish seen state
  | .ends ending => orFault state ending.faultInObject?
  | .keyless => .error .keyNotString
  | .bare key atEnd => do
    let name ← key.text
    if (record.field? name).isSome && seen.contains name then .error (.duplicateField name)
    else .error (bareKeyFault atEnd)
  | .member key value rest => do
    let name ← key.text
    match record.field? name with
    | none =>
      value.skip
      readMembers depth seen state rest
    | some field =>
      if seen.contains name then .error (.duplicateField name)
      else
        let change ← field.change.fromOutline depth value
        readMembers depth (name :: seen) (change state) rest

/-! ## From a value -/

/-- Takes the fields from the items of a list, from `index` on. -/
def takeItems (total : Nat) (index : Nat) (state : σ) :
    List (Field σ) → List Value → Except Fault σ
  | [], [] => .ok state
  | [], _ :: _ => .error (.wrongLength total "fewer elements in array")
  | field :: fields, value :: values => do
    let change ← field.change.fromValue value
    takeItems total (index + 1) (change state) fields values
  | field :: fields, [] =>
    if field.required then .error (record.tooShort index)
    else takeItems total (index + 1) state fields []

/-- Takes the fields from the members of an object. -/
def takeMembers (seen : List String) (state : σ) : List (String × Value) → Except Fault σ
  | [] => record.finish seen state
  | (name, value) :: rest =>
    match record.field? name with
    | none => takeMembers seen state rest
    | some field => do
      let change ← field.change.fromValue value
      takeMembers (name :: seen) (change state) rest

/-- Takes a record. -/
def decoder : Decoder σ where
  fromOutline depth outline :=
    match outline with
    | .array items =>
      descend depth fun depth => record.readItems depth 0 record.initial record.fields items
    | .object members =>
      descend depth fun depth => record.readMembers depth [] record.initial members
    | other => .error (other.mismatch record.expected)
  fromValue value :=
    match value with
    | .array values => record.takeItems values.length 0 record.initial record.fields values
    | .object members => record.takeMembers [] record.initial members
    | other => .error (other.mismatch record.expected)

end Record

end BuildFacts.Json
