import BuildFacts.Json.Outline.Read
import BuildFacts.Json.Pointer
import BuildFacts.Json.Printer

/-!
# Schemas

A schema is a value that says which other values are valid.  It enforces
`type`, `enum`, `required`, `properties`, `additionalProperties`, `items` and
references into itself, and nothing else.

A node of the schema is applied to a value in two steps.

* `follow` follows the references of the node, at most `maxHops` of them.  It
  does not look at the value.
* `check` applies the rules of the node it has reached, and then the nodes for
  the parts of the value to these parts.  It recurses on the value.

The answer is a `Verdict`: the references that led nowhere, and the first
violation with the place where it is.
-/

namespace BuildFacts

open Json

/-- How strictly a payload is checked against its schema. -/
inductive Validation where
  /-- The payload need only be JSON. -/
  | off
  /-- The payload must be valid. -/
  | structural
  deriving DecidableEq

/-- How a validation is shown. -/
def Validation.display : Validation → String
  | .off => "Off"
  | .structural => "Structural"

/-- A schema: an object or a boolean. -/
structure Schema where
  root : Value

namespace Schema

/-- The schema that a text writes. -/
def parse (text : String) : Except Fault Schema := do
  let root ← Json.parse text
  match root with
  | .bool _ | .object _ => return ⟨root⟩
  | _ => throw .rootNotSchema

/-! ## References -/

/-- How many references are followed in a row. -/
def maxHops : Nat := 32

/-- What a node of a schema comes down to after its references. -/
inductive Reached where
  /-- A node that accepts every value. -/
  | anything
  /-- A node that accepts no value. -/
  | nothing
  /-- A reference that leads nowhere. -/
  | unresolved (reference : String)
  /-- One reference too many. -/
  | endless (reference : String)
  /-- The rules of an object. -/
  | rules (members : Table Value)

/-- The node that a reference names. -/
def target? (root : Value) (reference : String) : Option Value :=
  match reference.toList with
  | '#' :: pointer => Pointer.resolve? root pointer
  | _ => none

/-- Follows at most `hops` references from a node. -/
def follow (root : Value) (hops : Nat) : Value → Reached
  | .bool true => .anything
  | .bool false => .nothing
  | .object members =>
    match members.lookup "$ref" with
    | some (.string reference) =>
      match hops with
      | 0 => .endless reference
      | hops + 1 =>
        match target? root reference with
        | some node => follow root hops node
        | none => .unresolved reference
    | _ => .rules members
  | _ => .anything

/-! ## Rules -/

/-- Which rule a value breaks. -/
inductive Breach where
  | nothingAllowed
  | endlessReference (reference : String)
  | wrongType (expected : Value) (found : Value.Kind)
  | notListed (value : Value)
  | missingMember (name : String)
  | disallowedMember (name : String)

/-- Whether a value has the type with a name.  Every value has a type whose
name is not known. -/
def hasType (name : String) (value : Value) : Bool :=
  if name = "object" then value.kind == .object
  else if name = "array" then value.kind == .array
  else if name = "string" then value.kind == .string
  else if name = "boolean" then value.kind == .boolean
  else if name = "null" then value.kind == .null
  else if name = "number" then value.kind == .number
  else if name = "integer" then
    match value with
    | .number n => n.isWhole
    | _ => false
  else true

/-- Whether a value has one of the types that a `type` rule names. -/
def typeMatches (expected value : Value) : Bool :=
  match expected with
  | .string name => hasType name value
  | .array names => (names.filterMap Value.string?).any (hasType · value)
  | _ => true

/-- How a `type` rule is shown. -/
def describeType : Value → String
  | .string name => name
  | .array names => " or ".intercalate (names.filterMap Value.string?)
  | other => String.ofList other.compact

/-- The wording of a breach. -/
def Breach.message : Breach → String
  | .nothingAllowed => "no value is allowed here"
  | .endlessReference reference => "schema reference '" ++ reference ++ "' does not terminate"
  | .wrongType expected found => "expected " ++ describeType expected ++ ", found " ++ found.name
  | .notListed value => String.ofList value.compact ++ " is not one of the allowed values"
  | .missingMember name => "missing required property '" ++ name ++ "'"
  | .disallowedMember name => "property '" ++ name ++ "' is not allowed"

/-- The breach of the `type` rule. -/
def typeBreach? (rules : Table Value) (value : Value) : Option Breach :=
  match rules.lookup "type" with
  | some expected =>
    if typeMatches expected value then none else some (.wrongType expected value.kind)
  | none => none

/-- The breach of the `enum` rule. -/
def enumBreach? (rules : Table Value) (value : Value) : Option Breach :=
  match rules.lookup "enum" with
  | some (.array allowed) =>
    if allowed.any (·.same value) then none else some (.notListed value)
  | _ => none

/-- The names of the `required` rule. -/
def requiredNames (rules : Table Value) : List String :=
  match rules.lookup "required" with
  | some (.array names) => names.filterMap Value.string?
  | _ => []

/-- The breach of the `required` rule. -/
def requiredBreach? (rules : Table Value) (value : Value) : Option Breach :=
  match value with
  | .object members =>
    ((requiredNames rules).find? fun name => (members.lookup name).isNone).map .missingMember
  | _ => none

/-- The first rule of an object node that a value breaks on its own account. -/
def rulesBreach? (rules : Table Value) (value : Value) : Option Breach :=
  (typeBreach? rules value).or ((enumBreach? rules value).or (requiredBreach? rules value))

/-- The rule that a value breaks on its own account. -/
def Reached.breach? (reached : Reached) (value : Value) : Option Breach :=
  match reached with
  | .anything => none
  | .nothing => some .nothingAllowed
  | .unresolved _ => none
  | .endless reference => some (.endlessReference reference)
  | .rules members => rulesBreach? members value

/-- The rules for the parts of a value. -/
def Reached.partRules : Reached → Table Value
  | .rules members => members
  | _ => []

/-- The node for the items of a list.  A list of nodes sets no rule. -/
def itemNode? (rules : Table Value) : Option Value :=
  match rules.lookup "items" with
  | some (.array _) => none
  | node => node

/-- What is said about one member of an object. -/
inductive MemberRule where
  | free
  | disallowed
  | node (node : Value)

/-- What is said about the member with a name. -/
def memberRule (rules : Table Value) (name : String) : MemberRule :=
  match ((rules.lookup "properties").bind Value.members?).bind (·.lookup name) with
  | some node => .node node
  | none =>
    match rules.lookup "additionalProperties" with
    | none => .free
    | some (.bool false) => .disallowed
    | some node => .node node

/-! ## Verdicts -/

/-- A broken rule and the place of the value that breaks it. -/
structure Violation where
  place : List Pointer.Step
  breach : Breach

/-- The outcome of a check: references that led nowhere, in order, and the
first violation. -/
structure Verdict where
  unresolved : List String
  violation : Option Violation

namespace Verdict

/-- Nothing to report. -/
def accept : Verdict := ⟨[], none⟩

/-- A violation at the place itself. -/
def reject (breach : Breach) : Verdict := ⟨[], some ⟨[], breach⟩⟩

/-- The verdict of a part, seen from the whole. -/
def under (step : Pointer.Step) (verdict : Verdict) : Verdict :=
  ⟨verdict.unresolved, verdict.violation.map fun v => ⟨step :: v.place, v.breach⟩⟩

/-- A verdict, and then another one if there is no violation yet. -/
def andThen (first next : Verdict) : Verdict :=
  match first.violation with
  | some _ => first
  | none => ⟨first.unresolved ++ next.unresolved, next.violation⟩

end Verdict

/-- The verdict on a value on its own account. -/
def Reached.verdict (reached : Reached) (value : Value) : Verdict where
  unresolved :=
    match reached with
    | .unresolved reference => [reference]
    | _ => []
  violation := (reached.breach? value).map fun breach => ⟨[], breach⟩

/-! ## Checking -/

mutual

/-- Applies a node of a schema to a value. -/
def check (root node : Value) : Value → Verdict
  | .array items =>
    let reached := follow root maxHops node
    (reached.verdict (.array items)).andThen
      (match itemNode? reached.partRules with
        | some itemNode => checkItems root itemNode 0 items
        | none => .accept)
  | .object members =>
    let reached := follow root maxHops node
    (reached.verdict (.object members)).andThen (checkMembers root reached.partRules members)
  | leaf => (follow root maxHops node).verdict leaf

/-- Applies a node to the items of a list, from `index` on. -/
def checkItems (root node : Value) (index : Nat) : List Value → Verdict
  | [] => .accept
  | item :: rest =>
    ((check root node item).under (.index index)).andThen (checkItems root node (index + 1) rest)

/-- Applies the rules for the members of an object. -/
def checkMembers (root : Value) (rules : Table Value) : List (String × Value) → Verdict
  | [] => .accept
  | (name, value) :: rest =>
    let verdict : Verdict :=
      match memberRule rules name with
      | .free => .accept
      | .disallowed => .reject (.disallowedMember name)
      | .node node => check root node value
    (verdict.under (.member name)).andThen (checkMembers root rules rest)

end

/-- Checks a value. -/
def validate (schema : Schema) (value : Value) : Verdict :=
  check schema.root schema.root value

end Schema

end BuildFacts
