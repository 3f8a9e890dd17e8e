import BuildFacts.Session
import BuildFacts.Toml.Document

/-!
# Session files

A session is described by a TOML document with the settings `metadata` and,
possibly, `logging`.  Each of the two is a table, or a list of its settings in
their order.  Settings that are not known are passed over.
-/

namespace BuildFacts.Session

open Toml (Value)

/-- The settings in a value that is a table, or a list in the order of
`names`.  A date holds none that is known. -/
def settings? (names : List String) : Value → Option (Table Value)
  | .table _ entries => some entries
  | .array items => some (names.zip items)
  | .tables elements => some (names.zip (elements.map (.table .headed)))
  | .moment => some []
  | _ => none

/-- The settings of where the metadata are. -/
def metadataNames : List String := ["build_dir", "configuration", "schema", "validation"]

/-- The settings of the log. -/
def loggingNames : List String := ["filter"]

/-- The text of a setting. -/
def text? : Value → Option String
  | .string s => some s
  | _ => none

/-- Whether a value holds nothing. -/
def holdsNothing : Value → Bool
  | .table _ entries => entries.isEmpty
  | .array items => items.isEmpty
  | .tables elements => elements.isEmpty
  | _ => false

/-- The validation with a name. -/
def validationOf? (name : String) : Option Validation :=
  if name = "off" then some .off
  else if name = "structural" then some .structural
  else none

/-- The validation of a setting: its name, or a table with the name as its
only key and nothing in it. -/
def validation? : Value → Option Validation
  | .string name => validationOf? name
  | .table _ [(name, inside)] => if holdsNothing inside then validationOf? name else none
  | _ => none

/-- A setting that may be absent. -/
def setting? {α : Type} (take : Value → Option α) (settings : Table Value) (name : String) :
    Option (Option α) :=
  match settings.lookup name with
  | none => some none
  | some value => (take value).map some

/-- The session that a table describes. -/
def ofTable? (root : Table Value) : Option Session := do
  let metadata ← (root.lookup "metadata").bind (settings? metadataNames)
  let logging ← setting? (settings? loggingNames) root "logging"
  let buildDir ← (metadata.lookup "build_dir").bind text?
  let configuration ← setting? text? metadata "configuration"
  let schema ← setting? text? metadata "schema"
  let validation ← setting? validation? metadata "validation"
  let filter ← setting? text? (logging.getD []) "filter"
  return {
    buildDir := .ofString buildDir
    configuration := configuration
    schema := schema.map .ofString
    validation := validation.getD .structural
    filter := filter }

/-- The session that a text describes. -/
def ofText (text : String) : Except Error Session :=
  match (Toml.readDocument text).bind ofTable? with
  | some session => .ok session
  | none => .error .malformedSession

/-- The session that a file describes. -/
def ofFile (tree : FileTree) (path : Path) : Except Error Session := do
  ofText (← tree.readText path)

end BuildFacts.Session
