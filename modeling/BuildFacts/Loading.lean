import BuildFacts.Document
import BuildFacts.FileTree

/-!
# Loading

A document is loaded from two texts, a payload and a schema, or from the two
files that hold them.

What is wrong is reported in a fixed order: a payload that cannot be read, a
schema that cannot be read, a malformed schema, a malformed payload, a
violation of the schema, and a payload that does not make a document.  The
schema must be well formed even if the payload is not checked against it.
-/

namespace BuildFacts

/-- The error of a violation. -/
def Schema.Violation.error (violation : Schema.Violation) : Error :=
  .mismatch (Json.Pointer.write violation.place) (.breach violation.breach)

/-- Checks a payload against a schema, with a warning for every reference that
led nowhere. -/
def Schema.enforce (schema : Schema) (payload : Json.Value) : Traced Unit :=
  let verdict := schema.validate payload
  ⟨verdict.unresolved.map .unresolvedReference,
    match verdict.violation with
    | none => .ok ()
    | some violation => .error violation.error⟩

namespace Document

/-- Checks a payload as strictly as asked. -/
def check (validation : Validation) (schema : Schema) (payload : Json.Value) : Traced Unit :=
  match validation with
  | .off => pure ()
  | .structural => schema.enforce payload

/-- The document of two texts. -/
def loadTexts (payload schema : String) (validation : Validation) : Traced Document := do
  let schema ← .ofExcept ((Schema.parse schema).mapError (Error.malformed .schema))
  let payload ← .ofExcept ((Json.parse payload).mapError (Error.malformed .metadata))
  check validation schema payload
  let document ← ofValue payload
  .emit (.loaded document.targets.length document.sources.length validation)
  return document

/-- The document of two files. -/
def loadFiles (tree : FileTree) (payload schema : Path) (validation : Validation) :
    Traced Document := do
  let payloadText ← .ofExcept (tree.readText payload)
  let schemaText ← .ofExcept (tree.readText schema)
  .emit (.reading payload schema)
  loadTexts payloadText schemaText validation

end Document

end BuildFacts
