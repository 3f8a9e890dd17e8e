import BuildFacts.Loading

/-!
# Sessions

A session says where the metadata of a build are and how they are to be
loaded: `metadataPath` and `schemaPath` are the two files, and `load` loads
them.
-/

namespace BuildFacts

/-- Where the metadata of a build are, and how they are to be loaded. -/
structure Session where
  /-- The directory that holds the metadata. -/
  buildDir : Path
  /-- The configuration, if the build has several. -/
  configuration : Option String := none
  /-- The schema, as seen from the build directory. -/
  schema : Option Path := none
  validation : Validation := .structural
  /-- What is to be logged. -/
  filter : Option String := none
  deriving DecidableEq

namespace Session

/-- The session for a build directory, with the usual settings. -/
def forBuildDir (buildDir : Path) : Session :=
  { buildDir := buildDir }

/-- The session for a configuration of the build. -/
def withConfiguration (configuration : String) (session : Session) : Session :=
  { session with configuration := some configuration }

/-- The session with a validation. -/
def withValidation (validation : Validation) (session : Session) : Session :=
  { session with validation := validation }

/-- The session with a schema. -/
def withSchema (schema : Option Path) (session : Session) : Session :=
  { session with schema := schema }

/-! ## Files -/

/-- The name of the metadata file of a build with one configuration. -/
def metadataName : String := "cmake-metadata.json"

/-- The name of the metadata file of a configuration. -/
def metadataNameFor (configuration : String) : String :=
  "cmake-metadata-" ++ configuration ++ ".json"

/-- The usual name of the schema file. -/
def schemaName : String := "cmake-metadata-schema.json"

/-- The metadata file. -/
def metadataPath (session : Session) : Path :=
  session.buildDir.join (.ofString
    (match session.configuration with
      | some configuration => metadataNameFor configuration
      | none => metadataName))

/-- The schema file. -/
def schemaPath (session : Session) : Path :=
  session.buildDir.join (session.schema.getD (.ofString schemaName))

/-- The document of the session's files. -/
def load (session : Session) (tree : FileTree) : Traced Document :=
  Document.loadFiles tree session.metadataPath session.schemaPath session.validation

end Session

end BuildFacts
