import BuildFacts.Json.Fault
import BuildFacts.Language
import BuildFacts.Path
import BuildFacts.Schema

/-!
# Errors

An `Error` says why a payload cannot be loaded or a question cannot be
answered.  `message` is its wording, `code` its stable name, and `help?` what
may be done about it.
-/

namespace BuildFacts

/-- Why a file cannot be read. -/
inductive ReadFailure where
  | notFound
  | isDirectory
  | notDirectory
  | notUtf8
  | nameTooLong
  | nulInName
  deriving DecidableEq

/-- The wording of a failure to read a file. -/
def ReadFailure.message : ReadFailure → String
  | .notFound => "No such file or directory (os error 2)"
  | .isDirectory => "Is a directory (os error 21)"
  | .notDirectory => "Not a directory (os error 20)"
  | .notUtf8 => "stream did not contain valid UTF-8"
  | .nameTooLong => "File name too long (os error 36)"
  | .nulInName => "file name contained an unexpected NUL byte"

/-- The texts that are read as JSON. -/
inductive Input where
  | metadata
  | schema
  | database
  deriving DecidableEq

/-- How a message names an input. -/
def Input.name : Input → String
  | .metadata => "metadata"
  | .schema => "schema"
  | .database => "compile database"

/-- Why a payload does not have the expected shape. -/
inductive Mismatch where
  /-- A file is listed under two languages. -/
  | conflict (file : String) (previous language : Language)
  /-- A text does not split into words. -/
  | unbalanced (text : String)
  /-- A rule of the schema is broken. -/
  | breach (breach : Schema.Breach)

/-- The wording of a mismatch. -/
def Mismatch.message : Mismatch → String
  | .conflict file previous language =>
    file ++ " is listed as both " ++ previous.display ++ " and " ++ language.display ++
      " object source"
  | .unbalanced text => "unbalanced quoting in '" ++ text ++ "'"
  | .breach cause => cause.message

/-- What goes wrong while metadata are loaded or asked for. -/
inductive Error where
  | unreadable (path : Path) (failure : ReadFailure)
  | malformed (input : Input) (fault : Json.Fault)
  | mismatch (pointer : String) (cause : Mismatch)
  | unwritablePath
  | malformedSession
  | noTarget (name : String)
  | noLanguage (target : String) (file : Path)
  | noCompiler (language : Language)

namespace Error

/-- The wording of an error. -/
def message : Error → String
  | .unreadable path failure => "Failed to read " ++ path.display ++ ": " ++ failure.message
  | .malformed input fault => "Malformed " ++ input.name ++ ": " ++ fault.message
  | .mismatch pointer cause => "Schema mismatch at '" ++ pointer ++ "': " ++ cause.message
  | .unwritablePath =>
    "Failed to serialize compile database: path contains invalid UTF-8 characters"
  | .malformedSession => "Failed to parse TOML config"
  | .noTarget name => "Target not found: " ++ name
  | .noLanguage target file =>
    "File " ++ file.display ++ " has no language in target '" ++ target ++ "'"
  | .noCompiler language => "No " ++ language.display ++ " compiler recorded in the metadata"

/-- The stable name of an error. -/
def code : Error → String
  | .unreadable .. => "buildmeta::io"
  | .malformed .. => "buildmeta::malformed_input"
  | .mismatch .. => "buildmeta::schema_mismatch"
  | .unwritablePath => "buildmeta::serialize"
  | .malformedSession => "buildmeta::config"
  | .noTarget _ => "buildmeta::not_found"
  | .noLanguage .. => "buildmeta::unknown_language"
  | .noCompiler _ => "buildmeta::compiler_not_configured"

/-- What may be done about an error. -/
def help? : Error → Option String
  | .malformed .. =>
    some "the file must be a JSON object as written by the build system generator"
  | .unwritablePath => some "paths written to a compile database must be valid UTF-8"
  | .noLanguage .. => some "only object sources listed for the target are classified"
  | _ => none

end Error

end BuildFacts
