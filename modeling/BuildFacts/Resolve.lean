import BuildFacts.CompileCommand
import BuildFacts.Document

/-!
# Questions about a file

Every question is about a file as one target compiles it.  The target says in
which language; its name and its ending do not count.
-/

namespace BuildFacts.Document

variable (document : Document)

/-- The language that a target compiles a file as, if it compiles it. -/
def languageOf (target : String) (file : Path) : Except Error (Option Language) := do
  let target ← document.target target
  return target.languageOf? file

/-- The language that a target compiles a file as. -/
def requireLanguage (target : String) (file : Path) : Except Error Language := do
  match ← document.languageOf target file with
  | some language => return language
  | none => throw (.noLanguage target file)

/-! ## Compilers -/

/-- One thing that is known of the compiler of a file. -/
def compilerField (field : Compiler → Option String) (target : String) (file : Path) :
    Except Error String := do
  let language ← document.requireLanguage target file
  match field (document.compilers.get language) with
  | some text => return text
  | none => throw (.noCompiler language)

/-- The compiler of a file. -/
def compiler (target : String) (file : Path) : Except Error String :=
  document.compilerField Compiler.path target file

/-- What the compiler of a file is. -/
def compilerId (target : String) (file : Path) : Except Error String :=
  document.compilerField Compiler.id target file

/-- The version of the compiler of a file. -/
def compilerVersion (target : String) (file : Path) : Except Error String :=
  document.compilerField Compiler.version target file

/-! ## Properties -/

/-- The words that a file adds to a property. -/
def addedWords (file : Path) (property : Property) : List String :=
  ((document.override? file).bind fun override => override.words.get property).getD []

/-- The words of a property for a file: those of the target, and behind them
those of the file itself. -/
def property (target : String) (file : Path) (property : Property) : Traced (List String) := do
  let language ← .ofExcept (document.requireLanguage target file)
  let found ← .ofExcept (document.target target)
  let base := (found.properties.get property).forLanguage language
  let added := document.addedWords file property
  .emit (.resolved target file language property base.length added.length)
  return base ++ added

/-- The definitions for a file. -/
def definitions (target : String) (file : Path) : Traced (List String) :=
  document.property target file .definitions

/-- The include directories for a file. -/
def includes (target : String) (file : Path) : Traced (List String) :=
  document.property target file .includes

/-- The compile options for a file. -/
def options (target : String) (file : Path) : Traced (List String) :=
  document.property target file .options

/-! ## Arguments -/

/-- A flag in front of each word that is not empty. -/
def flagged (flag : String) (words : List String) : List String :=
  (words.filter fun word => !word.isEmpty).map (flag ++ ·)

/-- The arguments for a file: definitions, include directories and options. -/
def arguments (target : String) (file : Path) : Traced (List String) := do
  let definitions ← document.definitions target file
  let includes ← document.includes target file
  let options ← document.options target file
  return flagged "-D" definitions ++ flagged "-I" includes ++ options

/-- The command for a file, run from a directory. -/
def command (target : String) (file directory : Path) : Traced CompileCommand := do
  let compiler ← .ofExcept (document.compiler target file)
  let arguments ← document.arguments target file
  return {
    directory := directory
    file := file
    command := none
    arguments := some (compiler :: arguments ++ ["-c", file.display])
    output := none }

end BuildFacts.Document
