import BuildFacts.Event
import BuildFacts.Payload

/-!
# Documents

A document is what a payload means: targets with the language of each file
that they compile, and the words of each property.

`Document.ofPayload` is the passage from one to the other.  It fails with a
mismatch where a target lists a file under two languages, and where words do
not split.  Targets come before sources, and each list in its turn; the first
mismatch counts.
-/

namespace BuildFacts

/-! ## Documents -/

/-- The words of one property of a target. -/
structure PropertyWords where
  base : Option (List String)
  specialized : ByLanguage (Option (List String))
  deriving DecidableEq

/-- The words for files of a language.  Words for the language itself take the
place of the words for all languages. -/
def PropertyWords.forLanguage (words : PropertyWords) (language : Language) : List String :=
  ((words.specialized.get language).or words.base).getD []

/-- A target. -/
structure Target where
  name : String
  kind : Option TargetKind
  backtrace : List Frame
  targetFile : Option Path
  linkerFile : Option Path
  sonameFile : Option Path
  /-- The compiled files with their languages. -/
  classification : Table Language
  /-- Files that the build writes. -/
  generated : List String
  headers : List Path
  extra : List Path
  excluded : List Path
  properties : ByProperty PropertyWords

namespace Target

/-- The language that a target compiles a file as.  Files match as they are
written. -/
def languageOf? (target : Target) (file : Path) : Option Language :=
  file.text?.bind (target.classification.lookup ·)

/-- Whether the build writes a file. -/
def isGenerated (target : Target) (file : Path) : Bool :=
  match file.text? with
  | some text => target.generated.contains text
  | none => false

/-- The compiled files with their languages, in order. -/
def files (target : Target) : List (Path × Language) :=
  target.classification.map fun entry => (.ofString entry.1, entry.2)

end Target

/-- Words that a source file adds to those of its target. -/
structure SourceOverride where
  path : Option Path
  words : ByProperty (Option (List String))
  deriving DecidableEq

/-- A loaded description of a build. -/
structure Document where
  sourceDir : Option Path
  generator : Option String
  platform : Option String
  compilers : ByLanguage Compiler
  targets : Table Target
  sources : Table SourceOverride

/-! ## Words -/

namespace WrittenWords

/-- The words at a place of the payload. -/
def wordsAt (pointer : String) (written : WrittenWords) : Except Error (List String) :=
  match written with
  | .items list => .ok list
  | .joined text =>
    match ShellWords.split text with
    | some list => .ok list
    | none => .error (.mismatch pointer (.unbalanced text))

/-- The words at a place of the payload, if there are any. -/
def wordsAt? (pointer : String) (written : Option WrittenWords) :
    Except Error (Option (List String)) :=
  match written with
  | none => .ok none
  | some written => some <$> written.wordsAt pointer

end WrittenWords

/-- The place of a member of an object at `pointer`. -/
def pointerTo (pointer key : String) : String :=
  pointer ++ "/" ++ key

/-- The words of a property of the target at `pointer`. -/
def WrittenProperty.resolve (pointer : String) (property : Property) (written : WrittenProperty) :
    Except Error PropertyWords := do
  let base ← WrittenWords.wordsAt? (pointerTo pointer property.key) written.base
  let c ← WrittenWords.wordsAt? (pointerTo pointer (property.keyFor .c)) written.specialized.c
  let cxx ← WrittenWords.wordsAt? (pointerTo pointer (property.keyFor .cxx)) written.specialized.cxx
  return ⟨base, ⟨c, cxx⟩⟩

/-! ## Classification -/

/-- The files that are classified so far, and those of them that the build
writes. -/
structure Classification where
  languages : Table Language
  generated : List String

namespace Classification

/-- Classifies a file.  A file that is classified already stays as it is; a
second language for it is a mismatch. -/
def add (language : Language) (isGenerated : Bool) (state : Classification) (file : String) :
    Except Mismatch Classification :=
  match state.languages.lookup file with
  | some previous =>
    if previous = language then .ok state else .error (.conflict file previous language)
  | none =>
    .ok ⟨state.languages ++ [(file, language)],
      if isGenerated then state.generated ++ [file] else state.generated⟩

/-- Classifies the files of a list. -/
def addAll (language : Language) (isGenerated : Bool) (state : Classification)
    (files : List String) : Except Mismatch Classification :=
  files.foldlM (add language isGenerated) state

/-- Classifies the files of a target: the ordinary ones of each language, and
then those that the build writes. -/
def ofTarget (target : WrittenTarget) : Except Mismatch Classification := do
  let state ← addAll .c false ⟨[], []⟩ target.objects.c
  let state ← addAll .cxx false state target.objects.cxx
  let state ← addAll .c true state target.generatedObjects.c
  addAll .cxx true state target.generatedObjects.cxx

end Classification

/-! ## From payloads to documents -/

/-- The place of the target with a key. -/
def targetPointer (key : String) : String :=
  pointerTo "/targets" (Json.Pointer.escapeByReplacing key)

/-- The place of the source file with a key. -/
def sourcePointer (key : String) : String :=
  pointerTo "/sources" (Json.Pointer.escapeByReplacing key)

/-- What the target with a key means. -/
def WrittenTarget.resolve (key : String) (target : WrittenTarget) : Except Error Target := do
  let pointer := targetPointer key
  let classification ← (Classification.ofTarget target).mapError (Error.mismatch pointer)
  let definitions ← target.properties.definitions.resolve pointer .definitions
  let includes ← target.properties.includes.resolve pointer .includes
  let options ← target.properties.options.resolve pointer .options
  return {
    name := target.name.getD key
    kind := target.kind
    backtrace := target.backtrace
    targetFile := target.targetFile.map .ofString
    linkerFile := target.linkerFile.map .ofString
    sonameFile := target.sonameFile.map .ofString
    classification := classification.languages
    generated := classification.generated ++ target.generatedHeaders ++ target.generatedExtra
    headers := (target.headers ++ target.generatedHeaders).map .ofString
    extra := (target.extra ++ target.generatedExtra).map .ofString
    excluded := target.excluded.map .ofString
    properties := ⟨definitions, includes, options⟩ }

/-- Options, and flags behind them. -/
def appendFlags : Option (List String) → Option (List String) → Option (List String)
  | some options, some flags => some (options ++ flags)
  | options, flags => options.or flags

/-- What the properties of the source file with a key mean. -/
def WrittenSource.resolve (key : String) (source : WrittenSource) :
    Except Error SourceOverride := do
  let pointer := sourcePointer key
  let options ← WrittenWords.wordsAt? (pointerTo pointer "compile_options") source.options
  let flags ← WrittenWords.wordsAt? (pointerTo pointer "compile_flags") source.flags
  let definitions ← WrittenWords.wordsAt? (pointerTo pointer "compile_definitions")
    source.definitions
  let includes ← WrittenWords.wordsAt? (pointerTo pointer "include_directories") source.includes
  return ⟨source.path.map .ofString, ⟨definitions, includes, appendFlags options flags⟩⟩

/-- Applies a function to the entries of a table, in order. -/
def resolveEntries {α β : Type} (resolve : String → α → Except Error β) (table : Table α) :
    Except Error (Table β) :=
  table.mapM fun entry => (fun b => (entry.1, b)) <$> resolve entry.1 entry.2

namespace Document

/-- What a payload means. -/
def ofPayload (payload : Payload) : Except Error Document := do
  let targets ← resolveEntries WrittenTarget.resolve payload.targets
  let sources ← resolveEntries WrittenSource.resolve payload.sources
  return {
    sourceDir := payload.sourceDir.map .ofString
    generator := payload.generator
    platform := payload.platform
    compilers := payload.compilers
    targets := targets
    sources := sources }

/-! ## Looking up -/

/-- The target with a key. -/
def target (document : Document) (key : String) : Except Error Target :=
  match document.targets.lookup key with
  | some target => .ok target
  | none => .error (.noTarget key)

/-- The properties of a source file.  Files match as they are written. -/
def override? (document : Document) (file : Path) : Option SourceOverride :=
  file.text?.bind (document.sources.lookup ·)

/-- Whether some target compiles a file. -/
def compiles (document : Document) (file : String) : Bool :=
  document.targets.any fun entry => (entry.2.classification.lookup file).isSome

/-- The source files with properties that no target compiles. -/
def unusedOverrides (document : Document) : List String :=
  document.sources.keys.filter fun file => !document.compiles file

/-! ## Loading -/

/-- The document of a payload, with a warning for every unused override. -/
def load (payload : Except Json.Fault Payload) : Traced Document := do
  let payload ← .ofExcept (payload.mapError (Error.malformed .metadata))
  let document ← .ofExcept (ofPayload payload)
  ⟨document.unusedOverrides.map .unusedOverride, .ok document⟩

/-- The document that a text writes, taken from the text while it is read. -/
def ofText (text : String) : Traced Document :=
  load (Payload.decoder.read text)

/-- The document that a value is. -/
def ofValue (value : Json.Value) : Traced Document :=
  load (Payload.decoder.fromValue value)

end Document

end BuildFacts
