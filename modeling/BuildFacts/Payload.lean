import BuildFacts.Json.Record
import BuildFacts.Language
import BuildFacts.Path
import BuildFacts.ShellWords
import BuildFacts.Text.Blank

/-!
# Payloads as they are written

A `Payload` is a metadata payload with its data taken from JSON and nothing
else done to it.  `Document` is what a payload means.

A list of words may be written as one text in shell words.  A backtrace line
may be written as a text.  A field that is absent has the value that its type
has in `{}`.
-/

namespace BuildFacts

/-! ## Words -/

/-- Words as they are written: one by one, or joined in a text. -/
inductive WrittenWords where
  | items (words : List String)
  | joined (text : String)
  deriving DecidableEq

namespace WrittenWords

/-- The words, unless the text is unbalanced. -/
def words? : WrittenWords → Option (List String)
  | .items list => some list
  | .joined text => ShellWords.split text

/-- Takes words from a value. -/
def ofValue (value : Json.Value) : Except Json.Fault WrittenWords :=
  let fault : Json.Fault := .noVariant "RawList"
  match value with
  | .string s => .ok (.joined s)
  | .array values =>
    match values.mapM Json.Value.string? with
    | some words => .ok (.items words)
    | none => .error fault
  | _ => .error fault

/-- Takes words, or `null` for none. -/
def decoder : Json.Decoder (Option WrittenWords) :=
  (Json.Decoder.ofValue ofValue).optional

end WrittenWords

/-! ## Backtraces -/

/-- A place in a file that led to a target. -/
structure Frame where
  path : Path
  line : Nat
  deriving DecidableEq

namespace Frame

/-- The greatest line. -/
def maxLine : Nat := 4294967295

/-- The digits of a text that may start with a plus. -/
def unsigned : List Char → List Char
  | '+' :: digits => digits
  | digits => digits

/-- Appends digits to a number.  The first character that is no digit, or that
takes the number out of range, is the fault. -/
def appendDigits (n : Nat) : List Char → Except Json.Fault Nat
  | [] => .ok n
  | c :: rest =>
    match Json.digit? c with
    | none => .error .invalidDigit
    | some d =>
      if n * 10 + d ≤ maxLine then appendDigits (n * 10 + d) rest else .error .integerTooLarge

/-- The line that a text writes: digits behind an optional plus, with blanks
on either side. -/
def lineOfText (text : String) : Except Json.Fault Nat :=
  let trimmed := Text.trim text.toList
  let digits := unsigned trimmed
  if trimmed.isEmpty then .error .emptyInteger
  else if digits.isEmpty then .error .invalidDigit
  else appendDigits 0 digits

/-- Takes a line from a value: an integer in range, or a text. -/
def lineOfValue (value : Json.Value) : Except Json.Fault Nat :=
  let fault : Json.Fault := .noVariant "Line"
  match value with
  | .number (.integer i) => if 0 ≤ i ∧ i ≤ maxLine then .ok i.toNat else .error fault
  | .string text => lineOfText text
  | _ => .error fault

/-- The form of a frame.  Both fields are required. -/
def record : Json.Record Frame where
  label := "BacktraceFrame"
  fields :=
    [.mandatory "path" (Json.Decoder.text "path string") fun x f => { f with path := .ofString x },
      .mandatory "line" (.ofValue lineOfValue) fun x f => { f with line := x }]
  initial := ⟨⟨[]⟩, 0⟩

end Frame

/-! ## Kinds of targets -/

/-- What a target builds. -/
inductive TargetKind where
  | executable
  | staticLibrary
  | sharedLibrary
  | moduleLibrary
  | objectLibrary
  | utility
  | unknown
  deriving DecidableEq

namespace TargetKind

/-- The kind with a name.  Every other name is that of an unknown kind. -/
def ofName (name : String) : TargetKind :=
  if name = "EXECUTABLE" then .executable
  else if name = "STATIC_LIBRARY" then .staticLibrary
  else if name = "SHARED_LIBRARY" then .sharedLibrary
  else if name = "MODULE_LIBRARY" then .moduleLibrary
  else if name = "OBJECT_LIBRARY" then .objectLibrary
  else if name = "UTILITY" then .utility
  else .unknown

/-- How a kind is shown. -/
def display : TargetKind → String
  | .executable => "Executable"
  | .staticLibrary => "StaticLibrary"
  | .sharedLibrary => "SharedLibrary"
  | .moduleLibrary => "ModuleLibrary"
  | .objectLibrary => "ObjectLibrary"
  | .utility => "Utility"
  | .unknown => "Unknown"

open Json

/-- The fault of an outline where the name of a kind should stand. -/
def nameFault : Outline → Fault
  | .missing => .endInValue
  | _ => .expectedValue

/-- What is wrong with what follows the only member of an object. -/
def faultAfterMember : Members → Option Fault
  | .ends .closed => none
  | .ends .unfinished => some .endInObject
  | _ => some .expectedValue

/-- Takes the content of a kind that is written as an object. -/
def unit : Outline → Except Fault Unit
  | .word .null spelling => orFault () spelling.fault?
  | other => .error (other.mismatch "unit")

/-- Takes a kind from the members of an object while it is read. -/
def readMembers : Members → Except Fault TargetKind
  | .ends .unfinished => .error .endInObject
  | .ends _ => .error .expectedValue
  | .keyless => .error .keyNotString
  | .bare key atEnd => do
    let _ ← key.text
    .error (bareKeyFault atEnd)
  | .member key value rest => do
    let name ← key.text
    unit value
    orFault (ofName name) (faultAfterMember rest)

/-- Takes a kind: its name, or an object with the name as its only key and
nothing in it. -/
def decoder : Decoder TargetKind where
  fromOutline depth outline :=
    match outline with
    | .string literal => ofName <$> literal.text
    | .object members => descend depth fun _ => readMembers members
    | other => .error (nameFault other)
  fromValue value :=
    match value with
    | .string name => .ok (ofName name)
    | .object [(name, .null)] => .ok (ofName name)
    | .object [(_, content)] => .error (content.mismatch "unit")
    | .object _ => .error .notSingleMember
    | other => .error (other.mismatch "string or map")

end TargetKind

/-! ## Payloads -/

/-- A compiler: where it is, what it is and its version. -/
structure Compiler where
  path : Option String
  id : Option String
  version : Option String
  deriving DecidableEq

/-- Whether nothing is known of a compiler. -/
def Compiler.isEmpty (compiler : Compiler) : Bool :=
  compiler.path.isNone && compiler.id.isNone && compiler.version.isNone

/-- The words of one property of a target: for all languages, and for each. -/
structure WrittenProperty where
  base : Option WrittenWords
  specialized : ByLanguage (Option WrittenWords)

/-- A target as it is written. -/
structure WrittenTarget where
  name : Option String
  kind : Option TargetKind
  backtrace : List Frame
  targetFile : Option String
  linkerFile : Option String
  sonameFile : Option String
  objects : ByLanguage (List String)
  generatedObjects : ByLanguage (List String)
  headers : List String
  generatedHeaders : List String
  extra : List String
  generatedExtra : List String
  excluded : List String
  properties : ByProperty WrittenProperty

/-- The properties of a source file as they are written. -/
structure WrittenSource where
  path : Option String
  definitions : Option WrittenWords
  includes : Option WrittenWords
  options : Option WrittenWords
  flags : Option WrittenWords

/-- A payload as it is written. -/
structure Payload where
  sourceDir : Option String
  generator : Option String
  platform : Option String
  compilers : ByLanguage Compiler
  targets : Table WrittenTarget
  sources : Table WrittenSource

open Json

namespace WrittenTarget

/-- A target that sets nothing. -/
def empty : WrittenTarget where
  name := none
  kind := none
  backtrace := []
  targetFile := none
  linkerFile := none
  sonameFile := none
  objects := ⟨[], []⟩
  generatedObjects := ⟨[], []⟩
  headers := []
  generatedHeaders := []
  extra := []
  generatedExtra := []
  excluded := []
  properties :=
    let unset : WrittenProperty := ⟨none, ⟨none, none⟩⟩
    ⟨unset, unset, unset⟩

/-- A text that may be `null`. -/
def text (name : String) (set : Option String → WrittenTarget → WrittenTarget) :
    Json.Field WrittenTarget :=
  .optional name Decoder.string.optional set

/-- A list of files. -/
def files (name : String) (set : List String → WrittenTarget → WrittenTarget) :
    Json.Field WrittenTarget :=
  .optional name Decoder.string.list set

/-- The words of a property. -/
def words (name : String) (set : Option WrittenWords → WrittenTarget → WrittenTarget) :
    Json.Field WrittenTarget :=
  .optional name WrittenWords.decoder set

/-- The form of a target. -/
def record : Record WrittenTarget where
  label := "RawTarget"
  fields :=
    [text "name" fun x t => { t with name := x },
      .optional "type" TargetKind.decoder.optional fun x t => { t with kind := x },
      .optional "backtrace" Frame.record.decoder.list fun x t => { t with backtrace := x },
      text "target_file" fun x t => { t with targetFile := x },
      text "target_linker_file" fun x t => { t with linkerFile := x },
      text "target_soname_file" fun x t => { t with sonameFile := x },
      files "object_sources_c" fun x t => { t with objects.c := x },
      files "object_sources_cxx" fun x t => { t with objects.cxx := x },
      files "generated_object_sources_c" fun x t => { t with generatedObjects.c := x },
      files "generated_object_sources_cxx" fun x t => { t with generatedObjects.cxx := x },
      files "header_sources" fun x t => { t with headers := x },
      files "generated_header_sources" fun x t => { t with generatedHeaders := x },
      files "extra_sources" fun x t => { t with extra := x },
      files "generated_extra_sources" fun x t => { t with generatedExtra := x },
      files "excluded_sources" fun x t => { t with excluded := x },
      words "compile_definitions" fun x t => { t with properties.definitions.base := x },
      words "compile_definitions_c" fun x t =>
        { t with properties.definitions.specialized.c := x },
      words "compile_definitions_cxx" fun x t =>
        { t with properties.definitions.specialized.cxx := x },
      words "include_directories" fun x t => { t with properties.includes.base := x },
      words "include_directories_c" fun x t => { t with properties.includes.specialized.c := x },
      words "include_directories_cxx" fun x t =>
        { t with properties.includes.specialized.cxx := x },
      words "compile_options" fun x t => { t with properties.options.base := x },
      words "compile_options_c" fun x t => { t with properties.options.specialized.c := x },
      words "compile_options_cxx" fun x t => { t with properties.options.specialized.cxx := x }]
  initial := empty

end WrittenTarget

/-- The form of the properties of a source file. -/
def WrittenSource.record : Record WrittenSource where
  label := "RawSource"
  fields :=
    [.optional "path" Decoder.string.optional fun x s => { s with path := x },
      .optional "compile_definitions" WrittenWords.decoder fun x s => { s with definitions := x },
      .optional "include_directories" WrittenWords.decoder fun x s => { s with includes := x },
      .optional "compile_options" WrittenWords.decoder fun x s => { s with options := x },
      .optional "compile_flags" WrittenWords.decoder fun x s => { s with flags := x }]
  initial := ⟨none, none, none, none, none⟩

namespace Payload

/-- A payload that sets nothing. -/
def empty : Payload :=
  let unset : Compiler := ⟨none, none, none⟩
  ⟨none, none, none, ⟨unset, unset⟩, [], []⟩

/-- A text that may be `null`. -/
def text (name : String) (set : Option String → Payload → Payload) : Json.Field Payload :=
  .optional name Decoder.string.optional set

/-- The form of a payload. -/
def record : Record Payload where
  label := "RawDocument"
  fields :=
    [text "sourceDir" fun x p => { p with sourceDir := x },
      text "generator" fun x p => { p with generator := x },
      text "platform" fun x p => { p with platform := x },
      text "c_compiler" fun x p => { p with compilers.c.path := x },
      text "c_compiler_id" fun x p => { p with compilers.c.id := x },
      text "c_compiler_version" fun x p => { p with compilers.c.version := x },
      text "cxx_compiler" fun x p => { p with compilers.cxx.path := x },
      text "cxx_compiler_id" fun x p => { p with compilers.cxx.id := x },
      text "cxx_compiler_version" fun x p => { p with compilers.cxx.version := x },
      .optional "targets" WrittenTarget.record.decoder.table fun x p => { p with targets := x },
      .optional "sources" WrittenSource.record.decoder.table fun x p => { p with sources := x }]
  initial := empty

/-- Takes a payload. -/
def decoder : Decoder Payload :=
  record.decoder

end Payload

end BuildFacts
