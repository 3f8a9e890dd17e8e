import BuildFacts.Error
import BuildFacts.Json.Record
import BuildFacts.ShellWords
import BuildFacts.Text.Blank

/-!
# Compile commands

A compile command says how one file is compiled: from where, and with which
arguments.  The arguments are given one by one or joined in a text.

`includes` and `defines` read flags back from the arguments.  A flag has its
value behind it, in the same argument or in the next one.
-/

namespace BuildFacts

/-- How one file is compiled. -/
structure CompileCommand where
  directory : Path
  file : Path
  command : Option String
  arguments : Option (List String)
  output : Option Path
  deriving DecidableEq

/-! ## Flags -/

namespace Flag

/-- What an argument is to a list of flags. -/
inductive Reading where
  /-- A flag alone, which takes the next argument as its value. -/
  | bare
  /-- A flag with its value. -/
  | value (text : List Char)
  | other
  deriving DecidableEq

/-- A text without its first part, if it starts with it. -/
def strip? : List Char → List Char → Option (List Char)
  | [], text => some text
  | _ :: _, [] => none
  | a :: start, c :: text => if a = c then strip? start text else none

/-- Reads an argument.  Of several flags that it starts with, the first counts. -/
def read (flags : List String) (argument : String) : Reading :=
  match flags with
  | [] => .other
  | flag :: rest =>
    if argument = flag then .bare
    else
      match strip? flag.toList argument.toList with
      | some text => .value text
      | none => read rest argument

/-- The values of flags, in the order of the arguments. -/
def values (flags : List String) : List String → List String
  | [] => []
  | argument :: rest =>
    match read flags argument with
    | .bare =>
      match rest with
      | [] => []
      | value :: rest => value :: values flags rest
    | .value text => String.ofList text :: values flags rest
    | .other => values flags rest

/-- The flags that name include directories. -/
def includeFlags : List String := ["-I", "-isystem"]

/-- The flag that makes a definition. -/
def definitionFlags : List String := ["-D"]

end Flag

namespace CompileCommand

/-- The arguments of a command.  A text is split into shell words, or at its
blanks if it is unbalanced. -/
def args (command : CompileCommand) : List String :=
  match command.arguments, command.command with
  | some arguments, _ => arguments
  | none, some text =>
    (ShellWords.split text).getD ((Text.words text.toList).map String.ofList)
  | none, none => []

/-- The include directories that the arguments name. -/
def includes (command : CompileCommand) : List String :=
  Flag.values Flag.includeFlags command.args

/-- The definitions that the arguments make. -/
def defines (command : CompileCommand) : List String :=
  Flag.values Flag.definitionFlags command.args

/-! ## Comparison -/

/-- Whether two commands are the same, with paths compared step by step. -/
def same (a b : CompileCommand) : Bool :=
  a.directory.same b.directory && a.file.same b.file && a.command == b.command &&
    a.arguments == b.arguments &&
    match a.output, b.output with
    | some x, some y => x.same y
    | none, none => true
    | _, _ => false

/-! ## JSON -/

open Json

/-- Takes a path. -/
def pathDecoder : Decoder Path :=
  (Decoder.text "path string").map .ofString

/-- The form of a command. -/
def record : Record CompileCommand where
  label := "CompileCommand"
  fields :=
    [.mandatory "directory" pathDecoder fun x c => { c with directory := x },
      .mandatory "file" pathDecoder fun x c => { c with file := x },
      .optional "command" Decoder.string.optional fun x c => { c with command := x },
      .optional "arguments" Decoder.string.list.optional fun x c => { c with arguments := x },
      .optional "output" pathDecoder.optional fun x c => { c with output := x }]
  initial := ⟨⟨[]⟩, ⟨[]⟩, none, none, none⟩

/-- A path as a value.  Only a path with a text has one. -/
def pathValue (path : Path) : Except Error Value :=
  match path.text? with
  | some text => .ok (.string text)
  | none => .error .unwritablePath

/-- A member for data that may be absent. -/
def member? (key : String) (value : Option Value) : List (String × Value) :=
  match value with
  | some value => [(key, value)]
  | none => []

/-- A command as a value, without members for what is absent. -/
def toValue (command : CompileCommand) : Except Error Value := do
  let directory ← pathValue command.directory
  let file ← pathValue command.file
  let output ← command.output.mapM pathValue
  return .object
    ([("directory", directory), ("file", file)] ++
      member? "command" (command.command.map .string) ++
      member? "arguments" (command.arguments.map fun list => .array (list.map .string)) ++
      member? "output" output)

end CompileCommand

end BuildFacts
