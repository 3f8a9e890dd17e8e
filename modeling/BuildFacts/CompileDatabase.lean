import BuildFacts.FileTree
import BuildFacts.Resolve

/-!
# Compile databases

A compile database is a list of compile commands.  It is built from a
document, with a command for each file of each target, or read from a text;
and it is written as a text.
-/

namespace BuildFacts

/-- Compile commands, in order. -/
structure CompileDatabase where
  commands : List CompileCommand
  deriving DecidableEq

namespace CompileDatabase

/-! ## From a document -/

/-- The commands for the files of a target. -/
def commandsOf (document : Document) (directory : Path) (target : Target) :
    Traced (List CompileCommand) :=
  target.files.mapM fun entry => document.command target.name entry.1 directory

/-- The database of a document: targets in order, and the files of each in
order. -/
def ofDocument (document : Document) (directory : Path) : Traced CompileDatabase := do
  let commands ← document.targets.mapM fun entry => commandsOf document directory entry.2
  .emit (.builtDatabase commands.flatten.length directory)
  return ⟨commands.flatten⟩

/-! ## Texts -/

/-- The database that a text writes. -/
def ofText (text : String) : Except Error CompileDatabase :=
  match CompileCommand.record.decoder.list.read text with
  | .ok commands => .ok ⟨commands⟩
  | .error fault => .error (.malformed .database fault)

/-- The database that a file writes. -/
def ofFile (tree : FileTree) (path : Path) : Except Error CompileDatabase := do
  ofText (← tree.readText path)

/-- The text of a database. -/
def toText (database : CompileDatabase) : Except Error String := do
  let values ← database.commands.mapM CompileCommand.toValue
  return String.ofList (Json.Value.array values).pretty

/-! ## Looking up -/

/-- Whether a path names the file of a command: the whole of it, or its last
steps. -/
def names (path : Path) (command : CompileCommand) : Bool :=
  command.file.same path || command.file.endsWith path

/-- The index of the first command for a file. -/
def findIndex? (database : CompileDatabase) (path : Path) : Option Nat :=
  database.commands.findIdx? (names path)

/-- The first command for a file. -/
def find? (database : CompileDatabase) (path : Path) : Option CompileCommand :=
  database.commands.find? (names path)

/-- Whether two databases are the same, with paths compared step by step. -/
def same (a b : CompileDatabase) : Bool :=
  a.commands.length == b.commands.length &&
    (a.commands.zip b.commands).all fun pair => pair.1.same pair.2

end CompileDatabase

end BuildFacts
