import BuildFacts.Error

/-!
# File trees

A file tree is what a directory holds at one time.  `read` answers what
reading a file in it as a text gives.

A path is followed step by step from the directory.  Each step but the last
must lead to a directory, and so must the last one if a slash or a `.` is
behind it.  Outside the directory there is nothing but the directories that it
is in.  Names and paths have a greatest length, and no path holds a NUL.
-/

namespace BuildFacts

/-- What stands at a place of a file tree. -/
inductive FileTree.Entry where
  | file (content : List UInt8)
  | directory
  deriving DecidableEq

/-- What a directory holds: the places below it, the latest first. -/
structure FileTree where
  entries : List (List (List UInt8) × FileTree.Entry)

namespace FileTree

/-- A directory that holds nothing. -/
def empty : FileTree := ⟨[]⟩

/-- What stands at a place.  The directory itself is the place without steps. -/
def entryAt? (tree : FileTree) (place : List (List UInt8)) : Option Entry :=
  if place.isEmpty then some .directory else tree.entries.lookup place

/-! ## Following paths -/

/-- The steps of a path, empty ones and `.` included. -/
def stepsOf (path : Path) : List (List UInt8) :=
  Path.segments path.bytes

/-- Whether a step leads to the same directory or out of it. -/
def staysOutside (step : List UInt8) : Bool :=
  step.isEmpty || step == Path.dot || step == Path.dotDot

/-- How many bytes the name of a file or directory may have. -/
def maxName : Nat := 255

/-- How many bytes a path may have. -/
def maxPath : Nat := 4095

/-- What stands where steps lead outside the directory. -/
def outside (steps : List (List UInt8)) : Except ReadFailure Entry :=
  match steps.find? fun step => !staysOutside step with
  | none => .ok .directory
  | some step => .error (if maxName < step.length then .nameTooLong else .notFound)

/-- What stands where steps lead from a place. -/
def walk (tree : FileTree) (place : List (List UInt8)) :
    List (List UInt8) → Except ReadFailure Entry
  | [] =>
    match tree.entryAt? place with
    | some entry => .ok entry
    | none => .error .notFound
  | step :: rest =>
    match tree.entryAt? place with
    | none => .error .notFound
    | some (.file _) => .error .notDirectory
    | some .directory =>
      if step.isEmpty || step = Path.dot then walk tree place rest
      else if step = Path.dotDot then
        if place.isEmpty then outside rest else walk tree place.dropLast rest
      else if maxName < step.length then .error .nameTooLong
      else walk tree (place ++ [step]) rest

/-- What stands where a path leads. -/
def find (tree : FileTree) (path : Path) : Except ReadFailure Entry :=
  if path.bytes.contains 0 then .error .nulInName
  else if path.bytes.isEmpty then .error .notFound
  else if maxPath < path.bytes.length then .error .nameTooLong
  else if path.isAbsolute then outside (stepsOf path)
  else walk tree [] (stepsOf path)

/-- The text of the file at a path. -/
def read (tree : FileTree) (path : Path) : Except ReadFailure String := do
  match ← tree.find path with
  | .directory => throw .isDirectory
  | .file content =>
    match Path.text? ⟨content⟩ with
    | some text => return text
    | none => throw .notUtf8

/-- The text of the file at a path, or the error that says which file it is
that cannot be read. -/
def readText (tree : FileTree) (path : Path) : Except Error String :=
  (tree.read path).mapError (Error.unreadable path)

/-! ## Building trees -/

/-- The place that a component of a path leads to from a place. -/
def placeFrom (place : List (List UInt8)) : Path.Component → List (List UInt8)
  | .root => []
  | .name bytes =>
    if bytes = Path.dot then place
    else if bytes = Path.dotDot then place.dropLast
    else place ++ [bytes]

/-- The places that the components of a path lead to one after the other. -/
def placesFrom (place : List (List UInt8)) : List Path.Component → List (List (List UInt8))
  | [] => []
  | component :: rest => placeFrom place component :: placesFrom (placeFrom place component) rest

/-- Creates a directory at a place where nothing stands. -/
def addDirectory (tree : FileTree) (place : List (List UInt8)) : FileTree :=
  match tree.entryAt? place with
  | some _ => tree
  | none => ⟨(place, .directory) :: tree.entries⟩

/-- Creates what stands at a path, with the directories on the way.  A
directory that the path leaves by `..` is on the way too. -/
def add (tree : FileTree) (path : Path) (entry : Entry) : FileTree :=
  let places := placesFrom [] path.components
  match places.getLast? with
  | none => tree
  | some place => ⟨(place, entry) :: (places.dropLast.foldl addDirectory tree).entries⟩

end FileTree

end BuildFacts
