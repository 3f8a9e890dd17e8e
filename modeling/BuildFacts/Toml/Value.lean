import BuildFacts.Table

/-!
# TOML values and the making of tables

A table is made in three ways: at once, in braces; by assignments to dotted
keys; and by headers, which open a table for the assignments that follow.
`TableForm` says how a table came about, because this decides what may still
be added to it.

* `assign` puts a value behind a dotted key.  It adds to tables that were
  implied by a key or a header, and never to one that was written out.
* `enter` opens the table of a header.  It passes through every table that is
  not in braces, and through the last one of a list of tables.
-/

namespace BuildFacts.Toml

/-- How a table came about. -/
inductive TableForm where
  /-- In braces. -/
  | inline
  /-- By its own header. -/
  | headed
  /-- By the header of a table inside. -/
  | implied
  /-- By a dotted key. -/
  | dotted
  deriving DecidableEq

/-- A TOML value.  Of floats and of dates only the kind is kept. -/
inductive Value where
  | string (s : String)
  | integer (i : Int)
  | float
  | boolean (b : Bool)
  | moment
  | array (items : List Value)
  | table (form : TableForm) (entries : List (String × Value))
  /-- Tables with double headers, the latest last. -/
  | tables (elements : List (List (String × Value)))
  deriving Inhabited

/-- Changes the last item of a list; `none` if there is none, or if it cannot
be changed. -/
def modifyLast? {α : Type} (change : α → Option α) : List α → Option (List α)
  | [] => none
  | [a] => (change a).map ([·])
  | a :: rest => (modifyLast? change rest).map (a :: ·)

/-! ## Assignments -/

/-- Puts a value behind a dotted key.  The key must be new, and the tables on
the way must be open for it: the last one for dotted keys, the others for
headers too. -/
def assign (value : Value) : List String → Table Value → Option (Table Value)
  | [], _ => none
  | [key], entries =>
    match entries.lookup key with
    | none => some (entries.insert key value)
    | some _ => none
  | key :: next :: rest, entries =>
    match entries.lookup key with
    | none =>
      (assign value (next :: rest) []).map fun inner => entries.insert key (.table .dotted inner)
    | some (.table form inner) =>
      if form = .dotted ∨ (form = .implied ∧ rest ≠ []) then
        (assign value (next :: rest) inner).map fun inner => entries.insert key (.table form inner)
      else none
    | some (.tables elements) =>
      if rest ≠ [] then
        (modifyLast? (assign value (next :: rest)) elements).map fun elements =>
          entries.insert key (.tables elements)
      else none
    | some _ => none

/-- An assignment: a dotted key and a value. -/
structure Assignment where
  key : List String
  value : Value

/-- Makes assignments one after the other. -/
def assignAll (assignments : List Assignment) (entries : Table Value) : Option (Table Value) :=
  assignments.foldlM (fun entries assignment => assign assignment.value assignment.key entries)
    entries

/-! ## Headers -/

/-- Opens the table with a key and fills it.  It must be new, or only implied
by headers so far. -/
def openTable (fill : Table Value → Option (Table Value)) (key : String) (entries : Table Value) :
    Option (Table Value) :=
  match entries.lookup key with
  | none => (fill []).map fun inner => entries.insert key (.table .headed inner)
  | some (.table .implied inner) =>
    (fill inner).map fun inner => entries.insert key (.table .headed inner)
  | some _ => none

/-- Adds an element to the list of tables with a key and fills it. -/
def openElement (fill : Table Value → Option (Table Value)) (key : String)
    (entries : Table Value) : Option (Table Value) :=
  match entries.lookup key with
  | none => (fill []).map fun element => entries.insert key (.tables [element])
  | some (.tables elements) =>
    (fill []).map fun element => entries.insert key (.tables (elements ++ [element]))
  | some _ => none

/-- Follows the path of a header and opens what is behind its last key. -/
def enter (openLast : String → Table Value → Option (Table Value)) :
    List String → Table Value → Option (Table Value)
  | [], _ => none
  | [key], entries => openLast key entries
  | key :: next :: rest, entries =>
    match entries.lookup key with
    | none =>
      (enter openLast (next :: rest) []).map fun inner =>
        entries.insert key (.table .implied inner)
    | some (.table form inner) =>
      if form = .inline then none
      else
        (enter openLast (next :: rest) inner).map fun inner =>
          entries.insert key (.table form inner)
    | some (.tables elements) =>
      (modifyLast? (enter openLast (next :: rest)) elements).map fun elements =>
        entries.insert key (.tables elements)
    | some _ => none

/-- A header with the assignments that follow it. -/
structure Section where
  path : List String
  /-- Whether the header has double brackets. -/
  isElement : Bool
  assignments : List Assignment

/-- Adds a section to a table. -/
def addSection (entries : Table Value) (part : Section) : Option (Table Value) :=
  let fill := assignAll part.assignments
  enter (if part.isElement then openElement fill else openTable fill) part.path entries

end BuildFacts.Toml
