/-!
# Languages and compile properties

A target compiles files in two languages, and it has three properties for
them.  `ByLanguage` and `ByProperty` are a value for each.
-/

namespace BuildFacts

/-! ## Languages -/

/-- A language that a target compiles files as. -/
inductive Language where
  | c
  | cxx
  deriving DecidableEq, Repr

namespace Language

/-- The languages, in the order in which they are listed everywhere. -/
def all : List Language := [.c, .cxx]

/-- How a language is shown. -/
def display : Language → String
  | .c => "C"
  | .cxx => "CXX"

/-- How a language ends a key, as in `object_sources_cxx`. -/
def keySuffix : Language → String
  | .c => "c"
  | .cxx => "cxx"

/-- The language with a name, whatever the case of its ASCII letters. -/
def ofName? (name : String) : Option Language :=
  let lower := name.toList.map Char.toLower
  if lower = "c".toList then some .c
  else if lower = "cxx".toList ∨ lower = "c++".toList ∨ lower = "cpp".toList then some .cxx
  else none

/-- What is said about a name that no language has. -/
def unknownName (name : String) : String :=
  "unknown language '" ++ name ++ "'"

end Language

/-- A value for each language. -/
structure ByLanguage (α : Type) where
  c : α
  cxx : α
  deriving DecidableEq

/-- The value for a language. -/
def ByLanguage.get {α : Type} (values : ByLanguage α) : Language → α
  | .c => values.c
  | .cxx => values.cxx

/-! ## Compile properties -/

/-- A property that tells how files are compiled. -/
inductive Property where
  | definitions
  | includes
  | options
  deriving DecidableEq, Repr

namespace Property

/-- The properties, in the order in which they are listed everywhere. -/
def all : List Property := [.definitions, .includes, .options]

/-- The key of a property. -/
def key : Property → String
  | .definitions => "compile_definitions"
  | .includes => "include_directories"
  | .options => "compile_options"

/-- The key of a property in one language. -/
def keyFor (property : Property) (language : Language) : String :=
  property.key ++ "_" ++ language.keySuffix

/-- The property with a key. -/
def ofKey? (key : String) : Option Property :=
  all.find? (·.key == key)

end Property

/-- A value for each property. -/
structure ByProperty (α : Type) where
  definitions : α
  includes : α
  options : α
  deriving DecidableEq

/-- The value for a property. -/
def ByProperty.get {α : Type} (values : ByProperty α) : Property → α
  | .definitions => values.definitions
  | .includes => values.includes
  | .options => values.options

end BuildFacts
