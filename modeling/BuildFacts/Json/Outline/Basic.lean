import BuildFacts.Json.StringLiteral
import BuildFacts.Json.Value

/-!
# Outlines of JSON texts

An outline is what a text holds, up to the place where it stops making sense.
Every text has an outline; that of a text which is not JSON has a break in it.

`Json.Outline.Scan` finds outlines and `Json.Outline.Read` reads them.
-/

namespace BuildFacts.Json

/-- The words that are values. -/
inductive Word where
  | null
  | true
  | false
  deriving DecidableEq

/-- How far a word is spelt out. -/
inductive Spelling where
  | complete
  | unfinished
  | wrong
  deriving DecidableEq

/-- How a list or an object ends. -/
inductive Ending where
  /-- The closing bracket. -/
  | closed
  /-- The end of the text. -/
  | unfinished
  /-- Neither a comma nor the closing bracket after an entry. -/
  | unseparated
  /-- The closing bracket after a comma. -/
  | commaThenClosed
  /-- The end of the text after a comma. -/
  | commaThenEnd
  /-- Something that is no key after a comma. -/
  | commaThenOther
  deriving DecidableEq

mutual

/-- What a text holds where a value should stand. -/
inductive Outline where
  /-- The end of the text. -/
  | missing
  /-- A character that starts no value. -/
  | stray
  | word (word : Word) (spelling : Spelling)
  /-- A number, `none` where it is malformed. -/
  | number (literal : Option NumberLiteral)
  | string (literal : StringLiteral)
  | array (items : Items)
  | object (members : Members)

/-- The items of a list, and how it ends. -/
inductive Items where
  | ends (ending : Ending)
  | item (first : Outline) (rest : Items)

/-- The members of an object, and how it ends. -/
inductive Members where
  | ends (ending : Ending)
  /-- Something else where the first key should stand. -/
  | keyless
  /-- A key without a colon; `atEnd` tells whether the text ends there. -/
  | bare (key : StringLiteral) (atEnd : Bool)
  | member (key : StringLiteral) (value : Outline) (rest : Members)

end

end BuildFacts.Json
