/-!
# Shell words

`split` cuts a text into words as a shell does.  Spaces, tabs and line feeds
separate words.  A backslash takes the next character as it is; behind a
backslash a line feed is dropped.  Single quotes take all characters as they
are.  Inside double quotes a backslash acts only before `$`, a backquote, a
double quote, a backslash and a line feed.  A `#` where a word could start
opens a comment up to the end of the line.

An open quote, or a backslash at the end of the text, makes the text
unbalanced; it then has no words.

`quote` writes words so that `split` gives them back.
-/

namespace BuildFacts.ShellWords

/-! ## Splitting -/

/-- Where in a text the reader is. -/
inductive Mode where
  | gap
  | comment
  | plain
  | single
  | double
  deriving DecidableEq

/-- Puts a character in front of the first word. -/
def push (c : Char) (words : Option (List (List Char))) : Option (List (List Char)) :=
  words.map (·.modifyHead (c :: ·))

/-- Whether a character separates words. -/
def isSeparator (c : Char) : Bool :=
  c == ' ' || c == '\t' || c == '\n'

/-- Whether a backslash acts on a character inside double quotes. -/
def isEscapable (c : Char) : Bool :=
  c == '$' || c == '\x60' || c == '"' || c == '\\'

/-- The words of a text that is read in a mode.  Inside a word the first word
is what is left of that word. -/
def scan : Mode → List Char → Option (List (List Char))
  | .gap, [] => some []
  | .comment, [] => some []
  | .plain, [] => some [[]]
  | .single, [] => none
  | .double, [] => none
  | .comment, c :: rest => if c = '\n' then scan .gap rest else scan .comment rest
  | .single, c :: rest => if c = '\'' then scan .plain rest else push c (scan .single rest)
  | .double, ['\\'] => none
  | .double, '\\' :: c :: rest =>
    if isEscapable c then push c (scan .double rest)
    else if c = '\n' then scan .double rest
    else push '\\' (push c (scan .double rest))
  | .double, c :: rest => if c = '"' then scan .plain rest else push c (scan .double rest)
  | _, ['\\'] => none
  | _, '\\' :: c :: rest =>
    if c = '\n' then scan .plain rest else push c (scan .plain rest)
  | .gap, c :: rest =>
    if isSeparator c then scan .gap rest
    else if c = '#' then scan .comment rest
    else if c = '\'' then scan .single rest
    else if c = '"' then scan .double rest
    else push c (scan .plain rest)
  | .plain, c :: rest =>
    if isSeparator c then ([] :: ·) <$> scan .gap rest
    else if c = '\'' then scan .single rest
    else if c = '"' then scan .double rest
    else push c (scan .plain rest)

/-- The words of a text, or `none` if it is unbalanced. -/
def split (text : String) : Option (List String) :=
  (scan .gap text.toList).map (·.map String.ofList)

/-! ## Quoting -/

/-- A word between single quotes.  A single quote of its own stands outside of
them, behind a backslash. -/
def quoteWord (word : List Char) : List Char :=
  '\'' :: (word.flatMap fun c => if c = '\'' then ['\'', '\\', '\'', '\''] else [c]) ++ ['\'']

/-- Quoted words with a space between them. -/
def quoteWords : List (List Char) → List Char
  | [] => []
  | [word] => quoteWord word
  | word :: rest => quoteWord word ++ ' ' :: quoteWords rest

/-- A text that `split` cuts into the words. -/
def quote (words : List String) : String :=
  String.ofList (quoteWords (words.map String.toList))

end BuildFacts.ShellWords
