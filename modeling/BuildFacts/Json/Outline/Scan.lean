import BuildFacts.Json.Outline.Basic

/-!
# The outline of a text

`Outline.scan` goes through a text once.  It breaks off where no reading of
the outline could go on, and then nothing follows the outline.

Each scanner comes with a bound on what follows: it is not longer than the
text, and shorter after a value.  The scanners call each other, and end by
this bound.
-/

namespace BuildFacts.Json

/-- Whether a character may stand between tokens. -/
def isSpace (c : Char) : Bool :=
  c == ' ' || c == '\t' || c == '\n' || c == '\r'

/-- A text from its first token on. -/
def skipSpace (text : List Char) : List Char :=
  text.dropWhile isSpace

theorem length_skipSpace_le (text : List Char) : (skipSpace text).length ≤ text.length :=
  (List.dropWhile_sublist isSpace).length_le

/-- Scans the letters of a word. -/
def scanLetters : List Char → List Char → Spelling × List Char
  | [], text => (.complete, text)
  | _ :: _, [] => (.unfinished, [])
  | letter :: letters, c :: text =>
    if c = letter then scanLetters letters text else (.wrong, [])

theorem length_scanLetters_le (letters text : List Char) :
    (scanLetters letters text).2.length ≤ text.length := by
  induction letters generalizing text with
  | nil => simp [scanLetters]
  | cons letter letters ih =>
    cases text with
    | nil => simp [scanLetters]
    | cons c text =>
      rw [scanLetters]
      split
      · exact Nat.le_succ_of_le (ih text)
      · simp

namespace Outline

/-- A text that is not longer than another. -/
abbrev Upto (text : List Char) := { rest : List Char // rest.length ≤ text.length }

/-- The outline of a word of which `letters` are still to come. -/
def scanWord (word : Word) (letters text : List Char) : Outline × Upto text :=
  (.word word (scanLetters letters text).1,
    ⟨(scanLetters letters text).2, length_scanLetters_le letters text⟩)

/-- The outline of a value without parts that starts with `c`, and what follows it. -/
def scanLeaf (c : Char) (text : List Char) : Outline × Upto text :=
  if c = '"' then
    (.string (StringLiteral.scan text).1,
      ⟨(StringLiteral.scan text).2, StringLiteral.length_scan_le text⟩)
  else if c = 'n' then
    scanWord .null ['u', 'l', 'l'] text
  else if c = 't' then
    scanWord .true ['r', 'u', 'e'] text
  else if c = 'f' then
    scanWord .false ['a', 'l', 's', 'e'] text
  else if c = '-' ∨ (digit? c).isSome then
    match h : NumberLiteral.scan (c :: text) with
    | some (literal, rest) =>
      (.number (some literal), ⟨rest, Nat.le_of_lt_succ (NumberLiteral.length_lt_of_scan h)⟩)
    | none => (.number none, ⟨[], Nat.zero_le _⟩)
  else (.stray, ⟨[], Nat.zero_le _⟩)

mutual

/-- The outline of a value that starts with `c`, and what follows it. -/
def scanFrom (c : Char) (text : List Char) : Outline × Upto text :=
  if c = '[' then
    let (items, rest) := scanItems true text
    (.array items, rest)
  else if c = '\x7b' then
    let (members, rest) := scanMembers true text
    (.object members, rest)
  else scanLeaf c text
termination_by 3 * text.length + 1

/-- The items of a list; `first` tells whether none has come before. -/
def scanItems (first : Bool) (text : List Char) : Items × Upto text :=
  match h : skipSpace text with
  | [] => (.ends .unfinished, ⟨[], Nat.zero_le _⟩)
  | c :: after =>
    have hafter : after.length < text.length := by
      have := length_skipSpace_le text; simp only [h, List.length_cons] at this; omega
    if c = ']' then (.ends .closed, ⟨after, by omega⟩)
    else if first then
      let (items, rest) := scanItem c after
      (items, ⟨rest.1, by have := rest.2; omega⟩)
    else if c = ',' then
      match h' : skipSpace after with
      | [] => (.ends .commaThenEnd, ⟨[], Nat.zero_le _⟩)
      | d :: more =>
        have hmore : more.length < text.length := by
          have := length_skipSpace_le after; simp only [h', List.length_cons] at this; omega
        if d = ']' then (.ends .commaThenClosed, ⟨[], Nat.zero_le _⟩)
        else
          let (items, rest) := scanItem d more
          (items, ⟨rest.1, by have := rest.2; omega⟩)
    else (.ends .unseparated, ⟨[], Nat.zero_le _⟩)
termination_by 3 * text.length

/-- An item that starts with `c`, and the items after it. -/
def scanItem (c : Char) (text : List Char) : Items × Upto text :=
  let (first, after) := scanFrom c text
  have hafter := after.2
  let (items, rest) := scanItems false after.1
  (.item first items, ⟨rest.1, by have := rest.2; omega⟩)
termination_by 3 * text.length + 2

/-- The members of an object; `first` tells whether none has come before. -/
def scanMembers (first : Bool) (text : List Char) : Members × Upto text :=
  match h : skipSpace text with
  | [] => (.ends .unfinished, ⟨[], Nat.zero_le _⟩)
  | c :: after =>
    have hafter : after.length < text.length := by
      have := length_skipSpace_le text; simp only [h, List.length_cons] at this; omega
    if c = '\x7d' then (.ends .closed, ⟨after, by omega⟩)
    else if first then
      if c = '"' then
        let (members, rest) := scanMember after
        (members, ⟨rest.1, by have := rest.2; omega⟩)
      else (.keyless, ⟨[], Nat.zero_le _⟩)
    else if c = ',' then
      match h' : skipSpace after with
      | [] => (.ends .commaThenEnd, ⟨[], Nat.zero_le _⟩)
      | d :: more =>
        have hmore : more.length < text.length := by
          have := length_skipSpace_le after; simp only [h', List.length_cons] at this; omega
        if d = '"' then
          let (members, rest) := scanMember more
          (members, ⟨rest.1, by have := rest.2; omega⟩)
        else if d = '\x7d' then (.ends .commaThenClosed, ⟨[], Nat.zero_le _⟩)
        else (.ends .commaThenOther, ⟨[], Nat.zero_le _⟩)
    else (.ends .unseparated, ⟨[], Nat.zero_le _⟩)
termination_by 3 * text.length

/-- A member whose key starts at `text`, behind the quote, and the members after it. -/
def scanMember (text : List Char) : Members × Upto text :=
  let key := (StringLiteral.scan text).1
  match h : skipSpace (StringLiteral.scan text).2 with
  | [] => (.bare key true, ⟨[], Nat.zero_le _⟩)
  | c :: after =>
    have hafter : after.length < text.length := by
      have h₁ := length_skipSpace_le (StringLiteral.scan text).2
      have h₂ := StringLiteral.length_scan_le text
      simp only [h, List.length_cons] at h₁; omega
    if c = ':' then
      match h' : skipSpace after with
      | [] => (.member key .missing (.ends .unfinished), ⟨[], Nat.zero_le _⟩)
      | d :: more =>
        have hmore : more.length < text.length := by
          have := length_skipSpace_le after; simp only [h', List.length_cons] at this; omega
        let (value, behind) := scanFrom d more
        have hbehind := behind.2
        let (members, rest) := scanMembers false behind.1
        (.member key value members, ⟨rest.1, by have := rest.2; omega⟩)
    else (.bare key false, ⟨[], Nat.zero_le _⟩)
termination_by 3 * text.length

end

/-- The outline of a text, and what follows its value. -/
def scan (text : List Char) : Outline × List Char :=
  match skipSpace text with
  | [] => (.missing, [])
  | c :: after => ((scanFrom c after).1, (scanFrom c after).2)

end Outline

end BuildFacts.Json
