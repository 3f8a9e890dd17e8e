import BuildFacts.ShellWords

/-!
# Splitting what was quoted

`ShellWords.split_quote` is the result: `split` gives back the words that `quote` wrote, whatever
characters they are made of.

The lemmas before it follow the reader through one quoted word.  Between quotes a character is
taken as it is; a single quote leaves them, stands behind a backslash, and opens them again, so
the word goes on (`scan_single_quoteChar`).
-/

namespace BuildFacts.ShellWords

/-- Puts characters in front of the first word. -/
def prepend (word : List Char) (words : Option (List (List Char))) : Option (List (List Char)) :=
  words.map (·.modifyHead (word ++ ·))

/-- One character of a word between single quotes. -/
def quoteChar (c : Char) : List Char :=
  if c = '\'' then ['\'', '\\', '\'', '\''] else [c]

theorem quoteWord_eq (word : List Char) :
    quoteWord word = '\'' :: word.flatMap quoteChar ++ ['\''] :=
  rfl

@[simp] theorem prepend_nil (words : Option (List (List Char))) : prepend [] words = words := by
  cases words with
  | none => rfl
  | some list => cases list <;> rfl

theorem push_prepend (c : Char) (word : List Char) (words : Option (List (List Char))) :
    push c (prepend word words) = prepend (c :: word) words := by
  cases words with
  | none => rfl
  | some list => cases list <;> rfl

/-- A character that is quoted is read as itself, and the quotes stay open behind it. -/
theorem scan_single_quoteChar (c : Char) (rest : List Char) :
    scan .single (quoteChar c ++ rest) = push c (scan .single rest) := by
  by_cases hc : c = '\''
  · subst hc
    simp [quoteChar, scan, isSeparator]
  · simp [quoteChar, scan, hc]

/-- Characters that are quoted are read as themselves up to the quote that closes them. -/
theorem scan_single_quoted (word rest : List Char) :
    scan .single (word.flatMap quoteChar ++ '\'' :: rest) = prepend word (scan .plain rest) := by
  induction word with
  | nil => simp [scan]
  | cons c word ih =>
    rw [List.flatMap_cons, List.append_assoc, scan_single_quoteChar, ih, push_prepend]

/-- Where a word could start, a quoted word is read as one word or as the start of one. -/
theorem scan_gap_quoteWord (word rest : List Char) :
    scan .gap (quoteWord word ++ rest) = prepend word (scan .plain rest) := by
  rw [← scan_single_quoted]
  simp [quoteWord_eq, scan, isSeparator]

theorem scan_quoteWords (words : List (List Char)) : scan .gap (quoteWords words) = some words := by
  induction words with
  | nil => rfl
  | cons word rest ih =>
    cases rest with
    | nil =>
      have h := scan_gap_quoteWord word []
      rw [List.append_nil] at h
      rw [quoteWords, h]
      simp [scan, prepend]
    | cons next rest =>
      have hspace : scan .plain (' ' :: quoteWords (next :: rest)) = some ([] :: next :: rest) := by
        simp [scan, isSeparator, ih]
      have hwords : quoteWords (word :: next :: rest) =
          quoteWord word ++ ' ' :: quoteWords (next :: rest) := rfl
      rw [hwords, scan_gap_quoteWord, hspace]
      simp [prepend]

/-- The words of quoted words are these words. -/
theorem split_quote (words : List String) : split (quote words) = some words := by
  rw [split, quote, String.toList_ofList, scan_quoteWords, Option.map_some, List.map_map]
  simp [Function.comp_def]

example : split (quote ["", "#a", "it's", "b\\\nc"]) = some ["", "#a", "it's", "b\\\nc"] := by
  rfl

end BuildFacts.ShellWords
