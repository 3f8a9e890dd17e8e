/-!
# Splitting a list at separators

`splitAt isSeparator` cuts a list at every separator and keeps the pieces
between them, the empty ones too.  There is one piece more than there are
separators, and no piece holds a separator.
-/

namespace BuildFacts.Text

variable {α : Type}

/-- The pieces of a list between the separators. -/
def splitAt (isSeparator : α → Bool) : List α → List (List α)
  | [] => [[]]
  | a :: rest =>
    if isSeparator a then [] :: splitAt isSeparator rest
    else (splitAt isSeparator rest).modifyHead (a :: ·)

/-- This splitting is the one of the library. -/
theorem splitAt_eq_splitOnP (isSeparator : α → Bool) (text : List α) :
    splitAt isSeparator text = text.splitOnP isSeparator := by
  induction text with
  | nil => simp [splitAt]
  | cons a rest ih =>
    rw [splitAt, List.splitOnP_cons_eq_if_modifyHead, ih]

theorem length_splitAt (isSeparator : α → Bool) (text : List α) :
    (splitAt isSeparator text).length = text.countP isSeparator + 1 := by
  induction text with
  | nil => rfl
  | cons a rest ih =>
    rw [splitAt]
    split
    · rename_i h
      simp [h, ih]
    · rename_i h
      simp [h, ih]

/-- No piece holds a separator. -/
theorem isSeparator_eq_false_of_mem_splitAt {isSeparator : α → Bool} {text piece : List α} {a : α}
    (hpiece : piece ∈ splitAt isSeparator text) (ha : a ∈ piece) : isSeparator a = false := by
  induction text generalizing piece with
  | nil =>
    have : piece = [] := by simpa [splitAt] using hpiece
    simp [this] at ha
  | cons b rest ih =>
    rw [splitAt] at hpiece
    split at hpiece
    · rcases List.mem_cons.1 hpiece with rfl | hpiece
      · simp at ha
      · exact ih hpiece ha
    · rename_i hb
      cases hrest : splitAt isSeparator rest with
      | nil => simp [hrest] at hpiece
      | cons first more =>
        rw [hrest, List.modifyHead_cons, List.mem_cons] at hpiece
        rcases hpiece with rfl | hpiece
        · rcases List.mem_cons.1 ha with rfl | ha
          · simpa using hb
          · exact ih (hrest ▸ List.mem_cons_self) ha
        · exact ih (hrest ▸ List.mem_cons_of_mem _ hpiece) ha

end BuildFacts.Text
