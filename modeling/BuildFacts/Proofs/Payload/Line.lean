import Mathlib.Tactic.IntervalCases
import BuildFacts.Payload
import BuildFacts.Proofs.Json.Digits

/-!
# The lines of a backtrace

A line is an integer in range, or a text that writes one: `Frame.WritesLine` are the digits of
the line with or without a plus before them, and `Frame.IsLine` are the values that are lines.

`Frame.lineOfValue_eq_ok_iff` says that these are the values a line is taken from.  Digits are
taken one by one and each of them must keep the number in range; because the number never gets
smaller on the way, this asks no more than that the whole number is in range.
-/

namespace BuildFacts

open Json

namespace Frame

/-- A text is one or more decimal digits, and the number is the one that they write. -/
def WritesNumber (text : List Char) (n : Nat) : Prop :=
  ∃ digits : List Nat, digits ≠ [] ∧ (∀ d ∈ digits, d < 10) ∧
    text = digits.map Nat.digitChar ∧ n = Nat.ofDigits 10 digits.reverse

/-- A text writes a line: a number in range, with or without a plus before it. -/
def WritesLine (text : List Char) (n : Nat) : Prop :=
  n ≤ maxLine ∧ ∃ digits, (text = digits ∨ text = '+' :: digits) ∧ WritesNumber digits n

/-- A value is a line: an integer in range, or a text that writes a line between blanks. -/
inductive IsLine : Value → Nat → Prop where
  | integer {n : Nat} (h : n ≤ maxLine) : IsLine (.number (.integer n)) n
  | text {text : String} {n : Nat} (h : WritesLine (Text.trim text.toList) n) :
      IsLine (.string text) n

/-- A number or a text that is no line: a number that is not an integer in range, or a text that
writes no line between blanks. -/
inductive NotLine : Value → Prop where
  | number {number : Number} (h : ∀ n : Nat, n ≤ maxLine → number ≠ .integer n) :
      NotLine (.number number)
  | text {text : String} (h : ∀ n, ¬WritesLine (Text.trim text.toList) n) :
      NotLine (.string text)

theorem notLine_iff {value : Value} (hkind : value.kind = .number ∨ value.kind = .string) :
    NotLine value ↔ ¬∃ n, IsLine value n := by
  constructor
  · rintro hnot ⟨n, hline⟩
    cases hline with
    | integer hmax =>
      cases hnot with
      | number h => exact h n hmax rfl
    | text hwrites =>
      cases hnot with
      | text h => exact h n hwrites
  · intro hnone
    cases value with
    | number number => exact .number fun n hmax heq => hnone ⟨n, heq ▸ .integer hmax⟩
    | string text => exact .text fun n hwrites => hnone ⟨n, .text hwrites⟩
    | _ => simp [Value.kind] at hkind

/-! ## Digits -/

/-- Digits behind a number in range are taken exactly if the number stays in range. -/
theorem appendDigits_eq_ok_iff {n m : Nat} (hn : n ≤ maxLine) {text : List Char} :
    appendDigits n text = .ok m ↔
      ∃ digits : List Nat, (∀ d ∈ digits, d < 10) ∧ text = digits.map Nat.digitChar ∧
        m = n * 10 ^ digits.length + Nat.ofDigits 10 digits.reverse ∧ m ≤ maxLine := by
  induction text generalizing n with
  | nil =>
    simp only [appendDigits, Except.ok.injEq, List.nil_eq, List.map_eq_nil_iff]
    constructor
    · rintro rfl
      exact ⟨[], by simp, rfl, by simp, hn⟩
    · rintro ⟨_, _, rfl, rfl, _⟩
      simp
  | cons c text ih =>
    have hvalue (d : Nat) (digits : List Nat) : n * 10 ^ (d :: digits).length +
        Nat.ofDigits 10 (d :: digits).reverse =
          (n * 10 + d) * 10 ^ digits.length + Nat.ofDigits 10 digits.reverse := by
      rw [Nat.ofDigits_reverse_cons, List.length_cons]
      ring
    rw [appendDigits]
    constructor
    · intro h
      split at h
      · simp at h
      · rename_i d hdigit
        obtain ⟨hd, rfl⟩ := digit?_eq_some_iff.1 hdigit
        split at h
        · rename_i hle
          obtain ⟨digits, hdigits, rfl, hm, hmax⟩ := (ih hle).1 h
          exact ⟨d :: digits, List.forall_mem_cons.2 ⟨hd, hdigits⟩, rfl, hvalue d digits ▸ hm, hmax⟩
        · simp at h
    · rintro ⟨digits, hdigits, htext, hm, hmax⟩
      cases digits with
      | nil => simp at htext
      | cons d digits =>
        rw [List.map_cons, List.cons.injEq] at htext
        obtain ⟨hd, hdigits⟩ := List.forall_mem_cons.1 hdigits
        rw [hvalue] at hm
        -- The digits to come do not make the number smaller, so it is in range already.
        have hle : n * 10 + d ≤ maxLine := by
          have hpos : 0 < 10 ^ digits.length := Nat.pow_pos (by decide)
          have hgrows := Nat.le_mul_of_pos_right (n * 10 + d) hpos
          omega
        rw [digit?_eq_some_iff.2 ⟨hd, htext.1⟩]
        simp only [hle, if_true]
        exact (ih hle).2 ⟨digits, hdigits, htext.2, hm, hmax⟩

theorem appendDigits_zero_eq_ok_iff {text : List Char} {n : Nat} (htext : text ≠ []) :
    appendDigits 0 text = .ok n ↔ WritesNumber text n ∧ n ≤ maxLine := by
  rw [appendDigits_eq_ok_iff (Nat.zero_le _)]
  constructor
  · rintro ⟨digits, hdigits, rfl, hn, hmax⟩
    exact ⟨⟨digits, by simpa using htext, hdigits, rfl, by simpa using hn⟩, hmax⟩
  · rintro ⟨⟨digits, _, hdigits, rfl, hn⟩, hmax⟩
    exact ⟨digits, hdigits, rfl, by simpa using hn, hmax⟩

/-- Digits have no plus before them. -/
theorem WritesNumber.unsigned_eq {text : List Char} {n : Nat} (h : WritesNumber text n) :
    text ≠ [] ∧ unsigned text = text := by
  obtain ⟨digits, hne, hdigits, rfl, _⟩ := h
  cases digits with
  | nil => exact absurd rfl hne
  | cons d digits =>
    have hd := digit?_eq_some_iff.2 ⟨hdigits d List.mem_cons_self, rfl⟩
    refine ⟨by simp, ?_⟩
    rw [List.map_cons, unsigned]
    rintro _ heq
    rw [(List.cons.inj heq).1] at hd
    exact nomatch hd

theorem lineOfText_eq_ok_iff {text : String} {n : Nat} :
    lineOfText text = .ok n ↔ WritesLine (Text.trim text.toList) n := by
  unfold lineOfText WritesLine
  generalize Text.trim text.toList = trimmed
  dsimp only
  constructor
  · intro h
    split at h
    · simp at h
    · split at h
      · simp at h
      · rename_i hdigits
        obtain ⟨hnumber, hmax⟩ := (appendDigits_zero_eq_ok_iff (by simpa using hdigits)).1 h
        refine ⟨hmax, unsigned trimmed, ?_, hnumber⟩
        unfold unsigned
        split
        · exact .inr rfl
        · exact .inl rfl
  · rintro ⟨hmax, digits, htext, hnumber⟩
    obtain ⟨hne, hunsigned⟩ := hnumber.unsigned_eq
    have htaken : unsigned trimmed = digits := by
      rcases htext with rfl | rfl
      · exact hunsigned
      · rfl
    have htrimmed : trimmed ≠ [] := by
      rcases htext with rfl | rfl
      · exact hne
      · simp
    simp only [htaken, List.isEmpty_iff, htrimmed, hne, if_false]
    exact (appendDigits_zero_eq_ok_iff hne).2 ⟨hnumber, hmax⟩

/-- A line is taken from the values that are lines, and from no others. -/
theorem lineOfValue_eq_ok_iff {value : Value} {n : Nat} :
    lineOfValue value = .ok n ↔ IsLine value n := by
  constructor
  · intro h
    unfold lineOfValue at h
    split at h
    · rename_i i
      split at h
      · rename_i hrange
        obtain rfl := Except.ok.inj h
        obtain ⟨n, rfl⟩ := Int.eq_ofNat_of_zero_le hrange.1
        exact .integer (by exact_mod_cast hrange.2)
      · simp at h
    · exact .text (lineOfText_eq_ok_iff.1 h)
    · simp at h
  · intro h
    cases h with
    | integer h =>
      have hrange : (0 : Int) ≤ n ∧ (n : Int) ≤ maxLine := ⟨by omega, by exact_mod_cast h⟩
      rw [lineOfValue, if_pos hrange]
      rfl
    | text h => exact lineOfText_eq_ok_iff.2 h

end Frame

end BuildFacts
