import Mathlib.Data.Nat.Digits.Defs
import BuildFacts.Json.Number

/-!
# Decimal digits

The digits that `Nat.toDigits` writes are read back one by one: `digit?` gives the value of each
(`digit?_eq_some_iff`), and together they are the number (`foldlM_digit?_toDigits`).  Only the
number zero starts with a zero (`head?_toDigits_ne_zero`).
-/

namespace BuildFacts.Json

theorem digit?_eq_some_iff {c : Char} {d : Nat} :
    digit? c = some d ↔ d < 10 ∧ c = d.digitChar := by
  have hrange (c : Char) : ('0' ≤ c ∧ c ≤ '9') ↔ 48 ≤ c.toNat ∧ c.toNat ≤ 57 := Iff.rfl
  have hzero : '0'.toNat = 48 := rfl
  unfold digit?
  simp only [hrange, hzero, Option.ite_none_right_eq_some, Option.some.injEq]
  constructor
  · rintro ⟨⟨hlow, hhigh⟩, rfl⟩
    refine ⟨by omega, Char.toNat_inj.1 ?_⟩
    rw [Nat.toNat_digitChar_of_lt_ten (by omega)]
    omega
  · rintro ⟨hd, rfl⟩
    rw [Nat.toNat_digitChar_of_lt_ten hd]
    omega

theorem digit?_digitChar {d : Nat} (hd : d < 10) : digit? d.digitChar = some d :=
  digit?_eq_some_iff.2 ⟨hd, rfl⟩

/-- The digits of a number are read as the number. -/
theorem foldlM_digit?_toDigits (n : Nat) :
    (Nat.toDigits 10 n).foldlM (fun m c => (digit? c).map (m * 10 + ·)) 0 = some n := by
  -- By the number without its last digit.
  induction n using Nat.strongRecOn with
  | ind n ih =>
    rw [Nat.toDigits_eq_if (by decide)]
    split
    · rename_i hn
      simp [digit?_digitChar hn]
    · rename_i hn
      rw [List.foldlM_append, ih (n / 10) (by omega)]
      simp only [Option.bind_eq_bind, Option.bind_some, List.foldlM_cons, List.foldlM_nil,
        digit?_digitChar (Nat.mod_lt n (by decide)), Option.map_some, Option.pure_def]
      exact congrArg some (Nat.div_add_mod' n 10)

/-- The digits of a number that is not zero do not start with a zero. -/
theorem head?_toDigits_ne_zero {n : Nat} (hn : 0 < n) :
    (Nat.toDigits 10 n).head? ≠ some '0' := by
  induction n using Nat.strongRecOn with
  | ind n ih =>
    rw [Nat.toDigits_eq_if (by decide)]
    split
    · rename_i hlt
      rw [List.head?_singleton, ne_eq, Option.some.injEq]
      intro hzero
      have hdigit := digit?_digitChar hlt
      rw [hzero, show digit? '0' = some 0 from rfl, Option.some.injEq] at hdigit
      omega
    · rename_i hge
      have hrest := ih (n / 10) (by omega) (by omega)
      cases hdigits : Nat.toDigits 10 (n / 10) with
      | nil => exact absurd hdigits Nat.toDigits_ne_nil
      | cons c digits =>
        rw [hdigits] at hrest
        exact hrest

end BuildFacts.Json
