import Mathlib.Data.List.Perm.Basic
import BuildFacts.Proofs.Outcome

/-!
# Two runs that end alike

`EndAlike E R` compares two runs.  Both end well, and their results are related by `R`; or both
fail, and their errors are related by `E`.

The lemmas go through the ways to make a run: one run after another, a function applied to the
result, one run for each item of a list.  Items may be taken in another order; then the two runs
may fail for different reasons, and the results come in another order (`mapM_perm`).

Data that may be absent are compared by the library's `Option.Rel`: both are absent, or both are
there and related (`rel_iff`).
-/

namespace BuildFacts

variable {ε α β γ δ : Type}

/-! ## Data that may be absent -/

theorem rel_iff {R : α → β → Prop} {first : Option α} {second : Option β} :
    Option.Rel R first second ↔
      first = none ∧ second = none ∨ ∃ a b, first = some a ∧ second = some b ∧ R a b := by
  constructor
  · intro h
    cases h with
    | none => exact .inl ⟨rfl, rfl⟩
    | some h => exact .inr ⟨_, _, rfl, rfl, h⟩
  · rintro (⟨rfl, rfl⟩ | ⟨a, b, rfl, rfl, h⟩)
    · exact .none
    · exact .some h

theorem rel_bind {R : α → β → Prop} {S : γ → δ → Prop} {first : Option α} {second : Option β}
    {next : α → Option γ} {next' : β → Option δ} (h : Option.Rel R first second)
    (hnext : ∀ a b, R a b → Option.Rel S (next a) (next' b)) :
    Option.Rel S (first.bind next) (second.bind next') := by
  cases h with
  | none => exact .none
  | some h => exact hnext _ _ h

/-! ## Runs -/

/-- Two runs end both well, with related results, or both badly, with related errors. -/
inductive EndAlike (E : ε → ε → Prop) (R : α → β → Prop) : Except ε α → Except ε β → Prop where
  | ok {a : α} {b : β} (h : R a b) : EndAlike E R (.ok a) (.ok b)
  | error {e e' : ε} (h : E e e') : EndAlike E R (.error e) (.error e')

/-- Two runs end both well, with related results, or both badly, for whatever reasons. -/
abbrev BothEnd (R : α → β → Prop) : Except ε α → Except ε β → Prop :=
  EndAlike (fun _ _ => True) R

namespace EndAlike

variable {E : ε → ε → Prop} {R : α → β → Prop} {S : γ → δ → Prop}

theorem refl {Q : α → α → Prop} (hE : ∀ e, E e e) (hQ : ∀ a, Q a a) (run : Except ε α) :
    EndAlike E Q run run := by
  cases run with
  | ok a => exact .ok (hQ a)
  | error e => exact .error (hE e)

theorem same (run : Except ε α) : BothEnd Eq run run :=
  .refl (fun _ => trivial) (fun _ => rfl) run

theorem imp {R' : α → β → Prop} (himp : ∀ a b, R a b → R' a b) {first : Except ε α}
    {second : Except ε β} (h : EndAlike E R first second) : EndAlike E R' first second := by
  cases h with
  | ok h => exact .ok (himp _ _ h)
  | error h => exact .error h

/-- What is known of the results of two runs relates them further. -/
theorem imp_ok {R' : α → β → Prop} {first : Except ε α} {second : Except ε β}
    (h : EndAlike E R first second)
    (himp : ∀ a b, first = .ok a → second = .ok b → R a b → R' a b) :
    EndAlike E R' first second := by
  cases h with
  | ok h => exact .ok (himp _ _ rfl rfl h)
  | error h => exact .error h

/-- What is known of the errors of two runs relates them further. -/
theorem imp_error {E' : ε → ε → Prop} {first : Except ε α} {second : Except ε β}
    (h : EndAlike E R first second)
    (himp : ∀ e e', first = .error e → second = .error e' → E e e' → E' e e') :
    EndAlike E' R first second := by
  cases h with
  | ok h => exact .ok h
  | error h => exact .error (himp _ _ rfl rfl h)

theorem mapError {ε' : Type} {E' : ε' → ε' → Prop} {f : ε → ε'} {first : Except ε α}
    {second : Except ε β} (h : EndAlike E R first second)
    (hmap : ∀ e e', E e e' → E' (f e) (f e')) :
    EndAlike E' R (first.mapError f) (second.mapError f) := by
  cases h with
  | ok h => exact .ok h
  | error h => exact .error (hmap _ _ h)

/-- Runs that end well with the same results end alike. -/
theorem of_eq_ok_iff {first second : Except ε α}
    (h : ∀ a, first = .ok a ↔ second = .ok a) : BothEnd Eq first second := by
  cases first with
  | ok a =>
    rw [(h a).1 rfl]
    exact .ok rfl
  | error e =>
    cases second with
    | ok a => exact nomatch (h a).2 rfl
    | error _ => exact .error trivial

/-- A run that ends like a second one, and this one like a third. -/
theorem trans {T : β → γ → Prop} {Q : α → γ → Prop} (hQ : ∀ a b c, R a b → T b c → Q a c)
    {first : Except ε α} {second : Except ε β} {third : Except ε γ} (h : BothEnd R first second)
    (h' : BothEnd T second third) : BothEnd Q first third := by
  cases first with
  | ok a =>
    cases h with
    | ok h =>
      cases h' with
      | ok h' => exact .ok (hQ _ _ _ h h')
  | error e =>
    cases h with
    | error _ =>
      cases h' with
      | error _ => exact .error trivial

theorem bind {first : Except ε α} {second : Except ε β} {next : α → Except ε γ}
    {next' : β → Except ε δ} (h : EndAlike E R first second)
    (hnext : ∀ a b, R a b → EndAlike E S (next a) (next' b)) :
    EndAlike E S (first >>= next) (second >>= next') := by
  cases h with
  | ok h => exact hnext _ _ h
  | error h => exact .error h

/-- Functions applied to the results, which are those of the two runs. -/
theorem map_ok {f : α → γ} {g : β → δ} {first : Except ε α} {second : Except ε β}
    (h : EndAlike E R first second)
    (hmap : ∀ a b, first = .ok a → second = .ok b → R a b → S (f a) (g b)) :
    EndAlike E S (f <$> first) (g <$> second) := by
  cases h with
  | ok h => exact .ok (hmap _ _ rfl rfl h)
  | error h => exact .error h

theorem map {f : α → γ} {g : β → δ} {first : Except ε α} {second : Except ε β}
    (h : EndAlike E R first second) (hmap : ∀ a b, R a b → S (f a) (g b)) :
    EndAlike E S (f <$> first) (g <$> second) :=
  h.map_ok fun a b _ _ => hmap a b

/-- Runs for the items of two lists, where the items at one place are related. -/
theorem mapM {V : α → β → Prop} {f : α → Except ε γ} {g : β → Except ε δ} {as : List α}
    {bs : List β} (h : List.Forall₂ V as bs) (hstep : ∀ a b, V a b → EndAlike E S (f a) (g b)) :
    EndAlike E (List.Forall₂ S) (as.mapM f) (bs.mapM g) := by
  induction h with
  | nil => exact .ok .nil
  | @cons a b as bs hab _ ih =>
    rw [List.mapM_cons, List.mapM_cons]
    exact (hstep a b hab).bind fun c d hcd => ih.bind fun cs ds hcds => .ok (.cons hcd hcds)

/-- Runs for the items of a list, and for the same items in another order. -/
theorem mapM_perm {f : α → Except ε β} {as bs : List α} (h : as.Perm bs) :
    BothEnd List.Perm (as.mapM f) (bs.mapM f) := by
  induction h with
  | nil => exact .ok .nil
  | cons a _ ih =>
    rw [List.mapM_cons, List.mapM_cons]
    cases f a with
    | error _ => exact .error trivial
    | ok b => exact ih.bind fun bs bs' h => .ok (h.cons b)
  | swap a b rest =>
    simp only [List.mapM_cons]
    -- Either run fails in the first of the two steps that it comes to.
    cases f a with
    | error _ => cases f b <;> exact .error trivial
    | ok a' =>
      cases f b with
      | error _ => exact .error trivial
      | ok b' =>
        cases rest.mapM f with
        | error _ => exact .error trivial
        | ok bs => exact .ok (.swap a' b' bs)
  | trans _ _ ih ih' =>
    exact EndAlike.trans (fun _ _ _ hfirst hsecond => hfirst.trans hsecond) ih ih'

end EndAlike

end BuildFacts
