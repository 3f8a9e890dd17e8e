import Mathlib.Data.List.Forall2

/-!
# Outcomes of steps

A step answers `Except ε α`.  These lemmas take apart a sequence of steps that
ended well: each step of it ended well, and its result went to the next one.

A sequence that failed did so in one of its steps, and the lemmas about `.error` say in
which.

`mapM_eq_ok_iff` is the case of one step for each item of a list.  It gives the
results item by item, as a `List.Forall₂`.  `mapM_eq_error_iff` is about the first
item whose step fails.

`FirstOf` is about several stages at which something can be wrong, each on its own.
-/

namespace BuildFacts

variable {ε α β : Type}

/-- A step and the one after it end well together. -/
theorem bind_eq_ok_iff {first : Except ε α} {next : α → Except ε β} {b : β} :
    first >>= next = .ok b ↔ ∃ a, first = .ok a ∧ next a = .ok b := by
  cases first with
  | error e => simp [bind, Except.bind]
  | ok a => simp [bind, Except.bind]

/-- Applying a function to a result changes nothing about how the step ends. -/
theorem map_eq_ok_iff {f : α → β} {step : Except ε α} {b : β} :
    f <$> step = .ok b ↔ ∃ a, step = .ok a ∧ f a = b := by
  cases step with
  | error e => simp [Functor.map, Except.map]
  | ok a => simp [Functor.map, Except.map]

theorem exists_map_eq_ok_iff {f : α → β} {step : Except ε α} :
    (∃ b, f <$> step = .ok b) ↔ ∃ a, step = .ok a := by
  cases step with
  | error e => simp [Functor.map, Except.map]
  | ok a => simp [Functor.map, Except.map]

theorem mapError_eq_ok_iff {ε' : Type} {f : ε → ε'} {step : Except ε α} {a : α} :
    step.mapError f = .ok a ↔ step = .ok a := by
  cases step with
  | error e => simp [Except.mapError]
  | ok b => simp [Except.mapError]

/-- A step and the one after it fail in the first or in the second. -/
theorem bind_eq_error_iff {first : Except ε α} {next : α → Except ε β} {error : ε} :
    first >>= next = .error error ↔
      first = .error error ∨ ∃ a, first = .ok a ∧ next a = .error error := by
  cases first with
  | error e => simp [bind, Except.bind]
  | ok a => simp [bind, Except.bind]

/-- A step ends well if it does not fail. -/
theorem exists_eq_ok_iff {step : Except ε α} :
    (∃ a, step = .ok a) ↔ ∀ error, step ≠ .error error := by
  cases step <;> simp

theorem map_toOption_eq_some_iff {f : α → β} {step : Except ε α} {b : β} :
    step.toOption.map f = some b ↔ ∃ a, step = .ok a ∧ f a = b := by
  cases step <;> simp [Except.toOption]

theorem map_eq_error_iff {f : α → β} {step : Except ε α} {error : ε} :
    f <$> step = .error error ↔ step = .error error := by
  cases step with
  | error e => simp [Functor.map, Except.map]
  | ok a => simp [Functor.map, Except.map]

theorem mapError_eq_error_iff {ε' : Type} {f : ε → ε'} {step : Except ε α} {error : ε'} :
    step.mapError f = .error error ↔ ∃ cause, step = .error cause ∧ f cause = error := by
  cases step with
  | error e => simp [Except.mapError]
  | ok a => simp [Except.mapError]

/-- One step for each item of a list ends well when each of them does. -/
theorem mapM_eq_ok_iff {f : α → Except ε β} {items : List α} {results : List β} :
    items.mapM f = .ok results ↔ List.Forall₂ (fun a b => f a = .ok b) items results := by
  induction items generalizing results with
  | nil =>
    rw [List.mapM_nil, List.forall₂_nil_left_iff]
    exact ⟨fun h => (Except.ok.inj h).symm, fun h => h ▸ rfl⟩
  | cons item rest ih =>
    rw [List.mapM_cons, bind_eq_ok_iff, List.forall₂_cons_left_iff]
    constructor
    · intro ⟨b, hb, h⟩
      obtain ⟨bs, hbs, hresults⟩ := bind_eq_ok_iff.1 h
      exact ⟨b, bs, hb, ih.1 hbs, (Except.ok.inj hresults).symm⟩
    · rintro ⟨b, bs, hb, hbs, rfl⟩
      exact ⟨b, hb, bind_eq_ok_iff.2 ⟨bs, ih.2 hbs, rfl⟩⟩

/-- A list has a list of partners exactly if each of its items has a partner. -/
theorem exists_forall₂_iff {R : α → β → Prop} {items : List α} :
    (∃ results, List.Forall₂ R items results) ↔ ∀ a ∈ items, ∃ b, R a b := by
  induction items with
  | nil => simp
  | cons item rest ih =>
    rw [List.forall_mem_cons, ← ih]
    simp only [List.forall₂_cons_left_iff]
    constructor
    · intro ⟨_, b, bs, hb, hbs, _⟩
      exact ⟨⟨b, hb⟩, bs, hbs⟩
    · intro ⟨⟨b, hb⟩, bs, hbs⟩
      exact ⟨_, b, bs, hb, hbs, rfl⟩

/-- One step for each item of a list fails where the first of them fails. -/
theorem mapM_eq_error_iff {f : α → Except ε β} {items : List α} {error : ε} :
    items.mapM f = .error error ↔
      ∃ before item after, items = before ++ item :: after ∧
        (∀ a ∈ before, ∃ b, f a = .ok b) ∧ f item = .error error := by
  induction items with
  | nil => simp [pure, Except.pure]
  | cons first rest ih =>
    rw [List.mapM_cons]
    cases hfirst : f first with
    | error e =>
      constructor
      · intro h
        obtain rfl : e = error := Except.error.inj h
        exact ⟨[], first, rest, rfl, by simp, hfirst⟩
      · intro ⟨before, item, after, hitems, hbefore, hitem⟩
        cases before with
        | nil =>
          simp only [List.nil_append, List.cons.injEq] at hitems
          rw [← hitems.1, hfirst] at hitem
          obtain rfl := Except.error.inj hitem
          rfl
        | cons a before =>
          simp only [List.cons_append, List.cons.injEq] at hitems
          obtain ⟨b, hb⟩ := hbefore a List.mem_cons_self
          rw [← hitems.1, hfirst] at hb
          simp at hb
    | ok b =>
      have hrest : ((Except.ok b >>= fun b => do
          let bs ← rest.mapM f
          pure (b :: bs)) = Except.error error) ↔ rest.mapM f = .error error := by
        cases rest.mapM f with
        | error e => simp [bind, Except.bind]
        | ok bs => simp [bind, Except.bind, pure, Except.pure]
      rw [hrest, ih]
      constructor
      · rintro ⟨before, item, after, rfl, hbefore, hitem⟩
        refine ⟨first :: before, item, after, rfl, ?_, hitem⟩
        intro a ha
        rcases List.mem_cons.1 ha with rfl | ha
        · exact ⟨b, hfirst⟩
        · exact hbefore a ha
      · intro ⟨before, item, after, hitems, hbefore, hitem⟩
        cases before with
        | nil =>
          simp only [List.nil_append, List.cons.injEq] at hitems
          rw [← hitems.1, hfirst] at hitem
          simp at hitem
        | cons a before =>
          simp only [List.cons_append, List.cons.injEq] at hitems
          exact ⟨before, item, after, hitems.2,
            fun a' ha' => hbefore a' (List.mem_cons_of_mem _ ha'), hitem⟩

/-! ## The first of several -/

section FirstOf

variable {ι ε : Type} {T : ι → ε → Prop} {first : ι} {rest : List ι} {error : ε}

/-- The error of the first of several stages at which there is one. -/
def FirstOf (T : ι → ε → Prop) (stages : List ι) (error : ε) : Prop :=
  ∃ before stage after, stages = before ++ stage :: after ∧
    (∀ earlier ∈ before, ∀ other, ¬T earlier other) ∧ T stage error

@[simp] theorem firstOf_nil : ¬FirstOf T [] error := by
  rintro ⟨before, stage, after, hstages, _⟩
  simp at hstages

@[simp] theorem firstOf_cons_iff :
    FirstOf T (first :: rest) error ↔
      T first error ∨ (∀ other, ¬T first other) ∧ FirstOf T rest error := by
  constructor
  · rintro ⟨before, stage, after, hstages, hbefore, hstage⟩
    cases before with
    | nil =>
      obtain ⟨rfl, rfl⟩ := List.cons.inj hstages
      exact .inl hstage
    | cons earlier before =>
      obtain ⟨rfl, rfl⟩ := List.cons.inj hstages
      obtain ⟨hfirst, hbefore⟩ := List.forall_mem_cons.1 hbefore
      exact .inr ⟨hfirst, before, stage, after, rfl, hbefore, hstage⟩
  · rintro (hfirst | ⟨hfirst, before, stage, after, rfl, hbefore, hstage⟩)
    · exact ⟨[], first, rest, rfl, by simp, hfirst⟩
    · exact ⟨first :: before, stage, after, rfl, List.forall_mem_cons.2 ⟨hfirst, hbefore⟩, hstage⟩

theorem firstOf_append_iff {stages : List ι} :
    FirstOf T (stages ++ rest) error ↔ FirstOf T stages error ∨
      (∀ stage ∈ stages, ∀ other, ¬T stage other) ∧ FirstOf T rest error := by
  induction stages with
  | nil => simp
  | cons stage stages ih =>
    rw [List.cons_append, firstOf_cons_iff, firstOf_cons_iff, ih, List.forall_mem_cons]
    tauto

/-- There is a first error if there is an error at all. -/
theorem exists_firstOf_iff {stages : List ι} :
    (∃ error, FirstOf T stages error) ↔ ∃ stage ∈ stages, ∃ error, T stage error := by
  induction stages with
  | nil => simp
  | cons stage stages ih =>
    simp only [firstOf_cons_iff, exists_or, exists_and_left, ih, List.exists_mem_cons_iff]
    by_cases hstage : ∃ error, T stage error
    · simp [hstage]
    · simp [not_exists.1 hstage]

theorem not_firstOf_iff {stages : List ι} :
    (∀ error, ¬FirstOf T stages error) ↔ ∀ stage ∈ stages, ∀ error, ¬T stage error := by
  rw [← not_exists, exists_firstOf_iff]
  push Not
  rfl

theorem FirstOf.exists_mem {stages : List ι} (h : FirstOf T stages error) :
    ∃ stage ∈ stages, T stage error := by
  obtain ⟨before, stage, after, rfl, _, hstage⟩ := h
  exact ⟨stage, by simp, hstage⟩

/-- Stages that match one by one have the same first error. -/
theorem firstOf_iff_of_forall₂ {κ : Type} {T' : κ → ε → Prop} {stages : List ι} {others : List κ}
    (h : List.Forall₂ (fun stage other => ∀ error, T stage error ↔ T' other error) stages others) :
    FirstOf T stages error ↔ FirstOf T' others error := by
  induction h with
  | nil => exact iff_of_false firstOf_nil firstOf_nil
  | cons hfirst _ ih => simp only [firstOf_cons_iff, hfirst, ih]

/-- The first error of stages that have stages of their own. -/
theorem firstOf_flatMap_iff {κ : Type} {stages : κ → List ι} {items : List κ} :
    FirstOf T (items.flatMap stages) error ↔
      FirstOf (fun item => FirstOf T (stages item)) items error := by
  induction items with
  | nil => simp
  | cons item items ih =>
    rw [List.flatMap_cons, firstOf_append_iff, firstOf_cons_iff, not_firstOf_iff, ih]

/-- One step for each item of a list fails with the first of their errors. -/
theorem mapM_eq_error_iff_firstOf {f : α → Except ε β} {items : List α} :
    items.mapM f = .error error ↔ FirstOf (fun a error => f a = .error error) items error := by
  simp only [mapM_eq_error_iff, FirstOf, exists_eq_ok_iff, ne_eq]

end FirstOf

end BuildFacts
