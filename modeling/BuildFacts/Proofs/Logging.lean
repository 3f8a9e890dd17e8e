import BuildFacts.Logging

/-!
# Calls that ask for a log

A process asks for a log in a sequence of calls, each with a filter of its own
or without one.  Once a call has been made, no other one changes anything
(`Logging.run_take`).  So the log is that of the first call, whether or not it
installs one (`Logging.run_cons`).

`Logging.KeepsFilter` says of a sequence that its first filter is the one that
is installed.  `keepsFilter_iff` says when: the first filter must be that of
the first call.
-/

namespace BuildFacts.Logging

/-- A call that asks for a log, with a filter or with the settings of a session. -/
inductive Call where
  | direct (filter : Option String)
  | ofSession (session : Session)

/-- The filter that a call brings. -/
def Call.filter : Call → Option String
  | .direct filter => filter
  | .ofSession session => session.filter

/-- What is settled when a call has been made. -/
def Call.perform (environment : Option String) (logging : Logging) : Call → Logging
  | .direct filter => logging.request environment filter
  | .ofSession session => session.requestLogging environment logging

/-- What is settled when calls have been made, one after the other. -/
def run (environment : Option String) (calls : List Call) : Logging :=
  calls.foldl (Call.perform environment) start

variable {environment : Option String} {logging : Logging} {call : Call} {calls : List Call}
  {index : Nat}

/-! ## Runs -/

theorem perform_eq (call : Call) :
    call.perform environment logging = logging.request environment call.filter := by
  cases call <;> rfl

/-- A call changes nothing where there has been one. -/
theorem perform_of_settled (h : logging.settled = true) (call : Call) :
    call.perform environment logging = logging := by
  rw [perform_eq, request, if_pos h]

theorem settled_settle (environment filter : Option String) :
    (settle environment filter).settled = true := by
  cases filter with
  | some text =>
    rw [settle]
    split <;> rfl
  | none => cases environment <;> rfl

theorem foldl_perform_of_settled (h : logging.settled = true) (calls : List Call) :
    calls.foldl (Call.perform environment) logging = logging := by
  induction calls with
  | nil => rfl
  | cons call calls ih => rw [List.foldl_cons, perform_of_settled h, ih]

/-- The first call settles what the log is. -/
theorem run_cons (call : Call) (calls : List Call) :
    run environment (call :: calls) = settle environment call.filter := by
  have hfirst : call.perform environment start = settle environment call.filter := by
    rw [perform_eq]
    rfl
  rw [run, List.foldl_cons, hfirst, foldl_perform_of_settled (settled_settle _ _)]

/-- Once there has been a call, no other one changes anything. -/
theorem run_take (calls : List Call) {sooner later : Nat} (hsooner : 0 < sooner)
    (hle : sooner ≤ later) :
    run environment (calls.take later) = run environment (calls.take sooner) := by
  obtain ⟨sooner, rfl⟩ := Nat.exists_eq_add_one_of_ne_zero (by omega : sooner ≠ 0)
  obtain ⟨later, rfl⟩ := Nat.exists_eq_add_one_of_ne_zero (by omega : later ≠ 0)
  cases calls with
  | nil => rw [List.take_nil, List.take_nil]
  | cons call calls => rw [List.take_succ_cons, List.take_succ_cons, run_cons, run_cons]

/-! ## Installed logs -/

/-- The call in this place installs a log, in an environment without a filter. -/
def InstallsAt (calls : List Call) (index : Nat) : Prop :=
  (run none (calls.take index)).installed = none ∧
    (run none (calls.take (index + 1))).installed ≠ none

/-- The place of the first call that brings a filter. -/
def firstFilter? (calls : List Call) : Option Nat :=
  calls.findIdx? fun call => call.filter.isSome

theorem installed_settle_none (filter : Option String) :
    (settle none filter).installed = none ↔ filter = none := by
  cases filter with
  | none => simp [settle]
  | some text =>
    rw [settle]
    split <;> simp

/-- A log is installed by the first call or by none. -/
theorem installsAt_iff : InstallsAt calls index ↔ index = 0 ∧ firstFilter? calls = some 0 := by
  cases index with
  | zero =>
    cases calls with
    | nil => simp [InstallsAt, firstFilter?, run, start]
    | cons call calls =>
      have hfirst : firstFilter? (call :: calls) = some 0 ↔ call.filter ≠ none := by
        rw [firstFilter?, List.findIdx?_cons, ← Option.isSome_iff_ne_none]
        cases call.filter.isSome <;> simp
      rw [InstallsAt, List.take_succ_cons, run_cons, ne_eq, installed_settle_none, hfirst]
      exact and_congr_left' (iff_of_true rfl rfl)
  | succ index =>
    have hsame : run none (calls.take (index + 1 + 1)) = run none (calls.take (index + 1)) :=
      run_take calls (Nat.succ_pos index) (Nat.le_succ _)
    simp [InstallsAt, hsame]

theorem InstallsAt.eq {other : Nat} (h : InstallsAt calls index) (hother : InstallsAt calls other) :
    index = other := by
  rw [(installsAt_iff.1 h).1, (installsAt_iff.1 hother).1]

/-- No call behind one that has been made changes the level. -/
theorem level_run_take {later : Nat} (h : index < later) :
    (run environment (calls.take later)).level =
      (run environment (calls.take (index + 1))).level := by
  rw [run_take calls (Nat.succ_pos index) h]

/-- The log of a sequence of calls without a filter in the environment: at most one call installs
one, this is the first call that brings a filter, and no call behind it changes the level. -/
structure KeepsFilter (calls : List Call) : Prop where
  once : ∀ index other, InstallsAt calls index → InstallsAt calls other → index = other
  first : ∀ index, InstallsAt calls index ↔ firstFilter? calls = some index
  keeps : ∀ index, InstallsAt calls index → ∀ later > index,
    (run none (calls.take later)).level = (run none (calls.take (index + 1))).level

/-- The first filter is kept exactly if the first call brings it. -/
theorem keepsFilter_iff : KeepsFilter calls ↔ ∀ index ∈ firstFilter? calls, index = 0 := by
  constructor
  · intro h index hindex
    exact (installsAt_iff.1 ((h.first index).2 hindex)).1
  · intro h
    refine ⟨fun _ _ => InstallsAt.eq, ?_, fun _ _ _ => level_run_take⟩
    intro index
    rw [installsAt_iff]
    constructor
    · rintro ⟨rfl, hfirst⟩
      exact hfirst
    · intro hfirst
      have hzero : index = 0 := h index hfirst
      exact ⟨hzero, hzero ▸ hfirst⟩

/-- A first call without a filter loses the filter of the second one. -/
theorem not_keepsFilter_emptyFirst :
    ¬KeepsFilter [.direct none, .direct (some "debug")] := by
  intro h
  have hinstalls := (h.first 1).2 rfl
  exact absurd (installsAt_iff.1 hinstalls).1 (by decide)

end BuildFacts.Logging
