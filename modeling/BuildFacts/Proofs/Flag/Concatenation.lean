import Mathlib.Algebra.Ring.Parity
import Mathlib.Data.List.DropRight
import BuildFacts.Proofs.Flag.OneReading

/-!
# Flags in two lists of arguments

A scan for flags can be cut anywhere: behind the first list of arguments it goes on with nothing
but the answer to whether a flag waits for its value there.  `waits_eq_true_iff_odd` gives this
answer without a scan.  What stands at the end of the list are flags alone, and every second of
them is the value of the one before it, whatever stands before them.

`values_concatenated` is the result for the flags of both kinds.
-/

namespace BuildFacts.Flag

variable {flags : List String}

/-! ## Flags alone -/

/-- Where no flag starts with an earlier one, the flags are the arguments that are flags alone. -/
theorem isBare_read_iff (h : flags.Pairwise fun earlier later => ¬earlier.toList <+: later.toList)
    (argument : String) : (read flags argument).isBare = true ↔ argument ∈ flags := by
  induction h with
  | nil => simp [read, Reading.isBare]
  | @cons flag rest hrest _ ih =>
    rw [read, List.mem_cons]
    by_cases hflag : argument = flag
    · simp [hflag, Reading.isBare]
    · rw [if_neg hflag, or_iff_right hflag]
      cases hstrip : strip? flag.toList argument.toList with
      | none => exact ih
      | some text =>
        have hstarts : flag.toList <+: argument.toList := ⟨text, (strip?_eq_some_iff.1 hstrip).symm⟩
        simp only [Reading.isBare, Bool.false_eq_true, false_iff]
        exact fun hmem => hrest argument hmem hstarts

theorem Kind.isBare_read_iff (kind : Kind) (argument : String) :
    (read kind.flags argument).isBare = true ↔ argument ∈ kind.flags :=
  Flag.isBare_read_iff (by cases kind <;> decide) argument

/-! ## The state at the end of a list -/

/-- Behind one more argument a flag waits if none waited before it and the argument is a flag
alone. -/
theorem waits_concat (flags arguments : List String) (argument : String) :
    waits flags false (arguments ++ [argument]) =
      (!waits flags false arguments && (read flags argument).isBare) := by
  rw [waits_append]
  cases waits flags false arguments <;> rfl

/-- A flag waits behind arguments exactly if they end in an odd number of flags alone. -/
theorem waits_eq_true_iff_odd (flags arguments : List String) :
    waits flags false arguments = true ↔
      Odd (arguments.rtakeWhile fun argument => (read flags argument).isBare).length := by
  -- An argument that is no flag alone leaves nothing waiting behind it, and starts a new count.
  induction arguments using List.reverseRecOn with
  | nil => simp [waits]
  | append_singleton arguments argument ih =>
    rw [waits_concat, List.rtakeWhile_concat]
    cases (read flags argument).isBare with
    | false => simp
    | true =>
      rw [if_pos rfl, List.length_append, List.length_singleton, Nat.odd_add_one, ← ih]
      simp

/-! ## Two lists -/

/-- The values in the second list are those of the scan that goes on there. -/
theorem values_append_eq (flags first second : List String) :
    values flags (first ++ second) = values flags first ++
      (reported flags (waits flags false first) second).reduceOption := by
  rw [values_eq_reduceOption, reported_append, List.reduceOption_append,
    ← values_eq_reduceOption flags first]

/-- The values of the flags of a kind in two lists of arguments.

* A flag waits behind the first list if an odd number of flags alone stand at its end.
* If none waits, the two lists are scanned each for itself.
* If one waits, it takes the first argument of the second list, and only the others are scanned.
  If there is no such argument, it has no value. -/
theorem values_concatenated (kind : Kind) (first second : List String) :
    (waits kind.flags false first = true ↔
      Odd (first.rtakeWhile fun argument => decide (argument ∈ kind.flags)).length) ∧
    (waits kind.flags false first = false →
      values kind.flags (first ++ second) = values kind.flags first ++ values kind.flags second) ∧
    (waits kind.flags false first = true →
      (second = [] → values kind.flags (first ++ second) = values kind.flags first) ∧
      ∀ value rest, second = value :: rest → values kind.flags (first ++ second) =
        values kind.flags first ++ [value] ++ values kind.flags rest) := by
  have hbare : (fun argument => (read kind.flags argument).isBare) =
      fun argument => decide (argument ∈ kind.flags) := by
    funext argument
    rw [Bool.eq_iff_iff, kind.isBare_read_iff, decide_eq_true_iff]
  refine ⟨by rw [waits_eq_true_iff_odd, hbare], fun hsettled => ?_, fun hwaits => ⟨?_, ?_⟩⟩
  · rw [values_append_eq, hsettled, ← values_eq_reduceOption]
  · rintro rfl
    rw [List.append_nil]
  · rintro value rest rfl
    rw [values_append_eq, hwaits, reported, List.reduceOption_cons_of_some,
      ← values_eq_reduceOption, List.append_assoc, List.singleton_append]

/-- Three flags alone, of which the second is the value of the first, and two, of which the second
is a value as well. -/
theorem values_concatenated_runs :
    values definitionFlags (["cc", "-D", "-D", "-D"] ++ ["-DX", "-DY"]) = ["-D", "-DX", "Y"] ∧
    values includeFlags (["-isystem", "-I"] ++ ["-Ia"]) = ["-I", "a"] ∧
    values includeFlags (["-Ia", "-isystem"] ++ []) = ["a"] := by
  obtain ⟨-, -, hodd⟩ :=
    values_concatenated .definition ["cc", "-D", "-D", "-D"] ["-DX", "-DY"]
  obtain ⟨-, heven, -⟩ := values_concatenated .includeDirectory ["-isystem", "-I"] ["-Ia"]
  obtain ⟨-, -, hend⟩ := values_concatenated .includeDirectory ["-Ia", "-isystem"] []
  refine ⟨?_, ?_, ?_⟩
  · exact ((hodd (by decide)).2 "-DX" ["-DY"] rfl).trans (by decide)
  · exact (heven (by decide)).trans (by decide)
  · exact ((hend (by decide)).1 rfl).trans (by decide)

end BuildFacts.Flag
