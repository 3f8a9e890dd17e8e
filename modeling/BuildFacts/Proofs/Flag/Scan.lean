import BuildFacts.CompileCommand
import Mathlib.Data.List.ReduceOption

/-!
# Flags along a list of arguments

`Flag.values` goes through arguments one or two at a time.  `Flag.reported` is
the same scan one argument at a time, with an answer for each: the value that is
reported where it stands, if one is.  What the scan carries along is whether a
flag waits for its value.

`Flag.waits` is what it carries at the end, so a scan can be taken apart
anywhere (`reported_append`).
-/

namespace BuildFacts.Flag

variable {flags : List String} {flag argument : String}

/-! ## One argument -/

theorem strip?_eq_some_iff {start text rest : List Char} :
    strip? start text = some rest ↔ text = start ++ rest := by
  fun_induction strip? start text with
  | case1 text => exact Option.some_inj
  | case2 a start => simp
  | case3 start text c ih => simp [ih]
  | case4 a start c text hne => simp [Ne.symm hne]

/-- An argument is nothing to flags exactly if it starts with none of them. -/
theorem read_eq_other_iff :
    read flags argument = .other ↔ ∀ flag ∈ flags, ¬flag.toList <+: argument.toList := by
  induction flags with
  | nil => simp [read]
  | cons flag rest ih =>
    rw [List.forall_mem_cons, ← ih, read]
    by_cases hbare : argument = flag
    · simp [hbare]
    · rw [if_neg hbare]
      cases hstrip : strip? flag.toList argument.toList with
      | some text =>
        have hstarts := strip?_eq_some_iff.1 hstrip
        simp [hstarts]
      | none =>
        have hstarts : ¬flag.toList <+: argument.toList := by
          rintro ⟨text, htext⟩
          rw [strip?_eq_some_iff.2 htext.symm] at hstrip
          simp at hstrip
        simp [hstarts]

theorem exists_of_read_eq_value {text : List Char} (h : read flags argument = .value text) :
    ∃ flag ∈ flags, argument.toList = flag.toList ++ text := by
  induction flags with
  | nil => simp [read] at h
  | cons flag rest ih =>
    rw [read] at h
    split at h
    · contradiction
    · split at h
      · rename_i found hstrip
        obtain rfl := Reading.value.inj h
        exact ⟨flag, List.mem_cons_self, strip?_eq_some_iff.1 hstrip⟩
      · obtain ⟨other, hmem, hother⟩ := ih h
        exact ⟨other, List.mem_cons_of_mem flag hmem, hother⟩

/-- The first flag with a word behind it in the same argument has that word as its value. -/
theorem read_append (rest : List String) {word : String} (hword : word ≠ "") :
    read (flag :: rest) (flag ++ word) = .value word.toList := by
  have hne : flag ++ word ≠ flag := by
    intro heq
    have hlist := congrArg String.toList heq
    rw [String.toList_append, List.append_right_eq_self] at hlist
    exact hword (String.toList_eq_nil_iff.1 hlist)
  have hstrip : strip? flag.toList (flag ++ word).toList = some word.toList :=
    strip?_eq_some_iff.2 String.toList_append
  rw [read, if_neg hne, hstrip]

namespace Reading

/-- The value that an argument alone reports. -/
def value? : Reading → Option String
  | .value text => some (String.ofList text)
  | .bare | .other => none

/-- Whether an argument is a flag whose value is still to come. -/
def isBare : Reading → Bool
  | .bare => true
  | .value _ | .other => false

end Reading

/-! ## Lists of arguments -/

/-- For each argument the value that is reported where it stands, when a flag waits for the
first one or not. -/
def reported (flags : List String) : Bool → List String → List (Option String)
  | _, [] => []
  | true, value :: rest => some value :: reported flags false rest
  | false, argument :: rest =>
    (read flags argument).value? :: reported flags (read flags argument).isBare rest

/-- Whether a flag waits for its value behind arguments.  A flag that is itself the value of
the flag before it does not wait. -/
def waits (flags : List String) : Bool → List String → Bool
  | waiting, [] => waiting
  | true, _ :: rest => waits flags false rest
  | false, argument :: rest => waits flags (read flags argument).isBare rest

theorem waits_append (waiting : Bool) (arguments more : List String) :
    waits flags waiting (arguments ++ more) =
      waits flags (waits flags waiting arguments) more := by
  fun_induction waits flags waiting arguments with
  | case1 waiting => rfl
  | case2 value rest ih => simp [waits, ih]
  | case3 argument rest ih => simp [waits, ih]

theorem values_eq_reduceOption (flags arguments : List String) :
    values flags arguments = (reported flags false arguments).reduceOption := by
  fun_induction values flags arguments <;> simp [reported, Reading.value?, Reading.isBare, *]

/-- Behind arguments the scan goes on with what it carries there. -/
theorem reported_append (waiting : Bool) (arguments more : List String) :
    reported flags waiting (arguments ++ more) =
      reported flags waiting arguments ++
        reported flags (waits flags waiting arguments) more := by
  fun_induction waits flags waiting arguments with
  | case1 waiting => cases waiting <;> rfl
  | case2 value rest ih => simp [reported, ih]
  | case3 argument rest ih => simp [reported, ih]

/-! ## Scans that end with nothing to wait for -/

/-- The scan of arguments reports values, and no flag waits behind it. -/
structure Reports (flags arguments : List String) (found : List (Option String)) : Prop where
  reported_eq : reported flags false arguments = found
  settled : waits flags false arguments = false

namespace Reports

variable {arguments : List String} {found : List (Option String)}

theorem cons (hbare : (read flags argument).isBare = false) (h : Reports flags arguments found) :
    Reports flags (argument :: arguments) ((read flags argument).value? :: found) := by
  constructor
  · rw [reported, hbare, h.reported_eq]
  · rw [waits, hbare, h.settled]

/-- Arguments of which none is a flag alone report each its own value. -/
theorem of_map {α : Type} {write : α → String} {value : α → Option String} {items : List α}
    (hbare : ∀ item ∈ items, (read flags (write item)).isBare = false)
    (hvalue : ∀ item ∈ items, (read flags (write item)).value? = value item) :
    Reports flags (items.map write) (items.map value) := by
  induction items with
  | nil => exact ⟨rfl, rfl⟩
  | cons item rest ih =>
    rw [List.forall_mem_cons] at hbare hvalue
    rw [List.map_cons, List.map_cons, ← hvalue.1]
    exact .cons hbare.1 (ih hbare.2 hvalue.2)

/-- Arguments that start with no flag report nothing. -/
theorem of_forall_other {α : Type} {write : α → String} {items : List α}
    (h : ∀ item ∈ items, read flags (write item) = .other) :
    Reports flags (items.map write) (items.map fun _ => none) := by
  refine of_map ?_ ?_
  · intro item hitem
    rw [h item hitem, Reading.isBare]
  · intro item hitem
    rw [h item hitem, Reading.value?]

/-- What stands behind is scanned as if it stood alone. -/
theorem reported_append (h : Reports flags arguments found) (more : List String) :
    reported flags false (arguments ++ more) = found ++ reported flags false more := by
  rw [Flag.reported_append, h.reported_eq, h.settled]

theorem append {more : List String} {foundMore : List (Option String)}
    (h : Reports flags arguments found) (hmore : Reports flags more foundMore) :
    Reports flags (arguments ++ more) (found ++ foundMore) := by
  constructor
  · rw [h.reported_append, hmore.reported_eq]
  · rw [waits_append, h.settled, hmore.settled]

theorem values_append (h : Reports flags arguments found) (more : List String) :
    values flags (arguments ++ more) = found.reduceOption ++ values flags more := by
  rw [values_eq_reduceOption, h.reported_append, List.reduceOption_append,
    values_eq_reduceOption flags more]

end Reports

/-- Arguments that start with no flag have no values. -/
theorem values_eq_nil {arguments : List String}
    (h : ∀ argument ∈ arguments, read flags argument = .other) : values flags arguments = [] := by
  induction arguments with
  | nil => rfl
  | cons argument rest ih =>
    obtain ⟨hargument, hrest⟩ := List.forall_mem_cons.1 h
    rw [values_eq_reduceOption, reported, hargument]
    exact (values_eq_reduceOption flags rest).symm.trans (ih hrest)

end BuildFacts.Flag
