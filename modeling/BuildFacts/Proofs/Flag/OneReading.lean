import BuildFacts.Proofs.Flag.Scan

/-!
# One reading for all flags

`CompileCommand.defines` and `CompileCommand.includes` scan the same arguments,
each for its own flags.  `Flag.roles` is the reading for both at once: a flag
alone takes the next argument as its value, and this argument is then no flag.

`CompileCommand.OneReading` says that the two scans report what the one reading
finds.  They need not: in `-I -DX` the second argument is the value of `-I`,
and the scan for definitions takes it for a definition.  `oneReading_iff` says
when they do.
-/

namespace BuildFacts

namespace Flag

/-! ## Roles of arguments -/

/-- What a flag says about the build. -/
inductive Kind where
  | definition
  | includeDirectory
  deriving DecidableEq

/-- The flags of a kind. -/
def Kind.flags : Kind → List String
  | .definition => definitionFlags
  | .includeDirectory => includeFlags

/-- What an argument is in a reading of all of them. -/
inductive Role where
  /-- A flag whose value is the next argument. -/
  | flag (kind : Kind)
  /-- The value of the flag before it. -/
  | separate (kind : Kind) (value : String)
  /-- A flag with its value. -/
  | joined (kind : Kind) (value : String)
  | other
  deriving DecidableEq

namespace Role

/-- The value for a kind of flag that an argument is or holds. -/
def value? (kind : Kind) : Role → Option String
  | .separate found value | .joined found value => if found = kind then some value else none
  | .flag _ | .other => none

theorem value?_separate (kind found : Kind) (value : String) :
    (separate found value).value? kind = if found = kind then some value else none :=
  rfl

/-- The kind of flag that waits for its value behind an argument. -/
def pending : Role → Option Kind
  | .flag kind => some kind
  | .separate _ _ | .joined _ _ | .other => none

/-- The role of an argument that is read as a flag of a kind. -/
def ofReading? (kind : Kind) : Reading → Option Role
  | .bare => some (.flag kind)
  | .value text => some (.joined kind (String.ofList text))
  | .other => none

/-- The role of an argument that no flag waits for. -/
def ofArgument (argument : String) : Role :=
  ((ofReading? .definition (read definitionFlags argument)).or
    (ofReading? .includeDirectory (read includeFlags argument))).getD .other

end Role

/-- The roles of arguments, read from left to right, when a flag waits for the first one or
not. -/
def roles : Option Kind → List String → List Role
  | _, [] => []
  | some kind, value :: rest => .separate kind value :: roles none rest
  | none, argument :: rest =>
    .ofArgument argument :: roles (Role.ofArgument argument).pending rest

/-! ## Arguments that no flag waits for -/

variable {kind : Kind} {argument : String}

/-- No argument starts with flags of both kinds. -/
theorem read_includeFlags_of_definition (h : read definitionFlags argument ≠ .other) :
    read includeFlags argument = .other := by
  rw [Ne, read_eq_other_iff] at h
  rw [read_eq_other_iff]
  simp only [definitionFlags, includeFlags, List.forall_mem_cons, List.not_mem_nil, false_imp_iff,
    implies_true, and_true, not_not] at h ⊢
  obtain ⟨rest, hrest⟩ := h
  simp [← hrest]

/-- An argument is read for one kind of flag, and it is nothing to the other one. -/
theorem Role.ofArgument_eq (argument : String) :
    ∃ kind, ofArgument argument = (ofReading? kind (read kind.flags argument)).getD .other ∧
      ∀ other, other ≠ kind → read other.flags argument = .other := by
  by_cases h : read definitionFlags argument = .other
  · refine ⟨.includeDirectory, ?_, ?_⟩
    · rw [ofArgument, h, ofReading?, Option.none_or, Kind.flags]
    · intro other hother
      cases other with
      | definition => exact h
      | includeDirectory => contradiction
  · have hinclude := read_includeFlags_of_definition h
    refine ⟨.definition, ?_, ?_⟩
    · simp [ofArgument, hinclude, ofReading?, Kind.flags]
    · intro other hother
      cases other with
      | definition => contradiction
      | includeDirectory => exact hinclude

theorem Role.value?_ofArgument (kind : Kind) (argument : String) :
    (ofArgument argument).value? kind = (read kind.flags argument).value? := by
  obtain ⟨found, hrole, hothers⟩ := ofArgument_eq argument
  rw [hrole]
  by_cases hkind : kind = found
  · subst hkind
    cases read kind.flags argument <;> simp [ofReading?, value?, Reading.value?]
  · rw [hothers kind hkind]
    cases read found.flags argument <;> simp [ofReading?, value?, Reading.value?, Ne.symm hkind]

theorem Role.pending_ofArgument (kind : Kind) (argument : String) :
    decide ((ofArgument argument).pending = some kind) = (read kind.flags argument).isBare := by
  obtain ⟨found, hrole, hothers⟩ := ofArgument_eq argument
  rw [hrole]
  by_cases hkind : kind = found
  · subst hkind
    cases read kind.flags argument <;> simp [ofReading?, pending, Reading.isBare]
  · rw [hothers kind hkind]
    cases read found.flags argument <;> simp [ofReading?, pending, Reading.isBare, Ne.symm hkind]

theorem Kind.ne_empty_of_mem_flags {flag : String} (h : flag ∈ kind.flags) : flag ≠ "" := by
  cases kind <;> simp only [flags, definitionFlags, includeFlags, List.mem_cons, List.not_mem_nil,
    or_false] at h <;> grind

theorem Role.ofArgument_ne_separate (argument : String) (other : Kind) (value : String) :
    ofArgument argument ≠ .separate other value := by
  obtain ⟨found, hrole, -⟩ := ofArgument_eq argument
  rw [hrole]
  cases read found.flags argument <;> simp [ofReading?]

/-- The value that an argument holds is not the whole argument. -/
theorem value?_read_ne (kind : Kind) (argument : String) :
    (read kind.flags argument).value? ≠ some argument := by
  intro hvalue
  cases hread : read kind.flags argument with
  | bare => simp [hread, Reading.value?] at hvalue
  | other => simp [hread, Reading.value?] at hvalue
  | value text =>
    obtain ⟨flag, hflag, hargument⟩ := exists_of_read_eq_value hread
    obtain rfl : String.ofList text = argument := by
      simpa [hread, Reading.value?] using hvalue
    rw [String.toList_ofList, List.self_eq_append_left] at hargument
    exact Kind.ne_empty_of_mem_flags hflag (String.toList_eq_nil_iff.1 hargument)

/-! ## Arguments that a flag waits for -/

/-- No value of another kind of flag is in the way of a kind: each is nothing to it, or a flag
alone at the very end. -/
def Undisturbed (kind : Kind) (found : List Role) : Prop :=
  ∀ other value after, other ≠ kind → .separate other value :: after <:+ found →
    read kind.flags value = .other ∨ read kind.flags value = .bare ∧ after = []

theorem undisturbed_cons {role : Role} {found : List Role} :
    Undisturbed kind (role :: found) ↔
      (∀ other value, other ≠ kind → role = .separate other value →
        read kind.flags value = .other ∨ read kind.flags value = .bare ∧ found = []) ∧
      Undisturbed kind found := by
  simp only [Undisturbed, List.suffix_cons_iff, List.cons.injEq]
  constructor
  · intro h
    exact ⟨fun other value hne hrole => h other value found hne (.inl ⟨hrole.symm, rfl⟩),
      fun other value after hne hafter => h other value after hne (.inr hafter)⟩
  · rintro ⟨hrole, hfound⟩ other value after hne (⟨rfl, rfl⟩ | hafter)
    · exact hrole other value hne rfl
    · exact hfound other value after hne hafter

theorem undisturbed_cons_of_forall_ne {role : Role} {found : List Role}
    (h : ∀ other value, other ≠ kind → role ≠ .separate other value) :
    Undisturbed kind (role :: found) ↔ Undisturbed kind found := by
  rw [undisturbed_cons]
  exact and_iff_right fun other value hne hrole => absurd hrole (h other value hne)

theorem undisturbed_cons_separate {other : Kind} {value : String} {found : List Role}
    (hne : other ≠ kind) :
    Undisturbed kind (.separate other value :: found) ↔
      (read kind.flags value = .other ∨ read kind.flags value = .bare ∧ found = []) ∧
      Undisturbed kind found := by
  rw [undisturbed_cons]
  refine and_congr_left fun _ => ⟨fun h => h other value hne rfl, ?_⟩
  rintro h _ _ _ ⟨rfl, rfl⟩
  exact h

/-- A flag that waits takes an argument whole, and no argument holds itself as a value. -/
theorem reported_true_eq_roles_iff (kind : Kind) (arguments : List String) :
    reported kind.flags true arguments = (roles none arguments).map (·.value? kind) ↔
      arguments = [] := by
  cases arguments with
  | nil => simp [reported, roles]
  | cons argument rest =>
    simp [reported, roles, Role.value?_ofArgument, (value?_read_ne kind argument).symm]

theorem roles_eq_nil_iff {pending : Option Kind} {arguments : List String} :
    roles pending arguments = [] ↔ arguments = [] := by
  cases arguments <;> cases pending <;> simp [roles]

/-- The scan for one kind of flag is right about every argument exactly if no value of another
kind is in its way.  The scan waits where the one reading waits for a value of this kind. -/
theorem reported_eq_roles_iff (kind : Kind) (pending : Option Kind) (arguments : List String) :
    reported kind.flags (pending = some kind) arguments =
        (roles pending arguments).map (·.value? kind) ↔
      Undisturbed kind (roles pending arguments) := by
  induction arguments generalizing pending with
  | nil => cases pending <;> simp [reported, roles, Undisturbed]
  | cons argument rest ih =>
    cases pending with
    | none =>
      rw [roles, undisturbed_cons_of_forall_ne fun other value _ =>
        Role.ofArgument_ne_separate argument other value, ← ih, Role.pending_ofArgument]
      simp [reported, Role.value?_ofArgument]
    | some other =>
      by_cases hkind : other = kind
      · subst hkind
        rw [roles, undisturbed_cons_of_forall_ne fun _ _ hne heq =>
          hne (Role.separate.inj heq).1.symm, ← ih]
        simp [reported, Role.value?_separate]
      · have hscan : reported kind.flags (some other = some kind) (argument :: rest) =
            (read kind.flags argument).value? ::
              reported kind.flags (read kind.flags argument).isBare rest := by
          simp [reported, hkind]
        rw [roles, undisturbed_cons_separate hkind, roles_eq_nil_iff, ← ih, hscan, List.map_cons,
          Role.value?_separate, if_neg hkind, List.cons.injEq]
        cases hread : read kind.flags argument with
        | other => simp [Reading.value?, Reading.isBare]
        | value text => simp [Reading.value?]
        | bare =>
          -- The flag takes the next argument, which in the one reading it does not.
          rw [Reading.value?, Reading.isBare, reported_true_eq_roles_iff]
          constructor
          · rintro ⟨-, rfl⟩
            exact ⟨.inr ⟨rfl, rfl⟩, rfl⟩
          · rintro ⟨hend | hend, -⟩
            · contradiction
            · exact ⟨rfl, hend.2⟩

end Flag

/-! ## Commands -/

namespace CompileCommand

open BuildFacts.Flag

/-- The definitions and the include directories of a command come from one reading of its
arguments: as lists, and also argument by argument.  The value that one kind of flag takes is not
reported for the other. -/
structure OneReading (command : CompileCommand) : Prop where
  defines_eq : command.defines = (roles none command.args).filterMap (Role.value? .definition)
  includes_eq : command.includes =
    (roles none command.args).filterMap (Role.value? .includeDirectory)
  inPlace : ∀ kind, reported kind.flags false command.args =
    (roles none command.args).map (Role.value? kind)
  apart : ∀ (index : Nat) (kind : Kind) (value : String),
    (roles none command.args)[index]? = some (.separate kind value) → ∀ other : Kind,
      other ≠ kind → (reported other.flags false command.args)[index]? = some none

/-- The two scans of a command come from one reading exactly if no value of a flag is in the way
of the other kind: it starts with no flag of that kind, or it is such a flag alone and the last
argument. -/
theorem oneReading_iff (command : CompileCommand) :
    command.OneReading ↔ ∀ kind, Undisturbed kind (roles none command.args) := by
  have hiff (kind : Kind) := reported_eq_roles_iff kind none command.args
  constructor
  · intro hone kind
    exact (hiff kind).1 (hone.inPlace kind)
  · intro hundisturbed
    have hplace (kind : Kind) : reported kind.flags false command.args =
        (roles none command.args).map (Role.value? kind) := (hiff kind).2 (hundisturbed kind)
    have hvalues (kind : Kind) : values kind.flags command.args =
        (roles none command.args).filterMap (Role.value? kind) := by
      rw [values_eq_reduceOption, hplace, List.reduceOption, List.filterMap_map]
      rfl
    refine ⟨hvalues .definition, hvalues .includeDirectory, hplace, ?_⟩
    intro index kind value hrole other hne
    rw [hplace other, List.getElem?_map, hrole, Option.map_some, Role.value?_separate,
      if_neg (Ne.symm hne)]

/-- A command with an include directory that is written like a definition. -/
def definitionLikeDirectory : CompileCommand where
  directory := .ofString "/b"
  file := .ofString "x.c"
  command := none
  arguments := some ["cc", "-I", "-DX"]
  output := none

/-- The include directory `-DX` is read as the definition `X` as well. -/
theorem not_oneReading_definitionLikeDirectory : ¬definitionLikeDirectory.OneReading := by
  intro hone
  have hdefines := hone.defines_eq
  revert hdefines
  decide

end CompileCommand

end BuildFacts
