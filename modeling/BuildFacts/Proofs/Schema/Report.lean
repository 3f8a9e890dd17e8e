import BuildFacts.Loading
import BuildFacts.Proofs.Schema.Violation

/-!
# One pointer for a whole check

A check can keep one pointer, to the part it is at: it writes a token at the end before it goes
into a part, and cuts the token off behind it.  A verdict has no such pointer; it names the place
of a violation.

* `checkOn_comesTo`: both ways to check come to the same.
* `eq_of_checkOn_eq_ok`: where a part is accepted, the pointer is what it was before.
* `first_violation_located` is the result about what is reported: the pointer leads to the first
  part in document order that breaks a rule, and the part breaks the rule that is reported.
-/

namespace BuildFacts.Schema

open Json

/-! ## Checking with a pointer -/

/-- Steps that share one pointer, up to a broken rule with the pointer as it then is. -/
abbrev Writing := EStateM (List Char × Breach) (List Char)

namespace Writing

/-- Stops with a broken rule. -/
def reject (breach : Breach) : Writing Unit := do
  throw (← get, breach)

/-- Goes into a part: its token is written behind the pointer, and cut off after the part. -/
def within (step : Pointer.Step) (part : Writing Unit) : Writing Unit := do
  let length := (← get).length
  modify (· ++ '/' :: step.token.toList)
  part
  modify (·.take length)

/-- What is reported about a value, whose pointer is empty. -/
def report (check : Writing Unit) : Except Error Unit :=
  match check.run [] with
  | .ok () _ => .ok ()
  | .error (pointer, breach) _ => .error (.mismatch (String.ofList pointer) (.breach breach))

end Writing

/-- Applies the rules that have been reached to a value on its own account. -/
def Reached.checkOn (reached : Reached) (value : Value) : Writing Unit :=
  match reached.breach? value with
  | some breach => .reject breach
  | none => pure ()

mutual

/-- Applies a node of a schema to the value that the pointer leads to. -/
def checkOn (root node : Value) : Value → Writing Unit
  | .array items => do
    let reached := follow root maxHops node
    reached.checkOn (.array items)
    match itemNode? reached.partRules with
    | some itemNode => checkItemsOn root itemNode 0 items
    | none => pure ()
  | .object members => do
    let reached := follow root maxHops node
    reached.checkOn (.object members)
    checkMembersOn root reached.partRules members
  | leaf => (follow root maxHops node).checkOn leaf

/-- Applies a node to the items of a list, from `index` on. -/
def checkItemsOn (root node : Value) (index : Nat) : List Value → Writing Unit
  | [] => pure ()
  | item :: rest => do
    .within (.index index) (checkOn root node item)
    checkItemsOn root node (index + 1) rest

/-- Applies the rules for the members of an object. -/
def checkMembersOn (root : Value) (rules : Table Value) : List (String × Value) → Writing Unit
  | [] => pure ()
  | (name, value) :: rest => do
    .within (.member name) <|
      match memberRule rules name with
      | .free => pure ()
      | .disallowed => .reject (.disallowedMember name)
      | .node node => checkOn root node value
    checkMembersOn root rules rest

end

/-! ## The same verdict -/

/-- How steps end that come to a verdict: nothing is left behind a pointer, or the place of the
violation is. -/
def Verdict.outcome (verdict : Verdict) (pointer : List Char) :
    EStateM.Result (List Char × Breach) (List Char) Unit :=
  match verdict.violation with
  | none => .ok () pointer
  | some violation =>
    let pointer := pointer ++ (Pointer.write violation.place).toList
    .error (pointer, violation.breach) pointer

/-- Steps come to a verdict, whatever the pointer is. -/
def Writing.ComesTo (steps : Writing Unit) (verdict : Verdict) : Prop :=
  ∀ pointer, steps.run pointer = verdict.outcome pointer

namespace Writing

variable {steps next : Writing Unit} {verdict other : Verdict}

theorem ComesTo.pure : (Pure.pure () : Writing Unit).ComesTo .accept :=
  fun _ => rfl

theorem ComesTo.reject (breach : Breach) : (Writing.reject breach).ComesTo (.reject breach) := by
  intro pointer
  have hnone : pointer ++ (Pointer.write []).toList = pointer := by simp [Pointer.write]
  rw [Verdict.outcome, Verdict.reject]
  simp only [hnone]
  rfl

theorem ComesTo.andThen (h : steps.ComesTo verdict) (hnext : next.ComesTo other) :
    ComesTo (do steps; next) (verdict.andThen other) := by
  intro pointer
  have hsteps := h pointer
  rw [EStateM.run_bind, hsteps]
  cases hviolation : verdict.violation with
  | none => simpa [Verdict.outcome, Verdict.andThen, hviolation] using hnext pointer
  | some violation => simp [Verdict.outcome, Verdict.andThen, hviolation]

theorem ComesTo.within (h : steps.ComesTo verdict) (step : Pointer.Step) :
    (within step steps).ComesTo (verdict.under step) := by
  intro pointer
  have hsteps := h (pointer ++ '/' :: step.token.toList)
  simp only [Writing.within, EStateM.run_bind, EStateM.run_get, EStateM.run_modify, hsteps]
  cases hviolation : verdict.violation with
  | none => simp [Verdict.outcome, Verdict.under, hviolation]
  | some violation => simp [Verdict.outcome, Verdict.under, hviolation, Pointer.write]

end Writing

theorem Reached.checkOn_comesTo (reached : Reached) (value : Value) :
    (reached.checkOn value).ComesTo (reached.verdict value) := by
  unfold checkOn Reached.verdict
  cases reached.breach? value with
  | none => exact .pure
  | some breach => exact .reject breach

mutual

/-- The check with a pointer comes to the verdict of the check. -/
theorem checkOn_comesTo (root node value : Value) :
    (checkOn root node value).ComesTo (check root node value) := by
  cases value with
  | array items =>
    rw [checkOn, check]
    refine (Reached.checkOn_comesTo _ _).andThen ?_
    cases itemNode? (follow root maxHops node).partRules with
    | none => exact .pure
    | some itemNode => exact checkItemsOn_comesTo root itemNode 0 items
  | object members =>
    rw [checkOn, check]
    exact (Reached.checkOn_comesTo _ _).andThen (checkMembersOn_comesTo root _ members)
  | _ =>
    rw [checkOn, check]
    all_goals first | exact Reached.checkOn_comesTo _ _ | exact nofun

theorem checkItemsOn_comesTo (root node : Value) (index : Nat) (items : List Value) :
    (checkItemsOn root node index items).ComesTo (checkItems root node index items) := by
  match items with
  | [] => exact .pure
  | item :: rest =>
    rw [checkItemsOn, checkItems]
    exact ((checkOn_comesTo root node item).within _).andThen
      (checkItemsOn_comesTo root node (index + 1) rest)

theorem checkMembersOn_comesTo (root : Value) (rules : Table Value)
    (members : List (String × Value)) :
    (checkMembersOn root rules members).ComesTo (checkMembers root rules members) := by
  match members with
  | [] => exact .pure
  | (name, part) :: rest =>
    rw [checkMembersOn, checkMembers]
    refine (Writing.ComesTo.within ?_ _).andThen (checkMembersOn_comesTo root rules rest)
    cases memberRule rules name with
    | free => exact .pure
    | disallowed => exact .reject _
    | node node => exact checkOn_comesTo root node part

end

/-- Where a part is accepted, the pointer is what it was before. -/
theorem eq_of_checkOn_eq_ok {root node part : Value} {pointer left : List Char}
    (h : (checkOn root node part).run pointer = .ok () left) : left = pointer := by
  rw [checkOn_comesTo root node part pointer, Verdict.outcome] at h
  split at h
  · exact (EStateM.Result.ok.inj h).2.symm
  · simp at h

/-- What a payload is checked for is reported with the pointer that the check keeps. -/
theorem enforce_eq_report (schema : Schema) (payload : Value) :
    (schema.enforce payload).result = (checkOn schema.root schema.root payload).report := by
  rw [enforce, validate, Writing.report, checkOn_comesTo, Verdict.outcome]
  cases (check schema.root schema.root payload).violation with
  | none => rfl
  | some violation => simp [Violation.error]

/-! ## What is reported -/

/-- A part breaks a rule, and no part before it in document order breaks one. -/
structure FirstBroken (root value : Value) (place : List Pointer.Step) (part : Value)
    (breach : Breach) : Prop where
  broken : Broken root root value place part breach
  first : ∃ before after, value.nodes = before ++ (place, part) :: after ∧
    ∀ earlier ∈ before, ∀ other, ¬Broken root root value earlier.1 earlier.2 other

theorem firstBroken_of_violation {schema : Schema} {value : Value} {violation : Violation}
    (hkeys : value.KeysDistinct) (h : (schema.validate value).violation = some violation) :
    ∃ part, Pointer.resolve? value (Pointer.write violation.place).toList = some part ∧
      FirstBroken schema.root value violation.place part violation.breach := by
  have hfinds := check_finds schema.root schema.root value hkeys
  rw [show check schema.root schema.root value = schema.validate value from rfl, h] at hfinds
  obtain ⟨before, ⟨place, part⟩, after, hnodes, hbefore, rfl, hbroken⟩ := hfinds
  refine ⟨part, Pointer.resolve?_write hkeys (by simp [hnodes]), hbroken, before, after, hnodes, ?_⟩
  exact fun earlier hmem other hother => hbefore earlier hmem ⟨earlier.1, other⟩ ⟨rfl, hother⟩

/-- What is reported is a pointer to the first part that breaks a rule, with the rule; and the
pointer that the check keeps is the same before and after each part that is accepted. -/
theorem first_violation_located (schema : Schema) {value : Value} (hkeys : value.KeysDistinct) :
    (∀ error, (schema.enforce value).result = .error error →
      ∃ place part breach, error = .mismatch (Pointer.write place) (.breach breach) ∧
        Pointer.resolve? value (Pointer.write place).toList = some part ∧
        FirstBroken schema.root value place part breach) ∧
    (schema.enforce value).result = (checkOn schema.root schema.root value).report ∧
    ∀ node part pointer left,
      (checkOn schema.root node part).run pointer = .ok () left → left = pointer := by
  refine ⟨fun error herror => ?_, enforce_eq_report schema value,
    fun _ _ _ _ => eq_of_checkOn_eq_ok⟩
  rw [enforce] at herror
  cases hviolation : (schema.validate value).violation with
  | none => simp [hviolation] at herror
  | some violation =>
    simp only [hviolation, Except.error.injEq] at herror
    obtain ⟨part, hpart⟩ := firstBroken_of_violation hkeys hviolation
    exact ⟨_, part, _, herror.symm, hpart⟩

/-- Of one member the members are strings, and of the others they are lists of numbers. -/
def unusualNamesSchema : Schema where
  root := .object
    [("properties", .object
        [("~1", .object [("additionalProperties", .object [("type", .string "string")])])]),
      ("additionalProperties", .object
        [("additionalProperties", .object [("items", .object [("type", .string "number")])])])]

/-- Nested parts that are accepted, and after them one that is not, under names with `~` and `/`. -/
def unusualNames : Value :=
  .object
    [("a/b", .object [("~", .array [.number (.integer 1), .number (.integer 2)])]),
      ("~1", .object [("c", .string "d"), ("e/~f", .null), ("g", .null)])]

theorem first_violation_located_unusualNames :
    ∃ place, Pointer.write place = "/~01/e~1~0f" ∧
      Pointer.resolve? unusualNames "/~01/e~1~0f".toList = some .null ∧
      FirstBroken unusualNamesSchema.root unusualNames place .null
        (.wrongType (.string "string") .null) := by
  have hkeys : unusualNames.KeysDistinct := by
    simp [unusualNames, Table.keys, Value.KeysDistinct.null, Value.KeysDistinct.number]
  have herror : (unusualNamesSchema.enforce unusualNames).result =
      .error (.mismatch "/~01/e~1~0f" (.breach (.wrongType (.string "string") .null))) := by
    rfl
  have hleads : Pointer.resolve? unusualNames "/~01/e~1~0f".toList = some .null := by rfl
  obtain ⟨place, part, breach, heq, hpart, hfirst⟩ :=
    (first_violation_located unusualNamesSchema hkeys).1 _ herror
  simp only [Error.mismatch.injEq, Mismatch.breach.injEq] at heq
  obtain ⟨hplace, rfl⟩ := heq
  rw [← hplace, hleads] at hpart
  obtain rfl := Option.some.inj hpart
  exact ⟨place, hplace.symm, hleads, hfirst⟩

end BuildFacts.Schema
