import BuildFacts.Proofs.Json.Reorders
import BuildFacts.Proofs.Schema.Termination

/-!
# Checks of schemas and payloads with their members in another order

A node of a schema and a reordered one come down to the same rules, with reordered nodes for the
parts (`follow_reorders`, `memberRule_reorders`, `itemNode?_reorders`).  So a check reports the
same under both (`report_check_reorders`): the same references that lead nowhere, and a violation
at the same place and in the same words.  The broken rules themselves may differ: one that names a
list of types comes as it stands in its schema.

A reordered payload may break another rule first, but it is valid where the payload is
(`valid_iff_of_reorders`).
-/

namespace BuildFacts

open Json
open Json.Value (MembersReorder)

namespace Schema

/-! ## Nodes of reordered schemas -/

/-- Two nodes come down to the same rules, in another order. -/
inductive Reached.Reorders : Reached → Reached → Prop where
  | anything : Reorders .anything .anything
  | nothing : Reorders .nothing .nothing
  | unresolved (reference : String) : Reorders (.unresolved reference) (.unresolved reference)
  | endless (reference : String) : Reorders (.endless reference) (.endless reference)
  | rules {as cs : Table Value} (h : MembersReorder as cs) : Reorders (.rules as) (.rules cs)

theorem Reached.Reorders.partRules {reached reached' : Reached} (h : reached.Reorders reached') :
    MembersReorder reached.partRules reached'.partRules := by
  cases h with
  | rules h => exact h
  | _ => exact .nil

theorem target?_reorders {root root' : Value} (h : root.Reorders root') (reference : String) :
    Option.Rel Value.Reorders (target? root reference) (target? root' reference) := by
  unfold target?
  split
  · exact Pointer.resolve?_reorders h _
  · exact .none

theorem refersTo_iff_of_reorders {node node' : Value} (h : node.Reorders node')
    {reference : String} : RefersTo node' reference ↔ RefersTo node reference := by
  unfold RefersTo
  rcases rel_iff.1 (h.member? "$ref") with ⟨hnone, hnone'⟩ | ⟨a, b, ha, hb, hab⟩
  · rw [hnone, hnone']
  · rw [ha, hb, Option.some.injEq, Option.some.injEq, ← Value.string?_eq_some_iff,
      ← Value.string?_eq_some_iff, hab.rearranged.string?_eq]

theorem Reached.reorders_ofNode {node node' : Value} (h : node.Reorders node') :
    (ofNode node).Reorders (ofNode node') := by
  cases h.parts with
  | object hmembers => exact .rules hmembers
  | array _ => exact .anything
  | leaf hobject _ =>
    cases node with
    | object => exact absurd rfl hobject
    | bool b =>
      cases b
      · exact .nothing
      · exact .anything
    | _ => exact .anything

/-- Reordered nodes of reordered schemas come down to the same. -/
theorem follow_reorders {root root' : Value} (hroot : root.Reorders root') (hops : Nat)
    {node node' : Value} (hnode : node.Reorders node') :
    (follow root hops node).Reorders (follow root' hops node') := by
  by_cases hreference : ∃ reference, RefersTo node reference
  · obtain ⟨reference, href⟩ := hreference
    have href' : RefersTo node' reference := (refersTo_iff_of_reorders hnode).2 href
    cases hops with
    | zero =>
      rw [follow_zero_of_refersTo href, follow_zero_of_refersTo href']
      exact .endless reference
    | succ hops =>
      rcases rel_iff.1 (target?_reorders hroot reference) with
        ⟨hnone, hnone'⟩ | ⟨next, next', hnext, hnext', hboth⟩
      · rw [follow_of_unresolved hops href hnone, follow_of_unresolved hops href' hnone']
        exact .unresolved reference
      · rw [follow_of_refersTo hops href hnext, follow_of_refersTo hops href' hnext']
        exact follow_reorders hroot hops hboth
  · have hnoref := not_exists.1 hreference
    have hnoref' : ∀ reference, ¬RefersTo node' reference := fun reference href =>
      hnoref reference ((refersTo_iff_of_reorders hnode).1 href)
    rw [follow_of_not_refersTo hnoref, follow_of_not_refersTo hnoref']
    exact Reached.reorders_ofNode hnode

/-- What is said about one member is the same, with reordered nodes. -/
inductive MemberRule.Reorders : MemberRule → MemberRule → Prop where
  | free : Reorders .free .free
  | disallowed : Reorders .disallowed .disallowed
  | node {node node' : Value} (h : node.Reorders node') : Reorders (.node node) (.node node')

variable {rules rules' : Table Value}

theorem memberRule_reorders (h : MembersReorder rules rules') (name : String) :
    (memberRule rules name).Reorders (memberRule rules' name) := by
  have hproperty : Option.Rel Value.Reorders
      (((rules.lookup "properties").bind Value.members?).bind (·.lookup name))
      (((rules'.lookup "properties").bind Value.members?).bind (·.lookup name)) :=
    rel_bind (rel_bind (h.lookup _) fun _ _ hnodes => hnodes.members?) fun _ _ hnodes =>
      hnodes.lookup name
  unfold memberRule
  rcases rel_iff.1 hproperty with ⟨hnone, hnone'⟩ | ⟨node, node', hnode, hnode', hboth⟩
  · rw [hnone, hnone']
    rcases rel_iff.1 (h.lookup "additionalProperties") with
      ⟨hfree, hfree'⟩ | ⟨node, node', hnode, hnode', hboth⟩
    · rw [hfree, hfree']
      exact .free
    · rw [hnode, hnode']
      cases hboth.parts with
      | object => exact .node hboth
      | array => exact .node hboth
      | leaf =>
        cases node with
        | bool b =>
          cases b
          · exact .disallowed
          · exact .node hboth
        | _ => exact .node hboth
  · rw [hnode, hnode']
    exact .node hboth

theorem itemNode?_reorders (h : MembersReorder rules rules') :
    Option.Rel Value.Reorders (itemNode? rules) (itemNode? rules') := by
  unfold itemNode?
  rcases rel_iff.1 (h.lookup "items") with ⟨hnone, hnone'⟩ | ⟨node, node', hnode, hnode', hboth⟩
  · rw [hnone, hnone']
    exact .none
  · rw [hnode, hnode']
    cases hboth.parts with
    | object => exact .some hboth
    | array => exact .none
    | leaf _ harray =>
      cases node with
      | array => exact absurd rfl harray
      | _ => exact .some hboth

/-! ## Rules of reordered nodes -/

theorem filterMap_string?_of_reorders {as bs : List Value} (h : List.Forall₂ Value.Reorders as bs) :
    bs.filterMap Value.string? = as.filterMap Value.string? := by
  induction h with
  | nil => rfl
  | cons hab _ ih => rw [List.filterMap_cons, List.filterMap_cons, hab.rearranged.string?_eq, ih]

theorem typeMatches_of_reorders {expected expected' : Value} (h : expected.Reorders expected')
    (value : Value) : typeMatches expected' value = typeMatches expected value := by
  cases h.parts with
  | object => rfl
  | array hnames => rw [typeMatches, typeMatches, filterMap_string?_of_reorders hnames]
  | leaf => rfl

/-- A type that some value does not have is shown in the same way.  An object is no type: it is
shown as it stands, but every value has it. -/
theorem describeType_of_reorders {expected expected' value : Value}
    (h : expected.Reorders expected') (hnot : typeMatches expected value = false) :
    describeType expected' = describeType expected := by
  cases h.parts with
  | object => simp [typeMatches] at hnot
  | array hnames => rw [describeType, describeType, filterMap_string?_of_reorders hnames]
  | leaf => rfl

theorem message_wrongType {expected expected' : Value} (kind : Value.Kind)
    (h : describeType expected' = describeType expected) :
    (Breach.wrongType expected' kind).message = (Breach.wrongType expected kind).message :=
  congrArg (fun shown => "expected " ++ shown ++ ", found " ++ kind.name) h

theorem messages_typeBreach? (h : MembersReorder rules rules') (value : Value) :
    (typeBreach? rules' value).map Breach.message =
      (typeBreach? rules value).map Breach.message := by
  unfold typeBreach?
  rcases rel_iff.1 (h.lookup "type") with
    ⟨hnone, hnone'⟩ | ⟨expected, expected', hexpected, hexpected', hboth⟩
  · rw [hnone, hnone']
  · simp only [hexpected, hexpected', typeMatches_of_reorders hboth]
    cases hmatches : typeMatches expected value with
    | true => simp
    | false =>
      have hshown := describeType_of_reorders hboth hmatches
      exact congrArg some (message_wrongType value.kind hshown)

theorem any_same_of_reorders {as bs : List Value} (h : List.Forall₂ Value.Reorders as bs)
    (value : Value) : (bs.any (·.same value)) = as.any (·.same value) := by
  induction h with
  | nil => rfl
  | @cons a b _ _ hab _ ih =>
    have hsame : b.same value = a.same value := by
      rw [Bool.eq_iff_iff, Value.same_eq_true_iff, Value.same_eq_true_iff, hab.equals_iff_left]
    rw [List.any_cons, List.any_cons, hsame, ih]

theorem enumBreach?_of_reorders (h : MembersReorder rules rules') (value : Value) :
    enumBreach? rules' value = enumBreach? rules value := by
  unfold enumBreach?
  rcases rel_iff.1 (h.lookup "enum") with
    ⟨hnone, hnone'⟩ | ⟨allowed, allowed', hallowed, hallowed', hboth⟩
  · rw [hnone, hnone']
  · rw [hallowed, hallowed']
    cases hboth.parts with
    | object => rfl
    | array hitems => simp only [any_same_of_reorders hitems]
    | leaf => rfl

theorem requiredNames_of_reorders (h : MembersReorder rules rules') :
    requiredNames rules' = requiredNames rules := by
  unfold requiredNames
  rcases rel_iff.1 (h.lookup "required") with
    ⟨hnone, hnone'⟩ | ⟨names, names', hnames, hnames', hboth⟩
  · rw [hnone, hnone']
  · rw [hnames, hnames']
    cases hboth.parts with
    | object => rfl
    | array hitems => exact filterMap_string?_of_reorders hitems
    | leaf => rfl

theorem messages_breach? {reached reached' : Reached} (h : reached.Reorders reached')
    (value : Value) :
    (reached'.breach? value).map Breach.message = (reached.breach? value).map Breach.message := by
  cases h with
  | rules h =>
    simp only [Reached.breach?, rulesBreach?, requiredBreach?, Option.map_or,
      messages_typeBreach? h, enumBreach?_of_reorders h, requiredNames_of_reorders h]
  | _ => rfl

/-! ## What is reported -/

/-- What a verdict says: the references that lead nowhere, and the place and the wording of the
violation. -/
def Verdict.report (verdict : Verdict) : List String × Option (List Pointer.Step × String) :=
  (verdict.unresolved, verdict.violation.map fun v => (v.place, v.breach.message))

theorem Verdict.report_under (step : Pointer.Step) (verdict : Verdict) :
    (verdict.under step).report =
      (verdict.report.1, verdict.report.2.map fun v => (step :: v.1, v.2)) := by
  simp [report, under, Function.comp_def]

theorem Verdict.report_andThen (first next : Verdict) :
    (first.andThen next).report =
      if first.report.2.isSome then first.report
      else (first.report.1 ++ next.report.1, next.report.2) := by
  cases hviolation : first.violation <;> simp [report, andThen, hviolation]

theorem Verdict.report_under_congr (step : Pointer.Step) {verdict verdict' : Verdict}
    (h : verdict'.report = verdict.report) :
    (verdict'.under step).report = (verdict.under step).report := by
  rw [report_under, report_under, h]

theorem Verdict.report_andThen_congr {first first' next next' : Verdict}
    (hfirst : first'.report = first.report) (hnext : next'.report = next.report) :
    (first'.andThen next').report = (first.andThen next).report := by
  rw [report_andThen, report_andThen, hfirst, hnext]

theorem Reached.report_verdict (reached : Reached) (value : Value) :
    (reached.verdict value).report =
      ((reached.verdict value).unresolved,
        ((reached.breach? value).map Breach.message).map fun message => ([], message)) := by
  simp [Verdict.report, verdict, Function.comp_def]

theorem Reached.report_verdict_reorders {reached reached' : Reached}
    (h : reached.Reorders reached') (value : Value) :
    (reached'.verdict value).report = (reached.verdict value).report := by
  have hunresolved : (reached'.verdict value).unresolved = (reached.verdict value).unresolved := by
    cases h <;> rfl
  rw [report_verdict, report_verdict, hunresolved, messages_breach? h]

mutual

/-- A check reports the same under reordered schemas. -/
theorem report_check_reorders {root root' node node' : Value} (hroot : root.Reorders root')
    (hnode : node.Reorders node') (value : Value) :
    (check root' node' value).report = (check root node value).report := by
  have hreached := follow_reorders hroot maxHops hnode
  cases value with
  | array items =>
    rw [check, check]
    refine Verdict.report_andThen_congr (Reached.report_verdict_reorders hreached _) ?_
    rcases rel_iff.1 (itemNode?_reorders hreached.partRules) with
      ⟨hnone, hnone'⟩ | ⟨itemNode, itemNode', hitem, hitem', hboth⟩
    · rw [hnone, hnone']
    · rw [hitem, hitem']
      exact report_checkItems_reorders hroot hboth 0 items
  | object members =>
    rw [check, check]
    exact Verdict.report_andThen_congr (Reached.report_verdict_reorders hreached _)
      (report_checkMembers_reorders hroot hreached.partRules members)
  | _ =>
    rw [check, check]
    all_goals first | exact Reached.report_verdict_reorders hreached _ | exact nofun
termination_by structural value

theorem report_checkItems_reorders {root root' node node' : Value} (hroot : root.Reorders root')
    (hnode : node.Reorders node') (index : Nat) (items : List Value) :
    (checkItems root' node' index items).report = (checkItems root node index items).report := by
  match items with
  | [] => rfl
  | item :: rest =>
    rw [checkItems, checkItems]
    exact Verdict.report_andThen_congr
      (Verdict.report_under_congr _ (report_check_reorders hroot hnode item))
      (report_checkItems_reorders hroot hnode (index + 1) rest)
termination_by structural items

theorem report_checkMembers_reorders {root root' : Value} {rules rules' : Table Value}
    (hroot : root.Reorders root') (hrules : MembersReorder rules rules')
    (members : List (String × Value)) :
    (checkMembers root' rules' members).report = (checkMembers root rules members).report := by
  match members with
  | [] => rfl
  | (name, part) :: rest =>
    rw [checkMembers, checkMembers]
    refine Verdict.report_andThen_congr (Verdict.report_under_congr _ ?_)
      (report_checkMembers_reorders hroot hrules rest)
    have hrule := memberRule_reorders hrules name
    revert hrule
    generalize memberRule rules name = rule
    generalize memberRule rules' name = rule'
    intro hrule
    cases hrule with
    | free => rfl
    | disallowed => rfl
    | node hnode => exact report_check_reorders hroot hnode part
termination_by structural members

end

/-! ## Reordered payloads -/

variable {value value' : Value}

theorem OfType.reorders {name : String} (h : OfType name value) (hboth : value.Reorders value') :
    OfType name value' := by
  refine ⟨fun kind hkind => hboth.rearranged.kind_eq.trans (h.1 kind hkind), fun hinteger => ?_⟩
  obtain ⟨n, rfl, hwhole⟩ := h.2 hinteger
  exact ⟨n, hboth.rearranged.eq_of_leaf nofun nofun, hwhole⟩

theorem TypeAllows.reorders {expected : Value} (h : TypeAllows expected value)
    (hboth : value.Reorders value') : TypeAllows expected value' := by
  cases expected with
  | string name => exact OfType.reorders h hboth
  | array names =>
    obtain ⟨name, hname, htype⟩ := h
    exact ⟨name, hname, htype.reorders hboth⟩
  | _ => trivial

theorem KeepsOwn.reorders (h : KeepsOwn rules value) (hboth : value.Reorders value') :
    KeepsOwn rules value' where
  type expected hexpected := (h.type expected hexpected).reorders hboth
  enum allowed hallowed := by
    obtain ⟨a, ha, hequals⟩ := h.enum allowed hallowed
    exact ⟨a, ha, hboth.equals_iff_right.2 hequals⟩
  required members' names name hvalue hnames hname := by
    subst hvalue
    obtain ⟨members, rfl, hmembers⟩ := hboth.symm.exists_members
    exact hmembers.keys.mem_iff.2 (h.required members names name rfl hnames hname)

/-- What is valid is valid in any other order. -/
theorem Valid.reorders {root node : Value} {hops : Nat} (h : Valid root hops node value)
    (hboth : value.Reorders value') : Valid root hops node value' := by
  induction h generalizing value' with
  | true => exact .true
  | inert hbool hobject => exact .inert hbool hobject
  | unresolved href hhops htarget => exact .unresolved href hhops htarget
  | resolved href hhops htarget _ ih => exact .resolved href hhops htarget (ih hboth)
  | rules hnoref hown _ _ ihmembers ihitems =>
    refine .rules hnoref (hown.reorders hboth) ?_ ?_
    · rintro members' name part' node rfl hmem hnode
      cases hboth.parts with
      | object hmembers =>
        obtain ⟨part, hpart, hparts⟩ := hmembers.exists_of_mem hmem
        exact ihmembers _ name part node rfl hpart hnode hparts
      | leaf hobject _ => exact absurd rfl hobject
    · rintro items' item' node rfl hmem hnode hkind
      cases hboth.parts with
      | array hitems =>
        obtain ⟨item, hitem, hparts⟩ := exists_of_mem_right hitems hmem
        exact ihitems _ item node rfl hitem hnode hkind hparts
      | leaf _ harray => exact absurd rfl harray

theorem valid_iff_of_reorders {root node : Value} {hops : Nat} (h : value.Reorders value') :
    Valid root hops node value' ↔ Valid root hops node value :=
  ⟨fun hvalid => hvalid.reorders h.symm, fun hvalid => hvalid.reorders h⟩

end Schema

/-! ## Enforcing a schema -/

/-- Two errors for a place that does not fit, with the same pointer and in the same words. -/
inductive Error.SameMismatch : Error → Error → Prop where
  | mismatch (pointer : String) {cause cause' : Mismatch} (h : cause'.message = cause.message) :
      SameMismatch (.mismatch pointer cause) (.mismatch pointer cause')

namespace Schema

theorem Violation.sameMismatch_error {violation violation' : Violation}
    (hplace : violation'.place = violation.place)
    (hmessage : violation'.breach.message = violation.breach.message) :
    Error.SameMismatch violation.error violation'.error := by
  rw [error, error, hplace]
  exact .mismatch _ hmessage

/-- Verdicts that report the same lead to the same warnings and to the same answer. -/
theorem enforce_alike_of_report {schema schema' : Schema} {payload : Value}
    (h : (schema'.validate payload).report = (schema.validate payload).report) :
    (schema'.enforce payload).events = (schema.enforce payload).events ∧
      EndAlike Error.SameMismatch Eq (schema.enforce payload).result
        (schema'.enforce payload).result := by
  obtain ⟨hunresolved, hviolation⟩ := Prod.mk.inj h
  refine ⟨congrArg (List.map Event.unresolvedReference) hunresolved, ?_⟩
  rw [enforce, enforce]
  dsimp only
  revert hviolation
  cases (schema'.validate payload).violation with
  | none => cases (schema.validate payload).violation with
    | none =>
      intro _
      exact .ok rfl
    | some _ =>
      intro hviolation
      cases hviolation
  | some violation' => cases (schema.validate payload).violation with
    | none =>
      intro hviolation
      cases hviolation
    | some violation =>
      intro hviolation
      obtain ⟨hplace, hmessage⟩ := Prod.mk.inj (Option.some.inj hviolation)
      exact .error (Violation.sameMismatch_error hplace hmessage)

theorem result_enforce_eq_ok_iff {schema : Schema} {payload : Value} :
    (schema.enforce payload).result = .ok () ↔ (schema.validate payload).violation = none := by
  rw [enforce]
  cases (schema.validate payload).violation <;> simp

/-- The order of members does not decide what is valid.  Under a reordered schema a payload has the
same warnings, and the same first violation, with the same pointer and in the same words, or none.
A reordered payload is accepted by the same schemas. -/
theorem enforce_reordered (schema : Schema) :
    (∀ schema' : Schema, schema.root.Reorders schema'.root → ∀ payload,
      (schema'.enforce payload).events = (schema.enforce payload).events ∧
        EndAlike Error.SameMismatch Eq (schema.enforce payload).result
          (schema'.enforce payload).result) ∧
    ∀ payload payload' : Value, payload.Reorders payload' →
      ((schema.enforce payload').result = .ok () ↔ (schema.enforce payload).result = .ok ()) := by
  refine ⟨fun schema' hroot payload => ?_, fun payload payload' hpayload => ?_⟩
  · exact enforce_alike_of_report (report_check_reorders hroot hroot payload)
  · simp only [result_enforce_eq_ok_iff, validate, check_violation_eq_none_iff]
    exact valid_iff_of_reorders hpayload

/-- A schema with a reference and an object that is listed. -/
def listingSchema : Schema where
  root := .object
    [("properties", .object
        [("kind", .object [("$ref", .string "#/$defs/kind")]),
          ("note", .object [("type", .array [.string "string", .string "null"])])]),
      ("$defs", .object
        [("kind", .object [("enum", .array
          [.object [("a", .null), ("b", .array [.null, .bool true])]])])])]

@[inherit_doc listingSchema]
def listingSchema' : Schema where
  root := .object
    [("$defs", .object
        [("kind", .object [("enum", .array
          [.object [("b", .array [.null, .bool true]), ("a", .null)]])])]),
      ("properties", .object
        [("note", .object [("type", .array [.string "string", .string "null"])]),
          ("kind", .object [("$ref", .string "#/$defs/kind")])])]

theorem reorders_listingSchema : listingSchema.root.Reorders listingSchema'.root := by
  have hkeys : listingSchema.root.KeysDistinct := by
    simp [listingSchema, Table.keys, Value.KeysDistinct.null, Value.KeysDistinct.bool]
  refine ⟨hkeys, ?_⟩
  obtain ⟨-, hparts⟩ := Value.keysDistinct_object_iff.1 hkeys
  obtain ⟨hproperties, -⟩ := List.forall_mem_cons.1 hparts
  obtain ⟨-, hnodes⟩ := Value.keysDistinct_object_iff.1 hproperties
  obtain ⟨hkind, hnote⟩ := List.forall_mem_cons.1 hnodes
  have hlisted : (Value.object [("a", .null), ("b", .array [.null, .bool true])]).Rearranged
      (.object [("b", .array [.null, .bool true]), ("a", .null)]) := by
    refine .swap .null (Value.KeysDistinct.rearranged ?_)
    simp [Value.KeysDistinct.null, Value.KeysDistinct.bool]
  have henum := Value.rearranged_array_iff.2 ⟨_, rfl, .cons hlisted .nil⟩
  exact .swap (.swap hkind.rearranged (hnote _ List.mem_cons_self).rearranged)
    (.single (.single henum))

/-- A payload that the schema accepts up to its note. -/
def listedPayload (note : Value) : Value :=
  .object [("kind", .object [("b", .array [.null, .bool true]), ("a", .null)]), ("note", note)]

theorem enforce_reordered_listingSchema :
    (∃ cause, (listingSchema'.enforce (listedPayload (.bool false))).result =
        .error (.mismatch "/note" cause) ∧
      cause.message = "expected string or null, found boolean") ∧
    (listingSchema.enforce
      (.object
        [("note", .null),
          ("kind", .object [("a", .null), ("b", .array [.null, .bool true])])])).result =
      .ok () := by
  have hwrong : (listingSchema.enforce (listedPayload (.bool false))).result =
      .error (.mismatch "/note" (.breach
        (.wrongType (.array [.string "string", .string "null"]) .boolean))) := rfl
  have hok : (listingSchema.enforce (listedPayload .null)).result = .ok () := rfl
  obtain ⟨hschema, hpayload⟩ := enforce_reordered listingSchema
  refine ⟨?_, (hpayload (listedPayload .null) _ ⟨?_, ?_⟩).2 hok⟩
  · have halike := (hschema listingSchema' reorders_listingSchema (listedPayload (.bool false))).2
    rw [hwrong] at halike
    cases herror : (listingSchema'.enforce (listedPayload (.bool false))).result with
    | ok _ =>
      rw [herror] at halike
      exact nomatch halike
    | error error =>
      rw [herror] at halike
      cases halike with
      | error hsame =>
        cases hsame with
        | mismatch _ hmessage => exact ⟨_, rfl, hmessage⟩
  · simp [listedPayload, Table.keys, Value.KeysDistinct.null, Value.KeysDistinct.bool]
  · refine .swap (.swap (Value.KeysDistinct.rearranged ?_) .null) .null
    simp [Value.KeysDistinct.null, Value.KeysDistinct.bool]

end Schema

end BuildFacts
