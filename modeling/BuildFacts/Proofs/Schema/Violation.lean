import BuildFacts.Proofs.Json.Pointer
import BuildFacts.Proofs.Schema.Validity

/-!
# The first violation of a schema

A node of a schema is reached for a part of a value through `properties`,
`additionalProperties` and `items`, and through references before each of them.  `Broken` says
that a part breaks a rule of the node that is reached for it, and which one.

* `localBreach_of_breach?` and `breach?_eq_none_iff` are about the rules of one node.
* `broken_member_iff` and `broken_item_iff` are about one step into a value.
* `check_finds` is the result: what the check finds is the first part in document order that
  breaks a rule, and nothing is found where no part breaks one.  So a value is valid exactly if
  none of its parts breaks a rule (`valid_iff_forall_not_broken`).
-/

namespace BuildFacts.Schema

open Json

/-! ## References -/

/-- Following a number of references in a row leads from a node to another one. -/
inductive LeadsTo (root : Value) : Nat → Value → Value → Prop where
  | here {node : Value} : LeadsTo root 0 node node
  | hop {hops : Nat} {node next last : Value} {reference : String} (href : RefersTo node reference)
      (htarget : target? root reference = some next) (h : LeadsTo root hops next last) :
      LeadsTo root (hops + 1) node last

/-- The references of a node end at a node that is none, and there are not too many. -/
def EndsAt (root node last : Value) : Prop :=
  ∃ hops ≤ maxHops, LeadsTo root hops node last ∧ ∀ reference, ¬RefersTo last reference

/-- After as many references as are followed there is one more. -/
def Endless (root node : Value) (reference : String) : Prop :=
  ∃ last, LeadsTo root maxHops node last ∧ RefersTo last reference

/-- A reference stands as a member of an object. -/
theorem RefersTo.exists_members {node : Value} {reference : String} (h : RefersTo node reference) :
    ∃ members : Table Value, node = .object members ∧
      members.lookup "$ref" = some (.string reference) := by
  cases node with
  | object members => exact ⟨members, rfl, h⟩
  | _ => simp [RefersTo, Value.member?, Value.members?] at h

theorem follow_zero_of_refersTo {root node : Value} {reference : String}
    (href : RefersTo node reference) : follow root 0 node = .endless reference := by
  obtain ⟨members, rfl, hlookup⟩ := href.exists_members
  rw [follow, hlookup]

theorem follow_of_refersTo {root node next : Value} {reference : String} (left : Nat)
    (href : RefersTo node reference) (htarget : target? root reference = some next) :
    follow root (left + 1) node = follow root left next := by
  obtain ⟨members, rfl, hlookup⟩ := href.exists_members
  rw [follow, hlookup]
  simp only [htarget]

/-- References on the way are followed. -/
theorem LeadsTo.follow {root node last : Value} {hops : Nat} (h : LeadsTo root hops node last)
    (left : Nat) : follow root (left + hops) node = follow root left last := by
  induction h with
  | here => rfl
  | hop href htarget _ ih => rw [← Nat.add_assoc, follow_of_refersTo _ href htarget, ih]

/-- What the references of a node come down to, said without following them. -/
def Reached.EndOf (root node : Value) (left : Nat) : Reached → Prop
  | .nothing => ∃ hops ≤ left, LeadsTo root hops node (.bool false)
  | .endless reference => ∃ last, LeadsTo root left node last ∧ RefersTo last reference
  | .rules members => ∃ hops ≤ left, LeadsTo root hops node (.object members) ∧
      ∀ reference, ¬RefersTo (.object members) reference
  | _ => True

theorem Reached.EndOf.hop {root node next : Value} {left : Nat} {reference : String}
    {reached : Reached} (href : RefersTo node reference)
    (htarget : target? root reference = some next) (h : reached.EndOf root next left) :
    reached.EndOf root node (left + 1) := by
  cases reached with
  | nothing =>
    obtain ⟨hops, hle, h⟩ := h
    exact ⟨hops + 1, by omega, .hop href htarget h⟩
  | endless _ =>
    obtain ⟨last, h, hlast⟩ := h
    exact ⟨last, .hop href htarget h, hlast⟩
  | rules _ =>
    obtain ⟨hops, hle, h, hnoref⟩ := h
    exact ⟨hops + 1, by omega, .hop href htarget h, hnoref⟩
  | _ => trivial

theorem endOf_follow (root node : Value) (left : Nat) :
    (follow root left node).EndOf root node left := by
  fun_induction follow root left node with
  | case1 => trivial
  | case2 => exact ⟨0, Nat.zero_le _, .here⟩
  | case3 members reference href => exact ⟨_, .here, href⟩
  | case4 members reference href left target htarget ih => exact ih.hop href htarget
  | case5 => trivial
  | case6 left members hnoref => exact ⟨0, Nat.zero_le _, .here, hnoref⟩
  | case7 => trivial

theorem follow_eq_rules_iff {root node : Value} {rules : Table Value} :
    follow root maxHops node = .rules rules ↔ EndsAt root node (.object rules) := by
  constructor
  · intro h
    have hend := endOf_follow root node maxHops
    rwa [h] at hend
  · rintro ⟨hops, hle, h, hnoref⟩
    have hfollow := h.follow (maxHops - hops)
    rw [Nat.sub_add_cancel hle] at hfollow
    rw [hfollow, follow]
    split
    · rename_i reference href
      exact absurd href (hnoref reference)
    · rfl

theorem follow_eq_nothing_iff {root node : Value} :
    follow root maxHops node = .nothing ↔ EndsAt root node (.bool false) := by
  constructor
  · intro h
    have hend := endOf_follow root node maxHops
    rw [h] at hend
    obtain ⟨hops, hle, h⟩ := hend
    exact ⟨hops, hle, h, fun _ href => by simp [RefersTo, Value.member?, Value.members?] at href⟩
  · rintro ⟨hops, hle, h, _⟩
    have hfollow := h.follow (maxHops - hops)
    rwa [Nat.sub_add_cancel hle, follow] at hfollow

theorem follow_eq_endless_iff {root node : Value} {reference : String} :
    follow root maxHops node = .endless reference ↔ Endless root node reference := by
  constructor
  · intro h
    have hend := endOf_follow root node maxHops
    rwa [h] at hend
  · rintro ⟨last, h, href⟩
    have hfollow := h.follow 0
    rw [Nat.zero_add] at hfollow
    rw [hfollow, follow_zero_of_refersTo href]

/-! ## Rules of one node -/

/-- A value breaks a rule of a node on its own account. -/
inductive LocalBreach (root node value : Value) : Breach → Prop where
  | nothingAllowed (hend : EndsAt root node (.bool false)) :
      LocalBreach root node value .nothingAllowed
  | endless {reference : String} (hendless : Endless root node reference) :
      LocalBreach root node value (.endlessReference reference)
  | type {rules : Table Value} {expected : Value} (hend : EndsAt root node (.object rules))
      (htype : rules.lookup "type" = some expected) (hnot : ¬TypeAllows expected value) :
      LocalBreach root node value (.wrongType expected value.kind)
  | enum {rules : Table Value} {allowed : List Value} (hend : EndsAt root node (.object rules))
      (henum : rules.lookup "enum" = some (.array allowed))
      (hnot : ∀ a ∈ allowed, ¬a.Equals value) : LocalBreach root node value (.notListed value)
  | required {rules members : Table Value} {names : List Value} {name : String}
      (hend : EndsAt root node (.object rules)) (hvalue : value = .object members)
      (hrequired : rules.lookup "required" = some (.array names)) (hname : .string name ∈ names)
      (hmissing : name ∉ Table.keys members) : LocalBreach root node value (.missingMember name)

theorem typeBreach?_eq_some {rules : Table Value} {value : Value} {breach : Breach}
    (h : typeBreach? rules value = some breach) : ∃ expected,
      rules.lookup "type" = some expected ∧ ¬TypeAllows expected value ∧
        breach = .wrongType expected value.kind := by
  unfold typeBreach? at h
  split at h
  · rename_i expected hexpected
    rw [Option.ite_none_left_eq_some, typeMatches_iff, Option.some.injEq] at h
    exact ⟨expected, hexpected, h.1, h.2.symm⟩
  · simp at h

theorem enumBreach?_eq_some {rules : Table Value} {value : Value} {breach : Breach}
    (h : enumBreach? rules value = some breach) : ∃ allowed,
      rules.lookup "enum" = some (.array allowed) ∧ (∀ a ∈ allowed, ¬a.Equals value) ∧
        breach = .notListed value := by
  unfold enumBreach? at h
  split at h
  · rename_i allowed hallowed
    rw [Option.ite_none_left_eq_some, Option.some.injEq] at h
    refine ⟨allowed, hallowed, fun a hmem hequals => h.1 ?_, h.2.symm⟩
    exact List.any_eq_true.2 ⟨a, hmem, (Value.same_eq_true_iff _ _).2 hequals⟩
  · simp at h

theorem requiredBreach?_eq_some {rules : Table Value} {value : Value} {breach : Breach}
    (h : requiredBreach? rules value = some breach) : ∃ members names name,
      value = .object members ∧ rules.lookup "required" = some (.array names) ∧
        .string name ∈ names ∧ name ∉ Table.keys members ∧ breach = .missingMember name := by
  cases value with
  | object members =>
    obtain ⟨name, hfind, rfl⟩ := Option.map_eq_some_iff.1 h
    obtain ⟨names, hnames, hname⟩ := mem_requiredNames.1 (List.mem_of_find?_eq_some hfind)
    have hmissing : (members.lookup name).isNone = true := by simpa using List.find?_some hfind
    exact ⟨members, names, name, rfl, hnames, hname,
      Table.lookup_eq_none_iff_notMem.1 (Option.isNone_iff_eq_none.1 hmissing), rfl⟩
  | _ => simp [requiredBreach?] at h

/-- A rule that is reported is broken. -/
theorem localBreach_of_breach? {root node value : Value} {breach : Breach}
    (h : (follow root maxHops node).breach? value = some breach) :
    LocalBreach root node value breach := by
  cases hreached : follow root maxHops node with
  | nothing =>
    rw [hreached] at h
    obtain rfl := Option.some.inj h
    exact .nothingAllowed (follow_eq_nothing_iff.1 hreached)
  | endless reference =>
    rw [hreached] at h
    obtain rfl := Option.some.inj h
    exact .endless (follow_eq_endless_iff.1 hreached)
  | rules rules =>
    have hend := follow_eq_rules_iff.1 hreached
    rw [hreached, Reached.breach?, rulesBreach?] at h
    rcases Option.or_eq_some_iff.1 h with h | ⟨_, h⟩
    · obtain ⟨expected, htype, hnot, rfl⟩ := typeBreach?_eq_some h
      exact .type hend htype hnot
    rcases Option.or_eq_some_iff.1 h with h | ⟨_, h⟩
    · obtain ⟨allowed, henum, hnot, rfl⟩ := enumBreach?_eq_some h
      exact .enum hend henum hnot
    · obtain ⟨members, names, name, hvalue, hrequired, hname, hmissing, rfl⟩ :=
        requiredBreach?_eq_some h
      exact .required hend hvalue hrequired hname hmissing
  | _ => simp [hreached, Reached.breach?] at h

/-- Where no rule is reported, none is broken. -/
theorem not_localBreach_of_breach? {root node value : Value}
    (h : (follow root maxHops node).breach? value = none) (breach : Breach) :
    ¬LocalBreach root node value breach := by
  have hown {rules : Table Value} (hend : EndsAt root node (.object rules)) :
      KeepsOwn rules value := by
    rw [follow_eq_rules_iff.2 hend] at h
    exact rulesBreach?_eq_none_iff.1 h
  intro hbreach
  cases hbreach with
  | nothingAllowed hend => simp [follow_eq_nothing_iff.2 hend, Reached.breach?] at h
  | endless hendless => simp [follow_eq_endless_iff.2 hendless, Reached.breach?] at h
  | type hend htype hnot => exact hnot ((hown hend).type _ htype)
  | enum hend henum hnot =>
    obtain ⟨a, hmem, hequals⟩ := (hown hend).enum _ henum
    exact hnot a hmem hequals
  | required hend hvalue hrequired hname hmissing =>
    exact hmissing ((hown hend).required _ _ _ hvalue hrequired hname)

/-! ## Parts -/

/-- A member that is not allowed: `properties` has no node for it, and `additionalProperties`
is `false`. -/
def Disallowed (rules : Table Value) (name : String) : Prop :=
  (∀ node, ¬PropertyNode rules name node) ∧
    rules.lookup "additionalProperties" = some (.bool false)

theorem memberRule_eq_disallowed_iff {rules : Table Value} {name : String} :
    memberRule rules name = .disallowed ↔ Disallowed rules name := by
  unfold Disallowed memberRule
  simp only [propertyNode_iff]
  cases ((rules.lookup "properties").bind Value.members?).bind (·.lookup name) with
  | some node => simp
  | none =>
    simp only [reduceCtorEq, not_false_eq_true, implies_true, true_and]
    split
    · rename_i hnone
      simp [hnone]
    · rename_i hfalse
      simp [hfalse]
    · rename_i other hne hother
      simpa [hother] using hne

theorem memberRule_eq_node_iff {rules : Table Value} {name : String} {node : Value} :
    memberRule rules name = .node node ↔ MemberNode rules name node ∧ ¬Disallowed rules name := by
  rw [memberNode_iff, ← memberRule_eq_disallowed_iff]
  cases memberRule rules name <;> simp [MemberRule.node?]

/-- The part of a value at a place breaks a rule of the node that is reached for it. -/
inductive Broken (root : Value) : Value → Value → List Pointer.Step → Value → Breach → Prop where
  | own {node value : Value} {breach : Breach} (h : LocalBreach root node value breach) :
      Broken root node value [] value breach
  | disallowed {node part : Value} {rules members : Table Value} {name : String}
      (hend : EndsAt root node (.object rules)) (hmember : (name, part) ∈ members)
      (hdisallowed : Disallowed rules name) :
      Broken root node (.object members) [.member name] part (.disallowedMember name)
  | member {node part partNode broken : Value} {rules members : Table Value} {name : String}
      {place : List Pointer.Step} {breach : Breach} (hend : EndsAt root node (.object rules))
      (hmember : (name, part) ∈ members) (hnode : MemberNode rules name partNode)
      (hallowed : ¬Disallowed rules name) (h : Broken root partNode part place broken breach) :
      Broken root node (.object members) (.member name :: place) broken breach
  | item {node item itemNode broken : Value} {rules : Table Value} {items : List Value}
      {index : Nat} {place : List Pointer.Step} {breach : Breach}
      (hend : EndsAt root node (.object rules)) (hitem : items[index]? = some item)
      (hnode : rules.lookup "items" = some itemNode) (harray : itemNode.kind ≠ .array)
      (h : Broken root itemNode item place broken breach) :
      Broken root node (.array items) (.index index :: place) broken breach

theorem broken_nil_iff {root node value broken : Value} {breach : Breach} :
    Broken root node value [] broken breach ↔
      broken = value ∧ LocalBreach root node value breach := by
  constructor
  · intro h
    cases h with
    | own h => exact ⟨rfl, h⟩
  · rintro ⟨rfl, h⟩
    exact .own h

/-- The rules for the parts of a value are those at which the references of a node end. -/
theorem partRules_of_endsAt {root node : Value} {rules : Table Value}
    (hend : EndsAt root node (.object rules)) :
    (follow root maxHops node).partRules = rules := by
  rw [follow_eq_rules_iff.2 hend, Reached.partRules]

/-- What is reached that is not empty are the rules of an object. -/
theorem endsAt_of_partRules {root node : Value}
    (h : (follow root maxHops node).partRules ≠ []) :
    EndsAt root node (.object (follow root maxHops node).partRules) := by
  cases hreached : follow root maxHops node with
  | rules rules => exact follow_eq_rules_iff.1 hreached
  | _ => simp [hreached, Reached.partRules] at h

/-- A member breaks a rule as what is said about it has it. -/
def MemberRule.Breaks (root part : Value) (name : String) (place : List Pointer.Step)
    (broken : Value) (breach : Breach) : MemberRule → Prop
  | .free => False
  | .disallowed => place = [] ∧ broken = part ∧ breach = .disallowedMember name
  | .node partNode => Broken root partNode part place broken breach

theorem broken_member_iff {root node part broken : Value} {members : Table Value} {name : String}
    {place : List Pointer.Step} {breach : Breach} (hkeys : (Table.keys members).Nodup)
    (hmember : (name, part) ∈ members) :
    Broken root node (.object members) (.member name :: place) broken breach ↔
      (memberRule (follow root maxHops node).partRules name).Breaks root part name place broken
        breach := by
  have hunique {other : Value} (hother : (name, other) ∈ members) : other = part :=
    Option.some.inj (((Table.lookup_eq_some_iff_mem hkeys).2 hother).symm.trans
      ((Table.lookup_eq_some_iff_mem hkeys).2 hmember))
  constructor
  · intro h
    cases h with
    | disallowed hend hother hdisallowed =>
      rw [partRules_of_endsAt hend, memberRule_eq_disallowed_iff.2 hdisallowed]
      exact ⟨rfl, hunique hother, rfl⟩
    | member hend hother hnode hallowed h =>
      rw [partRules_of_endsAt hend, memberRule_eq_node_iff.2 ⟨hnode, hallowed⟩]
      exact hunique hother ▸ h
  · intro h
    have hfree : memberRule [] name = .free := rfl
    have hend : EndsAt root node (.object (follow root maxHops node).partRules) :=
      endsAt_of_partRules fun hnil => by
        rw [hnil, hfree] at h
        exact h
    cases hrule : memberRule (follow root maxHops node).partRules name with
    | free =>
      rw [hrule] at h
      exact absurd h id
    | disallowed =>
      rw [hrule] at h
      obtain ⟨rfl, rfl, rfl⟩ := h
      exact .disallowed hend hmember (memberRule_eq_disallowed_iff.1 hrule)
    | node partNode =>
      rw [hrule] at h
      obtain ⟨hnode, hallowed⟩ := memberRule_eq_node_iff.1 hrule
      exact .member hend hmember hnode hallowed h

theorem broken_item_iff {root node item broken : Value} {items : List Value} {index : Nat}
    {place : List Pointer.Step} {breach : Breach} (hitem : items[index]? = some item) :
    Broken root node (.array items) (.index index :: place) broken breach ↔
      ∃ itemNode, itemNode? (follow root maxHops node).partRules = some itemNode ∧
        Broken root itemNode item place broken breach := by
  constructor
  · intro h
    cases h with
    | item hend hother hnode harray h =>
      obtain rfl := Option.some.inj (hitem.symm.trans hother)
      rw [partRules_of_endsAt hend]
      exact ⟨_, itemNode?_eq_some_iff.2 ⟨hnode, harray⟩, h⟩
  · rintro ⟨itemNode, hitemNode, h⟩
    obtain ⟨hnode, harray⟩ := itemNode?_eq_some_iff.1 hitemNode
    have hend : EndsAt root node (.object (follow root maxHops node).partRules) :=
      endsAt_of_partRules fun hnil => by simp [hnil] at hnode
    exact .item hend hitem hnode harray h

/-! ## The first part that breaks a rule -/

/-- A violation reports a part with a rule that it breaks. -/
def Reports (B : Located → Breach → Prop) (located : Located) (violation : Violation) : Prop :=
  violation.place = located.1 ∧ B located violation.breach

/-- A violation is that of the first part that breaks a rule; without one, no part breaks a
rule. -/
def Finds (B : Located → Breach → Prop) (parts : List Located) : Option Violation → Prop
  | none => ∀ located ∈ parts, ∀ breach, ¬B located breach
  | some violation => FirstOf (Reports B) parts violation

section Finds

variable {B B' : Located → Breach → Prop} {parts rest : List Located}

theorem not_reports {located : Located} (h : ∀ breach, ¬B located breach) (violation : Violation) :
    ¬Reports B located violation :=
  fun hreports => h _ hreports.2

theorem Finds.nil : Finds B [] none := by
  simp [Finds]

/-- What is found in some parts, and in the rest of them only after nothing was found. -/
theorem Finds.append {verdict next : Verdict} (h : Finds B parts verdict.violation)
    (hnext : Finds B rest next.violation) :
    Finds B (parts ++ rest) (verdict.andThen next).violation := by
  unfold Verdict.andThen
  cases hviolation : verdict.violation with
  | some violation =>
    rw [hviolation] at h
    simp only [hviolation]
    exact firstOf_append_iff.2 (.inl h)
  | none =>
    rw [hviolation] at h
    simp only
    cases hlater : next.violation with
    | some violation =>
      rw [hlater] at hnext
      exact firstOf_append_iff.2 (.inr ⟨fun located hmem => not_reports (h located hmem), hnext⟩)
    | none =>
      rw [hlater] at hnext
      exact fun located hmem => (List.mem_append.1 hmem).elim (h located) (hnext located)

/-- What is found in a part, seen from one step further out. -/
theorem Finds.under {step : Pointer.Step} {verdict : Verdict} (h : Finds B parts verdict.violation)
    (hstep : ∀ located ∈ parts, ∀ breach, B' (located.under step) breach ↔ B located breach) :
    Finds B' (parts.map (.under step)) (verdict.under step).violation := by
  unfold Verdict.under
  cases hviolation : verdict.violation with
  | none =>
    rw [hviolation] at h
    rintro _ hmem breach hbroken
    obtain ⟨located, hlocated, rfl⟩ := List.mem_map.1 hmem
    exact h located hlocated breach ((hstep located hlocated breach).1 hbroken)
  | some violation =>
    rw [hviolation] at h
    obtain ⟨before, located, after, rfl, hbefore, hplace, hbroken⟩ := h
    refine ⟨before.map (.under step), located.under step, after.map (.under step), by simp, ?_, ?_⟩
    · rintro _ hmem other ⟨hother, hbroken'⟩
      obtain ⟨earlier, hearlier, rfl⟩ := List.mem_map.1 hmem
      exact hbefore earlier hearlier ⟨earlier.1, other.breach⟩
        ⟨rfl, (hstep earlier (List.mem_append_left _ hearlier) _).1 hbroken'⟩
    · exact ⟨congrArg _ hplace, (hstep located (by simp) _).2 hbroken⟩

end Finds

/-- The parts of a value that break a rule of the nodes reached for them. -/
def BrokenIn (root node value : Value) (located : Located) (breach : Breach) : Prop :=
  Broken root node value located.1 located.2 breach

/-- The parts of a member that break what is said about the member. -/
def MemberBroken (root part : Value) (name : String) (rule : MemberRule) (located : Located)
    (breach : Breach) : Prop :=
  rule.Breaks root part name located.1 located.2 breach

/-- A value comes before its parts. -/
theorem finds_own (root node value : Value) :
    Finds (BrokenIn root node value) [([], value)]
      ((follow root maxHops node).verdict value).violation := by
  unfold Reached.verdict
  cases hbreach : (follow root maxHops node).breach? value with
  | none =>
    intro located hmem breach hbroken
    obtain rfl := List.mem_singleton.1 hmem
    exact not_localBreach_of_breach? hbreach breach (broken_nil_iff.1 hbroken).2
  | some breach =>
    exact firstOf_cons_iff.2 (.inl ⟨rfl, .own (localBreach_of_breach? hbreach)⟩)

mutual

/-- The check of a value finds the first part that breaks a rule of the node reached for it. -/
theorem check_finds (root node value : Value) (hkeys : value.KeysDistinct) :
    Finds (BrokenIn root node value) value.nodes (check root node value).violation := by
  cases value with
  | array items =>
    rw [check, Value.nodes, ← List.singleton_append]
    refine (finds_own root node _).append ?_
    have hparts := Value.keysDistinct_array_iff.1 hkeys
    cases hnode : itemNode? (follow root maxHops node).partRules with
    | none =>
      intro located hmem breach hbroken
      obtain ⟨i, item, inner, hitem, -, rfl⟩ := Value.mem_itemNodes hmem
      rw [← Nat.zero_add i] at hitem
      obtain ⟨_, hsome, -⟩ := (broken_item_iff (by simpa using hitem)).1 hbroken
      simp [hnode] at hsome
    | some itemNode =>
      exact checkItems_finds root node itemNode items 0 items hnode hparts (fun i => by simp)
  | object members =>
    rw [check, Value.nodes, ← List.singleton_append]
    refine (finds_own root node _).append ?_
    obtain ⟨hnodup, hparts⟩ := Value.keysDistinct_object_iff.1 hkeys
    exact checkMembers_finds root node members hnodup hparts members fun _ h => h
  | _ =>
    rw [check]
    · exact finds_own root node _
    · exact nofun
    · exact nofun

theorem checkItems_finds (root node itemNode : Value) (whole : List Value) (index : Nat)
    (items : List Value) (hnode : itemNode? (follow root maxHops node).partRules = some itemNode)
    (hparts : ∀ item ∈ items, item.KeysDistinct)
    (hwhole : ∀ i, items[i]? = whole[index + i]?) :
    Finds (BrokenIn root node (.array whole)) (Value.itemNodes index items)
      (checkItems root itemNode index items).violation := by
  match items with
  | [] => exact Finds.nil
  | item :: rest =>
    rw [checkItems, Value.itemNodes]
    obtain ⟨hitem, hrest⟩ := List.forall_mem_cons.1 hparts
    refine Finds.append ((check_finds root itemNode item hitem).under ?_)
      (checkItems_finds root node itemNode whole (index + 1) rest hnode hrest ?_)
    · intro located _ breach
      have hindex : whole[index]? = some item := (hwhole 0).symm
      simp [BrokenIn, Located.under, broken_item_iff hindex, hnode]
    · intro i
      rw [Nat.add_right_comm, Nat.add_assoc]
      exact hwhole (i + 1)

theorem checkMembers_finds (root node : Value) (whole : Table Value)
    (hnodup : (Table.keys whole).Nodup)
    (hparts : ∀ member ∈ whole, member.2.KeysDistinct) (members : List (String × Value))
    (hwhole : ∀ member ∈ members, member ∈ whole) :
    Finds (BrokenIn root node (.object whole)) (Value.memberNodes members)
      (checkMembers root (follow root maxHops node).partRules members).violation := by
  match members with
  | [] => exact Finds.nil
  | (name, part) :: rest =>
    rw [checkMembers, Value.memberNodes]
    obtain ⟨hmember, hrest⟩ := List.forall_mem_cons.1 hwhole
    refine Finds.append (Finds.under (B := MemberBroken root part name
        (memberRule (follow root maxHops node).partRules name)) ?_ ?_)
      (checkMembers_finds root node whole hnodup hparts rest hrest)
    · cases hrule : memberRule (follow root maxHops node).partRules name with
      | free => exact fun _ _ _ => id
      | disallowed =>
        obtain ⟨after, hafter⟩ := part.nodes_eq_cons
        rw [hafter]
        exact firstOf_cons_iff.2 (.inl ⟨rfl, rfl, rfl, rfl⟩)
      | node partNode => exact check_finds root partNode part (hparts _ hmember)
    · exact fun located _ breach => broken_member_iff hnodup hmember

end

/-- A value is valid exactly if none of its parts breaks a rule. -/
theorem valid_iff_forall_not_broken {root node value : Value} (hkeys : value.KeysDistinct) :
    Valid root 0 node value ↔
      ∀ located ∈ value.nodes, ∀ breach, ¬BrokenIn root node value located breach := by
  have hfinds := check_finds root node value hkeys
  rw [← check_violation_eq_none_iff]
  cases hviolation : (check root node value).violation with
  | none =>
    rw [hviolation] at hfinds
    exact iff_of_true rfl hfinds
  | some violation =>
    rw [hviolation] at hfinds
    obtain ⟨before, located, after, hnodes, _, _, hbroken⟩ := hfinds
    refine iff_of_false nofun fun hnone => hnone located ?_ violation.breach hbroken
    simp [hnodes]

end BuildFacts.Schema
