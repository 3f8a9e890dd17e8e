import BuildFacts.Loading
import BuildFacts.Proofs.Json.Same

/-!
# What a schema accepts

`Schema.Valid` says which values are valid at a node of a schema, keyword by
keyword.  A node is reached after a number of references in a row.

* `valid_iff_accepts_follow`: following the references of a node keeps what is
  valid there.
* `check_violation_eq_none_iff`: the check of a value finds no violation exactly
  if the value is valid.
* `enforce_eq_ok_iff`: the same for a payload and its schema.
-/

namespace BuildFacts.Schema

open Json

/-! ## Keywords -/

/-- A value has the type with a name.  Six names stand for the kinds of values and
`integer` for a number without a fraction; every value has every other type. -/
def OfType (name : String) (value : Value) : Prop :=
  (∀ kind : Value.Kind, kind.name = name → value.kind = kind) ∧
    (name = "integer" → ∃ n, value = .number n ∧ n.isWhole)

/-- What `type` demands of a value: its type, or one of a list of types. -/
def TypeAllows : Value → Value → Prop
  | .string name, value => OfType name value
  | .array names, value => ∃ name, .string name ∈ names ∧ OfType name value
  | _, _ => True

/-- `properties` has a node for the member with a name. -/
def PropertyNode (rules : Table Value) (name : String) (node : Value) : Prop :=
  ∃ nodes, rules.lookup "properties" = some (.object nodes) ∧ nodes.lookup name = some node

/-- The node for the member with a name: that of `properties`, or else the one of
`additionalProperties`. -/
def MemberNode (rules : Table Value) (name : String) (node : Value) : Prop :=
  PropertyNode rules name node ∨
    ((∀ other, ¬PropertyNode rules name other) ∧ rules.lookup "additionalProperties" = some node)

/-- A node is a reference, whatever else it says. -/
def RefersTo (node : Value) (reference : String) : Prop :=
  node.member? "$ref" = some (.string reference)

/-- A value keeps the rules of an object on its own account: `type`, `enum` and
`required`. -/
structure KeepsOwn (rules : Table Value) (value : Value) : Prop where
  type : ∀ expected, rules.lookup "type" = some expected → TypeAllows expected value
  enum : ∀ allowed, rules.lookup "enum" = some (.array allowed) → ∃ a ∈ allowed, a.Equals value
  required : ∀ members names name, value = .object members →
    rules.lookup "required" = some (.array names) → .string name ∈ names →
    name ∈ Table.keys members

/-! ## Valid values -/

/-- A value is valid at a node that is reached after `hops` references in a row.

An object that is no reference is valid where its rules are kept by the value on
its own account, by its members and by its items.  A list of nodes for the
items is no rule. -/
inductive Valid (root : Value) : Nat → Value → Value → Prop where
  | true {hops : Nat} {value : Value} : Valid root hops (.bool true) value
  | inert {hops : Nat} {node value : Value} (hbool : node.kind ≠ .boolean)
      (hobject : node.kind ≠ .object) : Valid root hops node value
  | unresolved {hops : Nat} {node value : Value} {reference : String}
      (href : RefersTo node reference) (hhops : hops < maxHops)
      (htarget : target? root reference = none) : Valid root hops node value
  | resolved {hops : Nat} {node target value : Value} {reference : String}
      (href : RefersTo node reference) (hhops : hops < maxHops)
      (htarget : target? root reference = some target)
      (hvalid : Valid root (hops + 1) target value) : Valid root hops node value
  | rules {hops : Nat} {rules : Table Value} {value : Value}
      (hnoref : ∀ reference, ¬RefersTo (.object rules) reference) (hown : KeepsOwn rules value)
      (hmembers : ∀ members name part node, value = .object members → (name, part) ∈ members →
        MemberNode rules name node → Valid root 0 node part)
      (hitems : ∀ items item node, value = .array items → item ∈ items →
        rules.lookup "items" = some node → node.kind ≠ .array → Valid root 0 node item) :
      Valid root hops (.object rules) value

/-- The parts of a value keep the rules of an object. -/
structure KeptByParts (root : Value) (rules : Table Value) (value : Value) : Prop where
  members : ∀ members name part node, value = .object members → (name, part) ∈ members →
    MemberNode rules name node → Valid root 0 node part
  items : ∀ items item node, value = .array items → item ∈ items →
    rules.lookup "items" = some node → node.kind ≠ .array → Valid root 0 node item

theorem not_valid_false {root value : Value} {hops : Nat} :
    ¬Valid root hops (.bool false) value := by
  intro h
  cases h with
  | inert hbool => exact hbool rfl
  | unresolved href => simp [RefersTo, Value.member?, Value.members?] at href
  | resolved href => simp [RefersTo, Value.member?, Value.members?] at href

/-! ## References -/

theorem valid_object_iff {root value : Value} {rules : Table Value} {hops : Nat}
    (hnoref : ∀ reference, ¬RefersTo (.object rules) reference) :
    Valid root hops (.object rules) value ↔
      KeepsOwn rules value ∧ KeptByParts root rules value := by
  constructor
  · intro h
    cases h with
    | inert _ hobject => exact absurd rfl hobject
    | unresolved href => exact absurd href (hnoref _)
    | resolved href => exact absurd href (hnoref _)
    | rules _ hown hmembers hitems => exact ⟨hown, hmembers, hitems⟩
  · intro ⟨hown, hmembers, hitems⟩
    exact .rules hnoref hown hmembers hitems

theorem valid_ref_iff {root node value : Value} {reference : String} {hops : Nat}
    (href : RefersTo node reference) :
    Valid root hops node value ↔
      hops < maxHops ∧
        ∀ target, target? root reference = some target → Valid root (hops + 1) target value := by
  constructor
  · intro h
    cases h with
    | true => simp [RefersTo, Value.member?, Value.members?] at href
    | inert _ hobject =>
      cases node <;> simp_all [RefersTo, Value.member?, Value.members?, Value.kind]
    | unresolved href' hhops htarget =>
      obtain rfl : reference = _ := by
        simpa [RefersTo] using href.symm.trans href'
      exact ⟨hhops, by simp [htarget]⟩
    | resolved href' hhops htarget hvalid =>
      obtain rfl : reference = _ := by
        simpa [RefersTo] using href.symm.trans href'
      refine ⟨hhops, fun target htarget' => ?_⟩
      obtain rfl := Option.some.inj (htarget.symm.trans htarget')
      exact hvalid
    | rules hnoref => exact absurd href (hnoref _)
  · intro ⟨hhops, hvalid⟩
    cases htarget : target? root reference with
    | none => exact .unresolved href hhops htarget
    | some target => exact .resolved href hhops htarget (hvalid target htarget)

/-- What is valid where the references of a node end. -/
def Reached.Accepts (root : Value) (reached : Reached) (value : Value) : Prop :=
  match reached with
  | .anything => True
  | .nothing => False
  | .unresolved _ => True
  | .endless _ => False
  | .rules members => KeepsOwn members value ∧ KeptByParts root members value

/-- Following the references of a node keeps what is valid there. -/
theorem valid_iff_accepts_follow {root node value : Value} {hops left : Nat}
    (hleft : hops + left = maxHops) :
    Valid root hops node value ↔ (follow root left node).Accepts root value := by
  -- By the references still to follow: `hops` counts those followed, so the sum stays.
  fun_induction follow root left node generalizing hops with
  | case1 => exact iff_of_true .true trivial
  | case2 => exact iff_of_false not_valid_false id
  | case3 members reference href =>
    have href : RefersTo (.object members) reference := href
    exact iff_of_false (fun h => by have := ((valid_ref_iff href).1 h).1; omega) id
  | case4 members reference href left target htarget ih =>
    have href : RefersTo (.object members) reference := href
    have hleft : hops + 1 + left = maxHops := by omega
    rw [← ih hleft, valid_ref_iff href]
    constructor
    · intro ⟨_, hvalid⟩
      exact hvalid target htarget
    · intro hvalid
      refine ⟨by omega, fun target' htarget' => ?_⟩
      obtain rfl := Option.some.inj (htarget.symm.trans htarget')
      exact hvalid
  | case5 members reference href left htarget =>
    exact iff_of_true (.unresolved href (by omega) htarget) trivial
  | case6 left members hnoref => exact valid_object_iff hnoref
  | case7 left node htrue hfalse hobject =>
    refine iff_of_true (.inert ?_ ?_) trivial
    · cases node <;> simp_all [Value.kind]
    · cases node <;> simp_all [Value.kind]

/-! ## Rules -/

theorem hasType_name (kind : Value.Kind) (value : Value) :
    hasType kind.name value = (value.kind == kind) := by
  cases kind <;> simp [hasType, Value.Kind.name]

theorem ofType_name_iff (kind : Value.Kind) (value : Value) :
    OfType kind.name value ↔ value.kind = kind := by
  constructor
  · intro h
    exact h.1 kind rfl
  · intro h
    refine ⟨fun other hother => ?_, fun hinteger => ?_⟩
    · rw [h]
      cases kind <;> cases other <;> simp_all [Value.Kind.name]
    · cases kind <;> simp [Value.Kind.name] at hinteger

theorem hasType_iff {name : String} {value : Value} :
    hasType name value = true ↔ OfType name value := by
  by_cases hkind : ∃ kind : Value.Kind, kind.name = name
  · obtain ⟨kind, rfl⟩ := hkind
    rw [hasType_name, beq_iff_eq, ofType_name_iff]
  · have hname (kind : Value.Kind) : ¬kind.name = name := fun h => hkind ⟨kind, h⟩
    have hobject : name ≠ "object" := Ne.symm (hname .object)
    have harray : name ≠ "array" := Ne.symm (hname .array)
    have hstring : name ≠ "string" := Ne.symm (hname .string)
    have hboolean : name ≠ "boolean" := Ne.symm (hname .boolean)
    have hnull : name ≠ "null" := Ne.symm (hname .null)
    have hnumber : name ≠ "number" := Ne.symm (hname .number)
    have hkinds : ∀ kind : Value.Kind, kind.name = name → value.kind = kind :=
      fun kind h => absurd h (hname kind)
    unfold hasType
    rw [if_neg hobject, if_neg harray, if_neg hstring, if_neg hboolean, if_neg hnull,
      if_neg hnumber, OfType, and_iff_right hkinds]
    by_cases hinteger : name = "integer"
    · rw [if_pos hinteger]
      cases value <;> simp [hinteger]
    · simp [hinteger]

theorem typeMatches_iff {expected value : Value} :
    typeMatches expected value = true ↔ TypeAllows expected value := by
  cases expected with
  | string name => exact hasType_iff
  | array names =>
    simp only [typeMatches, TypeAllows, List.any_eq_true, List.mem_filterMap, hasType_iff,
      Value.string?_eq_some_iff]
    constructor
    · rintro ⟨name, ⟨_, hmem, rfl⟩, htype⟩
      exact ⟨name, hmem, htype⟩
    · intro ⟨name, hmem, htype⟩
      exact ⟨name, ⟨_, hmem, rfl⟩, htype⟩
  | _ => simp [typeMatches, TypeAllows]

theorem typeBreach?_eq_none_iff {rules : Table Value} {value : Value} :
    typeBreach? rules value = none ↔
      ∀ expected, rules.lookup "type" = some expected → TypeAllows expected value := by
  unfold typeBreach?
  cases rules.lookup "type" with
  | none => simp
  | some expected => simp [← typeMatches_iff]

theorem enumBreach?_eq_none_iff {rules : Table Value} {value : Value} :
    enumBreach? rules value = none ↔
      ∀ allowed, rules.lookup "enum" = some (.array allowed) → ∃ a ∈ allowed, a.Equals value := by
  unfold enumBreach?
  split
  · rename_i allowed hallowed
    simp [hallowed, ← Value.same_eq_true_iff]
  · rename_i hallowed
    simp only [true_iff]
    exact fun allowed h => absurd h (hallowed allowed)

theorem mem_requiredNames {rules : Table Value} {name : String} :
    name ∈ requiredNames rules ↔
      ∃ names, rules.lookup "required" = some (.array names) ∧ .string name ∈ names := by
  unfold requiredNames
  split
  · rename_i names hnames
    simp [hnames, Value.string?_eq_some_iff]
  · rename_i hnames
    simp only [List.not_mem_nil, false_iff]
    intro ⟨names, h, _⟩
    exact hnames names h

theorem requiredBreach?_eq_none_iff {rules : Table Value} {value : Value} :
    requiredBreach? rules value = none ↔
      ∀ members names name, value = .object members →
        rules.lookup "required" = some (.array names) → .string name ∈ names →
        name ∈ Table.keys members := by
  cases value with
  | object members =>
    have hkey (name : String) :
        ¬(members.lookup name).isNone = true ↔ name ∈ Table.keys members := by
      rw [Option.isNone_iff_eq_none, Table.lookup_eq_none_iff_notMem, not_not]
    simp only [requiredBreach?, Option.map_eq_none_iff, List.find?_eq_none, mem_requiredNames,
      hkey, Value.object.injEq]
    constructor
    · rintro h members names name rfl hnames hname
      exact h name ⟨names, hnames, hname⟩
    · rintro h name ⟨names, hnames, hname⟩
      exact h members names name rfl hnames hname
  | _ => simp [requiredBreach?]

/-- The value breaks no rule on its own account exactly if it keeps them. -/
theorem rulesBreach?_eq_none_iff {rules : Table Value} {value : Value} :
    rulesBreach? rules value = none ↔ KeepsOwn rules value := by
  rw [rulesBreach?, Option.or_eq_none_iff, Option.or_eq_none_iff, typeBreach?_eq_none_iff,
    enumBreach?_eq_none_iff, requiredBreach?_eq_none_iff]
  exact ⟨fun ⟨htype, henum, hrequired⟩ => ⟨htype, henum, hrequired⟩,
    fun ⟨htype, henum, hrequired⟩ => ⟨htype, henum, hrequired⟩⟩

/-! ## Parts -/

theorem propertyNode_iff {rules : Table Value} {name : String} {node : Value} :
    PropertyNode rules name node ↔
      ((rules.lookup "properties").bind Value.members?).bind (·.lookup name) = some node := by
  unfold PropertyNode
  cases rules.lookup "properties" with
  | none => simp
  | some nodes => cases nodes <;> simp [Value.members?]

/-- The node for a member, if there is one.  A member that is not allowed has the node
that accepts nothing. -/
def MemberRule.node? : MemberRule → Option Value
  | .free => none
  | .disallowed => some (.bool false)
  | .node other => some other

theorem memberNode_iff {rules : Table Value} {name : String} {node : Value} :
    MemberNode rules name node ↔ (memberRule rules name).node? = some node := by
  unfold MemberNode memberRule
  simp only [propertyNode_iff]
  cases ((rules.lookup "properties").bind Value.members?).bind (·.lookup name) with
  | some other => simp [MemberRule.node?]
  | none =>
    simp only [reduceCtorEq, not_false_eq_true, implies_true, true_and, false_or]
    split
    · rename_i hnone
      simp [hnone, MemberRule.node?]
    · rename_i hfalse
      simp [hfalse, MemberRule.node?]
    · rename_i other _ hother
      simp [hother, MemberRule.node?]

theorem itemNode?_eq_some_iff {rules : Table Value} {node : Value} :
    itemNode? rules = some node ↔ rules.lookup "items" = some node ∧ node.kind ≠ .array := by
  unfold itemNode?
  split
  · rename_i hitems
    simp only [reduceCtorEq, hitems, Option.some.injEq, false_iff, not_and, not_not]
    rintro rfl
    rfl
  · rename_i hitems
    constructor
    · intro hnode
      refine ⟨hnode, fun hkind => ?_⟩
      cases node <;> simp [Value.kind] at hkind
      exact hitems _ hnode
    · intro ⟨hnode, _⟩
      exact hnode

theorem accepts_iff {root value : Value} {reached : Reached} :
    reached.Accepts root value ↔
      (reached.verdict value).violation = none ∧ KeptByParts root reached.partRules value := by
  have hfree : KeptByParts root [] value := by
    constructor <;> simp [MemberNode, PropertyNode]
  cases reached with
  | rules members =>
    simp [Reached.Accepts, Reached.verdict, Reached.breach?, Reached.partRules,
      rulesBreach?_eq_none_iff]
  | _ => simp [Reached.Accepts, Reached.verdict, Reached.breach?, Reached.partRules, hfree]

/-! ## Verdicts -/

@[simp]
theorem Verdict.violation_accept : accept.violation = none := rfl

@[simp]
theorem Verdict.violation_andThen_eq_none_iff {first next : Verdict} :
    (first.andThen next).violation = none ↔ first.violation = none ∧ next.violation = none := by
  unfold andThen
  split <;> simp_all

@[simp]
theorem Verdict.violation_under_eq_none_iff {step : Pointer.Step} {verdict : Verdict} :
    (verdict.under step).violation = none ↔ verdict.violation = none := by
  simp [under]

mutual

/-- The check of a value finds no violation exactly if the value is valid. -/
theorem check_violation_eq_none_iff (root node value : Value) :
    (check root node value).violation = none ↔ Valid root 0 node value := by
  -- The value does not change while references are followed, and gets smaller after that.
  rw [valid_iff_accepts_follow (Nat.zero_add maxHops), accepts_iff]
  cases value with
  | array items =>
    rw [check, Verdict.violation_andThen_eq_none_iff]
    apply and_congr_right
    intro _
    constructor
    · intro hitems
      refine ⟨nofun, fun items' item itemNode heq hmem hnode hkind => ?_⟩
      obtain rfl := Value.array.inj heq
      rw [itemNode?_eq_some_iff.2 ⟨hnode, hkind⟩] at hitems
      exact (checkItems_violation_eq_none_iff root itemNode 0 items).1 hitems item hmem
    · intro hparts
      split
      · rename_i itemNode hnode
        obtain ⟨hnode, hkind⟩ := itemNode?_eq_some_iff.1 hnode
        exact (checkItems_violation_eq_none_iff root itemNode 0 items).2 fun item hmem =>
          hparts.items items item itemNode rfl hmem hnode hkind
      · rfl
  | object members =>
    rw [check, Verdict.violation_andThen_eq_none_iff, checkMembers_violation_eq_none_iff]
    apply and_congr_right
    intro _
    constructor
    · intro hmembers
      refine ⟨fun members' name part partNode heq => ?_, nofun⟩
      obtain rfl := Value.object.inj heq
      exact hmembers name part partNode
    · intro hparts name part partNode
      exact hparts.members members name part partNode rfl
  | _ =>
    rw [check]
    · exact (and_iff_left ⟨nofun, nofun⟩).symm
    · exact nofun
    · exact nofun

theorem checkItems_violation_eq_none_iff (root node : Value) (index : Nat) (items : List Value) :
    (checkItems root node index items).violation = none ↔
      ∀ item ∈ items, Valid root 0 node item := by
  match items with
  | [] => simp [checkItems]
  | item :: rest =>
    rw [checkItems, Verdict.violation_andThen_eq_none_iff, Verdict.violation_under_eq_none_iff,
      check_violation_eq_none_iff root node item,
      checkItems_violation_eq_none_iff root node (index + 1) rest, List.forall_mem_cons]

theorem checkMembers_violation_eq_none_iff (root : Value) (rules : Table Value)
    (members : List (String × Value)) :
    (checkMembers root rules members).violation = none ↔
      ∀ name part node, (name, part) ∈ members → MemberNode rules name node →
        Valid root 0 node part := by
  match members with
  | [] => simp [checkMembers]
  | (name, part) :: rest =>
    have hpart : (match memberRule rules name with
        | .free => Verdict.accept
        | .disallowed => .reject (.disallowedMember name)
        | .node node => check root node part).violation = none ↔
          ∀ node, MemberNode rules name node → Valid root 0 node part := by
      simp only [memberNode_iff]
      cases memberRule rules name with
      | free => simp [MemberRule.node?]
      | disallowed => simp [MemberRule.node?, Verdict.reject, not_valid_false]
      | node node => simp [MemberRule.node?, check_violation_eq_none_iff root node part]
    rw [checkMembers, Verdict.violation_andThen_eq_none_iff, Verdict.violation_under_eq_none_iff,
      checkMembers_violation_eq_none_iff root rules rest]
    refine (and_congr hpart Iff.rfl).trans ?_
    constructor
    · intro ⟨hfirst, hrest⟩ name' part' node hmem hnode
      rcases List.mem_cons.1 hmem with heq | hmem
      · obtain ⟨rfl, rfl⟩ := Prod.mk.inj heq
        exact hfirst node hnode
      · exact hrest name' part' node hmem hnode
    · intro hall
      exact ⟨fun node => hall name part node List.mem_cons_self,
        fun name' part' node hmem => hall name' part' node (List.mem_cons_of_mem _ hmem)⟩

end

/-- A payload passes the check against a schema exactly if it is valid. -/
theorem enforce_eq_ok_iff (schema : Schema) (payload : Value) :
    (schema.enforce payload).result = .ok () ↔ Valid schema.root 0 schema.root payload := by
  rw [← check_violation_eq_none_iff, enforce, validate]
  cases (check schema.root schema.root payload).violation <;> simp

end BuildFacts.Schema
