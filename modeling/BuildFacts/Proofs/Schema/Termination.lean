import BuildFacts.Proofs.Schema.Violation

/-!
# Schemas whose references go round

A check may call itself for another node and the same value, where it follows a reference, and
for a part of the value, where it starts to count references again.  Neither the node nor the
count gets smaller all along, so `checkWithin` is given a bound for how deep its calls may be
nested, and goes call by call.

* `checkWithin_eq` says that `maxHops + 1` calls for each level of the value are enough, for any
  schema, and that the verdict is that of `check`.
* `LeadsTo.check_eq` and `check_of_endless` are about references in a row: few of them make no
  difference, and too many are rejected.  On a circle there are too many (`Circular.endless`).
* `Recursive.exists_deep` says that the references at one level of a value and at the next do not
  add up: a schema that recurs accepts values of any height.

`validate_terminates` puts them together.
-/

namespace BuildFacts

open Json

/-! ## The height of a value -/

namespace Json.Value

mutual

/-- How many levels of lists and objects a value has, and one for what stands in them. -/
def height : Value → Nat
  | .array items => heightItems items + 1
  | .object members => heightMembers members + 1
  | _ => 1

/-- The height of the highest item. -/
def heightItems : List Value → Nat
  | [] => 0
  | item :: rest => max item.height (heightItems rest)

/-- The height of the highest member. -/
def heightMembers : List (String × Value) → Nat
  | [] => 0
  | (_, part) :: rest => max part.height (heightMembers rest)

end

theorem height_pos (value : Value) : 0 < value.height := by
  cases value <;> simp [height]

theorem height_le_heightItems {item : Value} {items : List Value} (h : item ∈ items) :
    item.height ≤ heightItems items := by
  induction items with
  | nil => simp at h
  | cons first rest ih =>
    rw [heightItems]
    rcases List.mem_cons.1 h with rfl | hrest
    · exact Nat.le_max_left _ _
    · exact (ih hrest).trans (Nat.le_max_right _ _)

theorem height_le_heightMembers {name : String} {part : Value} {members : List (String × Value)}
    (h : (name, part) ∈ members) : part.height ≤ heightMembers members := by
  induction members with
  | nil => simp at h
  | cons first rest ih =>
    obtain ⟨other, value⟩ := first
    rw [heightMembers]
    rcases List.mem_cons.1 h with heq | hrest
    · obtain ⟨rfl, rfl⟩ := Prod.mk.inj heq
      exact Nat.le_max_left _ _
    · exact (ih hrest).trans (Nat.le_max_right _ _)

end Json.Value

namespace Schema

/-! ## The parts of a value -/

/-- What is to be done about a part of a value: nothing but to tell a verdict, or to apply a node
to the part. -/
inductive Task where
  | told (verdict : Verdict)
  | apply (node part : Value)

/-- What is to be done about a member, by the rules of an object. -/
def memberTask (rules : Table Value) (name : String) (part : Value) : Task :=
  match memberRule rules name with
  | .free => .told .accept
  | .disallowed => .told (.reject (.disallowedMember name))
  | .node node => .apply node part

/-- What is to be done about the parts of a value, by the rules of an object. -/
def tasks (rules : Table Value) : Value → List (Pointer.Step × Task)
  | .array items =>
    match itemNode? rules with
    | some node => items.mapIdx fun index item => (.index index, .apply node item)
    | none => []
  | .object members =>
    members.map fun member => (.member member.1, memberTask rules member.1 member.2)
  | _ => []

/-- The verdict on parts, one after the other up to the first violation. -/
def inTurn (verdict : Task → Verdict) : List (Pointer.Step × Task) → Verdict
  | [] => .accept
  | (step, task) :: rest => ((verdict task).under step).andThen (inTurn verdict rest)

/-- The verdict on parts, where the verdict on a part may be missing. -/
def inTurn? (verdict? : Task → Option Verdict) : List (Pointer.Step × Task) → Option Verdict
  | [] => some .accept
  | (step, task) :: rest =>
    match verdict? task with
    | none => none
    | some verdict =>
      match verdict.violation with
      | some _ => some (verdict.under step)
      | none => (inTurn? verdict? rest).map (verdict.under step).andThen

/-- The verdict on a part, by a check. -/
def Task.verdict (check : Value → Value → Verdict) : Task → Verdict
  | .told verdict => verdict
  | .apply node part => check node part

/-- The verdict on a part, by a check that may have none. -/
def Task.verdict? (check : Value → Value → Option Verdict) : Task → Option Verdict
  | .told verdict => some verdict
  | .apply node part => check node part

/-- The verdict on a value where references end: on its own account, and then on its parts. -/
def Reached.check (root : Value) (reached : Reached) (value : Value) : Verdict :=
  (reached.verdict value).andThen
    (inTurn (Task.verdict (Schema.check root)) (tasks reached.partRules value))

theorem tasks_cons (rules rest : Table Value) (name : String) (part : Value) :
    tasks rules (.object ((name, part) :: rest)) =
      (.member name, memberTask rules name part) :: tasks rules (.object rest) := rfl

theorem checkItems_eq_inTurn (root node : Value) (index : Nat) (items : List Value) :
    checkItems root node index items = inTurn (Task.verdict (check root))
      (items.mapIdx fun offset item => (.index (index + offset), .apply node item)) := by
  induction items generalizing index with
  | nil => rfl
  | cons item rest ih =>
    rw [checkItems, ih, List.mapIdx_cons]
    simp only [inTurn, Task.verdict, Nat.add_zero, Nat.add_assoc, Nat.add_comm 1]

theorem checkMembers_eq_inTurn (root : Value) (rules members : Table Value) :
    checkMembers root rules members =
      inTurn (Task.verdict (check root)) (tasks rules (.object members)) := by
  induction members with
  | nil => rfl
  | cons member rest ih =>
    obtain ⟨name, part⟩ := member
    rw [checkMembers, ih, tasks_cons, inTurn, memberTask]
    cases memberRule rules name <;> rfl

@[simp]
theorem Verdict.andThen_accept (verdict : Verdict) : verdict.andThen .accept = verdict := by
  obtain ⟨unresolved, violation⟩ := verdict
  cases violation <;> simp [andThen, accept]

/-- A check follows references first, and then applies the rules that it has come to. -/
theorem check_eq_reached (root node value : Value) :
    check root node value = (follow root maxHops node).check root value := by
  rw [Reached.check]
  cases value with
  | array items =>
    rw [check, tasks]
    cases itemNode? (follow root maxHops node).partRules with
    | none => rfl
    | some itemNode => simp only [checkItems_eq_inTurn, Nat.zero_add]
  | object members => rw [check, checkMembers_eq_inTurn]
  | _ =>
    rw [check, tasks, inTurn, Verdict.andThen_accept]
    all_goals simp

/-! ## Checking call by call -/

/-- Applies a node to a value, after `hops` references in a row.  A reference is a call for the
same value, and a node for a part is a call for the part without any hops.  There is no verdict
where calls would be nested more than `depth` deep. -/
def checkWithin (root : Value) : Nat → Nat → Value → Value → Option Verdict
  | 0, _, _, _ => none
  | depth + 1, hops, node, value =>
    match node with
    | .bool false => some (.reject .nothingAllowed)
    | .object rules =>
      match rules.lookup "$ref" with
      | some (.string reference) =>
        if maxHops ≤ hops then some (.reject (.endlessReference reference))
        else
          match target? root reference with
          | some target => checkWithin root depth (hops + 1) target value
          | none => some ⟨[reference], none⟩
      | _ =>
        match rulesBreach? rules value with
        | some breach => some (.reject breach)
        | none => inTurn? (Task.verdict? (checkWithin root depth 0)) (tasks rules value)
    | _ => some .accept

/-- Parts are lower than the whole. -/
theorem height_lt_of_mem_tasks {rules : Table Value} {value node part : Value}
    {step : Pointer.Step} (h : (step, .apply node part) ∈ tasks rules value) :
    part.height < value.height := by
  cases value with
  | array items =>
    rw [tasks] at h
    split at h
    · obtain ⟨index, hindex, heq⟩ := List.mem_mapIdx.1 h
      obtain ⟨-, htask⟩ := Prod.mk.inj heq
      obtain ⟨-, rfl⟩ := Task.apply.inj htask
      have hitem := Value.height_le_heightItems (List.getElem_mem hindex)
      rw [Value.height]
      omega
    · simp at h
  | object members =>
    obtain ⟨⟨name, value⟩, hmember, heq⟩ := List.mem_map.1 h
    obtain ⟨-, htask⟩ := Prod.mk.inj heq
    obtain rfl : value = part := by
      rw [memberTask] at htask
      split at htask <;> simp_all
    have hpart := Value.height_le_heightMembers hmember
    rw [Value.height]
    omega
  | _ => simp [tasks] at h

/-- Parts whose verdicts are not missing have a verdict in turn. -/
theorem inTurn?_eq {verdict? : Task → Option Verdict} {verdict : Task → Verdict}
    {parts : List (Pointer.Step × Task)}
    (h : ∀ part ∈ parts, verdict? part.2 = some (verdict part.2)) :
    inTurn? verdict? parts = some (inTurn verdict parts) := by
  induction parts with
  | nil => rfl
  | cons part rest ih =>
    obtain ⟨step, task⟩ := part
    obtain ⟨hfirst, hrest⟩ := List.forall_mem_cons.1 h
    rw [inTurn?, inTurn, hfirst, ih hrest]
    cases hviolation : (verdict task).violation with
    | none => simp [hviolation]
    | some violation => simp [Verdict.andThen, Verdict.under, hviolation]

/-- Without rules there is nothing to say about any part. -/
theorem inTurn_tasks_nil (check : Value → Value → Verdict) (value : Value) :
    inTurn (Task.verdict check) (tasks [] value) = .accept := by
  cases value with
  | object members =>
    induction members with
    | nil => rfl
    | cons member rest ih =>
      rw [tasks_cons, inTurn, ih]
      rfl
  | _ => rfl

/-! ### The verdict where references end -/

/-- Where references do not end at rules, the verdict is that on the value on its own account. -/
theorem Reached.check_eq_verdict {reached : Reached} (h : reached.partRules = [])
    (root value : Value) : reached.check root value = reached.verdict value := by
  rw [check, h, inTurn_tasks_nil, Verdict.andThen_accept]

/-- Where references end at rules, the parts are looked at if the value keeps the rules on its own
account. -/
theorem Reached.check_rules (root value : Value) (rules : Table Value) :
    (Reached.rules rules).check root value =
      match rulesBreach? rules value with
      | some breach => .reject breach
      | none => inTurn (Task.verdict (Schema.check root)) (tasks rules value) := by
  cases hbreach : rulesBreach? rules value with
  | some breach => simp [check, verdict, breach?, hbreach, Verdict.andThen, Verdict.reject]
  | none => simp [check, verdict, breach?, hbreach, Verdict.andThen, partRules]

theorem follow_of_unresolved {root node : Value} {reference : String} (left : Nat)
    (href : RefersTo node reference) (htarget : target? root reference = none) :
    follow root (left + 1) node = .unresolved reference := by
  obtain ⟨members, rfl, hlookup⟩ := href.exists_members
  rw [follow, hlookup]
  simp only [htarget]

/-- What a node comes down to that is no reference. -/
def Reached.ofNode : Value → Reached
  | .bool false => .nothing
  | .object members => .rules members
  | _ => .anything

theorem follow_of_not_refersTo {root node : Value} (hnoref : ∀ reference, ¬RefersTo node reference)
    (left : Nat) : follow root left node = .ofNode node := by
  cases node with
  | object rules =>
    rw [follow]
    split
    · rename_i reference href
      exact absurd href (hnoref reference)
    · rfl
  | bool b => cases b <;> simp [follow, Reached.ofNode]
  | _ => simp [follow, Reached.ofNode]

/-! ### Enough depth -/

/-- A call for a reference rejects it, or calls for the node that it stands for. -/
theorem checkWithin_of_refersTo {root node : Value} {reference : String}
    (href : RefersTo node reference) (depth hops : Nat) (value : Value) :
    checkWithin root (depth + 1) hops node value =
      if maxHops ≤ hops then some (.reject (.endlessReference reference))
      else
        match target? root reference with
        | some target => checkWithin root depth (hops + 1) target value
        | none => some ⟨[reference], none⟩ := by
  obtain ⟨rules, rfl, hlookup⟩ := href.exists_members
  rw [checkWithin, hlookup]

/-- A call for a node that is no reference comes to the verdict of the check, if the calls for
parts do. -/
theorem checkWithin_of_not_refersTo {root node value : Value} {depth : Nat}
    (hnoref : ∀ reference, ¬RefersTo node reference)
    (hparts : ∀ part ∈ tasks (Reached.ofNode node).partRules value,
      Task.verdict? (checkWithin root depth 0) part.2 = some (Task.verdict (check root) part.2))
    (hops : Nat) :
    checkWithin root (depth + 1) hops node value =
      some ((Reached.ofNode node).check root value) := by
  cases node with
  | object rules =>
    rw [checkWithin, Reached.ofNode, Reached.check_rules]
    split
    · rename_i reference hlookup
      exact absurd hlookup (hnoref reference)
    · cases rulesBreach? rules value with
      | some breach => rfl
      | none => exact inTurn?_eq hparts
  | bool allowed =>
    rw [Reached.check_eq_verdict (by cases allowed <;> rfl)]
    cases allowed <;> rfl
  | _ =>
    rw [Reached.check_eq_verdict rfl]
    rfl

/-- The calls come to the verdict where references end, if they may be nested deep enough: once for
each reference that is left, and once more than all references for each level below. -/
theorem checkWithin_eq_reached {root : Value} {depth hops : Nat} {node value : Value}
    (hhops : hops ≤ maxHops) (hdepth : (maxHops + 1) * value.height ≤ depth + hops) :
    checkWithin root depth hops node value =
      some ((follow root (maxHops - hops) node).check root value) := by
  -- On the depth.  A reference takes one from it and adds a hop, so the sum stays; a part takes
  -- one and drops the hops, of which there are at most `maxHops`, and is a level lower.
  induction depth generalizing hops node value with
  | zero =>
    have hlevel : maxHops + 1 ≤ (maxHops + 1) * value.height :=
      Nat.le_mul_of_pos_right _ value.height_pos
    omega
  | succ depth ih =>
    by_cases hreference : ∃ reference, RefersTo node reference
    · obtain ⟨reference, href⟩ := hreference
      rw [checkWithin_of_refersTo href]
      by_cases hmax : maxHops ≤ hops
      · rw [if_pos hmax, Nat.sub_eq_zero_of_le hmax, follow_zero_of_refersTo href,
          Reached.check_eq_verdict rfl]
        rfl
      · have hleft : maxHops - hops = maxHops - (hops + 1) + 1 := by omega
        rw [if_neg hmax, hleft]
        cases htarget : target? root reference with
        | none =>
          rw [follow_of_unresolved _ href htarget, Reached.check_eq_verdict rfl]
          rfl
        | some target =>
          rw [follow_of_refersTo _ href htarget]
          apply ih
          · omega
          · omega
    · have hnoref := not_exists.1 hreference
      rw [follow_of_not_refersTo hnoref]
      refine checkWithin_of_not_refersTo hnoref ?_ hops
      rintro ⟨step, task⟩ hmem
      cases task with
      | told verdict => rfl
      | apply partNode part =>
        have hlevel : (maxHops + 1) * (part.height + 1) ≤ (maxHops + 1) * value.height :=
          Nat.mul_le_mul_left _ (height_lt_of_mem_tasks hmem)
        have hpart : (maxHops + 1) * part.height ≤ depth + 0 := by
          rw [Nat.mul_add] at hlevel
          omega
        have hsome := @ih 0 partNode part (Nat.zero_le maxHops) hpart
        rwa [Nat.sub_zero, ← check_eq_reached] at hsome

/-- The calls for a value come to the verdict of the check, if they may be nested `maxHops + 1`
times for each of its levels. -/
theorem checkWithin_eq {root : Value} {depth : Nat} (node : Value) {value : Value}
    (hdepth : (maxHops + 1) * value.height ≤ depth) :
    checkWithin root depth 0 node value = some (check root node value) := by
  rw [checkWithin_eq_reached (Nat.zero_le maxHops) (by omega), Nat.sub_zero, ← check_eq_reached]

/-! ## References in a row -/

/-- A node is checked as the node is at which its references end. -/
theorem LeadsTo.check_eq {root node last : Value} {hops : Nat} (h : LeadsTo root hops node last)
    (hhops : hops ≤ maxHops) (hlast : ∀ reference, ¬RefersTo last reference) (value : Value) :
    check root node value = check root last value := by
  have hfollow := h.follow (maxHops - hops)
  rw [Nat.sub_add_cancel hhops, follow_of_not_refersTo hlast] at hfollow
  rw [check_eq_reached, check_eq_reached, hfollow, follow_of_not_refersTo hlast]

/-- One reference too many is rejected. -/
theorem check_of_endless {root node : Value} {reference : String} (h : Endless root node reference)
    (value : Value) : check root node value = .reject (.endlessReference reference) := by
  rw [check_eq_reached, follow_eq_endless_iff.2 h, Reached.check_eq_verdict rfl]
  rfl

/-- The references of a node lead to one from which they lead back to it. -/
def Circular (root node : Value) : Prop :=
  ∃ hops length entry, LeadsTo root hops node entry ∧ LeadsTo root (length + 1) entry entry

/-- The step: a node whose references go round is a reference, and the next node is another one
whose references go round. -/
theorem Circular.step {root node : Value} (h : Circular root node) :
    ∃ reference next, RefersTo node reference ∧ target? root reference = some next ∧
      Circular root next := by
  obtain ⟨hops, length, entry, hlead, hround⟩ := h
  cases hlead with
  | here =>
    cases hround with
    | @hop _ _ next _ reference href htarget hrest =>
      exact ⟨reference, next, href, htarget, length, length, node, hrest,
        .hop href htarget hrest⟩
  | @hop hops _ next _ reference href htarget hrest =>
    exact ⟨reference, next, href, htarget, hops, length, entry, hrest, hround⟩

/-- The run: after any number of references there is one more. -/
theorem Circular.leadsTo {root node : Value} (h : Circular root node) (hops : Nat) :
    ∃ last reference, LeadsTo root hops node last ∧ RefersTo last reference := by
  induction hops generalizing node with
  | zero =>
    obtain ⟨reference, _, href, -, -⟩ := h.step
    exact ⟨node, reference, .here, href⟩
  | succ hops ih =>
    obtain ⟨reference, next, href, htarget, hnext⟩ := h.step
    obtain ⟨last, reference', hlead, hlast⟩ := ih hnext
    exact ⟨last, reference', .hop href htarget hlead, hlast⟩

theorem Circular.endless {root node : Value} (h : Circular root node) :
    ∃ reference, Endless root node reference := by
  obtain ⟨last, reference, hlead, href⟩ := h.leadsTo maxHops
  exact ⟨reference, last, hlead, href⟩

/-! ## Schemas that recur -/

/-- The value with one part, at a step. -/
def wrap : Pointer.Step → Value → Value
  | .member name, part => .object [(name, part)]
  | .index _, part => .array [part]

/-- The rules of an object have a node for the part at a step. -/
def PartNode (rules : Table Value) : Pointer.Step → Value → Prop
  | .member name, node => MemberNode rules name node
  | .index _, node => rules.lookup "items" = some node ∧ node.kind ≠ .array

theorem height_wrap (step : Pointer.Step) (part : Value) :
    (wrap step part).height = part.height + 1 := by
  cases step <;> simp [wrap, Value.height, Value.heightItems, Value.heightMembers]

/-- A value with one part is accepted where the part is, if the rules leave it alone otherwise. -/
theorem accepts_wrap {root node partNode part : Value} {rules : Table Value} {step : Pointer.Step}
    (hend : EndsAt root node (.object rules)) (hown : KeepsOwn rules (wrap step part))
    (hnode : PartNode rules step partNode) (hpart : (check root partNode part).violation = none) :
    (check root node (wrap step part)).violation = none := by
  rw [check_violation_eq_none_iff] at hpart ⊢
  rw [valid_iff_accepts_follow (Nat.zero_add maxHops), follow_eq_rules_iff.2 hend]
  refine ⟨hown, ?_⟩
  cases step with
  | member name =>
    refine ⟨fun members other value otherNode heq hmem hother => ?_, nofun⟩
    obtain rfl := Value.object.inj heq
    obtain ⟨rfl, rfl⟩ := Prod.mk.inj (List.mem_singleton.1 hmem)
    have hsame := (memberNode_iff.1 hnode).symm.trans (memberNode_iff.1 hother)
    rwa [← Option.some.inj hsame]
  | index index =>
    refine ⟨nofun, fun items item otherNode heq hmem hother _ => ?_⟩
    obtain rfl := Value.array.inj heq
    obtain rfl := List.mem_singleton.1 hmem
    rwa [← Option.some.inj (hnode.1.symm.trans hother)]

/-- Nodes that recur: each of them ends at rules with a node for some part that is one of them
again, where a value that has this part only keeps the rules; and each accepts some value. -/
structure Recursive (root : Value) (nodes : Value → Prop) : Prop where
  recurs : ∀ node, nodes node → ∃ rules step partNode, EndsAt root node (.object rules) ∧
    PartNode rules step partNode ∧ nodes partNode ∧
    ∀ part, (check root partNode part).violation = none → KeepsOwn rules (wrap step part)
  accepts : ∀ node, nodes node → ∃ value, (check root node value).violation = none

/-- Nodes that recur accept values of any height. -/
theorem Recursive.exists_deep {root : Value} {nodes : Value → Prop} (h : Recursive root nodes)
    {node : Value} (hnode : nodes node) (height : Nat) :
    ∃ value, height ≤ value.height ∧ (check root node value).violation = none := by
  induction height generalizing node with
  | zero =>
    obtain ⟨value, hvalue⟩ := h.accepts node hnode
    exact ⟨value, Nat.zero_le _, hvalue⟩
  | succ height ih =>
    obtain ⟨rules, step, partNode, hend, hpartNode, hnodes, hown⟩ := h.recurs node hnode
    obtain ⟨part, hheight, hpart⟩ := ih hnodes
    refine ⟨wrap step part, ?_, accepts_wrap hend (hown part hpart) hpartNode hpart⟩
    rw [height_wrap]
    omega

/-! ## Termination -/

/-- What is known of the check of a value at a node.

* It ends, whatever the schema is: with calls that are nested `maxHops + 1` times for each level of
  the value.
* Where few enough references lead to a node that is none, the verdict is that at this node.
* Where `maxHops` of them lead to another one, the value is rejected; so it is where references go
  round.
* Where references end at rules, each part is checked as a value of its own, with all references
  left. -/
structure ChecksInBounds (root node value : Value) : Prop where
  ends : ∀ depth, (maxHops + 1) * value.height ≤ depth →
    checkWithin root depth 0 node value = some (check root node value)
  direct : ∀ hops ≤ maxHops, ∀ last, LeadsTo root hops node last →
    (∀ reference, ¬RefersTo last reference) → check root node value = check root last value
  endless : ∀ last reference, LeadsTo root maxHops node last → RefersTo last reference →
    check root node value = .reject (.endlessReference reference)
  circular : Circular root node →
    ∃ reference, check root node value = .reject (.endlessReference reference)
  afresh : ∀ rules, EndsAt root node (.object rules) →
    check root node value = ((Reached.rules rules).verdict value).andThen
      (inTurn (Task.verdict (check root)) (tasks rules value))

theorem checksInBounds (root node value : Value) : ChecksInBounds root node value where
  ends _ hdepth := checkWithin_eq node hdepth
  direct _ hhops _ hlead hlast := hlead.check_eq hhops hlast value
  endless last _ hlead href := check_of_endless ⟨last, hlead, href⟩ value
  circular hcircular := by
    obtain ⟨reference, hendless⟩ := hcircular.endless
    exact ⟨reference, check_of_endless hendless value⟩
  afresh rules hend := by
    rw [check_eq_reached, follow_eq_rules_iff.2 hend]
    rfl

/-- Validation ends for every schema and every value.  References are bounded at each part of a
value and not over all of it, so a schema that recurs accepts values of any height. -/
theorem validate_terminates (schema : Schema) :
    (∀ value depth, (maxHops + 1) * value.height ≤ depth →
      checkWithin schema.root depth 0 schema.root value = some (schema.validate value)) ∧
    (∀ node value, ChecksInBounds schema.root node value) ∧
    ∀ nodes, Recursive schema.root nodes → ∀ node, nodes node → ∀ height,
      ∃ value, height ≤ value.height ∧ (check schema.root node value).violation = none := by
  refine ⟨fun value depth hdepth => ?_, checksInBounds schema.root, ?_⟩
  · exact checkWithin_eq schema.root hdepth
  · intro nodes hrecursive node hnode height
    exact hrecursive.exists_deep hnode height

/-- A reference to a place of the schema. -/
def referenceTo (pointer : String) : Value :=
  .object [("$ref", .string pointer)]

/-- A schema that recurs at one member, and has a reference to itself at another one. -/
def chainSchema : Schema where
  root := .object
    [("properties", .object
        [("next", referenceTo "#"), ("loop", referenceTo "#/properties/loop")]),
      ("additionalProperties", .bool false)]

theorem recursive_chainSchema : Recursive chainSchema.root fun node =>
    node = chainSchema.root ∨ node = referenceTo "#" where
  recurs := by
    have hnoref (reference : String) : ¬RefersTo chainSchema.root reference := nofun
    have hends : ∀ node, node = chainSchema.root ∨ node = referenceTo "#" →
        EndsAt chainSchema.root node chainSchema.root := by
      rintro node (rfl | rfl)
      · exact ⟨0, Nat.zero_le _, .here, hnoref⟩
      · exact ⟨1, by decide, .hop rfl rfl .here, hnoref⟩
    intro node hnode
    refine ⟨_, .member "next", referenceTo "#", hends node hnode, .inl ⟨_, rfl, rfl⟩, .inr rfl, ?_⟩
    exact fun part _ => ⟨nofun, nofun, nofun⟩
  accepts := by
    rintro node (rfl | rfl)
    · exact ⟨.null, rfl⟩
    · exact ⟨.null, rfl⟩

theorem validate_terminates_chainSchema :
    (∀ height, ∃ value, height ≤ value.height ∧ (chainSchema.validate value).violation = none) ∧
    (∃ reference, check chainSchema.root (referenceTo "#/properties/loop") .null =
      .reject (.endlessReference reference)) ∧
    checkWithin chainSchema.root 33 0 chainSchema.root .null = some (chainSchema.validate .null) := by
  obtain ⟨hends, hbounds, hdeep⟩ := validate_terminates chainSchema
  refine ⟨hdeep _ recursive_chainSchema chainSchema.root (.inl rfl), ?_, hends .null 33 (by decide)⟩
  exact (hbounds _ _).circular ⟨0, 0, _, .here, .hop rfl rfl .here⟩

end Schema

end BuildFacts
