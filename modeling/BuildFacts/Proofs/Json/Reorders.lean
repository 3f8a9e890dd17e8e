import BuildFacts.Json.Pointer
import BuildFacts.Proofs.Json.Rearranged
import BuildFacts.Proofs.Json.Same

/-!
# Reordered values, part by part

A value and one with its members in another order have the same parts, under the same keys and at
the same places, and these parts are reordered again (`Reorders.exists_members`,
`Reorders.exists_items`).  So a pointer leads to reordered parts in either of them
(`Pointer.resolve?_reorders`), and they are equal to the same values (`Reorders.equals_iff_right`).
-/

namespace BuildFacts

/-! ## Related lists -/

section Lists

variable {α β γ : Type} {R : α → β → Prop} {as : List α} {bs : List β}

theorem exists_of_mem_right (h : List.Forall₂ R as bs) {b : β} (hmem : b ∈ bs) :
    ∃ a ∈ as, R a b := by
  obtain ⟨index, hindex, rfl⟩ := List.getElem_of_mem hmem
  have hlt : index < as.length := h.length_eq ▸ hindex
  exact ⟨as[index], List.getElem_mem hlt, h.get hlt hindex⟩

theorem forall₂_trans {S : β → γ → Prop} {T : α → γ → Prop} {cs : List γ}
    (htrans : ∀ a b c, R a b → S b c → T a c) (h : List.Forall₂ R as bs)
    (h' : List.Forall₂ S bs cs) : List.Forall₂ T as cs := by
  induction h generalizing cs with
  | nil => exact List.forall₂_nil_left_iff.1 h' ▸ .nil
  | cons hab _ ih =>
    obtain ⟨c, cs, hbc, hrest, rfl⟩ := List.forall₂_cons_left_iff.1 h'
    exact .cons (htrans _ _ _ hab hbc) (ih hrest)

theorem rel_getElem? (h : List.Forall₂ R as bs) (index : Nat) :
    Option.Rel R as[index]? bs[index]? := by
  rw [rel_iff]
  by_cases hindex : index < as.length
  · have hindex' : index < bs.length := h.length_eq ▸ hindex
    exact .inr ⟨_, _, List.getElem?_eq_getElem hindex, List.getElem?_eq_getElem hindex',
      h.get hindex hindex'⟩
  · have hindex' : ¬index < bs.length := h.length_eq ▸ hindex
    exact .inl ⟨List.getElem?_eq_none (by omega), List.getElem?_eq_none (by omega)⟩

end Lists

namespace Json

/-! ## Numbers -/

namespace Number

theorem same_self (n : Number) : n.same n = true := by
  cases n <;> simp [same, Number.Double.same]

theorem same_trans {l m n : Number} (h : l.same m = true) (h' : m.same n = true) :
    l.same n = true := by
  cases l <;> cases m <;> cases n <;> simp [same, Number.Double.same] at h h' ⊢
  all_goals grind

end Number

namespace Value

/-! ## Parts -/

theorem KeysDistinct.rearranged {value : Value} (h : value.KeysDistinct) :
    value.Rearranged value := by
  induction h with
  | null => exact .null
  | bool b => exact .bool b
  | number n => exact .number n
  | string s => exact .string s
  | array _ ih => exact rearranged_array_iff.2 ⟨_, rfl, List.forall₂_same.2 ih⟩
  | @object members _ _ ih =>
    have hsame : MembersRearranged members members :=
      List.forall₂_same.2 fun member hmember => ⟨rfl, ih member hmember⟩
    exact hsame.rearranged

theorem Rearranged.symm {a b : Value} (h : a.Rearranged b) : b.Rearranged a := by
  induction h with
  | null => exact .null
  | bool b => exact .bool b
  | number n => exact .number n
  | string s => exact .string s
  | @array as bs hlength _ ih =>
    refine rearranged_array_iff.2 ⟨as, rfl, List.Forall₂.flip ?_⟩
    exact List.forall₂_iff_zip.2 ⟨hlength, fun hmem => ih _ hmem⟩
  | @object as bs cs hperm hlength hnames _ ih =>
    have hback : MembersRearranged cs bs := List.Forall₂.flip
      (List.forall₂_iff_zip.2 ⟨hlength, fun hmem => ⟨(hnames _ hmem).symm, ih _ hmem⟩⟩)
    -- The members go back to where they came from after their values do.
    have hcomp : Relation.Comp (List.Forall₂ _) List.Perm cs as := ⟨bs, hback, hperm.symm⟩
    rw [List.forall₂_comp_perm_eq_perm_comp_forall₂] at hcomp
    obtain ⟨ds, hds, hvalues⟩ := hcomp
    exact rearranged_object_iff.2 ⟨ds, as, rfl, hds, hvalues⟩

/-- What the members of an object and of a reordered one have in common. -/
structure MembersReorder (as cs : Table Value) : Prop where
  nodup : as.keys.Nodup
  keys : as.keys.Perm cs.keys
  lookup : ∀ key, Option.Rel Reorders (as.lookup key) (cs.lookup key)

theorem MembersReorder.nil : MembersReorder [] [] :=
  ⟨.nil, .refl _, fun _ => .none⟩

theorem Reorders.exists_members {as : Table Value} {b : Value} (h : (object as).Reorders b) :
    ∃ cs, b = .object cs ∧ MembersReorder as cs := by
  obtain ⟨bs, cs, rfl, hperm, hmembers⟩ := rearranged_object_iff.1 h.rearranged
  obtain ⟨hnodup, hparts⟩ := keysDistinct_object_iff.1 h.keysDistinct
  have hboth := Decoder.membersReorder hparts hperm hmembers
  refine ⟨cs, rfl, hnodup, ?_, fun key => ?_⟩
  · rw [hboth.keys_eq]
    exact hperm.map Prod.fst
  · rw [← Table.lookup_eq_of_perm hnodup hperm]
    exact hboth.lookup key

theorem Reorders.exists_items {as : List Value} {b : Value} (h : (array as).Reorders b) :
    ∃ bs, b = .array bs ∧ List.Forall₂ Reorders as bs := by
  obtain ⟨bs, rfl, hitems⟩ := rearranged_array_iff.1 h.rearranged
  exact ⟨bs, rfl, Decoder.itemsReorder (keysDistinct_array_iff.1 h.keysDistinct) hitems⟩

/-- How a value and a reordered one are made of parts. -/
inductive PartsReorder : Value → Value → Prop where
  | object {as cs : Table Value} (h : MembersReorder as cs) : PartsReorder (.object as) (.object cs)
  | array {as bs : List Value} (h : List.Forall₂ Reorders as bs) :
      PartsReorder (.array as) (.array bs)
  | leaf {value : Value} (hobject : value.kind ≠ .object) (harray : value.kind ≠ .array) :
      PartsReorder value value

theorem Reorders.parts {a b : Value} (h : a.Reorders b) : PartsReorder a b := by
  cases a with
  | object as =>
    obtain ⟨cs, rfl, hboth⟩ := h.exists_members
    exact .object hboth
  | array as =>
    obtain ⟨bs, rfl, hitems⟩ := h.exists_items
    exact .array hitems
  | _ =>
    rw [h.rearranged.eq_of_leaf nofun nofun]
    exact .leaf nofun nofun

theorem Reorders.members? {a b : Value} (h : a.Reorders b) :
    Option.Rel MembersReorder a.members? b.members? := by
  cases h.parts with
  | object hmembers => exact .some hmembers
  | array _ => exact .none
  | leaf hobject _ =>
    cases a with
    | object => exact absurd rfl hobject
    | _ => exact .none

theorem Reorders.member? {a b : Value} (h : a.Reorders b) (key : String) :
    Option.Rel Reorders (a.member? key) (b.member? key) :=
  rel_bind h.members? fun _ _ hmembers => hmembers.lookup key

theorem MembersReorder.nodup' {as cs : Table Value} (h : MembersReorder as cs) : cs.keys.Nodup :=
  h.keys.nodup_iff.1 h.nodup

theorem MembersReorder.exists_of_mem {as cs : Table Value} (h : MembersReorder as cs)
    {key : String} {c : Value} (hmem : (key, c) ∈ cs) : ∃ a, (key, a) ∈ as ∧ a.Reorders c := by
  have hlookup := (Table.lookup_eq_some_iff_mem h.nodup').2 hmem
  rcases rel_iff.1 (h.lookup key) with ⟨_, hnone⟩ | ⟨a, c', ha, hc, hac⟩
  · simp [hlookup] at hnone
  · rw [hlookup, Option.some.injEq] at hc
    exact ⟨a, Table.mem_of_lookup ha, hc ▸ hac⟩

theorem Reorders.keysDistinct_right {a b : Value} (h : a.Reorders b) : b.KeysDistinct := by
  obtain ⟨hkeys, hrearranged⟩ := h
  induction hkeys generalizing b with
  | @array as hitems ih =>
    obtain ⟨bs, rfl, hboth⟩ := Reorders.exists_items ⟨.array hitems, hrearranged⟩
    refine .array fun item hitem => ?_
    obtain ⟨a, ha, hab⟩ := exists_of_mem_right hboth hitem
    exact ih a ha hab.rearranged
  | @object as hnodup hparts ih =>
    obtain ⟨cs, rfl, hboth⟩ := Reorders.exists_members ⟨.object hnodup hparts, hrearranged⟩
    refine .object hboth.nodup' fun member hmember => ?_
    obtain ⟨a, ha, hac⟩ := hboth.exists_of_mem hmember
    exact ih _ ha hac.rearranged
  | _ =>
    rw [hrearranged.eq_of_leaf nofun nofun]
    constructor

theorem Reorders.symm {a b : Value} (h : a.Reorders b) : b.Reorders a :=
  ⟨h.keysDistinct_right, h.rearranged.symm⟩

/-! ## Equal values -/

theorem equals_array_iff {as : List Value} {b : Value} :
    (array as).Equals b ↔ ∃ bs, b = .array bs ∧ List.Forall₂ Equals as bs := by
  simp only [List.forall₂_iff_zip]
  constructor
  · intro h
    cases h with
    | array hlength hitems => exact ⟨_, rfl, hlength, fun hmem => hitems _ hmem⟩
  · rintro ⟨bs, rfl, hlength, hitems⟩
    exact .array hlength fun pair hmem => hitems hmem

theorem Equals.trans {a b c : Value} (h : a.Equals b) (h' : b.Equals c) : a.Equals c := by
  induction h generalizing c with
  | null => exact h'
  | bool b => exact h'
  | number hsame =>
    cases h' with
    | number hsame' => exact .number (Number.same_trans hsame hsame')
  | string s => exact h'
  | @array as bs hlength _ ih =>
    obtain ⟨cs, rfl, hitems⟩ := equals_array_iff.1 h'
    have hall : List.Forall₂ (fun a b => ∀ c, b.Equals c → a.Equals c) as bs :=
      List.forall₂_iff_zip.2 ⟨hlength, fun hmem _ => ih _ hmem⟩
    exact equals_array_iff.2 ⟨cs, rfl, forall₂_trans (fun _ _ c h => h c) hall hitems⟩
  | @object as bs hlength hkeys _ ih =>
    cases h' with
    | @object _ cs hlength' hkeys' hmembers' =>
      refine .object (hlength.trans hlength') (fun key hkey => hkeys' key (hkeys key hkey)) ?_
      intro key a c ha hc
      obtain ⟨b, hb⟩ : ∃ b, bs.lookup key = some b := by
        rw [← Option.ne_none_iff_exists', Ne, Table.lookup_eq_none_iff_notMem, not_not]
        exact hkeys key (Table.mem_keys.2 ⟨a, ha⟩)
      exact ih key a b ha hb (hmembers' key b c (Table.mem_of_lookup hb) hc)

/-- A reordered value is equal. -/
theorem Reorders.equals {a b : Value} (h : a.Reorders b) : a.Equals b := by
  obtain ⟨hkeys, hrearranged⟩ := h
  induction hkeys generalizing b with
  | @array as hitems ih =>
    obtain ⟨bs, rfl, hboth⟩ := Reorders.exists_items ⟨.array hitems, hrearranged⟩
    refine .array hboth.length_eq fun pair hpair => ?_
    exact ih _ (List.of_mem_zip hpair).1 (List.forall₂_zip hboth hpair).rearranged
  | @object as hnodup hparts ih =>
    obtain ⟨cs, rfl, hboth⟩ := Reorders.exists_members ⟨.object hnodup hparts, hrearranged⟩
    refine .object ?_ (fun key => hboth.keys.mem_iff.1) fun key a c ha hc => ?_
    · simpa [Table.keys] using hboth.keys.length_eq
    · have hreorders := hboth.lookup key
      rw [(Table.lookup_eq_some_iff_mem hnodup).2 ha, hc, Option.rel_some_some] at hreorders
      exact ih _ ha hreorders.rearranged
  | null => exact hrearranged.eq_of_leaf nofun nofun ▸ .null
  | bool _ => exact hrearranged.eq_of_leaf nofun nofun ▸ .bool _
  | number n => exact hrearranged.eq_of_leaf nofun nofun ▸ .number n.same_self
  | string _ => exact hrearranged.eq_of_leaf nofun nofun ▸ .string _

theorem Reorders.equals_iff_left {a b value : Value} (h : a.Reorders b) :
    b.Equals value ↔ a.Equals value :=
  ⟨h.equals.trans, h.symm.equals.trans⟩

theorem Reorders.equals_iff_right {a b value : Value} (h : a.Reorders b) :
    value.Equals b ↔ value.Equals a :=
  ⟨fun hequals => hequals.trans h.symm.equals, fun hequals => hequals.trans h.equals⟩

end Value

/-! ## Pointers -/

namespace Pointer

theorem step?_reorders {a b : Value} (h : a.Reorders b) (written : List Char) :
    Option.Rel Value.Reorders (step? a written) (step? b written) := by
  cases h.parts with
  | object hmembers => exact hmembers.lookup _
  | array hitems =>
    rw [step?, step?]
    cases index? (unescape written) with
    | none => exact .none
    | some index => exact rel_getElem? hitems index
  | leaf hobject harray =>
    cases a with
    | object => exact absurd rfl hobject
    | array => exact absurd rfl harray
    | _ => exact .none

/-- A pointer leads to reordered parts of reordered values, or nowhere in either of them. -/
theorem resolve?_reorders {root root' : Value} (h : root.Reorders root') (pointer : List Char) :
    Option.Rel Value.Reorders (resolve? root pointer) (resolve? root' pointer) := by
  have hsteps : ∀ tokens : List (List Char), ∀ {a b : Value}, a.Reorders b →
      Option.Rel Value.Reorders (tokens.foldlM step? a) (tokens.foldlM step? b) := by
    intro tokens
    induction tokens with
    | nil => exact fun hab => .some hab
    | cons token tokens ih =>
      intro a b hab
      rw [List.foldlM_cons, List.foldlM_cons]
      exact rel_bind (step?_reorders hab token) fun _ _ hnext => ih hnext
  unfold resolve?
  split
  · exact .some h
  · exact hsteps _ h
  · exact .none

end Pointer

end Json

end BuildFacts
