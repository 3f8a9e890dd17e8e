import Mathlib.Data.List.Pairwise
import BuildFacts.Proofs.Json.Alike
import BuildFacts.Proofs.Json.Keys

/-!
# Values with their members in another order

`Value.Rearranged` relates a value to the ones that differ from it only in the order of members,
in any of its objects and at any depth.

A decoder is `OrderBlind` if the order of members does not decide what it takes.  A record is
taken member by member in the order in which they stand; the order does not count because the
fields change different parts of the record (`Record.FieldsCommute`).  A table keeps the order of
its entries, so it comes in another order itself.
-/

namespace BuildFacts.Json

variable {σ α β : Type}

/-! ## Rearranged values -/

namespace Value

/-- The second value is the first one with the members of objects in another order, at any
depth. -/
inductive Rearranged : Value → Value → Prop where
  | null : Rearranged .null .null
  | bool (b : Bool) : Rearranged (.bool b) (.bool b)
  | number (n : Number) : Rearranged (.number n) (.number n)
  | string (s : String) : Rearranged (.string s) (.string s)
  | array {as bs : List Value} (hlength : as.length = bs.length)
      (hitems : ∀ pair ∈ as.zip bs, Rearranged pair.1 pair.2) : Rearranged (.array as) (.array bs)
  | object {as bs cs : Table Value} (hperm : as.Perm bs) (hlength : bs.length = cs.length)
      (hnames : ∀ pair ∈ bs.zip cs, pair.2.1 = pair.1.1)
      (hmembers : ∀ pair ∈ bs.zip cs, Rearranged pair.1.2 pair.2.2) :
      Rearranged (.object as) (.object cs)

/-- Members with the same names, in the same order, and with rearranged values. -/
def MembersRearranged (bs cs : Table Value) : Prop :=
  Table.Entrywise (fun _ => Rearranged) bs cs

theorem rearranged_array_iff {as : List Value} {b : Value} :
    (array as).Rearranged b ↔ ∃ bs, b = .array bs ∧ List.Forall₂ Rearranged as bs := by
  simp only [List.forall₂_iff_zip]
  constructor
  · intro h
    cases h with
    | array hlength hitems => exact ⟨_, rfl, hlength, fun hmem => hitems _ hmem⟩
  · rintro ⟨bs, rfl, hlength, hitems⟩
    exact .array hlength fun pair hmem => hitems hmem

theorem rearranged_object_iff {as : Table Value} {b : Value} :
    (object as).Rearranged b ↔
      ∃ bs cs, b = .object cs ∧ as.Perm bs ∧ MembersRearranged bs cs := by
  simp only [MembersRearranged, Table.Entrywise, List.forall₂_iff_zip]
  constructor
  · intro h
    cases h with
    | object hperm hlength hnames hmembers =>
      exact ⟨_, _, rfl, hperm, hlength, fun hmem => ⟨hnames _ hmem, hmembers _ hmem⟩⟩
  · rintro ⟨bs, cs, rfl, hperm, hlength, hmembers⟩
    exact .object hperm hlength (fun pair hmem => (hmembers hmem).1)
      fun pair hmem => (hmembers hmem).2

theorem MembersRearranged.rearranged {bs cs : Table Value} (h : MembersRearranged bs cs) :
    (object bs).Rearranged (object cs) :=
  rearranged_object_iff.2 ⟨_, _, rfl, .refl _, h⟩

theorem Rearranged.single {name : String} {a a' : Value} (h : a.Rearranged a') :
    (Value.object [(name, a)]).Rearranged (.object [(name, a')]) :=
  MembersRearranged.rearranged (.cons ⟨rfl, h⟩ .nil)

/-- Two members change places. -/
theorem Rearranged.swap {name name' : String} {a a' b b' : Value} (ha : a.Rearranged a')
    (hb : b.Rearranged b') :
    (Value.object [(name, a), (name', b)]).Rearranged (.object [(name', b'), (name, a')]) :=
  rearranged_object_iff.2 ⟨_, _, rfl, .swap _ _ _, .cons ⟨rfl, hb⟩ (.cons ⟨rfl, ha⟩ .nil)⟩

theorem Rearranged.kind_eq {a b : Value} (h : a.Rearranged b) : b.kind = a.kind := by
  cases h <;> rfl

/-- A value without parts is rearranged only to itself. -/
theorem Rearranged.eq_of_leaf {a b : Value} (h : a.Rearranged b) (hobject : a.kind ≠ .object)
    (harray : a.kind ≠ .array) : b = a := by
  cases h with
  | array => exact absurd rfl harray
  | object => exact absurd rfl hobject
  | _ => rfl

theorem Rearranged.string?_eq {a b : Value} (h : a.Rearranged b) : b.string? = a.string? := by
  cases h <;> rfl

theorem MembersRearranged.eq_singleton_null_iff {bs cs : Table Value}
    (h : MembersRearranged bs cs) {name : String} :
    bs = [(name, .null)] ↔ cs = [(name, .null)] := by
  constructor
  · rintro rfl
    obtain ⟨⟨_, c⟩, _, ⟨rfl, hc⟩, hrest, rfl⟩ := List.forall₂_cons_left_iff.1 h
    obtain rfl := List.forall₂_nil_left_iff.1 hrest
    obtain rfl : c = .null := hc.eq_of_leaf nofun nofun
    rfl
  · rintro rfl
    obtain ⟨⟨_, b⟩, _, ⟨rfl, hb⟩, hrest, rfl⟩ := List.forall₂_cons_right_iff.1 h
    obtain rfl := List.forall₂_nil_right_iff.1 hrest
    cases hb
    rfl

/-- A value with distinct keys and one that is rearranged from it. -/
structure Reorders (a b : Value) : Prop where
  keysDistinct : a.KeysDistinct
  rearranged : a.Rearranged b

end Value

open Value

/-! ## Decoders -/

/-- A decoder takes related data from a value and from a rearranged one, or data from neither. -/
abbrev Decoder.OrderBlind (R : α → α → Prop) (decoder : Decoder α) : Prop :=
  decoder.TakesAlike (fun _ _ => True) Reorders R

namespace Decoder

variable {R : α → α → Prop} {decoder : Decoder α}

/-- What looks only at the kind of a value with parts is blind to their order. -/
theorem orderBlind_of_leaf (hfails : ∀ value : Value, value.kind = .object ∨ value.kind = .array →
    ∃ fault, decoder.fromValue value = .error fault) : decoder.OrderBlind Eq := by
  intro a b hab
  by_cases hkind : a.kind = .object ∨ a.kind = .array
  · obtain ⟨fault, hfault⟩ := hfails a hkind
    obtain ⟨fault', hfault'⟩ := hfails b (hab.rearranged.kind_eq ▸ hkind)
    rw [hfault, hfault']
    exact .error trivial
  · obtain ⟨hobject, harray⟩ := not_or.1 hkind
    rw [hab.rearranged.eq_of_leaf hobject harray]
    exact .same _

theorem orderBlind_text (expected : String) : (text expected).OrderBlind Eq := by
  refine orderBlind_of_leaf fun value hkind => ?_
  cases value <;> simp_all [Value.kind, text]

theorem OrderBlind.optional (h : decoder.OrderBlind Eq) : decoder.optional.OrderBlind Eq := by
  intro a b hab
  by_cases hnull : a = .null
  · subst hnull
    obtain rfl := hab.rearranged.eq_of_leaf nofun nofun
    exact .ok rfl
  · have hnull' : b ≠ .null := by
      rintro rfl
      have hkind := hab.rearranged.kind_eq
      cases a <;> simp_all [Value.kind]
    have hboth : EndAlike (fun _ _ => True) Eq (some <$> decoder.fromValue a)
        (some <$> decoder.fromValue b) := (h hab).map fun _ _ h => congrArg some h
    cases a <;> cases b <;> first
      | exact absurd rfl hnull
      | exact absurd rfl hnull'
      | exact hboth

/-- Items and rearranged ones are reordered one by one. -/
theorem itemsReorder {as bs : List Value} (hkeys : ∀ item ∈ as, item.KeysDistinct)
    (hitems : List.Forall₂ Rearranged as bs) : List.Forall₂ Reorders as bs :=
  ((List.forall₂_and_left _ _).2 ⟨hkeys, hitems⟩).imp fun _ _ h => ⟨h.1, h.2⟩

theorem OrderBlind.list (h : decoder.OrderBlind Eq) : decoder.list.OrderBlind Eq := by
  intro a b hab
  obtain ⟨hkeys, hrearranged⟩ := hab
  cases a with
  | array as =>
    obtain ⟨bs, rfl, hitems⟩ := rearranged_array_iff.1 hrearranged
    have hboth := itemsReorder (keysDistinct_array_iff.1 hkeys) hitems
    exact (EndAlike.mapM hboth h).imp fun _ _ heq => List.forall₂_eq_eq_eq ▸ heq
  | _ =>
    have hkind := hrearranged.kind_eq
    cases b <;> first
      | simp [Value.kind] at hkind; done
      | exact .error trivial

/-- Members in another order, and then with rearranged values, have values that are reordered
one by one. -/
theorem membersReorder {as bs cs : Table Value} (hkeys : ∀ member ∈ as, member.2.KeysDistinct)
    (hperm : as.Perm bs) (hmembers : MembersRearranged bs cs) :
    Table.Entrywise (fun _ => Reorders) bs cs :=
  ((List.forall₂_and_left _ _).2 ⟨fun b hb => hkeys b (hperm.mem_iff.2 hb), hmembers⟩).imp
    fun _ _ h => ⟨h.2.1, h.1, h.2.2⟩

/-- A table comes in the order of its entries. -/
theorem OrderBlind.table (h : decoder.OrderBlind Eq) : decoder.table.OrderBlind List.Perm := by
  intro a b hab
  obtain ⟨hkeys, hrearranged⟩ := hab
  cases a with
  | object as =>
    obtain ⟨bs, cs, rfl, hperm, hmembers⟩ := rearranged_object_iff.1 hrearranged
    obtain ⟨hnodup, hparts⟩ := keysDistinct_object_iff.1 hkeys
    let entry (member : String × Value) : Except Fault (String × α) :=
      (fun a => (member.1, a)) <$> decoder.fromValue member.2
    have hsorted : BothEnd List.Perm (as.mapM entry) (bs.mapM entry) := .mapM_perm hperm
    have hvalues : BothEnd Eq (bs.mapM entry) (cs.mapM entry) := by
      refine (EndAlike.mapM (membersReorder hparts hperm hmembers) ?_).imp
        fun _ _ heq => List.forall₂_eq_eq_eq ▸ heq
      rintro ⟨name, b⟩ ⟨_, c⟩ ⟨rfl, hbc⟩
      exact (h hbc).map fun _ _ h => congrArg _ h
    have hentries := hsorted.trans (fun _ _ _ hperm heq => heq ▸ hperm) hvalues
    refine EndAlike.map_ok hentries fun es es' hes _ hpermEntries => ?_
    -- The keys are distinct, so the entries are a table as they stand.
    have hresolved : Table.Resolved (fun _ => decoder.fromValue) as es :=
      Table.mapM_eq_ok_iff_resolved.1 hes
    have hnodup' : (Table.keys es).Nodup := by rwa [hresolved.keys_eq]
    rw [Table.ofEntries_of_nodup_keys hnodup',
      Table.ofEntries_of_nodup_keys ((hpermEntries.map Prod.fst).nodup_iff.1 hnodup')]
    exact hpermEntries
  | _ =>
    have hkind := hrearranged.kind_eq
    cases b <;> first
      | simp [Value.kind] at hkind; done
      | exact .error trivial

end Decoder

/-! ## Records -/

/-- Two fields may change a record in either order. -/
def Field.CommutesWith (f g : Field σ) : Prop :=
  ∀ ⦃a b : Value⦄ ⦃c d : σ → σ⦄, f.change.fromValue a = .ok c → g.change.fromValue b = .ok d →
    ∀ s, c (d s) = d (c s)

instance : Std.Symm (@Field.CommutesWith σ) where
  symm _ _ h _ _ _ _ hc hd s := (h hd hc s).symm

theorem commutesWith_of_map {f g : Field σ} {decoder : Decoder α} {decoder' : Decoder β}
    {set : α → σ → σ} {set' : β → σ → σ} (hf : f.change = decoder.map set)
    (hg : g.change = decoder'.map set') (h : ∀ a b s, set a (set' b s) = set' b (set a s)) :
    f.CommutesWith g := by
  intro _ _ c d hc hd s
  rw [hf] at hc
  rw [hg] at hd
  obtain ⟨a, _, rfl⟩ := map_eq_ok_iff.1 hc
  obtain ⟨b, _, rfl⟩ := map_eq_ok_iff.1 hd
  exact h a b s

@[simp] theorem Field.commutesWith_optional {name name' : String} {decoder : Decoder α}
    {decoder' : Decoder β} {set : α → σ → σ} {set' : β → σ → σ}
    (h : ∀ a b s, set a (set' b s) = set' b (set a s)) :
    (optional name decoder set).CommutesWith (optional name' decoder' set') :=
  commutesWith_of_map rfl rfl h

@[simp] theorem Field.commutesWith_mandatory {name name' : String} {decoder : Decoder α}
    {decoder' : Decoder β} {set : α → σ → σ} {set' : β → σ → σ}
    (h : ∀ a b s, set a (set' b s) = set' b (set a s)) :
    (mandatory name decoder set).CommutesWith (mandatory name' decoder' set') :=
  commutesWith_of_map rfl rfl h

namespace Record

variable {record : Record σ} {R : σ → σ → Prop}

/-- The fields of a record change different parts of it. -/
def FieldsCommute (record : Record σ) : Prop :=
  record.fields.Pairwise Field.CommutesWith

theorem FieldsCommute.change (h : record.FieldsCommute) {name name' : String} {f g : Field σ}
    (hf : record.field? name = some f) (hg : record.field? name' = some g) (hne : name ≠ name') :
    f.CommutesWith g := by
  have hfname : f.name = name := by simpa using List.find?_some hf
  have hgname : g.name = name' := by simpa using List.find?_some hg
  refine List.Pairwise.forall h (List.mem_of_find?_eq_some hf) (List.mem_of_find?_eq_some hg) ?_
  rintro rfl
  exact hne (hfname.symm.trans hgname)

theorem takeMembers_cons_of_none {name : String} (h : record.field? name = none) (value : Value)
    (rest : List (String × Value)) (seen : List String) (state : σ) :
    record.takeMembers seen state ((name, value) :: rest) = record.takeMembers seen state rest := by
  rw [takeMembers, h]

theorem takeMembers_cons_of_some {name : String} {field : Field σ}
    (h : record.field? name = some field) (value : Value) (rest : List (String × Value))
    (seen : List String) (state : σ) :
    record.takeMembers seen state ((name, value) :: rest) =
      field.change.fromValue value >>= fun change =>
        record.takeMembers (name :: seen) (change state) rest := by
  rw [takeMembers, h]

/-- Only which names have been seen counts, not when. -/
theorem takeMembers_seen (members : List (String × Value)) {seen seen' : List String} (state : σ)
    (h : ∀ name, name ∈ seen ↔ name ∈ seen') :
    record.takeMembers seen state members = record.takeMembers seen' state members := by
  induction members generalizing seen seen' state with
  | nil => simp only [takeMembers, finish, missing?, List.contains_eq_mem, h]
  | cons member rest ih =>
    obtain ⟨name, value⟩ := member
    cases hfield : record.field? name with
    | none => rw [takeMembers_cons_of_none hfield, takeMembers_cons_of_none hfield, ih state h]
    | some field =>
      rw [takeMembers_cons_of_some hfield, takeMembers_cons_of_some hfield]
      congr 1
      funext change
      exact ih (change state) fun other => by simp [h]

/-- Two members with different names may be taken in either order. -/
theorem takeMembers_swap (hcommute : record.FieldsCommute) {first second : String × Value}
    (hne : first.1 ≠ second.1) (rest : List (String × Value)) (seen : List String) (state : σ) :
    BothEnd Eq (record.takeMembers seen state (first :: second :: rest))
      (record.takeMembers seen state (second :: first :: rest)) := by
  obtain ⟨name, a⟩ := first
  obtain ⟨name', b⟩ := second
  cases hf : record.field? name with
  | none =>
    rw [takeMembers_cons_of_none hf]
    cases hg : record.field? name' with
    | none =>
      rw [takeMembers_cons_of_none hg, takeMembers_cons_of_none hg, takeMembers_cons_of_none hf]
      exact .same _
    | some g =>
      simp only [takeMembers_cons_of_some hg, takeMembers_cons_of_none hf]
      exact .same _
  | some f =>
    cases hg : record.field? name' with
    | none =>
      simp only [takeMembers_cons_of_some hf, takeMembers_cons_of_none hg]
      exact .same _
    | some g =>
      simp only [takeMembers_cons_of_some hf, takeMembers_cons_of_some hg]
      cases hc : f.change.fromValue a with
      | error _ => cases g.change.fromValue b <;> exact .error trivial
      | ok c =>
        cases hd : g.change.fromValue b with
        | error _ => exact .error trivial
        | ok d =>
          have hstate : d (c state) = c (d state) := (hcommute.change hf hg hne hc hd state).symm
          have hseen : ∀ other, other ∈ name' :: name :: seen ↔ other ∈ name :: name' :: seen :=
            fun other => (List.Perm.swap name name' seen).mem_iff
          show BothEnd Eq (record.takeMembers (name' :: name :: seen) (d (c state)) rest)
            (record.takeMembers (name :: name' :: seen) (c (d state)) rest)
          rw [hstate, takeMembers_seen rest _ hseen]
          exact .same _

/-- Members with distinct names may be taken in any order. -/
theorem takeMembers_perm (hcommute : record.FieldsCommute) {as bs : List (String × Value)}
    (hkeys : (Table.keys as).Nodup) (h : as.Perm bs) (seen : List String) (state : σ) :
    BothEnd Eq (record.takeMembers seen state as) (record.takeMembers seen state bs) := by
  induction h generalizing seen state with
  | nil => exact .same _
  | cons member _ ih =>
    obtain ⟨name, value⟩ := member
    have hrest := (List.nodup_cons.1 hkeys).2
    cases hfield : record.field? name with
    | none =>
      rw [takeMembers_cons_of_none hfield, takeMembers_cons_of_none hfield]
      exact ih hrest seen state
    | some field =>
      rw [takeMembers_cons_of_some hfield, takeMembers_cons_of_some hfield]
      cases field.change.fromValue value with
      | error _ => exact .error trivial
      | ok change => exact ih hrest (name :: seen) (change state)
  | swap first second rest =>
    have hne : second.1 ≠ first.1 := fun heq => by simp [Table.keys, heq] at hkeys
    exact takeMembers_swap hcommute hne rest seen state
  | trans hfirst _ ih ih' =>
    exact (ih hkeys seen state).trans (fun _ _ _ h h' => h.trans h')
      (ih' ((hfirst.map Prod.fst).nodup_iff.1 hkeys) seen state)

/-- The items of a list of fields, and rearranged ones. -/
theorem itemsRelated_of_forall₂ {V : Value → Value → Prop} {as bs : List Value}
    (h : List.Forall₂ V as bs) (fields : List (Field σ)) :
    ItemsRelated (fun _ => V) fields as bs := by
  induction h generalizing fields with
  | nil => exact .nil
  | cons hab hrest ih =>
    cases fields with
    | nil => exact .surplus (by simp [hrest.length_eq])
    | cons field fields => exact .cons hab (ih fields)

/-- A record is taken from an object in whatever order its members stand. -/
theorem orderBlind_decoder (hcommute : record.FieldsCommute)
    (hfields : ∀ field ∈ record.fields, field.ChangesAlike (fun _ _ => True) Reorders R)
    (hinitial : R record.initial record.initial) : record.decoder.OrderBlind R := by
  have hrelated : record.decoder.TakesAlike (fun _ _ => True)
      (record.Related fun _ => Reorders) R :=
    takesAlike_decoder (fun _ => trivial) hfields hinitial
  intro a b hab
  obtain ⟨hkeys, hrearranged⟩ := hab
  cases hkeys with
  | @object as hnodup hparts =>
    obtain ⟨bs, cs, rfl, hperm, hmembers⟩ := rearranged_object_iff.1 hrearranged
    exact (takeMembers_perm hcommute hnodup hperm [] record.initial).trans
      (fun _ _ _ heq h => heq ▸ h)
      (hrelated (.object (Decoder.membersReorder hparts hperm hmembers)))
  | @array as hparts =>
    obtain ⟨bs, rfl, hitems⟩ := rearranged_array_iff.1 hrearranged
    have hboth := Decoder.itemsReorder hparts hitems
    exact hrelated (.list (itemsRelated_of_forall₂ hboth record.fields))
  | _ =>
    rw [hrearranged.eq_of_leaf nofun nofun]
    exact hrelated (.leaf nofun nofun)

end Record

end BuildFacts.Json
