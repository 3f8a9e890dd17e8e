import BuildFacts.Json.Value
import BuildFacts.Proofs.Table

/-!
# Equal values

`Value.Equals` says which values are equal: the same text, the same number, items
that are equal one by one, and members that are equal key by key, in any order.
`same_eq_true_iff` says that `same` decides it.
-/

namespace BuildFacts.Json.Value

/-- Two values are equal, whatever the order of their members. -/
inductive Equals : Value → Value → Prop where
  | null : Equals .null .null
  | bool (b : Bool) : Equals (.bool b) (.bool b)
  | number {m n : Number} (h : m.same n) : Equals (.number m) (.number n)
  | string (s : String) : Equals (.string s) (.string s)
  | array {as bs : List Value} (hlength : as.length = bs.length)
      (hitems : ∀ pair ∈ as.zip bs, Equals pair.1 pair.2) : Equals (.array as) (.array bs)
  | object {as bs : Table Value} (hlength : as.length = bs.length)
      (hkeys : ∀ key ∈ as.keys, key ∈ bs.keys)
      (hmembers : ∀ key a b, (key, a) ∈ as → bs.lookup key = some b → Equals a b) :
      Equals (.object as) (.object bs)

theorem Equals.kind_eq {a b : Value} (h : Equals a b) : a.kind = b.kind := by
  cases h <;> rfl

/-- Values of two kinds are not the same. -/
theorem same_eq_false_of_kind {a b : Value} (h : a.kind ≠ b.kind) : a.same b = false := by
  cases a <;> cases b <;> first
    | exact absurd rfl h
    | rfl

mutual

/-- `same` decides whether two values are equal. -/
theorem same_eq_true_iff (a b : Value) : a.same b = true ↔ Equals a b := by
  by_cases hkind : a.kind = b.kind
  · cases a <;> cases b <;> try (simp [kind] at hkind; done)
    case null.null => exact iff_of_true rfl .null
    case bool.bool x y =>
      rw [same, beq_iff_eq]
      constructor
      · intro hxy
        exact hxy ▸ .bool x
      · intro h
        cases h
        rfl
    case number.number m n =>
      rw [same]
      constructor
      · exact .number
      · intro h
        cases h with
        | number hsame => exact hsame
    case string.string s t =>
      rw [same, beq_iff_eq]
      constructor
      · intro hst
        exact hst ▸ .string s
      · intro h
        cases h
        rfl
    case array.array as bs =>
      rw [same, sameItems_eq_true_iff as bs]
      constructor
      · intro ⟨hlength, hitems⟩
        exact .array hlength hitems
      · intro h
        cases h with
        | array hlength hitems => exact ⟨hlength, hitems⟩
    case object.object as bs =>
      rw [same, Bool.and_eq_true, beq_iff_eq, sameMembers_eq_true_iff as bs]
      constructor
      · intro ⟨hlength, hkeys, hmembers⟩
        exact .object hlength hkeys hmembers
      · intro h
        cases h with
        | object hlength hkeys hmembers => exact ⟨hlength, hkeys, hmembers⟩
  · rw [same_eq_false_of_kind hkind]
    exact iff_of_false Bool.false_ne_true fun h => hkind h.kind_eq

theorem sameItems_eq_true_iff (as bs : List Value) : sameItems as bs = true ↔
    as.length = bs.length ∧ ∀ pair ∈ as.zip bs, Equals pair.1 pair.2 := by
  match as, bs with
  | [], [] => simp [sameItems]
  | [], _ :: _ => simp [sameItems]
  | _ :: _, [] => simp [sameItems]
  | a :: as, b :: bs =>
    rw [sameItems, Bool.and_eq_true, same_eq_true_iff a b, sameItems_eq_true_iff as bs,
      List.zip_cons_cons, List.forall_mem_cons, List.length_cons, List.length_cons,
      Nat.add_right_cancel_iff]
    exact and_left_comm

theorem sameMembers_eq_true_iff (as bs : Table Value) : sameMembers as bs = true ↔
    (∀ key ∈ as.keys, key ∈ bs.keys) ∧
      ∀ key a b, (key, a) ∈ as → bs.lookup key = some b → Equals a b := by
  match as with
  | [] => simp [sameMembers, Table.keys]
  | (key, a) :: as =>
    rw [sameMembers, Bool.and_eq_true, sameMembers_eq_true_iff as bs]
    cases hfound : bs.lookup key with
    | none =>
      have hkey := Table.lookup_eq_none_iff_notMem.1 hfound
      exact iff_of_false (by simp) fun h => hkey (h.1 key (by simp [Table.keys]))
    | some b =>
      have hkey : key ∈ bs.keys := by
        by_contra hkey
        simp [Table.lookup_eq_none_iff_notMem.2 hkey] at hfound
      rw [same_eq_true_iff a b]
      constructor
      · intro ⟨hab, hkeys, hmembers⟩
        refine ⟨List.forall_mem_cons.2 ⟨hkey, hkeys⟩, fun key' a' b' hmem hfound' => ?_⟩
        rcases List.mem_cons.1 hmem with heq | hmem
        · obtain ⟨rfl, rfl⟩ := Prod.mk.inj heq
          obtain rfl := Option.some.inj (hfound.symm.trans hfound')
          exact hab
        · exact hmembers key' a' b' hmem hfound'
      · intro ⟨hkeys, hmembers⟩
        exact ⟨hmembers key a b List.mem_cons_self hfound, (List.forall_mem_cons.1 hkeys).2,
          fun key' a' b' hmem => hmembers key' a' b' (List.mem_cons_of_mem _ hmem)⟩

end

end BuildFacts.Json.Value
