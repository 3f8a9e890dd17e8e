import BuildFacts.Proofs.Alike
import BuildFacts.Table

/-!
# Tables whose keys are distinct

`Table.ofEntries` leaves each key once (`nodup_keys_ofEntries`) and changes
nothing about a list that has each key once already
(`ofEntries_of_nodup_keys`).

In such a table an entry and what is looked up under its key are the same
(`lookup_eq_some_iff_mem`).  Leaving out some keys commutes with writing
(`filter_ofEntries`).

`Entrywise` relates two tables entry by entry, under the same keys.  `Resolved`
relates a table to the one that a step makes of it in this way.
-/

namespace BuildFacts.Table

variable {ε α β : Type}

/-! ## Keys and entries -/

theorem mem_keys {key : String} {table : Table α} :
    key ∈ table.keys ↔ ∃ value, (key, value) ∈ table := by
  simp [keys]

theorem lookup_eq_none_iff_notMem {key : String} {table : Table α} :
    table.lookup key = none ↔ key ∉ table.keys := by
  simp only [List.lookup_eq_none_iff, mem_keys, not_exists]
  constructor
  · intro h value hmem
    simpa using h (key, value) hmem
  · rintro h ⟨k, value⟩ hmem
    rw [bne_iff_ne]
    rintro rfl
    exact h value hmem

theorem mem_of_lookup {key : String} {value : α} {table : Table α}
    (h : table.lookup key = some value) : (key, value) ∈ table := by
  obtain ⟨before, after, rfl, _⟩ := List.lookup_eq_some_iff.1 h
  simp

/-- Where keys are distinct, an entry is what its key looks up. -/
theorem lookup_eq_some_iff_mem {key : String} {value : α} {table : Table α}
    (hkeys : table.keys.Nodup) : table.lookup key = some value ↔ (key, value) ∈ table := by
  refine ⟨mem_of_lookup, fun hmem => ?_⟩
  induction table with
  | nil => simp at hmem
  | cons entry rest ih =>
    obtain ⟨k, v⟩ := entry
    simp only [keys, List.map_cons, List.nodup_cons] at hkeys
    rcases List.mem_cons.1 hmem with heq | hrest
    · simp only [Prod.mk.injEq] at heq
      simp [heq.1, heq.2]
    · have hne : (key == k) = false := by
        rw [beq_eq_false_iff_ne]
        rintro rfl
        exact hkeys.1 (mem_keys.2 ⟨value, hrest⟩)
      rw [List.lookup_cons, hne]
      exact ih hkeys.2 hrest

/-- Where keys are distinct, what is looked up does not depend on the order of the entries. -/
theorem lookup_eq_of_perm {table other : Table α} (hkeys : table.keys.Nodup)
    (h : table.Perm other) (key : String) : other.lookup key = table.lookup key := by
  have hkeys' : other.keys.Nodup := (h.map Prod.fst).nodup_iff.1 hkeys
  refine Option.ext fun value => ?_
  rw [lookup_eq_some_iff_mem hkeys', lookup_eq_some_iff_mem hkeys, h.mem_iff]

/-! ## Tables from entries -/

/-- Writing an entry adds its key at the end, or leaves the keys as they are. -/
theorem keys_insert (key : String) (value : α) (table : Table α) :
    (table.insert key value).keys =
      if key ∈ table.keys then table.keys else table.keys ++ [key] := by
  induction table with
  | nil => simp [insert, keys]
  | cons entry rest ih =>
    obtain ⟨k, v⟩ := entry
    by_cases hk : k = key
    · simp [insert, keys, hk]
    · have hne : ¬key = k := fun h => hk h.symm
      simp only [insert, if_neg hk]
      simp only [keys, List.map_cons, List.mem_cons, hne, false_or] at ih ⊢
      rw [ih]
      by_cases hmem : key ∈ rest.map Prod.fst <;> simp [hmem]

theorem nodup_keys_insert {key : String} {table : Table α} (value : α)
    (hkeys : table.keys.Nodup) : (table.insert key value).keys.Nodup := by
  rw [keys_insert]
  split
  · exact hkeys
  · rename_i hkey
    refine List.nodup_append.2 ⟨hkeys, by simp, ?_⟩
    intro k hk k' hk' heq
    rw [List.mem_singleton.1 hk'] at heq
    exact hkey (heq ▸ hk)

/-- A table has each key once. -/
theorem nodup_keys_ofEntries (entries : List (String × α)) : (ofEntries entries).keys.Nodup := by
  suffices h : ∀ table : Table α, table.keys.Nodup →
      (entries.foldl (fun table entry => table.insert entry.1 entry.2) table).keys.Nodup from
    h [] (by simp [keys])
  induction entries with
  | nil => exact fun _ hkeys => hkeys
  | cons entry rest ih =>
    intro table hkeys
    exact ih _ (nodup_keys_insert entry.2 hkeys)

/-- An entry of a table is one of those that wrote it. -/
theorem mem_of_mem_ofEntries {entry : String × α} {entries : List (String × α)}
    (h : entry ∈ ofEntries entries) : entry ∈ entries := by
  have hinsert : ∀ (table : Table α) (e : String × α),
      entry ∈ table.insert e.1 e.2 → entry ∈ table ∨ entry = e := by
    intro table e
    induction table with
    | nil => simp [insert]
    | cons first rest ih =>
      intro hmem
      rw [insert] at hmem
      split at hmem
      · rcases List.mem_cons.1 hmem with heq | hrest
        · exact .inr heq
        · exact .inl (List.mem_cons_of_mem _ hrest)
      · rcases List.mem_cons.1 hmem with heq | hrest
        · exact .inl (heq ▸ List.mem_cons_self)
        · exact (ih hrest).imp_left (List.mem_cons_of_mem _)
  suffices hfold : ∀ table : Table α,
      entry ∈ entries.foldl (fun table entry => table.insert entry.1 entry.2) table →
        entry ∈ table ∨ entry ∈ entries by
    simpa using hfold [] h
  clear h
  induction entries with
  | nil => exact fun _ hmem => .inl hmem
  | cons e rest ih =>
    intro table hmem
    rcases ih _ hmem with htable | hrest
    · rcases hinsert table e htable with htable | rfl
      · exact .inl htable
      · exact .inr List.mem_cons_self
    · exact .inr (List.mem_cons_of_mem _ hrest)

private theorem foldl_insert_eq_append (entries table : Table α)
    (hkeys : (table ++ entries).keys.Nodup) :
    entries.foldl (fun table entry => table.insert entry.1 entry.2) table = table ++ entries := by
  induction entries generalizing table with
  | nil => simp
  | cons entry rest ih =>
    have hnotMem : entry.1 ∉ table.keys := by
      simp only [keys, List.map_append, List.map_cons, List.nodup_append] at hkeys
      exact fun h => hkeys.2.2 _ h _ List.mem_cons_self rfl
    rw [List.foldl_cons, insert_of_notMem hnotMem, ih, List.append_assoc, List.singleton_append]
    rwa [List.append_assoc, List.singleton_append]

/-- Entries with distinct keys are a table as they stand. -/
theorem ofEntries_of_nodup_keys {entries : Table α} (hkeys : entries.keys.Nodup) :
    ofEntries entries = entries := by
  simpa [ofEntries] using foldl_insert_eq_append entries [] (by simpa using hkeys)

/-- Leaving out some keys before entries are written, or after it. -/
theorem filter_ofEntries (keep : String → Bool) (entries : List (String × α)) :
    (ofEntries entries).filter (fun entry => keep entry.1) =
      ofEntries (entries.filter fun entry => keep entry.1) := by
  have hinsert : ∀ (key : String) (value : α) (table : Table α),
      (table.insert key value).filter (fun entry => keep entry.1) =
        if keep key then Table.insert key value (table.filter fun entry => keep entry.1)
        else table.filter fun entry => keep entry.1 := by
    intro key value table
    induction table with
    | nil => simp [insert, List.filter_cons]
    | cons entry rest ih =>
      obtain ⟨k, v⟩ := entry
      by_cases hk : k = key
      · subst hk
        by_cases hkeep : keep k = true <;> simp [insert, hkeep]
      · rw [insert, if_neg hk, List.filter_cons, List.filter_cons, ih]
        by_cases hkeep : keep key = true <;> by_cases hkeep' : keep k = true <;>
          simp [insert, hk, hkeep, hkeep']
  suffices hfold : ∀ table : Table α,
      (entries.foldl (fun table entry => table.insert entry.1 entry.2) table).filter
          (fun entry => keep entry.1) =
        (entries.filter fun entry => keep entry.1).foldl
          (fun table entry => Table.insert entry.1 entry.2 table)
          (table.filter fun entry => keep entry.1) from
    hfold []
  induction entries with
  | nil => exact fun _ => rfl
  | cons entry rest ih =>
    intro table
    rw [List.foldl_cons, ih, hinsert, List.filter_cons]
    by_cases hkeep : keep entry.1 = true <;> simp [hkeep]

/-! ## Entry by entry -/

/-- Two tables with the same keys in the same order, and related values under each of them. -/
def Entrywise (R : String → α → β → Prop) (before : Table α) (after : Table β) : Prop :=
  List.Forall₂ (fun old new => new.1 = old.1 ∧ R old.1 old.2 new.2) before after

namespace Entrywise

variable {R : String → α → β → Prop} {before : Table α} {after : Table β}

theorem keys_eq (h : Entrywise R before after) : after.keys = before.keys := by
  induction h with
  | nil => rfl
  | cons hentry _ ih =>
    simp only [keys, List.map_cons] at ih ⊢
    rw [hentry.1, ih]

/-- A key looks up related values, or nothing in either table. -/
theorem lookup (h : Entrywise R before after) (key : String) :
    Option.Rel (R key) (before.lookup key) (after.lookup key) := by
  induction h with
  | nil => exact .none
  | @cons old new _ _ hentry _ ih =>
    obtain ⟨k, b⟩ := new
    obtain ⟨k', a⟩ := old
    obtain ⟨rfl, hvalue⟩ := hentry
    rw [List.lookup_cons, List.lookup_cons]
    by_cases hk : key = k
    · subst hk
      rw [beq_self_eq_true]
      exact .some hvalue
    · rw [beq_false_of_ne hk]
      exact ih

/-- Writing related values under one key. -/
theorem insert (h : Entrywise R before after) {key : String} {a : α} {b : β} (hab : R key a b) :
    Entrywise R (before.insert key a) (after.insert key b) := by
  induction h with
  | nil => exact .cons ⟨rfl, hab⟩ .nil
  | @cons old new before after hentry hrest ih =>
    obtain ⟨k, c⟩ := new
    obtain ⟨k', a'⟩ := old
    obtain ⟨rfl, hold⟩ := hentry
    by_cases hk : k = key
    · rw [Table.insert, Table.insert, if_pos hk, if_pos hk]
      exact .cons ⟨rfl, hab⟩ hrest
    · rw [Table.insert, Table.insert, if_neg hk, if_neg hk]
      exact .cons ⟨rfl, hold⟩ ih

/-- The tables that two lists of entries write are related as the lists are. -/
theorem ofEntries (h : Entrywise R before after) :
    Entrywise R (Table.ofEntries before) (Table.ofEntries after) := by
  suffices hfold : ∀ table table', Entrywise R table table' →
      Entrywise R (before.foldl (fun table entry => table.insert entry.1 entry.2) table)
        (after.foldl (fun table entry => table.insert entry.1 entry.2) table') from
    hfold [] [] .nil
  induction h with
  | nil => exact fun _ _ htables => htables
  | @cons old new _ _ hentry _ ih =>
    intro table table' htables
    obtain ⟨k, b⟩ := new
    obtain ⟨k', a⟩ := old
    obtain ⟨rfl, hab⟩ := hentry
    exact ih _ _ (htables.insert hab)

end Entrywise

/-- The second table holds what `step` makes of the entries of the first one,
in the same order and under the same keys. -/
def Resolved (step : String → α → Except ε β) (before : Table α) (after : Table β) : Prop :=
  List.Forall₂ (fun old new => new.1 = old.1 ∧ step old.1 old.2 = .ok new.2) before after

theorem mapM_eq_ok_iff_resolved {step : String → α → Except ε β} {before : Table α}
    {after : Table β} :
    (before.mapM fun entry => (fun b => (entry.1, b)) <$> step entry.1 entry.2) = .ok after ↔
      Resolved step before after := by
  have hentry : (fun (old : String × α) (new : String × β) =>
      (fun b => (old.1, b)) <$> step old.1 old.2 = .ok new) =
      fun old new => new.1 = old.1 ∧ step old.1 old.2 = .ok new.2 := by
    ext old new
    obtain ⟨key, b⟩ := new
    rw [map_eq_ok_iff]
    constructor
    · intro ⟨b', hstep, heq⟩
      simp only [Prod.mk.injEq] at heq
      exact ⟨heq.1.symm, heq.2 ▸ hstep⟩
    · intro ⟨hkey, hstep⟩
      exact ⟨b, hstep, by simp only at hkey; rw [hkey]⟩
  rw [mapM_eq_ok_iff, Resolved, hentry]

namespace Resolved

variable {step : String → α → Except ε β} {before : Table α} {after : Table β}

theorem keys_eq (h : Resolved step before after) : after.keys = before.keys :=
  Entrywise.keys_eq (R := fun key a b => step key a = .ok b) h

/-- Looking up a key in the second table is looking it up in the first one, and
then the step. -/
theorem lookup (h : Resolved step before after) {key : String} {a : α}
    (hlookup : before.lookup key = some a) :
    ∃ b, step key a = .ok b ∧ after.lookup key = some b := by
  rcases rel_iff.1 (Entrywise.lookup (R := fun key a b => step key a = .ok b) h key) with
    ⟨hnone, _⟩ | ⟨_, b, hbefore, hafter, hstep⟩
  · simp [hnone] at hlookup
  · rw [hlookup, Option.some.injEq] at hbefore
    exact ⟨b, hbefore ▸ hstep, hafter⟩

theorem lookup_eq_none (h : Resolved step before after) {key : String}
    (hlookup : before.lookup key = none) : after.lookup key = none := by
  rw [lookup_eq_none_iff_notMem] at hlookup ⊢
  rwa [h.keys_eq]

/-- Every entry of the second table comes from one of the first. -/
theorem exists_of_mem (h : Resolved step before after) {key : String} {b : β}
    (hmem : (key, b) ∈ after) : ∃ a, (key, a) ∈ before ∧ step key a = .ok b := by
  induction h with
  | nil => simp at hmem
  | @cons old new _ _ hentry _ ih =>
    rcases List.mem_cons.1 hmem with heq | hrest
    · subst heq
      obtain ⟨k, a⟩ := old
      obtain ⟨rfl, hstep⟩ := hentry
      exact ⟨a, List.mem_cons_self, hstep⟩
    · obtain ⟨a, ha, hstep⟩ := ih hrest
      exact ⟨a, List.mem_cons_of_mem _ ha, hstep⟩

/-- Every entry of the first table leads to one of the second. -/
theorem exists_of_mem_before (h : Resolved step before after) {key : String} {a : α}
    (hmem : (key, a) ∈ before) : ∃ b, (key, b) ∈ after ∧ step key a = .ok b := by
  induction h with
  | nil => simp at hmem
  | @cons old new _ _ hentry _ ih =>
    rcases List.mem_cons.1 hmem with heq | hrest
    · subst heq
      obtain ⟨k, b⟩ := new
      obtain ⟨rfl, hstep⟩ := hentry
      exact ⟨b, List.mem_cons_self, hstep⟩
    · obtain ⟨b, hb, hstep⟩ := ih hrest
      exact ⟨b, List.mem_cons_of_mem _ hb, hstep⟩

/-- The tables that two lists of entries write are related as the lists are. -/
theorem ofEntries (h : Resolved step before after) :
    Resolved step (Table.ofEntries before) (Table.ofEntries after) :=
  Entrywise.ofEntries (R := fun key a b => step key a = .ok b) h

end Resolved

end BuildFacts.Table
