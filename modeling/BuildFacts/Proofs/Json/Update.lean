import BuildFacts.Proofs.Json.Alike
import BuildFacts.Proofs.Json.Written

/-!
# Values with a field changed

`Record.update` changes one field of a value that a record is taken from, in either form of the
record, and `Value.withoutKeys` leaves out members of an object.

`Record.related_update` relates the changed value to the one before, so that what is taken from
the two can be compared.  A table that is taken from an object without some members is the table
without their entries (`Decoder.fromValue_withoutKeys`).
-/

namespace BuildFacts

/-! ## Tables without some entries -/

namespace Table

variable {ε α β : Type} {keys : List String}

/-- A table without its entries under some keys. -/
def withoutKeys (keys : List String) (table : Table α) : Table α :=
  table.filter fun entry => !keys.contains entry.1

@[simp] theorem withoutKeys_cons (entry : String × α) (table : Table α) :
    withoutKeys keys (entry :: table) =
      if entry.1 ∈ keys then withoutKeys keys table else entry :: withoutKeys keys table := by
  by_cases hkey : entry.1 ∈ keys <;> simp [withoutKeys, hkey]

theorem lookup_withoutKeys {key : String} (hkey : key ∉ keys) (table : Table α) :
    (table.withoutKeys keys).lookup key = table.lookup key := by
  induction table with
  | nil => rfl
  | cons entry table ih =>
    obtain ⟨other, a⟩ := entry
    rw [withoutKeys_cons, List.lookup_cons]
    by_cases heq : key = other
    · subst heq
      rw [if_neg hkey, List.lookup_cons]
      simp
    · have hne : (key == other) = false := beq_eq_false_iff_ne.2 heq
      rw [hne]
      by_cases hother : other ∈ keys
      · rw [if_pos hother, ih]
      · rw [if_neg hother, List.lookup_cons, hne, ih]

/-- What a step makes of the entries that are kept. -/
theorem Resolved.withoutKeys {step : String → α → Except ε β} {before : Table α} {after : Table β}
    (h : Resolved step before after) (keys : List String) :
    Resolved step (before.withoutKeys keys) (after.withoutKeys keys) := by
  induction h with
  | nil => exact .nil
  | @cons old new before after hentry _ ih =>
    rw [withoutKeys_cons, withoutKeys_cons, hentry.1]
    by_cases hkey : old.1 ∈ keys
    · rwa [if_pos hkey, if_pos hkey]
    · rw [if_neg hkey, if_neg hkey]
      exact .cons hentry ih

end Table

namespace Json

variable {σ α : Type}

/-- An object without its members under some keys; a value that is no object as it is. -/
def Value.withoutKeys (keys : List String) : Value → Value
  | .object members => .object (Table.withoutKeys keys members)
  | value => value

/-- A table without some entries is taken from an object without their members. -/
theorem Decoder.fromValue_withoutKeys {decoder : Decoder α} {value : Value} {table : Table α}
    (h : decoder.table.fromValue value = .ok table) (keys : List String) :
    decoder.table.fromValue (value.withoutKeys keys) = .ok (table.withoutKeys keys) := by
  cases value with
  | object members =>
    obtain ⟨entries, hentries, rfl⟩ := map_eq_ok_iff.1 h
    have hresolved : Table.Resolved (fun _ value => decoder.fromValue value) members entries :=
      Table.mapM_eq_ok_iff_resolved.1 hentries
    refine map_eq_ok_iff.2 ⟨Table.withoutKeys keys entries,
      Table.mapM_eq_ok_iff_resolved.2 (hresolved.withoutKeys keys), ?_⟩
    exact (Table.filter_ofEntries (fun key => !keys.contains key) entries).symm
  | _ => exact nomatch h

/-! ## Fields that are changed -/

namespace Record

variable {record : Record σ} {name : String} {f : Value → Value}

/-- A value of a record with the value of a field changed: the member of an object with the name
of the field, or the item of a list at its place. -/
def update (record : Record σ) (name : String) (f : Value → Value) : Value → Value
  | .object members =>
    .object (members.map fun member =>
      if member.1 = name then (member.1, f member.2) else member)
  | .array items =>
    .array (items.mapIdx fun index item =>
      if (record.fields.map (·.name))[index]? = some name then f item else item)
  | value => value

variable {V : String → Value → Value → Prop}

theorem itemsRelated_mapIdx {fields : List (Field σ)} (hnames : (fields.map (·.name)).Nodup)
    {items : List Value}
    (hname : ∀ part, ((fields.map (·.name)).zip items).lookup name = some part →
      V name part (f part))
    (hother : ∀ other part, other ≠ name → V other part part) :
    ItemsRelated V fields items (items.mapIdx fun index item =>
      if (fields.map (·.name))[index]? = some name then f item else item) := by
  induction fields generalizing items with
  | nil => exact .surplus (by simp)
  | cons field fields ih =>
    cases items with
    | nil => exact .nil
    | cons item items =>
      rw [List.map_cons, List.nodup_cons] at hnames
      rw [List.mapIdx_cons]
      simp only [List.map_cons, List.zip_cons_cons, List.lookup_cons, List.getElem?_cons_zero,
        List.getElem?_cons_succ, Option.some.injEq] at hname ⊢
      by_cases heq : field.name = name
      · -- No later field has this name, so the items behind stay as they are.
        rw [if_pos heq]
        subst heq
        refine .cons (hname item (by simp)) (ih hnames.2 fun part hpart => ?_)
        have hmem := (List.of_mem_zip (Table.mem_of_lookup hpart)).1
        exact absurd hmem hnames.1
      · rw [if_neg heq]
        have hne : (name == field.name) = false := beq_eq_false_iff_ne.2 (Ne.symm heq)
        simp only [hne] at hname
        exact .cons (hother _ _ heq) (ih hnames.2 hname)

/-- A value with a field changed is related to the value, where the value of this field is related
to the changed one, and values of other fields to themselves. -/
theorem related_update (hnames : (record.fields.map (·.name)).Nodup) {value : Value}
    (hkeys : value.KeysDistinct)
    (hname : ∀ part, record.written? name value = some part → V name part (f part))
    (hother : ∀ other part, other ≠ name → V other part part) :
    record.Related V value (record.update name f value) := by
  cases hkeys with
  | @object members hkeys _ =>
    refine .object ?_
    rw [Table.Entrywise, List.forall₂_map_right_iff, List.forall₂_same]
    rintro ⟨other, part⟩ hmem
    by_cases heq : other = name
    · subst heq
      rw [if_pos rfl]
      exact ⟨rfl, hname part ((Table.lookup_eq_some_iff_mem hkeys).2 hmem)⟩
    · rw [if_neg heq]
      exact ⟨rfl, hother other part heq⟩
  | array _ => exact .list (itemsRelated_mapIdx hnames hname hother)
  | null | bool | number | string => exact .leaf nofun nofun

end Record

end Json

end BuildFacts
