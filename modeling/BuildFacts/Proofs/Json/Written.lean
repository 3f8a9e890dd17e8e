import BuildFacts.Proofs.Json.Record

/-!
# The fields of a record as they are written

A record is written as an object or as a list of its fields.  `Record.written?` finds a
field in either form, and `Part.fromValue_written` says that the part of the record which
the field fills is what was taken from there.  A field that is not written leaves the
initial form as it is.

For a field that holds a table, `Part.lookup_eq_some_iff` follows one entry of the table.
-/

namespace BuildFacts.Json

variable {σ α : Type}

namespace Record

/-- The value of a field as it is written: the member of an object with the name of the
field, or the item of a list at its place. -/
def written? (record : Record σ) (name : String) : Value → Option Value
  | .object members => members.lookup name
  | .array items => ((record.fields.map (·.name)).zip items).lookup name
  | _ => none

theorem written?_of_object {record : Record σ} {name : String} {value : Value}
    (hkind : value.kind = .object) : record.written? name value = value.member? name := by
  cases value with
  | object members => rfl
  | _ => simp [Value.kind] at hkind

end Record

/-- A field of a value with distinct keys has distinct keys. -/
theorem Value.KeysDistinct.written {record : Record σ} {name : String}
    {value part : Value} (h : value.KeysDistinct) (hpart : record.written? name value = some part) :
    part.KeysDistinct := by
  cases h with
  | object _ hmembers => exact hmembers _ (Table.mem_of_lookup hpart)
  | array hitems => exact hitems part (List.of_mem_zip (Table.mem_of_lookup hpart)).2
  | _ => simp [Record.written?] at hpart

namespace Record

namespace Part

variable {record : Record σ} {name : String} {decoder : Decoder α} {get : σ → α}

/-- Items at the places of other fields leave the part as it is. -/
theorem takeItems_absent (h : record.Part name decoder get) {fields : List (Field σ)}
    (hfields : fields ⊆ record.fields) {values : List Value} {total index : Nat}
    {state result : σ} (htake : record.takeItems total index state fields values = .ok result)
    (hname : ((fields.map (·.name)).zip values).lookup name = none) :
    get result = get state := by
  induction fields generalizing index state values with
  | nil =>
    cases values with
    | nil => rw [Except.ok.inj htake]
    | cons value values => simp [takeItems] at htake
  | cons field fields ih =>
    obtain ⟨hfield, hfields⟩ := List.cons_subset.1 hfields
    cases values with
    | nil =>
      rw [takeItems] at htake
      split at htake
      · simp at htake
      · exact ih hfields htake (by simp)
    | cons value values =>
      obtain ⟨change, hchange, htake⟩ := bind_eq_ok_iff.1 htake
      rw [List.map_cons, List.zip_cons_cons, List.lookup_cons] at hname
      split at hname
      · simp at hname
      · rename_i hne
        have hne : field.name ≠ name := fun heq => by simp [heq] at hne
        have hkeeps : field.Keeps get := by simpa [hne] using h.fields field hfield
        rw [ih hfields htake hname, hkeeps.get_change hchange]

/-- An item at the place of the field writes the part. -/
theorem takeItems_written (h : record.Part name decoder get) {fields : List (Field σ)}
    (hfields : fields ⊆ record.fields) (hnames : (fields.map (·.name)).Nodup)
    {values : List Value} {total index : Nat} {state result : σ} {part : Value}
    (htake : record.takeItems total index state fields values = .ok result)
    (hname : ((fields.map (·.name)).zip values).lookup name = some part) :
    decoder.fromValue part = .ok (get result) := by
  induction fields generalizing index state values with
  | nil => simp at hname
  | cons field fields ih =>
    obtain ⟨hfield, hfields⟩ := List.cons_subset.1 hfields
    rw [List.map_cons, List.nodup_cons] at hnames
    cases values with
    | nil => simp at hname
    | cons value values =>
      obtain ⟨change, hchange, htake⟩ := bind_eq_ok_iff.1 htake
      rw [List.map_cons, List.zip_cons_cons, List.lookup_cons] at hname
      by_cases heq : field.name = name
      · -- No later field has this name, so what is written here stays.
        subst heq
        simp only [beq_self_eq_true, Option.some.injEq] at hname
        subst hname
        have hsets : field.Sets decoder get := by simpa using h.fields field hfield
        have hrest : ((fields.map (·.name)).zip values).lookup field.name = none := by
          rw [Table.lookup_eq_none_iff_notMem, Table.mem_keys]
          exact fun ⟨_, hmem⟩ => hnames.1 (List.of_mem_zip hmem).1
        rw [h.takeItems_absent hfields htake hrest]
        exact hsets.get_change hchange state
      · have hne : (name == field.name) = false := beq_eq_false_iff_ne.2 fun h => heq h.symm
        rw [hne] at hname
        exact ih hfields hnames.2 htake hname

/-- The part of a record that a field fills is what is taken from the field as it is
written, or the initial one. -/
theorem fromValue_written (h : record.Part name decoder get)
    (hnames : (record.fields.map (·.name)).Nodup) {value : Value} {result : σ}
    (hkeys : value.KeysDistinct) (hresult : record.decoder.fromValue value = .ok result) :
    match record.written? name value with
    | some part => decoder.fromValue part = .ok (get result)
    | none => get result = get record.initial := by
  cases value with
  | array items =>
    split
    · rename_i part hpart
      exact h.takeItems_written (fun _ hf => hf) hnames hresult hpart
    · rename_i habsent
      exact h.takeItems_absent (fun _ hf => hf) hresult habsent
  | object members =>
    split
    · rename_i part hpart
      exact h.fromValue_member hkeys hresult hpart
    · rename_i habsent
      exact h.fromValue_absent rfl hresult habsent
  | _ => simp [Record.decoder] at hresult

section Tables

variable {get : σ → Table α} (h : record.Part name decoder.table get)
  (hnames : (record.fields.map (·.name)).Nodup) (hinitial : get record.initial = [])
  {value : Value} {result : σ} (hkeys : value.KeysDistinct)
  (hresult : record.decoder.fromValue value = .ok result) {key : String}

include h hnames hkeys hresult

/-- A table is taken from an object entry by entry. -/
theorem resolved_of_written {table : Value} (htable : record.written? name value = some table) :
    ∃ members, table = .object members ∧
      Table.Resolved (fun _ value => decoder.fromValue value) members (get result) := by
  have hwritten := h.fromValue_written hnames hkeys hresult
  rw [htable] at hwritten
  exact resolved_of_fromValue_table (hkeys.written htable) hwritten

/-- What stands under a key of a table is taken from the entry as it is written. -/
theorem lookup_of_written {part : Value}
    (hpart : (record.written? name value).bind (·.member? key) = some part) :
    ∃ a, decoder.fromValue part = .ok a ∧ (get result).lookup key = some a := by
  obtain ⟨table, htable, hmember⟩ := Option.bind_eq_some_iff.1 hpart
  obtain ⟨members, rfl, hresolved⟩ := h.resolved_of_written hnames hkeys hresult htable
  exact hresolved.lookup hmember

include hinitial

/-- A table has no entry that is not written. -/
theorem lookup_of_not_written
    (habsent : (record.written? name value).bind (·.member? key) = none) :
    (get result).lookup key = none := by
  cases htable : record.written? name value with
  | none =>
    have hwritten := h.fromValue_written hnames hkeys hresult
    rw [htable] at hwritten
    rw [hwritten, hinitial, List.lookup_nil]
  | some table =>
    obtain ⟨members, rfl, hresolved⟩ := h.resolved_of_written hnames hkeys hresult htable
    rw [htable, Option.bind_some] at habsent
    exact hresolved.lookup_eq_none habsent

theorem lookup_eq_some_iff {a : α} :
    (get result).lookup key = some a ↔
      ∃ part, (record.written? name value).bind (·.member? key) = some part ∧
        decoder.fromValue part = .ok a := by
  cases hpart : (record.written? name value).bind (·.member? key) with
  | none => simp [h.lookup_of_not_written hnames hinitial hkeys hresult hpart]
  | some part =>
    obtain ⟨found, hfound, hlookup⟩ := h.lookup_of_written hnames hkeys hresult hpart
    simp [hfound, hlookup]

end Tables

end Part

end Record

end BuildFacts.Json
