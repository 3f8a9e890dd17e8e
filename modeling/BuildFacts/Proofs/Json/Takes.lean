import BuildFacts.Proofs.Json.Record

/-!
# Which values a decoder takes

`Decoder.Takes decoder value` says that a decoder takes data from a value, whatever the data
are.  There is a lemma for each way to make a decoder: it takes a list where its decoder takes
each item, a table where its decoder takes the value of each entry, and a record from an object
where the fields take their members and no required member is absent.
-/

namespace BuildFacts.Json

variable {σ α β : Type}

/-- A decoder takes data from a value. -/
def Decoder.Takes (decoder : Decoder α) (value : Value) : Prop :=
  ∃ a, decoder.fromValue value = .ok a

namespace Decoder

variable {decoder : Decoder α} {value : Value}

theorem takes_map_iff {f : α → β} : (decoder.map f).Takes value ↔ decoder.Takes value :=
  exists_map_eq_ok_iff

theorem takes_text_iff {expected : String} :
    (text expected).Takes value ↔ value.kind = .string := by
  cases value <;> simp [Takes, text, Value.kind]

theorem takes_optional_iff :
    decoder.optional.Takes value ↔ value = .null ∨ decoder.Takes value := by
  cases value with
  | null => exact iff_of_true ⟨none, rfl⟩ (.inl rfl)
  | _ => exact takes_map_iff.trans (or_iff_right nofun).symm

theorem takes_list_iff :
    decoder.list.Takes value ↔
      ∃ items, value = .array items ∧ ∀ item ∈ items, decoder.Takes item := by
  cases value with
  | array items =>
    simp only [Takes, list, mapM_eq_ok_iff, exists_forall₂_iff, Value.array.injEq, exists_eq_left']
  | _ => simp [Takes, list]

theorem takes_table_iff :
    decoder.table.Takes value ↔
      ∃ members, value = .object members ∧ ∀ member ∈ members, decoder.Takes member.2 := by
  cases value with
  | object members =>
    simp only [Takes, table, exists_map_eq_ok_iff, mapM_eq_ok_iff, exists_forall₂_iff,
      Value.object.injEq, exists_eq_left']
  | _ => simp [Takes, table]

end Decoder

/-! ## Records -/

namespace Record

variable {record : Record σ}

theorem field?_eq_none_iff {name : String} :
    record.field? name = none ↔ ∀ field ∈ record.fields, field.name ≠ name := by
  simp [field?]

theorem missing?_eq_none_iff {seen : List String} :
    record.missing? seen = none ↔
      ∀ field ∈ record.fields, field.required = true → field.name ∈ seen := by
  simp [missing?]

/-- The members still to come are taken if each of them is, and if they complete the record. -/
theorem exists_takeMembers_iff {members : List (String × Value)} {seen : List String} {state : σ} :
    (∃ result, record.takeMembers seen state members = .ok result) ↔
      (∀ field ∈ record.fields, field.required = true →
        field.name ∈ seen ∨ field.name ∈ Table.keys members) ∧
      ∀ member ∈ members, ∀ field, record.field? member.1 = some field →
        field.change.Takes member.2 := by
  induction members generalizing seen state with
  | nil =>
    simp [takeMembers, finish, orFault_eq_ok_iff, missing?_eq_none_iff, Table.keys]
  | cons member rest ih =>
    obtain ⟨name, value⟩ := member
    rw [takeMembers, List.forall_mem_cons]
    split
    · rename_i hnone
      have hname := field?_eq_none_iff.1 hnone
      rw [ih]
      refine and_congr ?_ ?_
      · simp only [Table.keys, List.map_cons, List.mem_cons]
        refine forall₂_congr fun field hfield => ?_
        simp [hname field hfield]
      · simp [hnone]
    · rename_i field hfield
      -- Whether the name counts as seen or as still to come makes no difference.
      have hseen (other : String) : other ∈ seen ∨ other ∈ Table.keys ((name, value) :: rest) ↔
          other ∈ name :: seen ∨ other ∈ Table.keys rest := by
        simp only [Table.keys, List.map_cons, List.mem_cons]
        exact or_left_comm.trans or_assoc.symm
      simp only [bind_eq_ok_iff, hseen]
      constructor
      · rintro ⟨result, change, hchange, htake⟩
        obtain ⟨hrequired, hrest⟩ := ih.1 ⟨result, htake⟩
        refine ⟨hrequired, fun other hother => ?_, hrest⟩
        obtain rfl := Option.some.inj (hfield.symm.trans hother)
        exact ⟨change, hchange⟩
      · rintro ⟨hrequired, hfirst, hrest⟩
        obtain ⟨change, hchange⟩ := hfirst field hfield
        obtain ⟨result, hresult⟩ := ih.2 ⟨hrequired, hrest⟩
        exact ⟨result, change, hchange, hresult⟩

/-- A record is taken from an object with distinct keys if the fields take their members, and no
required member is absent. -/
theorem takes_decoder_iff {value : Value} (hkeys : value.KeysDistinct)
    (hkind : value.kind = .object) :
    record.decoder.Takes value ↔
      (∀ field ∈ record.fields, field.required = true → (value.member? field.name).isSome) ∧
      ∀ name part field, value.member? name = some part → record.field? name = some field →
        field.change.Takes part := by
  cases hkeys with
  | @object members hkeys _ =>
    simp only [Value.isSome_member?_object_iff, Value.member?_object_eq_some_iff hkeys]
    refine exists_takeMembers_iff.trans (and_congr ?_ ?_)
    · simp
    · constructor
      · intro h name part field hmem hfield
        exact h (name, part) hmem field hfield
      · intro h member hmem field hfield
        exact h member.1 member.2 field hmem hfield
  | _ => simp [Value.kind] at hkind

end Record

end BuildFacts.Json
