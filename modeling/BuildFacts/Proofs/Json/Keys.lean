import BuildFacts.Json.Outline.Read
import BuildFacts.Proofs.Table

/-!
# Values whose objects have each key once

The members of an object are written in a text in any number, but a value that
was read has each key of an object once.  `Value.KeysDistinct` says so for the
objects at every depth, and `keysDistinct_of_parse` is the result: what `parse`
answers has distinct keys.
-/

namespace BuildFacts.Json

/-- No object in the value has a key twice. -/
inductive Value.KeysDistinct : Value → Prop where
  | null : KeysDistinct .null
  | bool (b : Bool) : KeysDistinct (.bool b)
  | number (n : Number) : KeysDistinct (.number n)
  | string (s : String) : KeysDistinct (.string s)
  | array {items : List Value} (hitems : ∀ item ∈ items, KeysDistinct item) :
      KeysDistinct (.array items)
  | object {members : List (String × Value)} (hkeys : (Table.keys members).Nodup)
      (hmembers : ∀ member ∈ members, KeysDistinct member.2) : KeysDistinct (.object members)

@[simp] theorem Value.keysDistinct_string (s : String) : (Value.string s).KeysDistinct :=
  .string s

@[simp] theorem Value.keysDistinct_array_iff {items : List Value} :
    (Value.array items).KeysDistinct ↔ ∀ item ∈ items, item.KeysDistinct :=
  ⟨fun | .array hitems => hitems, .array⟩

@[simp] theorem Value.keysDistinct_object_iff {members : List (String × Value)} :
    (Value.object members).KeysDistinct ↔
      (Table.keys members).Nodup ∧ ∀ member ∈ members, member.2.KeysDistinct :=
  ⟨fun | .object hkeys hmembers => ⟨hkeys, hmembers⟩, fun h => .object h.1 h.2⟩

/-- A member of a value with distinct keys has distinct keys. -/
theorem Value.KeysDistinct.member {value part : Value} {key : String} (h : value.KeysDistinct)
    (hmember : value.member? key = some part) : part.KeysDistinct := by
  cases h with
  | object _ hmembers => exact hmembers _ (Table.mem_of_lookup hmember)
  | _ => simp [Value.member?, Value.members?] at hmember

/-- Where keys are distinct, the member under a key is the one that stands with it. -/
theorem Value.member?_object_eq_some_iff {members : List (String × Value)}
    (hkeys : (Table.keys members).Nodup) {key : String} {part : Value} :
    (object members).member? key = some part ↔ (key, part) ∈ members :=
  Table.lookup_eq_some_iff_mem hkeys

theorem Value.isSome_member?_object_iff {members : List (String × Value)} {key : String} :
    ((object members).member? key).isSome ↔ key ∈ Table.keys members := by
  rw [Option.isSome_iff_ne_none, Ne, ← not_iff_not, not_not]
  exact Table.lookup_eq_none_iff_notMem

theorem orFault_eq_ok_iff {α : Type} {value result : α} {fault : Option Fault} :
    orFault value fault = .ok result ↔ fault = none ∧ value = result := by
  cases fault <;> simp [orFault]

/-- A text is read as its outline, and nothing but space stands behind it. -/
theorem readAll_eq_ok_iff {α : Type} {read : Outline → Except Fault α} {text : String}
    {a : α} :
    readAll read text = .ok a ↔
      read (Outline.scan text.toList).1 = .ok a ∧
        skipSpace (Outline.scan text.toList).2 = [] := by
  unfold readAll
  dsimp only
  cases read (Outline.scan text.toList).1 with
  | error fault => simp
  | ok b =>
    cases hrest : skipSpace (Outline.scan text.toList).2 with
    | nil => simp
    | cons c rest => simp

mutual

/-- A value that is read has distinct keys. -/
theorem Outline.keysDistinct_value :
    ∀ {outline : Outline} {depth : Nat} {value : Value},
      outline.value depth = .ok value → value.KeysDistinct
  | .missing, _, _, h => by simp [Outline.value] at h
  | .stray, _, _, h => by simp [Outline.value] at h
  | .word word _, _, _, h => by
    rw [Outline.value, orFault_eq_ok_iff] at h
    obtain ⟨_, rfl⟩ := h
    cases word
    · exact .null
    · exact .bool _
    · exact .bool _
  | .number _, _, _, h => by
    obtain ⟨n, _, rfl⟩ := map_eq_ok_iff.1 h
    exact .number n
  | .string _, _, _, h => by
    obtain ⟨s, _, rfl⟩ := map_eq_ok_iff.1 h
    exact .string s
  | .array _, 0, _, h => by simp [Outline.value] at h
  | .array items, depth + 1, _, h => by
    obtain ⟨values, hvalues, rfl⟩ := map_eq_ok_iff.1 h
    exact .array (Items.keysDistinct_values hvalues)
  | .object _, 0, _, h => by simp [Outline.value] at h
  | .object members, depth + 1, _, h => by
    obtain ⟨entries, hentries, rfl⟩ := map_eq_ok_iff.1 h
    exact .object (Table.nodup_keys_ofEntries entries) fun entry hentry =>
      Members.keysDistinct_entries hentries entry (Table.mem_of_mem_ofEntries hentry)

theorem Items.keysDistinct_values :
    ∀ {items : Items} {depth : Nat} {values : List Value},
      items.values depth = .ok values → ∀ value ∈ values, value.KeysDistinct
  | .ends _, _, _, h => by
    rw [Items.values, orFault_eq_ok_iff] at h
    obtain ⟨_, rfl⟩ := h
    simp
  | .item first rest, _, _, h => by
    rw [Items.values, bind_eq_ok_iff] at h
    obtain ⟨value, hvalue, h⟩ := h
    obtain ⟨values, hvalues, h⟩ := bind_eq_ok_iff.1 h
    obtain rfl := Except.ok.inj h
    intro item hitem
    rcases List.mem_cons.1 hitem with rfl | hitem
    · exact Outline.keysDistinct_value hvalue
    · exact Items.keysDistinct_values hvalues item hitem

theorem Members.keysDistinct_entries :
    ∀ {members : Members} {depth : Nat} {entries : List (String × Value)},
      members.entries depth = .ok entries → ∀ entry ∈ entries, entry.2.KeysDistinct
  | .ends _, _, _, h => by
    rw [Members.entries, orFault_eq_ok_iff] at h
    obtain ⟨_, rfl⟩ := h
    simp
  | .keyless, _, _, h => by simp [Members.entries] at h
  | .bare _ _, _, _, h => by
    obtain ⟨_, _, h⟩ := bind_eq_ok_iff.1 h
    simp at h
  | .member _ value rest, _, _, h => by
    rw [Members.entries, bind_eq_ok_iff] at h
    obtain ⟨key, _, h⟩ := h
    obtain ⟨value', hvalue, h⟩ := bind_eq_ok_iff.1 h
    obtain ⟨entries, hentries, h⟩ := bind_eq_ok_iff.1 h
    obtain rfl := Except.ok.inj h
    intro entry hentry
    rcases List.mem_cons.1 hentry with rfl | hentry
    · exact Outline.keysDistinct_value hvalue
    · exact Members.keysDistinct_entries hentries entry hentry

end

/-- The value that a text writes has distinct keys. -/
theorem keysDistinct_of_parse {text : String} {value : Value} (h : parse text = .ok value) :
    value.KeysDistinct :=
  Outline.keysDistinct_value (readAll_eq_ok_iff.1 h).1

end BuildFacts.Json
