import BuildFacts.Json.Record
import BuildFacts.Proofs.Json.Keys

/-!
# What a record takes from JSON

`Record.Part record name decoder get` says that the field `name` of a record
writes what `decoder` takes into the part `get` of the record, and that no
other field changes this part.

* Read from an object with distinct keys, the part is what the member `name`
  holds, and the initial one where there is no such member
  (`Part.fromValue_member`, `Part.fromValue_absent`).
* `Decoder.Yields` is a property of all data that a decoder takes, from a text
  or from a value.  A part of a record has what its decoder yields
  (`Part.yields`).
-/

namespace BuildFacts.Json

variable {σ α β : Type}

theorem Decoder.map_map {γ : Type} (f : α → β) (g : β → γ) (decoder : Decoder α) :
    (decoder.map f).map g = decoder.map (g ∘ f) := by
  simp [Decoder.map, Function.comp_def]

/-! ## Fields -/

namespace Field

/-- A field writes what a decoder takes into a part of the record. -/
def Sets (field : Field σ) (decoder : Decoder α) (get : σ → α) : Prop :=
  ∃ set : α → σ → σ, field.change = decoder.map set ∧ ∀ a s, get (set a s) = a

/-- A field leaves a part of the record as it is. -/
def Keeps (field : Field σ) (get : σ → α) : Prop :=
  ∃ (β : Type) (decoder : Decoder β) (set : β → σ → σ),
    field.change = decoder.map set ∧ ∀ b s, get (set b s) = get s

@[simp] theorem name_optional (name : String) (decoder : Decoder α) (set : α → σ → σ) :
    (optional name decoder set).name = name := rfl

@[simp] theorem name_mandatory (name : String) (decoder : Decoder α) (set : α → σ → σ) :
    (mandatory name decoder set).name = name := rfl

@[simp] theorem sets_optional {name : String} {decoder : Decoder α} {set : α → σ → σ}
    {get : σ → α} (h : ∀ a s, get (set a s) = a) : (optional name decoder set).Sets decoder get :=
  ⟨set, rfl, h⟩

@[simp] theorem sets_mandatory {name : String} {decoder : Decoder α} {set : α → σ → σ}
    {get : σ → α} (h : ∀ a s, get (set a s) = a) : (mandatory name decoder set).Sets decoder get :=
  ⟨set, rfl, h⟩

@[simp] theorem keeps_optional {name : String} {decoder : Decoder β} {set : β → σ → σ}
    {get : σ → α} (h : ∀ b s, get (set b s) = get s) : (optional name decoder set).Keeps get :=
  ⟨β, decoder, set, rfl, h⟩

@[simp] theorem keeps_mandatory {name : String} {decoder : Decoder β} {set : β → σ → σ}
    {get : σ → α} (h : ∀ b s, get (set b s) = get s) : (mandatory name decoder set).Keeps get :=
  ⟨β, decoder, set, rfl, h⟩

theorem Sets.get_change {field : Field σ} {decoder : Decoder α} {get : σ → α} {value : Value}
    {change : σ → σ} (h : field.Sets decoder get)
    (hchange : field.change.fromValue value = .ok change) (s : σ) :
    decoder.fromValue value = .ok (get (change s)) := by
  obtain ⟨set, heq, hget⟩ := h
  rw [heq] at hchange
  obtain ⟨a, ha, rfl⟩ := map_eq_ok_iff.1 hchange
  rw [ha, hget]

theorem Keeps.get_change {field : Field σ} {get : σ → α} {value : Value} {change : σ → σ}
    (h : field.Keeps get) (hchange : field.change.fromValue value = .ok change) (s : σ) :
    get (change s) = get s := by
  obtain ⟨_, _, set, heq, hget⟩ := h
  rw [heq] at hchange
  obtain ⟨b, _, rfl⟩ := map_eq_ok_iff.1 hchange
  exact hget b s

end Field

namespace Record

variable {record : Record σ} {name : String} {decoder : Decoder α} {get : σ → α}

/-- The field `name` of a record writes the part `get`, and no other field does. -/
structure Part (record : Record σ) (name : String) (decoder : Decoder α) (get : σ → α) : Prop where
  present : (record.field? name).isSome
  fields : ∀ field ∈ record.fields,
    if field.name = name then field.Sets decoder get else field.Keeps get

theorem name_of_field? {field : Field σ} (h : record.field? name = some field) :
    field ∈ record.fields ∧ field.name = name :=
  ⟨List.mem_of_find?_eq_some h, by simpa using List.find?_some h⟩

namespace Part

theorem sets (h : record.Part name decoder get) {field : Field σ}
    (hfield : record.field? name = some field) : field.Sets decoder get := by
  obtain ⟨hmem, hname⟩ := name_of_field? hfield
  simpa [hname] using h.fields field hmem

theorem keeps (h : record.Part name decoder get) {other : String} {field : Field σ}
    (hfield : record.field? other = some field) (hne : other ≠ name) : field.Keeps get := by
  obtain ⟨hmem, hname⟩ := name_of_field? hfield
  simpa [hname, hne] using h.fields field hmem

/-! ## From an object -/

/-- Members of other names leave the part as it is. -/
theorem takeMembers_absent (h : record.Part name decoder get) {members : List (String × Value)}
    {seen : List String} {state result : σ}
    (htake : record.takeMembers seen state members = .ok result)
    (hname : members.lookup name = none) : get result = get state := by
  induction members generalizing seen state with
  | nil =>
    rw [takeMembers, finish, orFault_eq_ok_iff] at htake
    rw [htake.2]
  | cons member rest ih =>
    obtain ⟨other, value⟩ := member
    rw [List.lookup_cons] at hname
    split at hname
    · simp at hname
    · rename_i hne
      have hne : other ≠ name := fun heq => by simp [heq] at hne
      rw [takeMembers] at htake
      split at htake
      · exact ih htake hname
      · rename_i field hfield
        obtain ⟨change, hchange, htake⟩ := bind_eq_ok_iff.1 htake
        rw [ih htake hname]
        exact (h.keeps hfield hne).get_change hchange state

/-- A member of the name of the field writes the part. -/
theorem takeMembers_member (h : record.Part name decoder get) {members : List (String × Value)}
    {seen : List String} {state result : σ} {value : Value}
    (hkeys : (Table.keys members).Nodup)
    (htake : record.takeMembers seen state members = .ok result)
    (hvalue : members.lookup name = some value) : decoder.fromValue value = .ok (get result) := by
  induction members generalizing seen state with
  | nil => simp at hvalue
  | cons member rest ih =>
    obtain ⟨other, first⟩ := member
    simp only [Table.keys, List.map_cons, List.nodup_cons] at hkeys
    rw [takeMembers] at htake
    by_cases heq : other = name
    · -- No later member has this name, so what is written here stays.
      subst heq
      have hrest : rest.lookup other = none := Table.lookup_eq_none_iff_notMem.2 hkeys.1
      simp only [List.lookup_cons, beq_self_eq_true, Option.some.injEq] at hvalue
      subst hvalue
      split at htake
      · rename_i hfield
        simpa [hfield] using h.present
      · rename_i field hfield
        obtain ⟨change, hchange, htake⟩ := bind_eq_ok_iff.1 htake
        rw [h.takeMembers_absent htake hrest]
        exact (h.sets hfield).get_change hchange state
    · have hne : (name == other) = false := beq_eq_false_iff_ne.2 fun h => heq h.symm
      rw [List.lookup_cons, hne] at hvalue
      split at htake
      · exact ih hkeys.2 htake hvalue
      · obtain ⟨change, _, htake⟩ := bind_eq_ok_iff.1 htake
        exact ih hkeys.2 htake hvalue

theorem fromValue_member (h : record.Part name decoder get) {object value : Value} {result : σ}
    (hkeys : object.KeysDistinct) (hresult : record.decoder.fromValue object = .ok result)
    (hvalue : object.member? name = some value) : decoder.fromValue value = .ok (get result) := by
  cases hkeys with
  | object hkeys _ => exact h.takeMembers_member hkeys hresult hvalue
  | _ => simp [Value.member?, Value.members?] at hvalue

theorem fromValue_absent (h : record.Part name decoder get) {object : Value} {result : σ}
    (hkind : object.kind = .object) (hresult : record.decoder.fromValue object = .ok result)
    (habsent : object.member? name = none) : get result = get record.initial := by
  cases object with
  | object members => exact h.takeMembers_absent hresult habsent
  | _ => simp [Value.kind] at hkind

end Part

end Record

/-! ## Lists and tables -/

/-- The value under `key` in the object that is the member `name`. -/
def Value.entry? (value : Value) (name key : String) : Option Value :=
  (value.member? name).bind (·.member? key)

theorem Value.KeysDistinct.entry {value part : Value} {name key : String}
    (h : value.KeysDistinct) (hentry : value.entry? name key = some part) : part.KeysDistinct := by
  obtain ⟨table, htable, hpart⟩ := Option.bind_eq_some_iff.1 hentry
  exact (h.member htable).member hpart

/-- A list of texts is written as it is taken. -/
theorem Decoder.fromValue_list_string {value : Value} {texts : List String}
    (h : Decoder.string.list.fromValue value = .ok texts) :
    value = .array (texts.map .string) := by
  cases value with
  | array items =>
    congr 1
    have hitems := mapM_eq_ok_iff.1 h
    clear h
    induction hitems with
    | nil => rfl
    | @cons item text _ _ hitem _ ih =>
      cases item with
      | string s =>
        obtain rfl := Except.ok.inj hitem
        rw [List.map_cons, ih]
      | _ => exact nomatch hitem
  | _ => exact nomatch h

theorem Value.mapM_string?_map_string (texts : List String) :
    (texts.map Value.string).mapM string? = some texts := by
  induction texts with
  | nil => rfl
  | cons text texts ih => simp [string?, ih]

theorem mem_of_fromValue_list {values : List Value} {texts : List String} {text : String}
    (h : Decoder.string.list.fromValue (.array values) = .ok texts)
    (hmem : .string text ∈ values) : text ∈ texts := by
  obtain rfl := Value.array.inj (Decoder.fromValue_list_string h)
  simpa using hmem

/-- A table is taken entry by entry from an object with distinct keys. -/
theorem resolved_of_fromValue_table {decoder : Decoder α} {object : Value} {table : Table α}
    (hkeys : object.KeysDistinct) (h : decoder.table.fromValue object = .ok table) :
    ∃ members, object = .object members ∧
      Table.Resolved (fun _ value => decoder.fromValue value) members table := by
  cases hkeys with
  | object hkeys _ =>
    obtain ⟨entries, hentries, rfl⟩ := map_eq_ok_iff.1 h
    have hresolved : Table.Resolved (fun _ value => decoder.fromValue value) _ entries :=
      Table.mapM_eq_ok_iff_resolved.1 hentries
    refine ⟨_, rfl, ?_⟩
    rwa [Table.ofEntries_of_nodup_keys (by rwa [hresolved.keys_eq])]
  | _ => simp [Decoder.table] at h

namespace Record.Part

variable {record : Record σ} {name : String} {decoder : Decoder α} {get : σ → Table α}

/-- What stands under a key of a table is what was written there. -/
theorem entry (h : record.Part name decoder.table get) {object value : Value} {result : σ}
    {key : String} (hkeys : object.KeysDistinct)
    (hresult : record.decoder.fromValue object = .ok result)
    (hvalue : object.entry? name key = some value) :
    ∃ a, decoder.fromValue value = .ok a ∧ (get result).lookup key = some a := by
  obtain ⟨tableValue, hmember, hentry⟩ := Option.bind_eq_some_iff.1 hvalue
  have htable := h.fromValue_member hkeys hresult hmember
  obtain ⟨members, rfl, hresolved⟩ := resolved_of_fromValue_table (hkeys.member hmember) htable
  exact hresolved.lookup hentry

theorem entry_absent (h : record.Part name decoder.table get) {object : Value} {result : σ}
    {key : String} (hkeys : object.KeysDistinct) (hkind : object.kind = .object)
    (hinitial : get record.initial = [])
    (hresult : record.decoder.fromValue object = .ok result)
    (habsent : object.entry? name key = none) : (get result).lookup key = none := by
  cases hmember : object.member? name with
  | none => rw [h.fromValue_absent hkind hresult hmember, hinitial, List.lookup_nil]
  | some tableValue =>
    have htable := h.fromValue_member hkeys hresult hmember
    obtain ⟨members, rfl, hresolved⟩ := resolved_of_fromValue_table (hkeys.member hmember) htable
    rw [Value.entry?, hmember, Option.bind_some] at habsent
    exact hresolved.lookup_eq_none habsent

end Record.Part

/-! ## What all data have that a decoder takes -/

/-- All data that a decoder takes, from a text or from a value, have a property. -/
structure Decoder.Yields (decoder : Decoder α) (P : α → Prop) : Prop where
  outline : ∀ {depth outline a}, decoder.fromOutline depth outline = .ok a → P a
  value : ∀ {value a}, decoder.fromValue value = .ok a → P a

theorem Decoder.Yields.map {decoder : Decoder α} {P : β → Prop} {f : α → β}
    (h : decoder.Yields fun a => P (f a)) : (decoder.map f).Yields P where
  outline hb := by
    obtain ⟨a, ha, rfl⟩ := map_eq_ok_iff.1 hb
    exact h.outline ha
  value hb := by
    obtain ⟨a, ha, rfl⟩ := map_eq_ok_iff.1 hb
    exact h.value ha

theorem Decoder.Yields.read {decoder : Decoder α} {P : α → Prop} (h : decoder.Yields P)
    {text : String} {a : α} (ha : decoder.read text = .ok a) : P a :=
  h.outline (readAll_eq_ok_iff.1 ha).1

theorem descend_eq_ok {depth : Nat} {inside : Nat → Except Fault α} {a : α}
    (h : descend depth inside = .ok a) : ∃ depth', inside depth' = .ok a := by
  cases depth with
  | zero => simp [descend] at h
  | succ depth => exact ⟨depth, h⟩

/-- The keys of a table that is taken are distinct. -/
theorem Decoder.yields_table (decoder : Decoder α) :
    decoder.table.Yields fun table => table.keys.Nodup where
  outline {depth outline table} h := by
    cases outline with
    | object members =>
      obtain ⟨depth', h⟩ := descend_eq_ok h
      obtain ⟨entries, _, rfl⟩ := map_eq_ok_iff.1 h
      exact Table.nodup_keys_ofEntries entries
    | _ => simp [Decoder.table] at h
  value {value table} h := by
    cases value with
    | object members =>
      obtain ⟨entries, _, rfl⟩ := map_eq_ok_iff.1 h
      exact Table.nodup_keys_ofEntries entries
    | _ => simp [Decoder.table] at h

namespace Record

variable {record : Record σ} {P : σ → Prop}

/-- Every field of a record keeps a property of the record. -/
def Preserves (record : Record σ) (P : σ → Prop) : Prop :=
  ∀ field ∈ record.fields, field.change.Yields fun change => ∀ s, P s → P (change s)

theorem Part.preserves {name : String} {decoder : Decoder α} {get : σ → α} {Q : α → Prop}
    (h : record.Part name decoder get) (hdecoder : decoder.Yields Q) :
    record.Preserves fun s => Q (get s) := by
  intro field hfield
  have hpart := h.fields field hfield
  split at hpart
  · obtain ⟨set, heq, hget⟩ := hpart
    rw [heq]
    exact .map ⟨fun ha s _ => by simpa only [hget] using hdecoder.outline ha,
      fun ha s _ => by simpa only [hget] using hdecoder.value ha⟩
  · obtain ⟨_, _, set, heq, hget⟩ := hpart
    rw [heq]
    exact .map ⟨fun _ s hs => by simpa only [hget] using hs,
      fun _ s hs => by simpa only [hget] using hs⟩

namespace Preserves

theorem readItems (h : record.Preserves P) {fields : List (Field σ)} {items : Items}
    {depth index : Nat} {state result : σ} (hfields : fields ⊆ record.fields) (hstate : P state)
    (hread : record.readItems depth index state fields items = .ok result) : P result := by
  induction fields generalizing index state items with
  | nil =>
    rw [Record.readItems, orFault_eq_ok_iff] at hread
    exact hread.2 ▸ hstate
  | cons field fields ih =>
    obtain ⟨hfield, hfields⟩ := List.cons_subset.1 hfields
    cases items with
    | item first rest =>
      rw [Record.readItems] at hread
      obtain ⟨change, hchange, hread⟩ := bind_eq_ok_iff.1 hread
      exact ih hfields ((h field hfield).outline hchange state hstate) hread
    | ends ending =>
      unfold Record.readItems at hread
      split at hread
      · rename_i heq; simp at heq
      · rename_i heq; simp at heq
      · rename_i heq _
        simp only [List.cons.injEq] at heq
        obtain ⟨rfl, rfl⟩ := heq
        split at hread
        · simp at hread
        · exact ih hfields hstate hread
      · rw [orFault_eq_ok_iff] at hread
        exact hread.2 ▸ hstate

theorem readMembers (h : record.Preserves P) :
    ∀ {members : Members} {depth : Nat} {seen : List String} {state result : σ}, P state →
      record.readMembers depth seen state members = .ok result → P result
  | .ends ending, depth, seen, state, result, hstate, hread => by
    cases ending with
    | closed =>
      rw [Record.readMembers, finish, orFault_eq_ok_iff] at hread
      exact hread.2 ▸ hstate
    | _ =>
      simp only [Record.readMembers, orFault_eq_ok_iff] at hread
      exact hread.2 ▸ hstate
  | .keyless, _, _, _, _, _, hread => by simp [Record.readMembers] at hread
  | .bare _ _, _, _, _, _, _, hread => by
    obtain ⟨_, _, hread⟩ := bind_eq_ok_iff.1 hread
    split at hread <;> simp at hread
  | .member key value rest, depth, seen, state, result, hstate, hread => by
    rw [Record.readMembers] at hread
    obtain ⟨name, _, hread⟩ := bind_eq_ok_iff.1 hread
    split at hread
    · obtain ⟨_, _, hread⟩ := bind_eq_ok_iff.1 hread
      exact h.readMembers hstate hread
    · rename_i field hfield
      split at hread
      · simp at hread
      · obtain ⟨change, hchange, hread⟩ := bind_eq_ok_iff.1 hread
        have hstep := (h field (name_of_field? hfield).1).outline hchange state hstate
        exact h.readMembers hstep hread

theorem takeItems (h : record.Preserves P) {fields : List (Field σ)} {values : List Value}
    {total index : Nat} {state result : σ} (hfields : fields ⊆ record.fields) (hstate : P state)
    (htake : record.takeItems total index state fields values = .ok result) : P result := by
  induction fields generalizing index state values with
  | nil =>
    cases values with
    | nil => exact Except.ok.inj htake ▸ hstate
    | cons value values => simp [Record.takeItems] at htake
  | cons field fields ih =>
    obtain ⟨hfield, hfields⟩ := List.cons_subset.1 hfields
    cases values with
    | nil =>
      rw [Record.takeItems] at htake
      split at htake
      · simp at htake
      · exact ih hfields hstate htake
    | cons value values =>
      rw [Record.takeItems] at htake
      obtain ⟨change, hchange, htake⟩ := bind_eq_ok_iff.1 htake
      exact ih hfields ((h field hfield).value hchange state hstate) htake

theorem takeMembers (h : record.Preserves P) {members : List (String × Value)}
    {seen : List String} {state result : σ} (hstate : P state)
    (htake : record.takeMembers seen state members = .ok result) : P result := by
  induction members generalizing seen state with
  | nil =>
    rw [Record.takeMembers, finish, orFault_eq_ok_iff] at htake
    exact htake.2 ▸ hstate
  | cons member rest ih =>
    rw [Record.takeMembers] at htake
    split at htake
    · exact ih hstate htake
    · rename_i field hfield
      obtain ⟨change, hchange, htake⟩ := bind_eq_ok_iff.1 htake
      exact ih ((h field (name_of_field? hfield).1).value hchange state hstate) htake

/-- A property that the initial form has and every field keeps is one of every
record that is taken. -/
theorem yields (h : record.Preserves P) (hinitial : P record.initial) :
    record.decoder.Yields P where
  outline {depth outline result} hread := by
    cases outline with
    | array items =>
      obtain ⟨depth', hread⟩ := descend_eq_ok hread
      exact h.readItems (fun _ hf => hf) hinitial hread
    | object members =>
      obtain ⟨depth', hread⟩ := descend_eq_ok hread
      exact h.readMembers hinitial hread
    | _ => simp [Record.decoder] at hread
  value {value result} htake := by
    cases value with
    | array values => exact h.takeItems (fun _ hf => hf) hinitial htake
    | object members => exact h.takeMembers hinitial htake
    | _ => simp [Record.decoder] at htake

end Preserves

end Record

end BuildFacts.Json
