import BuildFacts.Proofs.Json.Reading
import BuildFacts.Proofs.Json.Record

/-!
# Reading a text and taking a value agree

A decoder takes its data from an outline while a text is read, or from the value
that the outline reads as.  `Decoder.Agrees` relates the two ways.

* What is taken from the outline is taken from the value.
* What is taken from the value is taken from the outline, if no object of the
  outline has a key twice (`Outline.KeysOnce`).

A value has forgotten all but the last of the members with one key.  A decoder of
a table forgets them too, and one of a record accepts no field twice; so the first
part needs no such condition.

`Record.agrees` is the main case: a record agrees if each of its fields does.
-/

namespace BuildFacts.Json

variable {σ α β : Type}

/-! ## Decoders that agree -/

/-- A decoder takes the same data from an outline and from the value that it reads as. -/
structure Decoder.Agrees (decoder : Decoder α) : Prop where
  ofValue : ∀ {depth outline value a}, outline.value depth = .ok value →
    decoder.fromOutline depth outline = .ok a → decoder.fromValue value = .ok a
  ofOutline : ∀ {depth outline value a}, outline.value depth = .ok value → outline.KeysOnce →
    decoder.fromValue value = .ok a → decoder.fromOutline depth outline = .ok a

namespace Decoder

theorem Agrees.map {decoder : Decoder α} (h : decoder.Agrees) (f : α → β) :
    (decoder.map f).Agrees where
  ofValue hvalue hb := by
    obtain ⟨a, ha, rfl⟩ := map_eq_ok_iff.1 hb
    exact map_eq_ok_iff.2 ⟨a, h.ofValue hvalue ha, rfl⟩
  ofOutline hvalue hkeys hb := by
    obtain ⟨a, ha, rfl⟩ := map_eq_ok_iff.1 hb
    exact map_eq_ok_iff.2 ⟨a, h.ofOutline hvalue hkeys ha, rfl⟩

theorem agrees_text (expected : String) : (text expected).Agrees where
  ofValue hvalue h := by
    cases Outline.readsAs_of_value hvalue with
    | string htext => exact htext.symm.trans h
    | _ => simp [text] at h
  ofOutline hvalue _ h := by
    cases Outline.readsAs_of_value hvalue with
    | string htext => exact htext.trans h
    | word word => cases word <;> simp [text, Word.value] at h
    | _ => simp [text] at h

@[simp] theorem agrees_string : string.Agrees :=
  agrees_text _

/-- A decoder that reads a whole value first takes the data from it. -/
@[simp] theorem agrees_ofValue (take : Value → Except Fault α) : (ofValue take).Agrees where
  ofValue hvalue h := by
    obtain ⟨_, hvalue', htake⟩ := bind_eq_ok_iff.1 h
    obtain rfl := Except.ok.inj (hvalue.symm.trans hvalue')
    exact htake
  ofOutline hvalue _ h := bind_eq_ok_iff.2 ⟨_, hvalue, h⟩

theorem Agrees.optional {decoder : Decoder α} (h : decoder.Agrees) : decoder.optional.Agrees where
  ofValue {depth outline value a} hvalue ha := by
    have hother (hnull : value ≠ .null)
        (ha : some <$> decoder.fromOutline depth outline = .ok a) :
        decoder.optional.fromValue value = .ok a := by
      obtain ⟨b, hb, rfl⟩ := map_eq_ok_iff.1 ha
      have hb' : some <$> decoder.fromValue value = .ok (some b) :=
        map_eq_ok_iff.2 ⟨b, h.ofValue hvalue hb, rfl⟩
      cases value with
      | null => exact absurd rfl hnull
      | _ => exact hb'
    cases Outline.readsAs_of_value hvalue with
    | word word =>
      cases word with
      | null => exact ha
      | true => exact hother nofun ha
      | false => exact hother nofun ha
    | _ => exact hother nofun ha
  ofOutline {depth outline value a} hvalue hkeys ha := by
    have hother (ha : some <$> decoder.fromValue value = .ok a) :
        some <$> decoder.fromOutline depth outline = .ok a := by
      obtain ⟨b, hb, rfl⟩ := map_eq_ok_iff.1 ha
      exact map_eq_ok_iff.2 ⟨b, h.ofOutline hvalue hkeys hb, rfl⟩
    cases Outline.readsAs_of_value hvalue with
    | word word =>
      cases word with
      | null => exact ha
      | true => exact hother ha
      | false => exact hother ha
    | _ => exact hother ha

/-! ### Lists -/

theorem forall₂_of_items {decoder : Decoder α} (h : decoder.Agrees) {depth : Nat} :
    ∀ {contents : Items} {values : List Value} {items : List α},
      contents.values depth = .ok values →
      Decoder.items (decoder.fromOutline depth) contents = .ok items →
      List.Forall₂ (fun value a => decoder.fromValue value = .ok a) values items
  | .ends _, _, _, hvalues, hitems => by
    obtain ⟨_, rfl⟩ := Items.values_ends_eq_ok_iff.1 hvalues
    rw [Decoder.items, orFault_eq_ok_iff] at hitems
    exact hitems.2 ▸ .nil
  | .item first rest, _, _, hvalues, hitems => by
    obtain ⟨value, hvalue, others, hothers, rfl⟩ := Items.values_item_eq_ok_iff.1 hvalues
    obtain ⟨a, ha, hitems⟩ := bind_eq_ok_iff.1 hitems
    obtain ⟨as, has, hitems⟩ := bind_eq_ok_iff.1 hitems
    obtain rfl := Except.ok.inj hitems
    exact .cons (h.ofValue hvalue ha) (forall₂_of_items h hothers has)

theorem items_of_forall₂ {decoder : Decoder α} (h : decoder.Agrees) {depth : Nat} :
    ∀ {contents : Items} {values : List Value} {items : List α},
      contents.values depth = .ok values → contents.KeysOnce →
      List.Forall₂ (fun value a => decoder.fromValue value = .ok a) values items →
      Decoder.items (decoder.fromOutline depth) contents = .ok items
  | .ends _, _, _, hvalues, _, hitems => by
    obtain ⟨rfl, rfl⟩ := Items.values_ends_eq_ok_iff.1 hvalues
    cases hitems
    rfl
  | .item first rest, _, _, hvalues, hkeys, hitems => by
    obtain ⟨value, hvalue, others, hothers, rfl⟩ := Items.values_item_eq_ok_iff.1 hvalues
    rw [Items.KeysOnce] at hkeys
    cases hitems with
    | cons ha has =>
      rw [Decoder.items, h.ofOutline hvalue hkeys.1 ha]
      show (Decoder.items _ rest >>= fun as => _) = _
      rw [items_of_forall₂ h hothers hkeys.2 has]
      rfl

theorem Agrees.list {decoder : Decoder α} (h : decoder.Agrees) : decoder.list.Agrees where
  ofValue hvalue ha := by
    cases Outline.readsAs_of_value hvalue with
    | array hvalues => exact mapM_eq_ok_iff.2 (forall₂_of_items h hvalues ha)
    | _ => simp [Decoder.list] at ha
  ofOutline hvalue hkeys ha := by
    cases Outline.readsAs_of_value hvalue with
    | array hvalues => exact items_of_forall₂ h hvalues hkeys (mapM_eq_ok_iff.1 ha)
    | word word => cases word <;> simp [Decoder.list, Word.value] at ha
    | _ => simp [Decoder.list] at ha

/-! ### Tables -/

theorem resolved_of_entries {decoder : Decoder α} (h : decoder.Agrees) {depth : Nat} :
    ∀ {contents : Members} {members : List (String × Value)} {taken : List (String × α)},
      contents.entries depth = .ok members →
      entries (decoder.fromOutline depth) contents = .ok taken →
      Table.Resolved (fun _ value => decoder.fromValue value) members taken
  | .ends _, _, _, hmembers, htaken => by
    obtain ⟨_, rfl⟩ := Members.entries_ends_eq_ok_iff.1 hmembers
    rw [entries, orFault_eq_ok_iff] at htaken
    exact htaken.2 ▸ .nil
  | .keyless, _, _, hmembers, _ => absurd hmembers Members.entries_keyless
  | .bare _ _, _, _, hmembers, _ => absurd hmembers Members.entries_bare
  | .member key value rest, _, _, hmembers, htaken => by
    obtain ⟨name, hname, part, hpart, others, hothers, rfl⟩ :=
      Members.entries_member_eq_ok_iff.1 hmembers
    obtain ⟨name', hname', htaken⟩ := bind_eq_ok_iff.1 htaken
    obtain rfl := Except.ok.inj (hname.symm.trans hname')
    obtain ⟨a, ha, htaken⟩ := bind_eq_ok_iff.1 htaken
    obtain ⟨as, has, htaken⟩ := bind_eq_ok_iff.1 htaken
    obtain rfl := Except.ok.inj htaken
    exact .cons ⟨rfl, h.ofValue hpart ha⟩ (resolved_of_entries h hothers has)

theorem entries_of_resolved {decoder : Decoder α} (h : decoder.Agrees) {depth : Nat} :
    ∀ {contents : Members} {members : List (String × Value)} {taken : List (String × α)},
      contents.entries depth = .ok members → contents.KeysOnce →
      Table.Resolved (fun _ value => decoder.fromValue value) members taken →
      entries (decoder.fromOutline depth) contents = .ok taken
  | .ends _, _, _, hmembers, _, htaken => by
    obtain ⟨rfl, rfl⟩ := Members.entries_ends_eq_ok_iff.1 hmembers
    cases htaken
    rfl
  | .keyless, _, _, hmembers, _, _ => absurd hmembers Members.entries_keyless
  | .bare _ _, _, _, hmembers, _, _ => absurd hmembers Members.entries_bare
  | .member key value rest, _, _, hmembers, hkeys, htaken => by
    obtain ⟨name, hname, part, hpart, others, hothers, rfl⟩ :=
      Members.entries_member_eq_ok_iff.1 hmembers
    rw [Members.KeysOnce] at hkeys
    cases htaken with
    | @cons _ new _ _ hfirst hrest =>
      obtain ⟨name', a⟩ := new
      obtain ⟨rfl, ha⟩ := hfirst
      rw [entries, hname]
      show (decoder.fromOutline depth value >>= fun a => _) = _
      rw [h.ofOutline hpart hkeys.1 ha]
      show (entries _ rest >>= fun as => _) = _
      rw [entries_of_resolved h hothers hkeys.2 hrest]
      rfl

theorem Agrees.table {decoder : Decoder α} (h : decoder.Agrees) : decoder.table.Agrees where
  ofValue hvalue ha := by
    cases Outline.readsAs_of_value hvalue with
    | object hmembers =>
      obtain ⟨taken, htaken, rfl⟩ := map_eq_ok_iff.1 ha
      have hresolved := Table.Resolved.ofEntries (resolved_of_entries h hmembers htaken)
      refine map_eq_ok_iff.2 ⟨_, Table.mapM_eq_ok_iff_resolved.2 hresolved, ?_⟩
      exact Table.ofEntries_of_nodup_keys (Table.nodup_keys_ofEntries taken)
    | _ => simp [Decoder.table] at ha
  ofOutline hvalue hkeys ha := by
    cases Outline.readsAs_of_value hvalue with
    | object hmembers =>
      obtain ⟨taken, htaken, rfl⟩ := map_eq_ok_iff.1 ha
      rw [Outline.KeysOnce] at hkeys
      rw [Table.ofEntries_of_nodup_keys (Members.nodup_keys_of_entries hkeys.1 hmembers)] at htaken
      have hresolved : Table.Resolved (fun _ value => decoder.fromValue value) _ taken :=
        Table.mapM_eq_ok_iff_resolved.1 htaken
      exact map_eq_ok_iff.2 ⟨taken, entries_of_resolved h hmembers hkeys.2 hresolved, rfl⟩
    | word word => cases word <;> simp [Decoder.table, Word.value] at ha
    | _ => simp [Decoder.table] at ha

end Decoder

/-! ## Records -/

@[simp] theorem Field.agrees_optional {name : String} {decoder : Decoder α} {set : α → σ → σ}
    (h : decoder.Agrees) : (optional name decoder set).change.Agrees :=
  h.map set

@[simp] theorem Field.agrees_mandatory {name : String} {decoder : Decoder α} {set : α → σ → σ}
    (h : decoder.Agrees) : (mandatory name decoder set).change.Agrees :=
  h.map set

namespace Record

variable {record : Record σ}

/-- Whether a record has a field with a name. -/
def isField (record : Record σ) (name : String) : Bool :=
  (record.field? name).isSome

/-- Members that are no fields do not count. -/
theorem takeMembers_filter (seen : List String) (state : σ) (members : List (String × Value)) :
    record.takeMembers seen state (members.filter fun member => record.isField member.1) =
      record.takeMembers seen state members := by
  induction members generalizing seen state with
  | nil => rfl
  | cons member rest ih =>
    obtain ⟨name, value⟩ := member
    rw [List.filter_cons, takeMembers]
    cases hfield : record.field? name with
    | none =>
      rw [isField, hfield]
      exact ih seen state
    | some field =>
      rw [isField, hfield]
      show record.takeMembers seen state ((name, value) :: _) = _
      rw [takeMembers, hfield]
      simp only [ih]

/-- No field stands twice among the members, and none that has been seen. -/
structure FieldsOnce (record : Record σ) (seen : List String) (members : List (String × Value)) :
    Prop where
  nodup : (Table.keys (members.filter fun member => record.isField member.1)).Nodup
  unseen : ∀ name ∈ Table.keys (members.filter fun member => record.isField member.1), name ∉ seen

theorem FieldsOnce.of_nodup_keys {members : List (String × Value)}
    (hkeys : (Table.keys members).Nodup) : record.FieldsOnce [] members where
  nodup := hkeys.sublist (List.filter_sublist.map _)
  unseen _ _ := List.not_mem_nil

theorem fieldsOnce_cons_iff {seen : List String} {name : String} {value : Value}
    {rest : List (String × Value)} :
    record.FieldsOnce seen ((name, value) :: rest) ↔
      if record.isField name then name ∉ seen ∧ record.FieldsOnce (name :: seen) rest
      else record.FieldsOnce seen rest := by
  by_cases hname : record.isField name = true
  · rw [if_pos hname]
    constructor
    · intro ⟨hnodup, hunseen⟩
      simp only [List.filter_cons, hname, if_true, Table.keys, List.map_cons, List.nodup_cons,
        List.forall_mem_cons] at hnodup hunseen
      refine ⟨hunseen.1, hnodup.2, fun other hother hmem => ?_⟩
      rcases List.mem_cons.1 hmem with rfl | hmem
      · exact hnodup.1 hother
      · exact hunseen.2 other hother hmem
    · intro ⟨hseen, hnodup, hunseen⟩
      constructor
      · simp only [List.filter_cons, hname, if_true, Table.keys, List.map_cons, List.nodup_cons]
        exact ⟨fun hmem => hunseen name hmem List.mem_cons_self, hnodup⟩
      · simp only [List.filter_cons, hname, if_true, Table.keys, List.map_cons,
          List.forall_mem_cons]
        exact ⟨hseen, fun other hother hmem =>
          hunseen other hother (List.mem_cons_of_mem _ hmem)⟩
  · rw [if_neg hname]
    constructor
    · intro ⟨hnodup, hunseen⟩
      rw [List.filter_cons, if_neg hname] at hnodup hunseen
      exact ⟨hnodup, hunseen⟩
    · intro ⟨hnodup, hunseen⟩
      constructor
      · rwa [List.filter_cons, if_neg hname]
      · rwa [List.filter_cons, if_neg hname]

/-- If no field stands twice, it does not matter whether the members have been
written to a table. -/
theorem takeMembers_ofEntries {seen seen' : List String} {state : σ}
    {members : List (String × Value)}
    (hfields : record.FieldsOnce seen' members) :
    record.takeMembers seen state (Table.ofEntries members) =
      record.takeMembers seen state members := by
  rw [← takeMembers_filter seen state (Table.ofEntries members), Table.filter_ofEntries,
    Table.ofEntries_of_nodup_keys hfields.nodup, takeMembers_filter]

/-! ### Objects -/

/-- What is read from the members of an object is taken from the entries that they
read as, and then no field stands there twice. -/
theorem takeMembers_of_readMembers (h : ∀ field ∈ record.fields, field.change.Agrees)
    {depth : Nat} :
    ∀ {members : Members} {entries : List (String × Value)} {seen : List String}
      {state result : σ}, members.entries depth = .ok entries →
      record.readMembers depth seen state members = .ok result →
      record.takeMembers seen state entries = .ok result ∧ record.FieldsOnce seen entries
  | .ends _, _, seen, state, _, hentries, hread => by
    obtain ⟨rfl, rfl⟩ := Members.entries_ends_eq_ok_iff.1 hentries
    exact ⟨hread, List.nodup_nil, by simp [Table.keys]⟩
  | .keyless, _, _, _, _, hentries, _ => absurd hentries Members.entries_keyless
  | .bare _ _, _, _, _, _, hentries, _ => absurd hentries Members.entries_bare
  | .member key value rest, _, seen, state, _, hentries, hread => by
    obtain ⟨name, hname, part, hpart, others, hothers, rfl⟩ :=
      Members.entries_member_eq_ok_iff.1 hentries
    obtain ⟨name', hname', hread⟩ := bind_eq_ok_iff.1 hread
    obtain rfl := Except.ok.inj (hname.symm.trans hname')
    rw [takeMembers, fieldsOnce_cons_iff, isField]
    cases hfield : record.field? name with
    | none =>
      simp only [hfield] at hread
      obtain ⟨_, _, hread⟩ := bind_eq_ok_iff.1 hread
      exact takeMembers_of_readMembers h hothers hread
    | some field =>
      simp only [hfield] at hread
      split at hread
      · simp at hread
      · rename_i hseen
        obtain ⟨change, hchange, hread⟩ := bind_eq_ok_iff.1 hread
        obtain ⟨htake, honce⟩ := takeMembers_of_readMembers h hothers hread
        have hagrees := h field (name_of_field? hfield).1
        refine ⟨bind_eq_ok_iff.2 ⟨change, hagrees.ofValue hpart hchange, htake⟩, ?_, honce⟩
        simpa using hseen

/-- Where no key stands twice, what is taken from the entries is read from the members. -/
theorem readMembers_of_takeMembers (h : ∀ field ∈ record.fields, field.change.Agrees)
    {depth : Nat} :
    ∀ {members : Members} {entries : List (String × Value)} {seen : List String}
      {state result : σ}, members.entries depth = .ok entries → members.KeysOnce →
      record.FieldsOnce seen entries → record.takeMembers seen state entries = .ok result →
      record.readMembers depth seen state members = .ok result
  | .ends _, _, seen, state, _, hentries, _, _, htake => by
    obtain ⟨rfl, rfl⟩ := Members.entries_ends_eq_ok_iff.1 hentries
    exact htake
  | .keyless, _, _, _, _, hentries, _, _, _ => absurd hentries Members.entries_keyless
  | .bare _ _, _, _, _, _, hentries, _, _, _ => absurd hentries Members.entries_bare
  | .member key value rest, _, seen, state, _, hentries, hkeys, honce, htake => by
    obtain ⟨name, hname, part, hpart, others, hothers, rfl⟩ :=
      Members.entries_member_eq_ok_iff.1 hentries
    rw [Members.KeysOnce] at hkeys
    rw [takeMembers] at htake
    rw [fieldsOnce_cons_iff, isField] at honce
    rw [readMembers, hname]
    cases hfield : record.field? name with
    | none =>
      simp only [hfield] at htake honce ⊢
      refine bind_eq_ok_iff.2 ⟨name, rfl, ?_⟩
      have hskip := Outline.skip_of_readsAs (Outline.readsAs_of_value hpart)
      simp only [hfield]
      exact bind_eq_ok_iff.2 ⟨(), hskip,
        readMembers_of_takeMembers h hothers hkeys.2 (by simpa using honce) htake⟩
    | some field =>
      simp only [hfield] at htake honce ⊢
      obtain ⟨change, hchange, htake⟩ := bind_eq_ok_iff.1 htake
      obtain ⟨hseen, honce⟩ : name ∉ seen ∧ record.FieldsOnce (name :: seen) others := by
        simpa using honce
      have hagrees := h field (name_of_field? hfield).1
      refine bind_eq_ok_iff.2 ⟨name, rfl, ?_⟩
      have hcontains : seen.contains name = false := by simpa using hseen
      simp only [hfield, hcontains, Bool.false_eq_true, if_false]
      exact bind_eq_ok_iff.2 ⟨change, hagrees.ofOutline hpart hkeys.1 hchange,
        readMembers_of_takeMembers h hothers hkeys.2 honce htake⟩

/-! ### Lists -/

theorem takeItems_of_readItems {depth : Nat} {fields : List (Field σ)}
    (h : ∀ field ∈ fields, field.change.Agrees) {total index index' : Nat} {state result : σ}
    {items : Items} {values : List Value} (hvalues : items.values depth = .ok values)
    (hread : record.readItems depth index state fields items = .ok result) :
    record.takeItems total index' state fields values = .ok result := by
  induction fields generalizing index index' state items values with
  | nil =>
    rw [readItems, orFault_eq_ok_iff] at hread
    obtain ⟨hfault, rfl⟩ := hread
    cases items with
    | ends ending =>
      obtain ⟨rfl, rfl⟩ := Items.values_ends_eq_ok_iff.1 hvalues
      rfl
    | item first rest => simp [faultAfterFields] at hfault
  | cons field fields ih =>
    obtain ⟨hfield, hfields⟩ := List.forall_mem_cons.1 h
    cases items with
    | ends ending =>
      obtain ⟨rfl, rfl⟩ := Items.values_ends_eq_ok_iff.1 hvalues
      rw [readItems] at hread
      rw [takeItems]
      split at hread
      · simp at hread
      · rename_i hrequired
        rw [if_neg hrequired]
        exact ih hfields hvalues hread
    | item first rest =>
      obtain ⟨value, hvalue, others, hothers, rfl⟩ := Items.values_item_eq_ok_iff.1 hvalues
      obtain ⟨change, hchange, hread⟩ := bind_eq_ok_iff.1 hread
      exact bind_eq_ok_iff.2 ⟨change, hfield.ofValue hvalue hchange, ih hfields hothers hread⟩

theorem readItems_of_takeItems {depth : Nat} {fields : List (Field σ)}
    (h : ∀ field ∈ fields, field.change.Agrees) {total index index' : Nat} {state result : σ}
    {items : Items} {values : List Value} (hvalues : items.values depth = .ok values)
    (hkeys : items.KeysOnce)
    (htake : record.takeItems total index' state fields values = .ok result) :
    record.readItems depth index state fields items = .ok result := by
  induction fields generalizing index index' state items values with
  | nil =>
    cases items with
    | ends ending =>
      obtain ⟨rfl, rfl⟩ := Items.values_ends_eq_ok_iff.1 hvalues
      exact htake
    | item first rest =>
      obtain ⟨value, _, others, _, rfl⟩ := Items.values_item_eq_ok_iff.1 hvalues
      simp [takeItems] at htake
  | cons field fields ih =>
    obtain ⟨hfield, hfields⟩ := List.forall_mem_cons.1 h
    cases items with
    | ends ending =>
      obtain ⟨rfl, rfl⟩ := Items.values_ends_eq_ok_iff.1 hvalues
      rw [takeItems] at htake
      rw [readItems]
      split at htake
      · simp at htake
      · rename_i hrequired
        rw [if_neg hrequired]
        exact ih hfields hvalues hkeys htake
    | item first rest =>
      obtain ⟨value, hvalue, others, hothers, rfl⟩ := Items.values_item_eq_ok_iff.1 hvalues
      rw [Items.KeysOnce] at hkeys
      obtain ⟨change, hchange, htake⟩ := bind_eq_ok_iff.1 htake
      exact bind_eq_ok_iff.2 ⟨change, hfield.ofOutline hvalue hkeys.1 hchange,
        ih hfields hothers hkeys.2 htake⟩

/-- A record agrees if each of its fields does. -/
theorem agrees (h : ∀ field ∈ record.fields, field.change.Agrees) : record.decoder.Agrees where
  ofValue hvalue hread := by
    cases Outline.readsAs_of_value hvalue with
    | array hvalues => exact takeItems_of_readItems h hvalues hread
    | object hentries =>
      obtain ⟨htake, honce⟩ := takeMembers_of_readMembers h hentries hread
      exact (takeMembers_ofEntries honce).trans htake
    | _ => simp [decoder] at hread
  ofOutline hvalue hkeys htake := by
    cases Outline.readsAs_of_value hvalue with
    | array hvalues => exact readItems_of_takeItems h hvalues hkeys htake
    | object hentries =>
      rw [Outline.KeysOnce] at hkeys
      have honce : record.FieldsOnce [] _ :=
        .of_nodup_keys (Members.nodup_keys_of_entries hkeys.1 hentries)
      exact readMembers_of_takeMembers h hentries hkeys.2 honce
        ((takeMembers_ofEntries honce).symm.trans htake)
    | word word => cases word <;> simp [decoder, Word.value] at htake
    | _ => simp [decoder] at htake

end Record

/-! ## Whole texts -/

namespace Decoder.Agrees

variable {decoder : Decoder α} {text : String} {value : Value} {a : α}

/-- What is read from a text is taken from the value that the text writes. -/
theorem fromValue_of_read (h : decoder.Agrees) (hvalue : parse text = .ok value)
    (hread : decoder.read text = .ok a) : decoder.fromValue value = .ok a :=
  h.ofValue (readAll_eq_ok_iff.1 hvalue).1 (readAll_eq_ok_iff.1 hread).1

/-- Where no key is written twice, the two ways take the same data. -/
theorem read_eq_ok_iff (h : decoder.Agrees) (hvalue : parse text = .ok value)
    (hkeys : RepeatsNoKey text) :
    decoder.read text = .ok a ↔ decoder.fromValue value = .ok a := by
  obtain ⟨houtline, hend⟩ := readAll_eq_ok_iff.1 hvalue
  constructor
  · exact h.fromValue_of_read hvalue
  · intro htake
    exact readAll_eq_ok_iff.2 ⟨h.ofOutline houtline hkeys htake, hend⟩

end Decoder.Agrees

end BuildFacts.Json
