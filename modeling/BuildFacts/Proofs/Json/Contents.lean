import BuildFacts.Proofs.Json.Record

/-!
# What is read of an outline

A decoder reads an outline part by part and fails at the first part that it cannot read.  So of an
outline that is read each part can be read, also a part that counts for nothing in the end: a
table keeps the last of several entries with one key, but all of them are read.

* `Decoder.Reads` says that a decoder takes data from an outline, whatever the data are.
* `Decoder.Reads.item` and `Decoder.Reads.entry` are about lists and tables.
* `Record.Part.reads` is about records: `Record.Gives` finds what an outline gives for a field,
  in either form of the record.
-/

namespace BuildFacts.Json

variable {σ α β : Type}

/-- The item at a place of a list. -/
def Items.get? : Items → Nat → Option Outline
  | .ends _, _ => none
  | .item first _, 0 => some first
  | .item _ rest, place + 1 => rest.get? place

/-- A part stands under a key of an object, where a key may stand several times. -/
inductive Members.Has (key : String) (part : Outline) : Members → Prop where
  | here {literal : StringLiteral} {rest : Members} (h : literal.text = .ok key) :
      Has key part (.member literal part rest)
  | later {literal : StringLiteral} {value : Outline} {rest : Members} (h : Has key part rest) :
      Has key part (.member literal value rest)

/-- An outline gives a part for a field of a record: as a member with the name of the field, or as
the item at its place. -/
inductive Record.Gives (record : Record σ) (name : String) (part : Outline) : Outline → Prop where
  | member {members : Members} (h : members.Has name part) :
      Gives record name part (.object members)
  | item {items : Items} {place : Nat} (hname : (record.fields.map (·.name))[place]? = some name)
      (h : items.get? place = some part) : Gives record name part (.array items)

/-- A decoder takes data from an outline. -/
def Decoder.Reads (decoder : Decoder α) (outline : Outline) : Prop :=
  ∃ depth a, decoder.fromOutline depth outline = .ok a

namespace Decoder

variable {decoder : Decoder α} {part : Outline}

theorem reads_map_iff {f : α → β} : (decoder.map f).Reads part ↔ decoder.Reads part :=
  exists_congr fun _ => exists_map_eq_ok_iff

/-! ## Lists and tables -/

theorem exists_of_items {item : Outline → Except Fault α} {items : Items} {taken : List α}
    {place : Nat} (h : Decoder.items item items = .ok taken)
    (hpart : items.get? place = some part) : ∃ a, item part = .ok a := by
  induction place generalizing items taken with
  | zero =>
    cases items with
    | ends ending => exact nomatch hpart
    | item first rest =>
      obtain ⟨a, ha, -⟩ := bind_eq_ok_iff.1 h
      exact ⟨a, Option.some.inj hpart ▸ ha⟩
  | succ place ih =>
    cases items with
    | ends ending => exact nomatch hpart
    | item first rest =>
      obtain ⟨_, -, h⟩ := bind_eq_ok_iff.1 h
      obtain ⟨_, hrest, -⟩ := bind_eq_ok_iff.1 h
      exact ih hrest hpart

theorem exists_of_entries {entry : Outline → Except Fault α} {members : Members}
    {taken : List (String × α)} {key : String} (h : entries entry members = .ok taken)
    (hpart : members.Has key part) : ∃ a, entry part = .ok a := by
  induction hpart generalizing taken with
  | here _ =>
    obtain ⟨_, -, h⟩ := bind_eq_ok_iff.1 h
    obtain ⟨a, ha, -⟩ := bind_eq_ok_iff.1 h
    exact ⟨a, ha⟩
  | later _ ih =>
    obtain ⟨_, -, h⟩ := bind_eq_ok_iff.1 h
    obtain ⟨_, -, h⟩ := bind_eq_ok_iff.1 h
    obtain ⟨_, hrest, -⟩ := bind_eq_ok_iff.1 h
    exact ih hrest

/-- Of a list that is read each item is read. -/
theorem Reads.item {items : Items} {place : Nat} (h : decoder.list.Reads (.array items))
    (hpart : items.get? place = some part) : decoder.Reads part := by
  obtain ⟨_, _, h⟩ := h
  obtain ⟨depth, h⟩ := descend_eq_ok h
  exact ⟨depth, exists_of_items h hpart⟩

/-- Of a table that is read each entry is read. -/
theorem Reads.entry {members : Members} {key : String} (h : decoder.table.Reads (.object members))
    (hpart : members.Has key part) : decoder.Reads part := by
  obtain ⟨_, _, h⟩ := h
  obtain ⟨depth, h⟩ := descend_eq_ok h
  obtain ⟨taken, htaken, -⟩ := map_eq_ok_iff.1 h
  exact ⟨depth, exists_of_entries htaken hpart⟩

end Decoder

/-! ## Records -/

namespace Record

variable {record : Record σ} {name : String} {part : Outline}

theorem exists_of_readItems {depth index place : Nat} {state result : σ}
    {fields : List (Field σ)} {items : Items} {field : Field σ}
    (h : record.readItems depth index state fields items = .ok result)
    (hfield : fields[place]? = some field) (hpart : items.get? place = some part) :
    ∃ change, field.change.fromOutline depth part = .ok change := by
  induction place generalizing index state fields items with
  | zero =>
    cases fields with
    | nil => exact nomatch hfield
    | cons first fields =>
      cases items with
      | ends ending => exact nomatch hpart
      | item item rest =>
        obtain rfl : first = field := Option.some.inj hfield
        obtain rfl : item = part := Option.some.inj hpart
        obtain ⟨change, hchange, -⟩ := bind_eq_ok_iff.1 h
        exact ⟨change, hchange⟩
  | succ place ih =>
    cases fields with
    | nil => exact nomatch hfield
    | cons first fields =>
      cases items with
      | ends ending => exact nomatch hpart
      | item item rest =>
        obtain ⟨_, -, h⟩ := bind_eq_ok_iff.1 h
        exact ih h hfield hpart

theorem exists_of_readMembers {depth : Nat} {seen : List String} {state result : σ}
    {members : Members} {field : Field σ}
    (h : record.readMembers depth seen state members = .ok result)
    (hfield : record.field? name = some field) (hpart : members.Has name part) :
    ∃ change, field.change.fromOutline depth part = .ok change := by
  induction hpart generalizing seen state with
  | here hkey =>
    rw [readMembers, hkey] at h
    obtain ⟨_, hname, h⟩ := bind_eq_ok_iff.1 h
    obtain rfl := Except.ok.inj hname
    simp only [hfield] at h
    split at h
    · simp at h
    · obtain ⟨change, hchange, -⟩ := bind_eq_ok_iff.1 h
      exact ⟨change, hchange⟩
  | later _ ih =>
    rw [readMembers] at h
    obtain ⟨other, -, h⟩ := bind_eq_ok_iff.1 h
    split at h
    · obtain ⟨_, -, h⟩ := bind_eq_ok_iff.1 h
      exact ih h
    · split at h
      · simp at h
      · obtain ⟨_, -, h⟩ := bind_eq_ok_iff.1 h
        exact ih h

/-- Of a record that is read each field is read. -/
theorem Part.reads {decoder : Decoder α} {get : σ → α} {outline : Outline}
    (h : record.Part name decoder get) (hread : record.decoder.Reads outline)
    (hgives : record.Gives name part outline) : decoder.Reads part := by
  obtain ⟨_, _, hread⟩ := hread
  have hsets {field : Field σ} {depth : Nat} (hfield : field.Sets decoder get)
      (hchange : ∃ change, field.change.fromOutline depth part = .ok change) :
      decoder.Reads part := by
    obtain ⟨set, heq, -⟩ := hfield
    rw [heq] at hchange
    exact Decoder.reads_map_iff.1 ⟨depth, hchange⟩
  cases hgives with
  | member hpart =>
    obtain ⟨field, hfield⟩ := Option.isSome_iff_exists.1 h.present
    obtain ⟨depth, hread⟩ := descend_eq_ok hread
    exact hsets (h.sets hfield) (exists_of_readMembers hread hfield hpart)
  | item hname hpart =>
    rw [List.getElem?_map] at hname
    obtain ⟨field, hfield, rfl⟩ := Option.map_eq_some_iff.1 hname
    have hfieldSets : field.Sets decoder get := by
      simpa using h.fields field (List.mem_of_getElem? hfield)
    obtain ⟨depth, hread⟩ := descend_eq_ok hread
    exact hsets hfieldSets (exists_of_readItems hread hfield hpart)

end Record

end BuildFacts.Json
