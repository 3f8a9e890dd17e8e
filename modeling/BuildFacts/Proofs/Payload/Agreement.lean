import BuildFacts.Payload
import BuildFacts.Proofs.Json.Agreement

/-!
# Payloads in texts and payloads as values

A payload that is read from a text is the one that is taken from the value of the
text (`Payload.agrees_decoder`).  So it is for its parts, each written in its own
way: frames, kinds of targets, targets and source files.
-/

namespace BuildFacts

open Json

/-! ## Kinds of targets -/

namespace TargetKind

theorem unit_eq_ok_iff {depth : Nat} {outline : Outline} {value : Value}
    (hvalue : outline.value depth = .ok value) : unit outline = .ok () ↔ value = .null := by
  cases Outline.readsAs_of_value hvalue with
  | word word => cases word <;> simp [unit, orFault, Spelling.fault?, Word.value]
  | _ => simp [unit]

theorem faultAfterMember_eq_none_iff {depth : Nat} {members : Members}
    {entries : List (String × Value)} (hentries : members.entries depth = .ok entries) :
    faultAfterMember members = none ↔ entries = [] := by
  cases members with
  | ends ending =>
    obtain ⟨rfl, rfl⟩ := Members.entries_ends_eq_ok_iff.1 hentries
    simp [faultAfterMember]
  | keyless => exact absurd hentries Members.entries_keyless
  | bare key atEnd => exact absurd hentries Members.entries_bare
  | member key value rest =>
    obtain ⟨name, _, part, _, others, _, rfl⟩ := Members.entries_member_eq_ok_iff.1 hentries
    simp [faultAfterMember]

/-- An object is read as a kind if it has one key as it is written, and `null` under it. -/
theorem readMembers_eq_ok_iff {depth : Nat} {members : Members}
    {entries : List (String × Value)} (hentries : members.entries depth = .ok entries)
    {kind : TargetKind} :
    readMembers members = .ok kind ↔ ∃ name, entries = [(name, .null)] ∧ kind = ofName name := by
  cases members with
  | ends ending =>
    obtain ⟨rfl, rfl⟩ := Members.entries_ends_eq_ok_iff.1 hentries
    simp [readMembers]
  | keyless => exact absurd hentries Members.entries_keyless
  | bare key atEnd => exact absurd hentries Members.entries_bare
  | member key value rest =>
    obtain ⟨name, hname, part, hpart, others, hothers, rfl⟩ :=
      Members.entries_member_eq_ok_iff.1 hentries
    rw [readMembers, hname]
    constructor
    · intro h
      obtain ⟨_, hname', h⟩ := bind_eq_ok_iff.1 h
      obtain rfl := Except.ok.inj hname'
      obtain ⟨_, hunit, h⟩ := bind_eq_ok_iff.1 h
      obtain ⟨hfault, rfl⟩ := orFault_eq_ok_iff.1 h
      obtain rfl := (unit_eq_ok_iff hpart).1 hunit
      obtain rfl := (faultAfterMember_eq_none_iff hothers).1 hfault
      exact ⟨name, rfl, rfl⟩
    · intro ⟨name', hentries', hkind⟩
      obtain ⟨hmember, rfl⟩ := List.cons.inj hentries'
      obtain ⟨rfl, rfl⟩ := Prod.mk.inj hmember
      refine bind_eq_ok_iff.2 ⟨name, rfl, bind_eq_ok_iff.2 ⟨(), (unit_eq_ok_iff hpart).2 rfl, ?_⟩⟩
      exact orFault_eq_ok_iff.2 ⟨(faultAfterMember_eq_none_iff hothers).2 rfl, hkind.symm⟩

theorem fromValue_object_eq_ok_iff {members : List (String × Value)} {kind : TargetKind} :
    decoder.fromValue (.object members) = .ok kind ↔
      ∃ name, members = [(name, .null)] ∧ kind = ofName name := by
  match members with
  | [] => simp [decoder]
  | [(name, value)] => cases value <;> simp [decoder, eq_comm]
  | _ :: _ :: _ => simp [decoder]

theorem agrees_decoder : decoder.Agrees where
  ofValue hvalue h := by
    cases Outline.readsAs_of_value hvalue with
    | string htext =>
      obtain ⟨name, hname, rfl⟩ := map_eq_ok_iff.1 h
      obtain rfl := Except.ok.inj (htext.symm.trans hname)
      rfl
    | object hentries =>
      obtain ⟨name, rfl, rfl⟩ := (readMembers_eq_ok_iff hentries).1 h
      rfl
    | _ => simp [decoder] at h
  ofOutline hvalue hkeys h := by
    cases Outline.readsAs_of_value hvalue with
    | string htext =>
      obtain rfl := Except.ok.inj h
      exact map_eq_ok_iff.2 ⟨_, htext, rfl⟩
    | object hentries =>
      rw [Outline.KeysOnce] at hkeys
      rw [Table.ofEntries_of_nodup_keys (Members.nodup_keys_of_entries hkeys.1 hentries),
        fromValue_object_eq_ok_iff] at h
      exact (readMembers_eq_ok_iff hentries).2 h
    | word word => cases word <;> simp [decoder, Word.value] at h
    | _ => simp [decoder] at h

end TargetKind

/-! ## Records -/

theorem Frame.agrees_decoder : record.decoder.Agrees :=
  Record.agrees (by simp [record, Decoder.agrees_text])

theorem WrittenWords.agrees_decoder : decoder.Agrees :=
  (Decoder.agrees_ofValue ofValue).optional

theorem WrittenTarget.agrees_decoder : record.decoder.Agrees :=
  Record.agrees (by
    simp [record, text, files, words, Decoder.agrees_string.optional, Decoder.agrees_string.list,
      TargetKind.agrees_decoder.optional, Frame.agrees_decoder.list, WrittenWords.agrees_decoder])

theorem WrittenSource.agrees_decoder : record.decoder.Agrees :=
  Record.agrees (by
    simp [record, Decoder.agrees_string.optional, WrittenWords.agrees_decoder])

/-- A payload that is read from a text is the one that is taken from its value. -/
theorem Payload.agrees_decoder : decoder.Agrees :=
  Record.agrees (by
    simp [record, text, Decoder.agrees_string.optional, WrittenTarget.agrees_decoder.table,
      WrittenSource.agrees_decoder.table])

end BuildFacts
