import BuildFacts.Proofs.Payload.Line
import BuildFacts.Proofs.Schema.Decoding

/-!
# What the schema of metadata leaves open

A payload that is valid at the schema of metadata has the right form for the decoder, but for the
lines of backtraces: the schema asks for an integer or a text, and the decoder for a line.

The module follows schema and decoder from the leaves to the root.  `takes_payload_iff` is the
result: a valid payload is taken exactly if every line of its backtraces is a line.
-/

namespace BuildFacts

open Json

/-- A line in the backtrace of a target of a payload. -/
def Json.Value.HasLine (payload line : Value) : Prop :=
  ∃ key target frames frame, payload.entry? "targets" key = some target ∧
    target.member? "backtrace" = some (.array frames) ∧ frame ∈ frames ∧
    frame.member? "line" = some line

namespace Schema

/-! ## Texts, words and kinds -/

theorem takesValid_texts :
    TakesValid metadata.root (listNode textNode) Decoder.string.list fun _ => True :=
  (TakesValid.list (by decide) (.text "a string")).congr (by simp)

theorem takesValid_words :
    TakesValid metadata.root propertyValueNode WrittenWords.decoder fun _ => True := by
  refine .optional (.of_forall fun {hops value} _ hvalid => ?_)
  obtain ⟨hown, hparts⟩ := (valid_object_iff (not_refersTo rfl)).1 hvalid
  obtain ⟨name, hname, htype⟩ := hown.type _ rfl
  have hkind : value.kind = .array ∨ value.kind = .string := by
    simp only [List.mem_cons, List.not_mem_nil, or_false, Value.string.injEq] at hname
    rcases hname with rfl | rfl
    · exact .inl ((ofType_name_iff .array value).1 htype)
    · exact .inr ((ofType_name_iff .string value).1 htype)
  cases value with
  | string text => exact ⟨.joined text, rfl⟩
  | array items =>
    have htakes : Decoder.string.list.Takes (.array items) := by
      refine Decoder.takes_list_iff.2 ⟨items, rfl, fun item hmem => Decoder.takes_text_iff.2 ?_⟩
      exact (hparts.items items item textNode rfl hmem rfl (by decide)).kind_eq rfl rfl
    obtain ⟨texts, htexts⟩ := htakes
    rw [Decoder.fromValue_list_string htexts]
    exact ⟨.items texts, by
      simp only [Decoder.ofValue, WrittenWords.ofValue, Value.mapM_string?_map_string]⟩
  | _ => simp [Value.kind] at hkind

theorem takesValid_targetKind :
    TakesValid metadata.root targetKindNode TargetKind.decoder fun _ => True := by
  refine .of_forall fun {hops value} _ hvalid => ?_
  obtain ⟨hown, _⟩ := (valid_object_iff (not_refersTo rfl)).1 hvalid
  obtain ⟨allowed, hallowed, hequals⟩ := hown.enum _ rfl
  have hkind : value.kind = .string := by
    rw [← hequals.kind_eq]
    simp only [List.mem_cons, List.not_mem_nil, or_false] at hallowed
    rcases hallowed with rfl | rfl | rfl | rfl | rfl | rfl <;> rfl
  cases value with
  | string name => exact ⟨TargetKind.ofName name, rfl⟩
  | _ => simp [Value.kind] at hkind

/-! ## Backtraces -/

theorem takesValid_line :
    TakesValid metadata.root lineNode (Decoder.ofValue Frame.lineOfValue)
      fun value => ¬Frame.NotLine value := by
  refine ⟨fun {hops value} _ hvalid => ?_⟩
  obtain ⟨hown, _⟩ := (valid_object_iff (not_refersTo rfl)).1 hvalid
  obtain ⟨name, hname, htype⟩ := hown.type _ rfl
  have hkind : value.kind = .number ∨ value.kind = .string := by
    simp only [List.mem_cons, List.not_mem_nil, or_false, Value.string.injEq] at hname
    rcases hname with rfl | rfl
    · exact .inr ((ofType_name_iff .string value).1 htype)
    · obtain ⟨n, rfl, _⟩ := htype.2 rfl
      exact .inl rfl
  rw [Frame.notLine_iff hkind, not_not]
  exact exists_congr fun n => Frame.lineOfValue_eq_ok_iff

theorem takesValid_frame :
    TakesValid metadata.root frameNode Frame.record.decoder
      fun value => ∀ line, value.member? "line" = some line → ¬Frame.NotLine line := by
  refine .record "line" rfl rfl rfl ?_ ?_ ?_
  · decide
  · decide
  · simp only [Frame.record, List.forall_mem_cons]
    exact ⟨.plain (.text "path string") rfl (by decide) rfl, .special takesValid_line rfl rfl rfl,
      by simp⟩

/-! ## Targets, source files and payloads -/

theorem takesValid_text : TakesValid metadata.root textNode Decoder.string.optional fun _ => True :=
  .optional (.text "a string")

theorem takesValid_definedTexts :
    TakesValid metadata.root (definedNode "stringList") Decoder.string.list fun _ => True :=
  .reference rfl takesValid_texts

theorem takesValid_definedWords :
    TakesValid metadata.root (definedNode "propertyValue") WrittenWords.decoder fun _ => True :=
  .reference rfl takesValid_words

/-- A valid target is taken if the lines of its backtrace are. -/
theorem takesValid_target :
    TakesValid metadata.root (objectNode targetProperties) WrittenTarget.record.decoder
      fun value => ∀ backtrace, value.member? "backtrace" = some backtrace →
        ∀ frames, backtrace = .array frames → ∀ frame ∈ frames,
          ∀ line, frame.member? "line" = some line → ¬Frame.NotLine line := by
  have text := takesValid_text
  have texts := takesValid_definedTexts
  have words := takesValid_definedWords
  refine .record "backtrace" rfl rfl rfl ?_ ?_ ?_
  · decide
  · decide
  · simp only [WrittenTarget.record, List.forall_mem_cons]
    exact ⟨.plain text rfl (by decide) rfl,
      .plain takesValid_targetKind.optional rfl (by decide) rfl,
      .special (.list (by decide) takesValid_frame) rfl rfl rfl,
      .plain text rfl (by decide) rfl, .plain text rfl (by decide) rfl,
      .plain text rfl (by decide) rfl, .plain texts rfl (by decide) rfl,
      .plain texts rfl (by decide) rfl, .plain texts rfl (by decide) rfl,
      .plain texts rfl (by decide) rfl, .plain texts rfl (by decide) rfl,
      .plain texts rfl (by decide) rfl, .plain texts rfl (by decide) rfl,
      .plain texts rfl (by decide) rfl, .plain texts rfl (by decide) rfl,
      .plain words rfl (by decide) rfl, .plain words rfl (by decide) rfl,
      .plain words rfl (by decide) rfl, .plain words rfl (by decide) rfl,
      .plain words rfl (by decide) rfl, .plain words rfl (by decide) rfl,
      .plain words rfl (by decide) rfl, .plain words rfl (by decide) rfl,
      .plain words rfl (by decide) rfl, by simp⟩

theorem takesValid_source :
    TakesValid metadata.root (objectNode sourceProperties) WrittenSource.record.decoder
      fun _ => True := by
  have words := takesValid_definedWords
  refine (TakesValid.record (P := fun _ => True) "path" rfl rfl rfl ?_ ?_ ?_).congr (by simp)
  · decide
  · decide
  · simp only [WrittenSource.record, List.forall_mem_cons]
    exact ⟨.special takesValid_text rfl rfl rfl, .plain words rfl (by decide) rfl,
      .plain words rfl (by decide) rfl, .plain words rfl (by decide) rfl,
      .plain words rfl (by decide) rfl, by simp⟩

/-- A valid payload is taken if the lines of its targets are. -/
theorem takesValid_payload :
    TakesValid metadata.root metadata.root Payload.decoder
      fun value => ∀ targets, value.member? "targets" = some targets →
        ∀ key target, targets.member? key = some target →
          ∀ backtrace, target.member? "backtrace" = some backtrace →
            ∀ frames, backtrace = .array frames → ∀ frame ∈ frames,
              ∀ line, frame.member? "line" = some line → ¬Frame.NotLine line := by
  have text := takesValid_text
  refine .record "targets" rfl rfl rfl ?_ ?_ ?_
  · decide
  · decide
  · simp only [Payload.record, List.forall_mem_cons]
    exact ⟨.plain text rfl (by decide) rfl, .plain text rfl (by decide) rfl,
      .plain text rfl (by decide) rfl, .plain text rfl (by decide) rfl,
      .plain text rfl (by decide) rfl, .plain text rfl (by decide) rfl,
      .plain text rfl (by decide) rfl, .plain text rfl (by decide) rfl,
      .plain text rfl (by decide) rfl,
      .special (.table (.reference rfl takesValid_target)) rfl rfl rfl,
      .plain ((TakesValid.table (.reference rfl takesValid_source)).congr (by simp)) rfl
        (by decide) rfl, by simp⟩

/-- A valid payload is taken exactly if every line of its backtraces is a line. -/
theorem takes_payload_iff {value : Value} (hkeys : value.KeysDistinct)
    (hvalid : Valid metadata.root 0 metadata.root value) :
    Payload.decoder.Takes value ↔ ∀ line, value.HasLine line → ¬Frame.NotLine line := by
  rw [takesValid_payload.takes_iff hkeys hvalid]
  constructor
  · rintro h line ⟨key, target, frames, frame, htarget, hbacktrace, hframe, hline⟩
    obtain ⟨targets, htargets, hentry⟩ := Option.bind_eq_some_iff.1 htarget
    exact h targets htargets key target hentry _ hbacktrace frames rfl frame hframe line hline
  · rintro h targets htargets key target hentry _ hbacktrace frames rfl frame hframe line hline
    have htarget : value.entry? "targets" key = some target :=
      Option.bind_eq_some_iff.2 ⟨targets, htargets, hentry⟩
    exact h line ⟨key, target, frames, frame, htarget, hbacktrace, hframe, hline⟩

end Schema

end BuildFacts
