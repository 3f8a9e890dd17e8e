import BuildFacts.Loading
import BuildFacts.Proofs.Document.Flaws
import BuildFacts.Proofs.Document.Given
import BuildFacts.Proofs.Schema.Metadata

/-!
# Payloads that were checked against their schema

A payload that is valid at the schema of metadata can still fail to load.
`Document.ofValue_of_enforce` says for what: it is malformed if some line in a backtrace is no
line, and otherwise it is a mismatch with a cause that no schema could tell, a file under two
languages or a text that does not split into words.
-/

namespace BuildFacts.Document

open Json

/-- A value is malformed exactly if no payload can be taken from it. -/
theorem ofValue_malformed_iff {value : Value} :
    (∃ fault, (ofValue value).result = .error (.malformed .metadata fault)) ↔
      ¬Payload.decoder.Takes value := by
  constructor
  · rintro ⟨fault, hfault⟩ ⟨payload, hpayload⟩
    rcases load_eq_error_iff.1 hfault with ⟨_, hmalformed, _⟩ | ⟨written, _, herror⟩
    · exact nomatch hmalformed.symm.trans hpayload
    · obtain ⟨pointer, cause, hmismatch⟩ := (flaw_of_ofPayload herror).exists_mismatch
      exact nomatch hmismatch
  · intro hnone
    cases htaken : Payload.decoder.fromValue value with
    | ok payload => exact absurd ⟨payload, htaken⟩ hnone
    | error fault => exact ⟨fault, load_eq_error_iff.2 (.inl ⟨fault, htaken, rfl⟩)⟩

/-- How a payload loads that was found valid against the schema of metadata.

* It is malformed exactly if in the backtrace of some target there is a line that is a number
  other than an integer in range, or a text that writes no such integer.
* If it is not malformed it loads, or it has a flaw: a file under both languages, or a text for
  words that does not split.  It loads exactly if it has none. -/
theorem ofValue_of_enforce {value : Value} (hkeys : value.KeysDistinct)
    (hvalid : (Schema.metadata.enforce value).result = .ok ()) :
    ((∃ fault, (ofValue value).result = .error (.malformed .metadata fault)) ↔
      ∃ line, value.HasLine line ∧ Frame.NotLine line) ∧
    ((∀ line, value.HasLine line → ¬Frame.NotLine line) →
      ((∃ document, (ofValue value).result = .ok document) ↔ ∀ error, ¬value.Flaw error) ∧
      ∀ error, (ofValue value).result = .error error →
        value.Flaw error ∧ ∃ pointer cause, error = .mismatch pointer cause) := by
  have hvalid : Schema.Valid Schema.metadata.root 0 Schema.metadata.root value := by
    rw [← Schema.check_violation_eq_none_iff]
    by_contra hviolation
    obtain ⟨violation, hviolation⟩ := Option.ne_none_iff_exists'.1 hviolation
    simp [Schema.enforce, Schema.validate, hviolation] at hvalid
  have htakes := Schema.takes_payload_iff hkeys hvalid
  constructor
  · rw [ofValue_malformed_iff, htakes]
    simp only [not_forall, not_not, exists_prop]
  · intro hlines
    obtain ⟨payload, hpayload⟩ := htakes.2 hlines
    rw [ofValue, hpayload, result_load_ok, exists_ofPayload_iff]
    refine ⟨forall_congr' fun error => not_congr (Payload.flaw_iff hkeys hpayload), ?_⟩
    intro error herror
    have hflaw := flaw_of_ofPayload herror
    exact ⟨hflaw.written hkeys hpayload, hflaw.exists_mismatch⟩

/-- A payload with a target whose backtrace has one line. -/
def linePayload (line : Value) : Value :=
  .object
    [("targets", .object
      [("t", .object
        [("backtrace", .array [.object [("path", .string "CMakeLists.txt"), ("line", line)]])])])]

theorem ofValue_of_enforce_linePayload :
    (∃ fault, (ofValue (linePayload (.number (.integer 4294967296)))).result =
      .error (.malformed .metadata fault)) ∧
    (∃ document, (ofValue (linePayload (.string " +007 "))).result = .ok document) ∧
    ∀ error, ¬(linePayload (.string " +007 ")).Flaw error := by
  have hkeys (line : Value) (h : line.KeysDistinct) : (linePayload line).KeysDistinct := by
    simp [linePayload, Table.keys, h]
  constructor
  · refine (ofValue_of_enforce (hkeys _ (.number _)) rfl).1.2
      ⟨.number (.integer 4294967296), ⟨"t", _, _, _, rfl, rfl, List.mem_singleton_self _, rfl⟩, ?_⟩
    exact .number fun n hmax => by
      simp only [Frame.maxLine] at hmax
      simp only [ne_eq, Number.integer.injEq]
      omega
  · obtain ⟨document, hdocument⟩ : ∃ document,
        (ofValue (linePayload (.string " +007 "))).result = .ok document :=
      ⟨_, rfl⟩
    obtain ⟨hmalformed, hloads⟩ := ofValue_of_enforce (hkeys _ (.string " +007 ")) rfl
    have hlines : ∀ line, (linePayload (.string " +007 ")).HasLine line → ¬Frame.NotLine line := by
      intro line hline hnot
      obtain ⟨fault, hfault⟩ := hmalformed.2 ⟨line, hline, hnot⟩
      exact nomatch hdocument.symm.trans hfault
    exact ⟨⟨document, hdocument⟩, (hloads hlines).1.1 ⟨document, hdocument⟩⟩

end BuildFacts.Document
