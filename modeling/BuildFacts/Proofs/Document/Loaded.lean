import BuildFacts.Proofs.Document.Classification
import BuildFacts.Proofs.Payload.Parts

/-!
# Loaded documents

`Document.Loaded` are the documents that come from a text or from a value.

A loaded document is what a payload means: its targets and source files are
those of the payload, in the same order and under the same keys
(`Document.means_of_ofPayload`).  A target means its classification and the words
of its properties (`WrittenTarget.means_of_resolve`).

In a loaded document each target has a key of its own, and each target
classifies a file once.
-/

namespace BuildFacts

/-! ## Targets and source files -/

/-- What is known of a target that was resolved. -/
structure WrittenTarget.Means (key : String) (written : WrittenTarget) (target : Target) :
    Prop where
  name : target.name = written.name.getD key
  classifies : Classification.Classifies target.classification written.listed
  properties : ∀ property, (written.properties.get property).resolve (targetPointer key) property =
    .ok (target.properties.get property)

theorem WrittenTarget.means_of_resolve {key : String} {written : WrittenTarget} {target : Target}
    (h : written.resolve key = .ok target) : written.Means key target := by
  unfold resolve at h
  obtain ⟨state, hstate, h⟩ := bind_eq_ok_iff.1 h
  obtain ⟨definitions, hdefinitions, h⟩ := bind_eq_ok_iff.1 h
  obtain ⟨includes, hincludes, h⟩ := bind_eq_ok_iff.1 h
  obtain ⟨options, hoptions, h⟩ := bind_eq_ok_iff.1 h
  obtain rfl := Except.ok.inj h
  constructor
  · rfl
  · exact Classification.ofTarget_classifies (mapError_eq_ok_iff.1 hstate)
  · intro property
    cases property
    · exact hdefinitions
    · exact hincludes
    · exact hoptions

/-! ## Documents -/

namespace Document

/-- What is known of a document that a payload means. -/
structure Means (payload : Payload) (document : Document) : Prop where
  compilers : document.compilers = payload.compilers
  targets : Table.Resolved WrittenTarget.resolve payload.targets document.targets
  sources : Table.Resolved WrittenSource.resolve payload.sources document.sources

theorem means_of_ofPayload {payload : Payload} {document : Document}
    (h : ofPayload payload = .ok document) : Means payload document := by
  unfold ofPayload resolveEntries at h
  obtain ⟨targets, htargets, h⟩ := bind_eq_ok_iff.1 h
  obtain ⟨sources, hsources, h⟩ := bind_eq_ok_iff.1 h
  obtain rfl := Except.ok.inj h
  exact ⟨rfl, Table.mapM_eq_ok_iff_resolved.1 htargets, Table.mapM_eq_ok_iff_resolved.1 hsources⟩

theorem load_eq_ok_iff {payload : Except Json.Fault Payload} {document : Document} :
    (load payload).result = .ok document ↔
      ∃ written, payload = .ok written ∧ ofPayload written = .ok document := by
  simp only [load, Traced.result_bind, Traced.result_ofExcept, bind_eq_ok_iff, mapError_eq_ok_iff]
  constructor
  · intro ⟨written, hwritten, loaded, hloaded, heq⟩
    exact ⟨written, hwritten, Except.ok.inj heq ▸ hloaded⟩
  · intro ⟨written, hwritten, hloaded⟩
    exact ⟨written, hwritten, document, hloaded, rfl⟩

/-- A document that a text or a value is. -/
inductive Loaded (document : Document) : Prop where
  | ofText {text : String} (h : (ofText text).result = .ok document)
  | ofValue {value : Json.Value} (h : (ofValue value).result = .ok document)

namespace Loaded

variable {document : Document}

theorem exists_payload (h : document.Loaded) :
    ∃ payload, (payload.targets.keys.Nodup ∧ payload.sources.keys.Nodup) ∧
      Means payload document := by
  cases h with
  | ofText h =>
    obtain ⟨payload, hread, hmeans⟩ := load_eq_ok_iff.1 h
    exact ⟨payload, Payload.yields_nodup_keys.read hread, means_of_ofPayload hmeans⟩
  | ofValue h =>
    obtain ⟨payload, htake, hmeans⟩ := load_eq_ok_iff.1 h
    exact ⟨payload, Payload.yields_nodup_keys.value htake, means_of_ofPayload hmeans⟩

theorem nodup_keys (h : document.Loaded) : document.targets.keys.Nodup := by
  obtain ⟨payload, hkeys, hmeans⟩ := h.exists_payload
  rw [hmeans.targets.keys_eq]
  exact hkeys.1

theorem nodup_classification (h : document.Loaded) {key : String} {target : Target}
    (hmem : (key, target) ∈ document.targets) : target.classification.keys.Nodup := by
  obtain ⟨payload, _, hmeans⟩ := h.exists_payload
  obtain ⟨written, _, hresolve⟩ := hmeans.targets.exists_of_mem hmem
  exact (WrittenTarget.means_of_resolve hresolve).classifies.nodup_keys

end Loaded

end Document

end BuildFacts
