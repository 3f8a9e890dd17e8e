import BuildFacts.Proofs.Document.Failures
import BuildFacts.Proofs.Payload.Order
import BuildFacts.Resolve

/-!
# Documents of payloads with their members in another order

A payload and a rearranged one mean documents that hold the same targets and source files, in
some order (`Document.ofPayload_reordered`).  A target or a source file is found by its key, and
so the order is not seen by any question (`Document.answersAlike_of_reordered`).

`Document.ofValue_rearranged` says so of the two payloads as values.
-/

namespace BuildFacts

open Json

/-! ## Documents in another order -/

namespace Document

/-- Two documents that are the same but for the order of their targets and source files. -/
structure Reordered (d d' : Document) : Prop where
  sourceDir : d'.sourceDir = d.sourceDir
  generator : d'.generator = d.generator
  platform : d'.platform = d.platform
  compilers : d'.compilers = d.compilers
  targets : d.targets.Perm d'.targets
  sources : d.sources.Perm d'.sources

/-- Payloads that differ in the order of their tables mean documents that do, or none. -/
theorem ofPayload_reordered {p p' : Payload} (h : p.Reordered p') :
    BothEnd Reordered (ofPayload p) (ofPayload p') := by
  refine EndAlike.bind (.mapM_perm h.targets) fun targets targets' htargets => ?_
  refine EndAlike.bind (.mapM_perm h.sources) fun sources sources' hsources => .ok ?_
  exact ⟨by rw [h.sourceDir], h.generator, h.platform, h.compilers, htargets, hsources⟩

/-! ## Questions -/

/-- Two documents that answer every question in the same way. -/
structure AnswersAlike (d d' : Document) : Prop where
  target : ∀ key, d'.target key = d.target key
  override? : ∀ file, d'.override? file = d.override? file
  languageOf : ∀ key file, d'.languageOf key file = d.languageOf key file
  compiler : ∀ key file, d'.compiler key file = d.compiler key file
  compilerId : ∀ key file, d'.compilerId key file = d.compilerId key file
  compilerVersion : ∀ key file, d'.compilerVersion key file = d.compilerVersion key file
  property : ∀ key file property, d'.property key file property = d.property key file property
  arguments : ∀ key file, d'.arguments key file = d.arguments key file
  command : ∀ key file directory, d'.command key file directory = d.command key file directory

/-- The answers of a document depend on its compilers and on what it holds under each key. -/
theorem answersAlike_of_lookup {d d' : Document} (hcompilers : d'.compilers = d.compilers)
    (htargets : ∀ key, d'.targets.lookup key = d.targets.lookup key)
    (hsources : ∀ key, d'.sources.lookup key = d.sources.lookup key) : d.AnswersAlike d' := by
  have htarget (key : String) : d'.target key = d.target key := by
    rw [target, target, htargets]
  have hoverride (file : Path) : d'.override? file = d.override? file := by
    simp only [override?, hsources]
  have hlanguage (key : String) (file : Path) : d'.languageOf key file = d.languageOf key file := by
    rw [languageOf, languageOf, htarget]
  have hrequire (key : String) (file : Path) :
      d'.requireLanguage key file = d.requireLanguage key file := by
    rw [requireLanguage, requireLanguage, hlanguage]
  have hfield (field : Compiler → Option String) (key : String) (file : Path) :
      d'.compilerField field key file = d.compilerField field key file := by
    rw [compilerField, compilerField, hrequire, hcompilers]
  have hproperty (key : String) (file : Path) (property : Property) :
      d'.property key file property = d.property key file property := by
    rw [Document.property, Document.property, hrequire, htarget, addedWords, addedWords, hoverride]
  have harguments (key : String) (file : Path) : d'.arguments key file = d.arguments key file := by
    simp only [Document.arguments, definitions, includes, options, hproperty]
  have hcommand (key : String) (file directory : Path) :
      d'.command key file directory = d.command key file directory := by
    rw [Document.command, Document.command, Document.compiler, Document.compiler, hfield,
      harguments]
  exact ⟨htarget, hoverride, hlanguage, hfield _, hfield _, hfield _, hproperty, harguments,
    hcommand⟩

theorem Loaded.nodup_sourceKeys {document : Document} (h : document.Loaded) :
    document.sources.keys.Nodup := by
  obtain ⟨payload, hkeys, hmeans⟩ := h.exists_payload
  rw [hmeans.sources.keys_eq]
  exact hkeys.2

/-- A loaded document answers as it does in any other order. -/
theorem answersAlike_of_reordered {d d' : Document} (hloaded : d.Loaded) (h : d.Reordered d') :
    d.AnswersAlike d' :=
  answersAlike_of_lookup h.compilers (Table.lookup_eq_of_perm hloaded.nodup_keys h.targets)
    (Table.lookup_eq_of_perm hloaded.nodup_sourceKeys h.sources)

end Document

/-! ## Loading -/

/-- Two errors of one kind: either input is malformed, or either has a place that does not fit. -/
inductive Error.SameKind : Error → Error → Prop where
  | malformed (input : Input) (fault fault' : Fault) :
      SameKind (.malformed input fault) (.malformed input fault')
  | mismatch (pointer pointer' : String) (cause cause' : Mismatch) :
      SameKind (.mismatch pointer cause) (.mismatch pointer' cause')

namespace Document

theorem result_load (payload : Except Fault Payload) :
    (load payload).result = payload.mapError (Error.malformed .metadata) >>= ofPayload := by
  simp only [load, Traced.result_bind, Traced.result_ofExcept]
  exact congrArg _ (funext fun payload => bind_pure (ofPayload payload))

/-- A payload and a rearranged one are loaded as documents that differ in order, or neither is
loaded and the errors are of one kind. -/
theorem ofValue_reordered {value value' : Value} (hkeys : value.KeysDistinct)
    (h : value.Rearranged value') :
    EndAlike Error.SameKind Reordered (ofValue value).result (ofValue value').result := by
  rw [ofValue, ofValue, result_load, result_load]
  refine EndAlike.bind (R := Payload.Reordered) ?_ fun p p' hp => ?_
  · exact (Payload.orderBlind_decoder ⟨hkeys, h⟩).mapError fun fault fault' _ =>
      .malformed .metadata fault fault'
  · refine (ofPayload_reordered hp).imp_error fun e e' herror herror' _ => ?_
    obtain ⟨pointer, cause, rfl⟩ := (flaw_of_ofPayload herror).exists_mismatch
    obtain ⟨pointer', cause', rfl⟩ := (flaw_of_ofPayload herror').exists_mismatch
    exact .mismatch pointer pointer' cause cause'

end Document

end BuildFacts
