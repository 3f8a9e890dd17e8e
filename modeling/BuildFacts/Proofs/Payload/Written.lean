import BuildFacts.Proofs.Document.Classification
import BuildFacts.Proofs.Json.Written
import BuildFacts.Proofs.Payload.Parts

/-!
# What a payload writes

The targets, the compiled files of a target and the compilers of a payload, read off the
value itself.  A payload and its targets may be objects or lists of their fields.

These readings ask for no order and no type: what is written in another type reads as
nothing.  They agree with what is taken from the value where the value can be taken
(`Payload.lookup_targets_iff`, `WrittenTarget.listed_written`, `Payload.compiler_written`).
-/

namespace BuildFacts

open Json

/-! ## Reading a value -/

/-- The key of the compiler of a language. -/
def Payload.compilerKey : Language → String
  | .c => "c_compiler"
  | .cxx => "cxx_compiler"

/-- The key that tells what the compiler of a language is. -/
def Payload.compilerIdKey : Language → String
  | .c => "c_compiler_id"
  | .cxx => "cxx_compiler_id"

/-- The key of the version of the compiler of a language. -/
def Payload.compilerVersionKey : Language → String
  | .c => "c_compiler_version"
  | .cxx => "cxx_compiler_version"

namespace Json.Value

/-- The text of a value; none for a value that is no text. -/
def fieldText? (field : Option Value) : Option String :=
  field.bind string?

/-- The texts of a list; no texts for a value that is no list. -/
def fieldTexts (field : Option Value) : List String :=
  ((field.bind items?).getD []).filterMap string?

/-- The target under a key of a payload. -/
def targetAt? (payload : Value) (key : String) : Option Value :=
  (Payload.record.written? "targets" payload).bind (·.member? key)

/-- The source file under a key of a payload. -/
def sourceAt? (payload : Value) (key : String) : Option Value :=
  (Payload.record.written? "sources" payload).bind (·.member? key)

/-- The files of a list of a target. -/
def filesAt (target : Value) (name : String) : List String :=
  fieldTexts (WrittenTarget.record.written? name target)

/-- The compiled files of a target with their languages, list after list. -/
def compiledFiles (target : Value) : List (String × Language) :=
  (target.filesAt "object_sources_c").map (·, .c) ++
    (target.filesAt "object_sources_cxx").map (·, .cxx) ++
    (target.filesAt "generated_object_sources_c").map (·, .c) ++
    (target.filesAt "generated_object_sources_cxx").map (·, .cxx)

/-- The compiler of a language in a payload. -/
def compilerFor (payload : Value) (language : Language) : Compiler :=
  let text (name : String) := fieldText? (Payload.record.written? name payload)
  ⟨text (Payload.compilerKey language), text (Payload.compilerIdKey language),
    text (Payload.compilerVersionKey language)⟩

end Json.Value

theorem Json.Value.KeysDistinct.targetAt {payload target : Value} {key : String}
    (h : payload.KeysDistinct) (htarget : payload.targetAt? key = some target) :
    target.KeysDistinct := by
  obtain ⟨table, htable, hmember⟩ := Option.bind_eq_some_iff.1 htarget
  exact (h.written htable).member hmember

theorem Json.Value.KeysDistinct.sourceAt {payload source : Value} {key : String}
    (h : payload.KeysDistinct) (hsource : payload.sourceAt? key = some source) :
    source.KeysDistinct := by
  obtain ⟨table, htable, hmember⟩ := Option.bind_eq_some_iff.1 hsource
  exact (h.written htable).member hmember

/-! ## Texts -/

theorem Json.Decoder.fromValue_optional_string {value : Value} {text : Option String}
    (h : Decoder.string.optional.fromValue value = .ok text) : value.string? = text := by
  cases value with
  | null => exact Except.ok.inj h
  | string s => exact Except.ok.inj h
  | _ => exact nomatch h

/-! ## Targets -/

namespace WrittenTarget

theorem nodup_fieldNames : (record.fields.map (·.name)).Nodup := by
  decide

variable {value : Value} {target : WrittenTarget}

theorem filesAt_eq_of_part {name : String} {get : WrittenTarget → List String}
    (hpart : record.Part name Decoder.string.list get) (hinitial : get record.initial = [])
    (hkeys : value.KeysDistinct) (hvalue : record.decoder.fromValue value = .ok target) :
    value.filesAt name = get target := by
  have hwritten := hpart.fromValue_written nodup_fieldNames hkeys hvalue
  unfold Value.filesAt Value.fieldTexts
  cases hfield : record.written? name value with
  | none =>
    rw [hfield] at hwritten
    rw [hwritten, hinitial]
    rfl
  | some part =>
    rw [hfield] at hwritten
    rw [Decoder.fromValue_list_string hwritten]
    simp [Value.items?, Value.string?, List.filterMap_map, Function.comp_def]

/-- The compiled files of a target are those that it writes. -/
theorem listed_written (hkeys : value.KeysDistinct)
    (hvalue : record.decoder.fromValue value = .ok target) :
    value.compiledFiles = target.listed := by
  have hobjects (language : Language) :
      value.filesAt (objectsKey language) = target.objects.get language :=
    filesAt_eq_of_part (part_objects language) (by cases language <;> rfl) hkeys hvalue
  have hgenerated (language : Language) :
      value.filesAt (generatedObjectsKey language) = target.generatedObjects.get language :=
    filesAt_eq_of_part (part_generatedObjects language) (by cases language <;> rfl) hkeys hvalue
  have hc := hobjects .c
  have hcxx := hobjects .cxx
  have hgeneratedC := hgenerated .c
  have hgeneratedCxx := hgenerated .cxx
  simp only [objectsKey, generatedObjectsKey, ByLanguage.get] at hc hcxx hgeneratedC hgeneratedCxx
  rw [Value.compiledFiles, hc, hcxx, hgeneratedC, hgeneratedCxx, listed]

end WrittenTarget

/-! ## Payloads -/

namespace Payload

theorem nodup_fieldNames : (record.fields.map (·.name)).Nodup := by
  decide

variable {value : Value} {payload : Payload}

/-- The target under a key is the one that is written there. -/
theorem target_of_written (hkeys : value.KeysDistinct)
    (hvalue : decoder.fromValue value = .ok payload) {key : String} {part : Value}
    (hpart : value.targetAt? key = some part) :
    ∃ target, WrittenTarget.record.decoder.fromValue part = .ok target ∧
      payload.targets.lookup key = some target :=
  part_targets.lookup_of_written nodup_fieldNames hkeys hvalue hpart

/-- The source file under a key is the one that is written there. -/
theorem source_of_written (hkeys : value.KeysDistinct)
    (hvalue : decoder.fromValue value = .ok payload) {key : String} {part : Value}
    (hpart : value.sourceAt? key = some part) :
    ∃ source, WrittenSource.record.decoder.fromValue part = .ok source ∧
      payload.sources.lookup key = some source :=
  part_sources.lookup_of_written nodup_fieldNames hkeys hvalue hpart

theorem lookup_targets_iff (hkeys : value.KeysDistinct)
    (hvalue : decoder.fromValue value = .ok payload) {key : String} {target : WrittenTarget} :
    payload.targets.lookup key = some target ↔ ∃ part, value.targetAt? key = some part ∧
      WrittenTarget.record.decoder.fromValue part = .ok target :=
  part_targets.lookup_eq_some_iff nodup_fieldNames rfl hkeys hvalue

theorem lookup_sources_iff (hkeys : value.KeysDistinct)
    (hvalue : decoder.fromValue value = .ok payload) {key : String} {source : WrittenSource} :
    payload.sources.lookup key = some source ↔ ∃ part, value.sourceAt? key = some part ∧
      WrittenSource.record.decoder.fromValue part = .ok source :=
  part_sources.lookup_eq_some_iff nodup_fieldNames rfl hkeys hvalue

theorem part_compiler (language : Language) :
    record.Part (compilerKey language) Decoder.string.optional
      fun payload => (payload.compilers.get language).path where
  present := by cases language <;> simp [Record.field?, record, text, compilerKey]
  fields := by cases language <;> simp [record, text, compilerKey, ByLanguage.get]

theorem part_compilerId (language : Language) :
    record.Part (compilerIdKey language) Decoder.string.optional
      fun payload => (payload.compilers.get language).id where
  present := by cases language <;> simp [Record.field?, record, text, compilerIdKey]
  fields := by cases language <;> simp [record, text, compilerIdKey, ByLanguage.get]

theorem part_compilerVersion (language : Language) :
    record.Part (compilerVersionKey language) Decoder.string.optional
      fun payload => (payload.compilers.get language).version where
  present := by cases language <;> simp [Record.field?, record, text, compilerVersionKey]
  fields := by cases language <;> simp [record, text, compilerVersionKey, ByLanguage.get]

theorem fieldText?_eq_of_part {name : String} {get : Payload → Option String}
    (hpart : record.Part name Decoder.string.optional get) (hinitial : get record.initial = none)
    (hkeys : value.KeysDistinct) (hvalue : decoder.fromValue value = .ok payload) :
    Value.fieldText? (record.written? name value) = get payload := by
  have hwritten := hpart.fromValue_written nodup_fieldNames hkeys hvalue
  cases hfield : record.written? name value with
  | none =>
    rw [hfield] at hwritten
    rw [hwritten, hinitial]
    rfl
  | some part =>
    rw [hfield] at hwritten
    exact Decoder.fromValue_optional_string hwritten

/-- The compiler of a language is the one that is written. -/
theorem compiler_written (hkeys : value.KeysDistinct)
    (hvalue : decoder.fromValue value = .ok payload) (language : Language) :
    value.compilerFor language = payload.compilers.get language := by
  have hpath := fieldText?_eq_of_part (part_compiler language) (by cases language <;> rfl)
    hkeys hvalue
  have hid := fieldText?_eq_of_part (part_compilerId language) (by cases language <;> rfl)
    hkeys hvalue
  have hversion := fieldText?_eq_of_part (part_compilerVersion language)
    (by cases language <;> rfl) hkeys hvalue
  simp only [Value.compilerFor, hpath, hid, hversion]

end Payload

end BuildFacts
