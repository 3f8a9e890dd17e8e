import BuildFacts.Payload
import BuildFacts.Proofs.Json.Record

/-!
# The parts of a payload

For each member of a payload, a target or a source file that a document is
made of: the part of the written form that the member fills.
-/

namespace BuildFacts

open Json

namespace WrittenTarget

/-- The key of the object files of a language. -/
def objectsKey : Language → String
  | .c => "object_sources_c"
  | .cxx => "object_sources_cxx"

/-- The key of the object files of a language that the build writes. -/
def generatedObjectsKey : Language → String
  | .c => "generated_object_sources_c"
  | .cxx => "generated_object_sources_cxx"

theorem part_objects (language : Language) :
    record.Part (objectsKey language) Decoder.string.list
      fun target => target.objects.get language where
  present := by
    cases language <;>
      simp [Record.field?, record, text, files, words, objectsKey]
  fields := by
    cases language <;>
      simp [record, text, files, words, objectsKey, ByLanguage.get]

theorem part_generatedObjects (language : Language) :
    record.Part (generatedObjectsKey language) Decoder.string.list
      fun target => target.generatedObjects.get language where
  present := by
    cases language <;>
      simp [Record.field?, record, text, files, words, generatedObjectsKey]
  fields := by
    cases language <;>
      simp [record, text, files, words, generatedObjectsKey, ByLanguage.get]

theorem part_base (property : Property) :
    record.Part property.key WrittenWords.decoder
      fun target => (target.properties.get property).base where
  present := by
    cases property <;> simp [Record.field?, record, text, files, words, Property.key]
  fields := by
    cases property <;>
      simp [record, text, files, words, Property.key, ByProperty.get]

theorem part_specialized (property : Property) (language : Language) :
    record.Part (property.keyFor language) WrittenWords.decoder
      fun target => (target.properties.get property).specialized.get language where
  present := by
    cases property <;> cases language <;>
      simp [Record.field?, record, text, files, words, Property.keyFor, Property.key,
        Language.keySuffix]
  fields := by
    cases property <;> cases language <;>
      simp [record, text, files, words, Property.keyFor, Property.key, Language.keySuffix,
        ByProperty.get, ByLanguage.get]

end WrittenTarget

namespace WrittenSource

/-- The words that stand under the key of a property. -/
def written (source : WrittenSource) : Property → Option WrittenWords
  | .definitions => source.definitions
  | .includes => source.includes
  | .options => source.options

theorem part_written (property : Property) :
    record.Part property.key WrittenWords.decoder fun source => source.written property where
  present := by cases property <;> simp [Record.field?, record, Property.key]
  fields := by
    cases property <;> simp [record, Property.key, written]

theorem part_flags :
    record.Part "compile_flags" WrittenWords.decoder fun source => source.flags where
  present := by simp [Record.field?, record]
  fields := by simp [record]

end WrittenSource

namespace Payload

theorem part_targets :
    record.Part "targets" WrittenTarget.record.decoder.table fun payload => payload.targets where
  present := by simp [Record.field?, record, text]
  fields := by simp [record, text]

theorem part_sources :
    record.Part "sources" WrittenSource.record.decoder.table fun payload => payload.sources where
  present := by simp [Record.field?, record, text]
  fields := by simp [record, text]

/-- However a payload is taken, the keys of its targets and those of its source
files are distinct. -/
theorem yields_nodup_keys :
    decoder.Yields fun payload => payload.targets.keys.Nodup ∧ payload.sources.keys.Nodup where
  outline h :=
    ⟨((part_targets.preserves (Decoder.yields_table _)).yields List.nodup_nil).outline h,
      ((part_sources.preserves (Decoder.yields_table _)).yields List.nodup_nil).outline h⟩
  value h :=
    ⟨((part_targets.preserves (Decoder.yields_table _)).yields List.nodup_nil).value h,
      ((part_sources.preserves (Decoder.yields_table _)).yields List.nodup_nil).value h⟩

end Payload

end BuildFacts
