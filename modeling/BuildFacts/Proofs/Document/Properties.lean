import BuildFacts.Proofs.Document.Loaded
import BuildFacts.Proofs.Document.Queries

/-!
# The words of a property

What a payload says about a property of a file, read off the value itself:

* `Json.Value.baseWords?` are the words that a target has for a language, and
* `Json.Value.addedWords?` are those that a source file adds.

`property_eq_written` is the result: asked for a property of a file that a target
compiles, a loaded document answers the first and then the second.  Nothing
else in the payload counts.
-/

namespace BuildFacts

/-! ## What a payload says -/

namespace Json.Value

/-- The words that a value writes: the texts of a list, or the shell words of a
text. -/
def words? : Value → Option (List String)
  | .array items => items.mapM string?
  | .string text => ShellWords.split text
  | _ => none

/-- The member `key` of an object, unless it is `null`. -/
def present? (object : Value) (key : String) : Option Value :=
  match object.member? key with
  | some .null => none
  | member => member

/-- The words under a key, if there are any: `some none` where the member is absent
or `null`, and `none` where it writes no words. -/
def optionalWords? (object : Value) (key : String) : Option (Option (List String)) :=
  (object.present? key).mapM words?

/-- The words of a target for a language.  The words under the key of the language
take the place of those under the key of the property. -/
def baseWords? (target : Value) (property : Property) (language : Language) :
    Option (List String) := do
  let own ← target.optionalWords? (property.keyFor language)
  let base ← target.optionalWords? property.key
  return (own.or base).getD []

/-- The words of a source file.  Flags stand behind the options. -/
def addedWords? (source : Value) (property : Property) : Option (List String) := do
  let words ← source.optionalWords? property.key
  match property with
  | .options =>
    let flags ← source.optionalWords? "compile_flags"
    return words.getD [] ++ flags.getD []
  | _ => return words.getD []

/-- The words that the source file under `file` adds; none where there is no such
entry. -/
def fileWords? (payload : Value) (file : String) (property : Property) : Option (List String) :=
  match payload.entry? "sources" file with
  | some source => source.addedWords? property
  | none => some []

/-- A target lists a file among the object files of a language, be they written
by the build or not. -/
def Compiles (target : Value) (language : Language) (file : String) : Prop :=
  ∃ key ∈ [WrittenTarget.objectsKey language, WrittenTarget.generatedObjectsKey language],
    ∃ items, target.member? key = some (.array items) ∧ .string file ∈ items

/-- A payload, its targets and its source files are objects. -/
structure ObjectForm (payload : Value) : Prop where
  root : payload.kind = .object
  targets : ∀ key target, payload.entry? "targets" key = some target → target.kind = .object
  sources : ∀ key source, payload.entry? "sources" key = some source → source.kind = .object

end Json.Value

open Json

/-! ## Words taken from a payload -/

namespace WrittenWords

theorem words?_of_ofValue {value : Value} {written : WrittenWords}
    (h : ofValue value = .ok written) : written.words? = value.words? := by
  cases value with
  | string text =>
    obtain rfl := Except.ok.inj h
    rfl
  | array items =>
    simp only [ofValue] at h
    split at h
    · rename_i texts htexts
      obtain rfl := Except.ok.inj h
      exact htexts.symm
    · simp at h
  | _ => simp [ofValue] at h

theorem words?_of_wordsAt {pointer : String} {written : WrittenWords} {words : List String}
    (h : wordsAt pointer written = .ok words) : written.words? = some words := by
  cases written with
  | items list => exact congrArg some (Except.ok.inj h)
  | joined text =>
    simp only [wordsAt] at h
    split at h
    · rename_i list hsplit
      obtain rfl := Except.ok.inj h
      exact hsplit
    · simp at h

/-- What is taken from `null` is nothing, and from every other value words. -/
theorem fromValue_decoder_cases {value : Value} {written : Option WrittenWords}
    (h : decoder.fromValue value = .ok written) :
    value = .null ∧ written = none ∨
      value ≠ .null ∧ ∃ words, written = some words ∧ ofValue value = .ok words := by
  cases value with
  | null => exact .inl ⟨rfl, (Except.ok.inj h).symm⟩
  | _ =>
    obtain ⟨words, hwords, rfl⟩ := map_eq_ok_iff.1 h
    exact .inr ⟨nofun, words, rfl, hwords⟩

/-- The words of a part of a record are those that its member writes. -/
theorem optionalWords?_of_part {σ : Type} {record : Record σ} {key pointer : String}
    {get : σ → Option WrittenWords} {object : Value} {result : σ} {words : Option (List String)}
    (hpart : record.Part key decoder get) (hinitial : get record.initial = none)
    (hkeys : object.KeysDistinct) (hkind : object.kind = .object)
    (hresult : record.decoder.fromValue object = .ok result)
    (hwords : wordsAt? pointer (get result) = .ok words) :
    object.optionalWords? key = some words := by
  unfold Value.optionalWords?
  cases hmember : object.member? key with
  | none =>
    rw [hpart.fromValue_absent hkind hresult hmember, hinitial] at hwords
    obtain rfl := Except.ok.inj hwords
    rw [Value.present?, hmember]
    rfl
  | some value =>
    have htaken := hpart.fromValue_member hkeys hresult hmember
    rcases fromValue_decoder_cases htaken with ⟨rfl, hnone⟩ | ⟨hne, written, hsome, hwritten⟩
    · rw [hnone] at hwords
      obtain rfl := Except.ok.inj hwords
      rw [Value.present?, hmember]
      rfl
    · rw [hsome] at hwords
      obtain ⟨list, hlist, rfl⟩ := map_eq_ok_iff.1 hwords
      have hpresent : object.present? key = some value := by
        unfold Value.present?
        rw [hmember]
        split
        · rename_i heq
          exact absurd (Option.some.inj heq) hne
        · rfl
      rw [hpresent]
      simp [← words?_of_ofValue hwritten, words?_of_wordsAt hlist]

end WrittenWords

/-! ## Targets and source files -/

/-- The words of a target are those that it writes. -/
theorem WrittenTarget.Means.baseWords? {key : String} {written : WrittenTarget} {target : Target}
    {value : Value} (h : written.Means key target) (hkeys : value.KeysDistinct)
    (hkind : value.kind = .object) (hvalue : record.decoder.fromValue value = .ok written)
    (property : Property) (language : Language) :
    value.baseWords? property language =
      some ((target.properties.get property).forLanguage language) := by
  have hresolve := h.properties property
  unfold WrittenProperty.resolve at hresolve
  obtain ⟨base, hbase, hresolve⟩ := bind_eq_ok_iff.1 hresolve
  obtain ⟨c, hc, hresolve⟩ := bind_eq_ok_iff.1 hresolve
  obtain ⟨cxx, hcxx, hresolve⟩ := bind_eq_ok_iff.1 hresolve
  have hwords := Except.ok.inj hresolve
  have hinitial : ∀ p : Property, (record.initial.properties.get p).base = none := by
    intro p
    cases p <;> rfl
  have hinitialFor : ∀ (p : Property) (l : Language),
      (record.initial.properties.get p).specialized.get l = none := by
    intro p l
    cases p <;> cases l <;> rfl
  have hbase' := WrittenWords.optionalWords?_of_part (part_base property) (hinitial property)
    hkeys hkind hvalue hbase
  cases language with
  | c =>
    have hown := WrittenWords.optionalWords?_of_part (part_specialized property .c)
      (hinitialFor property .c) hkeys hkind hvalue hc
    simp [Value.baseWords?, hown, hbase', ← hwords, PropertyWords.forLanguage, ByLanguage.get]
  | cxx =>
    have hown := WrittenWords.optionalWords?_of_part (part_specialized property .cxx)
      (hinitialFor property .cxx) hkeys hkind hvalue hcxx
    simp [Value.baseWords?, hown, hbase', ← hwords, PropertyWords.forLanguage, ByLanguage.get]

/-- The words of a source file are those that it writes. -/
theorem WrittenSource.addedWords?_of_resolve {key : String} {written : WrittenSource}
    {source : SourceOverride} {value : Value} (h : written.resolve key = .ok source)
    (hkeys : value.KeysDistinct) (hkind : value.kind = .object)
    (hvalue : record.decoder.fromValue value = .ok written) (property : Property) :
    value.addedWords? property = some ((source.words.get property).getD []) := by
  unfold resolve at h
  obtain ⟨options, hoptions, h⟩ := bind_eq_ok_iff.1 h
  obtain ⟨flags, hflags, h⟩ := bind_eq_ok_iff.1 h
  obtain ⟨definitions, hdefinitions, h⟩ := bind_eq_ok_iff.1 h
  obtain ⟨includes, hincludes, h⟩ := bind_eq_ok_iff.1 h
  obtain rfl := Except.ok.inj h
  have hwritten : ∀ {p : Property} {pointer : String} {words : Option (List String)},
      WrittenWords.wordsAt? pointer (written.written p) = .ok words →
        value.optionalWords? p.key = some words := by
    intro p pointer words hwords
    refine WrittenWords.optionalWords?_of_part (part_written p) ?_ hkeys hkind hvalue hwords
    cases p <;> rfl
  cases property with
  | definitions =>
    have hdefinitions := hwritten (p := .definitions) hdefinitions
    simp [Value.addedWords?, hdefinitions, ByProperty.get]
  | includes =>
    have hincludes := hwritten (p := .includes) hincludes
    simp [Value.addedWords?, hincludes, ByProperty.get]
  | options =>
    have hoptions := hwritten (p := .options) hoptions
    have hadded := WrittenWords.optionalWords?_of_part part_flags rfl hkeys hkind hvalue hflags
    simp only [Value.addedWords?, hoptions, hadded, ByProperty.get]
    cases options <;> cases flags <;> simp [appendFlags]

/-- A file that a target lists in a language is written in one of its two lists. -/
theorem WrittenTarget.mem_listed_of_compiles {written : WrittenTarget} {value : Value}
    {language : Language} {file : String} (h : value.Compiles language file)
    (hkeys : value.KeysDistinct) (hvalue : record.decoder.fromValue value = .ok written) :
    (file, language) ∈ written.listed := by
  obtain ⟨key, hkey, items, hmember, hfile⟩ := h
  simp only [List.mem_cons, List.not_mem_nil, or_false] at hkey
  rw [mem_listed]
  rcases hkey with rfl | rfl
  · exact .inl (mem_of_fromValue_list
      ((part_objects language).fromValue_member hkeys hvalue hmember) hfile)
  · exact .inr (mem_of_fromValue_list
      ((part_generatedObjects language).fromValue_member hkeys hvalue hmember) hfile)

namespace Document

variable {payload : Value} {document : Document} {key file : String} {target : Value}
  {language : Language}

/-- The words that a document adds for a file are those that the payload writes. -/
theorem fileWords?_eq_some (hkeys : payload.KeysDistinct) (hform : payload.ObjectForm)
    {written : Payload} (hvalue : Payload.decoder.fromValue payload = .ok written)
    (hmeans : Means written document) (property : Property) :
    payload.fileWords? file property = some (document.addedWords (.ofString file) property) := by
  unfold Value.fileWords? addedWords override?
  rw [Path.text?_ofString]
  split
  · rename_i source hsource
    obtain ⟨writtenSource, htaken, hlookup⟩ := Payload.part_sources.entry hkeys hvalue hsource
    obtain ⟨override, hresolve, hfound⟩ := hmeans.sources.lookup hlookup
    rw [WrittenSource.addedWords?_of_resolve hresolve (hkeys.entry hsource)
      (hform.sources file source hsource) htaken property]
    simp [hfound]
  · rename_i habsent
    have hnone := Payload.part_sources.entry_absent hkeys hform.root rfl hvalue habsent
    simp [hmeans.sources.lookup_eq_none hnone]

/-- Asked for a property of a file that a target compiles, a document answers the
words of the target for the language of the file and then those of the file.
Both are read off the payload at the entries of the target and of the file, so
no other entry counts, and in the entry of the target only two members. -/
theorem property_eq_written (hkeys : payload.KeysDistinct) (hform : payload.ObjectForm)
    (hload : (ofValue payload).result = .ok document)
    (htarget : payload.entry? "targets" key = some target)
    (hfile : target.Compiles language file) (property : Property) :
    ∃ base added, target.baseWords? property language = some base ∧
      payload.fileWords? file property = some added ∧
      (document.property key (.ofString file) property).result = .ok (base ++ added) := by
  obtain ⟨written, hvalue, hpayload⟩ := load_eq_ok_iff.1 hload
  have hmeans := means_of_ofPayload hpayload
  obtain ⟨writtenTarget, htaken, hlookup⟩ := Payload.part_targets.entry hkeys hvalue htarget
  obtain ⟨found, hresolve, hfound⟩ := hmeans.targets.lookup hlookup
  have hfoundMeans := WrittenTarget.means_of_resolve hresolve
  have htargetKeys := hkeys.entry htarget
  have hlanguage : found.languageOf? (.ofString file) = some language := by
    rw [Target.languageOf?, Path.text?_ofString, Option.bind_some, hfoundMeans.classifies.lookup]
    exact WrittenTarget.mem_listed_of_compiles hfile htargetKeys htaken
  exact ⟨_, _,
    hfoundMeans.baseWords? htargetKeys (hform.targets key target htarget) htaken property language,
    fileWords?_eq_some hkeys hform hvalue hmeans property,
    result_property hfound hlanguage property⟩

/-- A payload with options for C++ in one text, and options and flags for the file. -/
def optionsPayload : Value :=
  .object
    [("targets", .object
      [("main", .object
        [("name", .string "other"),
          ("generated_object_sources_cxx", .array [.string "b.cpp"]),
          ("compile_options", .array [.string "-O0"]),
          ("compile_options_cxx", .string "-O2 '-DX=a b'")])]),
      ("sources", .object
        [("b.cpp", .object
          [("compile_options", .array [.string "-g"]), ("compile_flags", .string "-Wall")])])]

theorem kind_of_entry_optionsPayload {name key : String} {value : Value}
    (h : optionsPayload.entry? name key = some value) : value.kind = .object := by
  simp only [Value.entry?, Value.member?, optionsPayload, Value.members?, Option.bind_some,
    List.lookup_cons, List.lookup_nil] at h
  grind [Value.kind, Value.members?]

theorem property_eq_written_optionsPayload :
    ∃ document, (ofValue optionsPayload).result = .ok document ∧
      (document.property "main" (.ofString "b.cpp") .options).result =
        .ok ["-O2", "-DX=a b", "-g", "-Wall"] := by
  obtain ⟨document, hload⟩ : ∃ document, (ofValue optionsPayload).result = .ok document :=
    ⟨_, rfl⟩
  have hkeys : optionsPayload.KeysDistinct := by simp [optionsPayload, Table.keys]
  have hform : optionsPayload.ObjectForm :=
    ⟨rfl, fun _ _ => kind_of_entry_optionsPayload, fun _ _ => kind_of_entry_optionsPayload⟩
  obtain ⟨target, htarget⟩ : ∃ target, optionsPayload.entry? "targets" "main" = some target :=
    ⟨_, rfl⟩
  have hfile : target.Compiles .cxx "b.cpp" := by
    obtain rfl := Option.some.inj htarget
    exact ⟨"generated_object_sources_cxx", by simp [WrittenTarget.generatedObjectsKey], _, rfl,
      by simp⟩
  obtain ⟨base, added, hbase, hadded, hproperty⟩ :=
    property_eq_written hkeys hform hload htarget hfile .options
  have hbase' : target.baseWords? .options .cxx = some ["-O2", "-DX=a b"] := by
    obtain rfl := Option.some.inj htarget
    rfl
  have hadded' : optionsPayload.fileWords? "b.cpp" .options = some ["-g", "-Wall"] := rfl
  obtain rfl := Option.some.inj (hbase.symm.trans hbase')
  obtain rfl := Option.some.inj (hadded.symm.trans hadded')
  exact ⟨document, hload, hproperty⟩

end Document

end BuildFacts
