import BuildFacts.Proofs.Document.Failures
import BuildFacts.Proofs.Payload.Written

/-!
# The flaws of a payload as they are written

`Payload.Flaw` says what keeps a payload from meaning a document, in terms of the data that were
taken from it.  `Json.Value.Flaw` says the same of the value itself: a file that stands in lists
of both languages, or a text that does not split where words may stand.  `Payload.flaw_iff` is
the result that the two agree.
-/

namespace BuildFacts

open Json

/-- The keys under which a target may have words. -/
def WrittenTarget.wordKeys : List String :=
  Property.all.flatMap fun property =>
    [property.key, property.keyFor .c, property.keyFor .cxx]

/-- The keys under which a source file may have words. -/
def WrittenSource.wordKeys : List String :=
  ["compile_options", "compile_flags", "compile_definitions", "include_directories"]

/-- What keeps a payload from meaning a document, and the error that reports it. -/
inductive Json.Value.Flaw (payload : Value) : Error → Prop where
  | conflict {key : String} {target : Value} {file : String} {previous language : Language}
      (htarget : payload.targetAt? key = some target) (hne : previous ≠ language)
      (hprevious : (file, previous) ∈ target.compiledFiles)
      (hlanguage : (file, language) ∈ target.compiledFiles) :
      Flaw payload (.mismatch (targetPointer key) (.conflict file previous language))
  | targetWords {key name text : String} {target : Value}
      (htarget : payload.targetAt? key = some target) (hname : name ∈ WrittenTarget.wordKeys)
      (hwords : WrittenTarget.record.written? name target = some (.string text))
      (hsplit : ShellWords.split text = none) :
      Flaw payload (.mismatch (pointerTo (targetPointer key) name) (.unbalanced text))
  | sourceWords {key name text : String} {source : Value}
      (hsource : payload.sourceAt? key = some source) (hname : name ∈ WrittenSource.wordKeys)
      (hwords : WrittenSource.record.written? name source = some (.string text))
      (hsplit : ShellWords.split text = none) :
      Flaw payload (.mismatch (pointerTo (sourcePointer key) name) (.unbalanced text))

/-! ## Words -/

theorem WrittenWords.fromValue_eq_joined_iff {value : Value} {text : String} :
    decoder.fromValue value = .ok (some (.joined text)) ↔ value = .string text := by
  cases value with
  | string other =>
    simp [decoder, Decoder.optional, Decoder.ofValue, ofValue, Functor.map, Except.map]
  | array items =>
    refine iff_of_false (fun h => ?_) nofun
    obtain ⟨words, hwords, heq⟩ := map_eq_ok_iff.1 h
    simp only [Decoder.ofValue, ofValue] at hwords
    split at hwords
    · obtain rfl := Except.ok.inj hwords
      simp at heq
    · simp at hwords
  | _ => simp [decoder, Decoder.optional, Decoder.ofValue, ofValue, Functor.map, Except.map]

section RecordWords

variable {σ : Type} {record : Record σ} (hnames : (record.fields.map (·.name)).Nodup)
  {value : Value} {result : σ} (hkeys : value.KeysDistinct)
  (hresult : record.decoder.fromValue value = .ok result)

include hnames hkeys hresult

/-- The text that stands where a record may have words is the one that is written there. -/
theorem Json.Record.Part.words_eq_joined_iff {name : String} {get : σ → Option WrittenWords}
    (hpart : record.Part name WrittenWords.decoder get) (hinitial : get record.initial = none)
    {text : String} :
    get result = some (.joined text) ↔ record.written? name value = some (.string text) := by
  have hvalue := hpart.fromValue_written hnames hkeys hresult
  cases hfield : record.written? name value with
  | none =>
    rw [hfield] at hvalue
    simp [hvalue, hinitial]
  | some field =>
    rw [hfield] at hvalue
    rw [Option.some.injEq, ← WrittenWords.fromValue_eq_joined_iff, hvalue, Except.ok.injEq]

/-- The texts that stand where a record may have words are those that are written there. -/
theorem Json.Record.mem_words_iff {parts : List (String × (σ → Option WrittenWords))}
    (hparts : ∀ part ∈ parts, record.Part part.1 WrittenWords.decoder part.2 ∧
      part.2 record.initial = none) {name text : String} :
    (name, some (.joined text)) ∈ parts.map (fun part => (part.1, part.2 result)) ↔
      name ∈ parts.map Prod.fst ∧ record.written? name value = some (.string text) := by
  have hwritten : ∀ part ∈ parts, part.2 result = some (.joined text) ↔
      record.written? part.1 value = some (.string text) := by
    intro part hmem
    obtain ⟨hpart, hinitial⟩ := hparts part hmem
    exact hpart.words_eq_joined_iff hnames hkeys hresult hinitial
  simp only [List.mem_map, Prod.mk.injEq]
  constructor
  · rintro ⟨part, hmem, rfl, hwords⟩
    exact ⟨⟨part, hmem, rfl⟩, (hwritten part hmem).1 hwords⟩
  · rintro ⟨⟨part, hmem, rfl⟩, hfield⟩
    exact ⟨part, hmem, rfl, (hwritten part hmem).2 hfield⟩

end RecordWords

/-- The words of a target with their keys. -/
def WrittenTarget.wordParts : List (String × (WrittenTarget → Option WrittenWords)) :=
  Property.all.flatMap fun property =>
    [(property.key, fun target => (target.properties.get property).base),
      (property.keyFor .c, fun target => (target.properties.get property).specialized.get .c),
      (property.keyFor .cxx, fun target => (target.properties.get property).specialized.get .cxx)]

theorem WrittenTarget.part_of_mem_wordParts :
    ∀ part ∈ wordParts, record.Part part.1 WrittenWords.decoder part.2 ∧
      part.2 record.initial = none := by
  intro part hpart
  obtain ⟨property, _, hpart⟩ := List.mem_flatMap.1 hpart
  simp only [List.mem_cons, List.not_mem_nil, or_false] at hpart
  rcases hpart with rfl | rfl | rfl
  · exact ⟨part_base property, by cases property <;> rfl⟩
  · exact ⟨part_specialized property .c, by cases property <;> rfl⟩
  · exact ⟨part_specialized property .cxx, by cases property <;> rfl⟩

theorem WrittenTarget.mem_wordLists_iff {value : Value} {target : WrittenTarget}
    (hkeys : value.KeysDistinct) (hvalue : record.decoder.fromValue value = .ok target)
    {name text : String} :
    (name, some (.joined text)) ∈ target.wordLists ↔
      name ∈ wordKeys ∧ record.written? name value = some (.string text) :=
  Record.mem_words_iff nodup_fieldNames hkeys hvalue part_of_mem_wordParts

/-- The words of a source file with their keys. -/
def WrittenSource.wordParts : List (String × (WrittenSource → Option WrittenWords)) :=
  [("compile_options", (·.options)), ("compile_flags", (·.flags)),
    ("compile_definitions", (·.definitions)), ("include_directories", (·.includes))]

theorem WrittenSource.part_of_mem_wordParts :
    ∀ part ∈ wordParts, record.Part part.1 WrittenWords.decoder part.2 ∧
      part.2 record.initial = none := by
  intro part hpart
  simp only [wordParts, List.mem_cons, List.not_mem_nil, or_false] at hpart
  rcases hpart with rfl | rfl | rfl | rfl
  · exact ⟨part_written .options, rfl⟩
  · exact ⟨part_flags, rfl⟩
  · exact ⟨part_written .definitions, rfl⟩
  · exact ⟨part_written .includes, rfl⟩

theorem WrittenSource.mem_wordLists_iff {value : Value} {source : WrittenSource}
    (hkeys : value.KeysDistinct) (hvalue : record.decoder.fromValue value = .ok source)
    {name text : String} :
    (name, some (.joined text)) ∈ source.wordLists ↔
      name ∈ wordKeys ∧ record.written? name value = some (.string text) :=
  Record.mem_words_iff (by decide) hkeys hvalue part_of_mem_wordParts

/-! ## Payloads -/

namespace Payload

variable {value : Value} {payload : Payload}

theorem exists_target_written (hkeys : value.KeysDistinct)
    (hvalue : decoder.fromValue value = .ok payload) {key : String} {target : WrittenTarget}
    (hmem : (key, target) ∈ payload.targets) : ∃ part, value.targetAt? key = some part ∧
      WrittenTarget.record.decoder.fromValue part = .ok target :=
  (lookup_targets_iff hkeys hvalue).1
    ((Table.lookup_eq_some_iff_mem (yields_nodup_keys.value hvalue).1).2 hmem)

theorem exists_source_written (hkeys : value.KeysDistinct)
    (hvalue : decoder.fromValue value = .ok payload) {key : String} {source : WrittenSource}
    (hmem : (key, source) ∈ payload.sources) : ∃ part, value.sourceAt? key = some part ∧
      WrittenSource.record.decoder.fromValue part = .ok source :=
  (lookup_sources_iff hkeys hvalue).1
    ((Table.lookup_eq_some_iff_mem (yields_nodup_keys.value hvalue).2).2 hmem)

/-- The flaws of a payload are those of the value that it is taken from. -/
theorem Flaw.written (hkeys : value.KeysDistinct) (hvalue : decoder.fromValue value = .ok payload)
    {error : Error} (h : payload.Flaw error) : value.Flaw error := by
  cases h with
  | conflict hmem hne hprevious hlanguage =>
    obtain ⟨part, hpart, htarget⟩ := exists_target_written hkeys hvalue hmem
    have hfiles := WrittenTarget.listed_written (hkeys.targetAt hpart) htarget
    exact .conflict hpart hne (hfiles ▸ hprevious) (hfiles ▸ hlanguage)
  | targetWords hmem hwords hsplit =>
    obtain ⟨part, hpart, htarget⟩ := exists_target_written hkeys hvalue hmem
    obtain ⟨hname, htext⟩ :=
      (WrittenTarget.mem_wordLists_iff (hkeys.targetAt hpart) htarget).1 hwords
    exact .targetWords hpart hname htext hsplit
  | sourceWords hmem hwords hsplit =>
    obtain ⟨part, hpart, hsource⟩ := exists_source_written hkeys hvalue hmem
    obtain ⟨hname, htext⟩ :=
      (WrittenSource.mem_wordLists_iff (hkeys.sourceAt hpart) hsource).1 hwords
    exact .sourceWords hpart hname htext hsplit

/-- The flaws of the value are those of the payload that is taken from it. -/
theorem Flaw.of_written (hkeys : value.KeysDistinct)
    (hvalue : decoder.fromValue value = .ok payload) {error : Error} (h : value.Flaw error) :
    payload.Flaw error := by
  cases h with
  | conflict hpart hne hprevious hlanguage =>
    obtain ⟨target, htarget, hlookup⟩ := target_of_written hkeys hvalue hpart
    have hfiles := WrittenTarget.listed_written (hkeys.targetAt hpart) htarget
    exact .conflict (Table.mem_of_lookup hlookup) hne (hfiles ▸ hprevious) (hfiles ▸ hlanguage)
  | targetWords hpart hname htext hsplit =>
    obtain ⟨target, htarget, hlookup⟩ := target_of_written hkeys hvalue hpart
    exact .targetWords (Table.mem_of_lookup hlookup)
      ((WrittenTarget.mem_wordLists_iff (hkeys.targetAt hpart) htarget).2 ⟨hname, htext⟩) hsplit
  | sourceWords hpart hname htext hsplit =>
    obtain ⟨source, hsource, hlookup⟩ := source_of_written hkeys hvalue hpart
    exact .sourceWords (Table.mem_of_lookup hlookup)
      ((WrittenSource.mem_wordLists_iff (hkeys.sourceAt hpart) hsource).2 ⟨hname, htext⟩) hsplit

theorem flaw_iff (hkeys : value.KeysDistinct) (hvalue : decoder.fromValue value = .ok payload)
    {error : Error} : payload.Flaw error ↔ value.Flaw error :=
  ⟨Flaw.written hkeys hvalue, Flaw.of_written hkeys hvalue⟩

end Payload

end BuildFacts
