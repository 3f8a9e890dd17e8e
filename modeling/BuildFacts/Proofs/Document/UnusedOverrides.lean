import BuildFacts.Proofs.Database.Export
import BuildFacts.Proofs.Document.Files
import BuildFacts.Proofs.Document.Order
import BuildFacts.Proofs.Json.Update
import BuildFacts.Proofs.Payload.Quoting

/-!
# Properties of source files that no target compiles

A payload may give properties of source files.  Those of a file that no target compiles are not
used, and loading warns of each of them.

* `Document.compiles_iff_exists_property` says that a file is compiled exactly if some question
  for the words of a property has an answer.
* `Document.resolvesAlike_withoutSources` says that a document without unused properties answers
  all questions as before, and `Payload.fromValue_withoutSources` that it comes from the payload
  without them.
* `Document.unusedOverrides_exact` is the result: there is a warning for exactly the properties
  that are not used, and those that are used are appended to the words of a target.
-/

namespace BuildFacts

open Json

/-! ## Payloads without properties of some files -/

/-- A payload without the properties of some source files. -/
def Json.Value.withoutSources (payload : Value) (files : List String) : Value :=
  Payload.record.update "sources" (Value.withoutKeys files) payload

namespace Payload

/-- A payload without the properties of some source files, as it is written. -/
def withoutSources (payload : Payload) (files : List String) : Payload :=
  { payload with sources := payload.sources.withoutKeys files }

variable {files : List String}

/-- The value of a member of a payload, and the same value without some source files. -/
def SourcesLeftOut (files : List String) (name : String) (a b : Value) : Prop :=
  if name = "sources" then
    (∃ sources, WrittenSource.record.decoder.table.fromValue a = .ok sources) ∧
      b = a.withoutKeys files
  else b = a

/-- A field that is no table of source files stays as it is. -/
theorem changesAlike_of_eq {α : Type} {name : String} {decoder : Decoder α}
    {set : α → Payload → Payload} {V : Value → Value → Prop} (hV : ∀ {a b}, V a b → b = a)
    (hset : ∀ a p, set a (p.withoutSources files) = (set a p).withoutSources files) :
    (Field.optional name decoder set).ChangesAlike Eq V
      fun p p' => p' = p.withoutSources files :=
  Field.changesAlike_of_unchanged (fun _ => rfl) hV fun a p p' hp => by rw [hp, hset]

/-- The source files that are kept are taken as before. -/
theorem changesAlike_sources {set : Table WrittenSource → Payload → Payload}
    (hset : ∀ sources p, set (sources.withoutKeys files) (p.withoutSources files) =
      (set sources p).withoutSources files) :
    (Field.optional "sources" WrittenSource.record.decoder.table set).ChangesAlike Eq
      (SourcesLeftOut files "sources") fun p p' => p' = p.withoutSources files := by
  refine Field.changesAlike_optional
    (Q := fun sources sources' => sources' = sources.withoutKeys files) ?_ ?_
  · rintro a b ⟨⟨sources, hsources⟩, rfl⟩
    rw [hsources, Decoder.fromValue_withoutKeys hsources files]
    exact .ok rfl
  · intro sources sources' p p' hsources hp
    rw [hsources, hp, hset]

/-- What is taken from a payload without the properties of some source files. -/
theorem fromValue_withoutSources {value : Value} {payload : Payload} (hkeys : value.KeysDistinct)
    (hvalue : decoder.fromValue value = .ok payload) (files : List String) :
    decoder.fromValue (value.withoutSources files) = .ok (payload.withoutSources files) := by
  have hrelated : record.Related (SourcesLeftOut files) value (value.withoutSources files) := by
    refine Record.related_update nodup_fieldNames hkeys (fun part hpart => ?_) ?_
    · have hsources := part_sources.fromValue_written nodup_fieldNames hkeys hvalue
      rw [hpart] at hsources
      exact ⟨⟨_, hsources⟩, rfl⟩
    · intro other part hother
      rw [SourcesLeftOut, if_neg hother]
  have hfields : ∀ field ∈ record.fields, field.ChangesAlike Eq (SourcesLeftOut files field.name)
      fun p p' => p' = p.withoutSources files := by
    simp only [record, text, List.forall_mem_cons, Field.name_optional]
    and_intros
    all_goals first
      | exact changesAlike_sources fun _ _ => rfl
      | exact changesAlike_of_eq (fun h => h) fun _ _ => rfl
      | exact List.forall_mem_nil _
  have halike := Record.takesAlike_decoder (fun _ => rfl) hfields rfl hrelated
  show record.decoder.fromValue _ = _
  generalize htaken : record.decoder.fromValue (value.withoutSources files) = taken at halike
  generalize hbefore : record.decoder.fromValue value = before at halike
  obtain rfl : before = .ok payload := hbefore.symm.trans hvalue
  cases halike with
  | ok h => rw [h]

end Payload

namespace Document

/-! ## Files that are compiled -/

variable {document : Document} {file : String} {files : List String}

theorem compiles_of_compilesAs {key : String} {path : Path} {language : Language}
    (h : document.CompilesAs key path language) :
    ∃ file, path = .ofString file ∧ document.compiles file = true := by
  obtain ⟨target, htarget, hlanguage⟩ := h
  obtain ⟨file, rfl, hfile⟩ := Target.languageOf?_eq_some_iff.1 hlanguage
  refine ⟨file, rfl, List.any_eq_true.2 ⟨(key, target), Table.mem_of_lookup htarget, ?_⟩⟩
  rw [hfile, Option.isSome_some]

theorem exists_compilesAs_of_compiles (hloaded : document.Loaded)
    (h : document.compiles file = true) :
    ∃ key language, document.CompilesAs key (.ofString file) language := by
  obtain ⟨⟨key, target⟩, hmem, hfile⟩ := List.any_eq_true.1 h
  obtain ⟨language, hlanguage⟩ := Option.isSome_iff_exists.1 hfile
  exact ⟨key, language, target, (Table.lookup_eq_some_iff_mem hloaded.nodup_keys).2 hmem,
    Target.languageOf?_eq_some_iff.2 ⟨file, rfl, hlanguage⟩⟩

/-- Words of a property are answered for a file only where it is compiled. -/
theorem compilesAs_of_property {key : String} {path : Path} {property : Property}
    {words : List String} (h : (document.property key path property).result = .ok words) :
    ∃ language, document.CompilesAs key path language := by
  simp only [Document.property, Traced.result_bind, Traced.result_ofExcept] at h
  obtain ⟨language, hlanguage, _⟩ := bind_eq_ok_iff.1 h
  exact ⟨language, requireLanguage_eq_ok_iff.1 hlanguage⟩

/-- A file is compiled exactly if some question for the words of a property has an answer. -/
theorem compiles_iff_exists_property (hloaded : document.Loaded) :
    document.compiles file = true ↔ ∃ key property words,
      (document.property key (.ofString file) property).result = .ok words := by
  constructor
  · intro h
    obtain ⟨key, language, target, htarget, hlanguage⟩ := exists_compilesAs_of_compiles hloaded h
    exact ⟨key, .definitions, _, result_property htarget hlanguage .definitions⟩
  · rintro ⟨key, property, words, hwords⟩
    obtain ⟨language, hcompiles⟩ := compilesAs_of_property hwords
    obtain ⟨other, hother, h⟩ := compiles_of_compilesAs hcompiles
    rwa [Path.ofString_injective hother]

theorem mem_unusedOverrides_iff :
    file ∈ document.unusedOverrides ↔
      file ∈ document.sources.keys ∧ document.compiles file = false := by
  simp [unusedOverrides]

/-! ## Documents without properties of some files -/

/-- Two documents that answer every question about a file of a target alike, and of which the
same databases are built. -/
structure ResolvesAlike (d d' : Document) : Prop where
  languageOf : ∀ key file, d'.languageOf key file = d.languageOf key file
  compiler : ∀ key file, d'.compiler key file = d.compiler key file
  compilerId : ∀ key file, d'.compilerId key file = d.compilerId key file
  compilerVersion : ∀ key file, d'.compilerVersion key file = d.compilerVersion key file
  property : ∀ key file property, d'.property key file property = d.property key file property
  arguments : ∀ key file, d'.arguments key file = d.arguments key file
  command : ∀ key file directory, d'.command key file directory = d.command key file directory
  ofDocument : ∀ directory,
    CompileDatabase.ofDocument d' directory = CompileDatabase.ofDocument d directory

/-- A document without the properties of some source files. -/
def withoutSources (document : Document) (files : List String) : Document :=
  { document with sources := document.sources.withoutKeys files }

theorem ofPayload_withoutSources {payload : Payload} (h : ofPayload payload = .ok document)
    (files : List String) :
    ofPayload (payload.withoutSources files) = .ok (document.withoutSources files) := by
  unfold ofPayload at h ⊢
  obtain ⟨targets, htargets, h⟩ := bind_eq_ok_iff.1 h
  obtain ⟨sources, hsources, h⟩ := bind_eq_ok_iff.1 h
  obtain rfl := Except.ok.inj h
  refine bind_eq_ok_iff.2 ⟨targets, htargets, bind_eq_ok_iff.2 ⟨sources.withoutKeys files, ?_, rfl⟩⟩
  exact Table.mapM_eq_ok_iff_resolved.2
    ((Table.mapM_eq_ok_iff_resolved.1 hsources).withoutKeys files)

/-- Properties of files that no target compiles add nothing to any answer. -/
theorem resolvesAlike_withoutSources (h : ∀ file ∈ files, document.compiles file = false) :
    document.ResolvesAlike (document.withoutSources files) := by
  have hadded {key : String} {path : Path} {language : Language}
      (hcompiles : document.CompilesAs key path language) (property : Property) :
      (document.withoutSources files).addedWords path property =
        document.addedWords path property := by
    obtain ⟨file, rfl, hfile⟩ := compiles_of_compilesAs hcompiles
    have hkept : file ∉ files := fun hmem => by simp [h file hmem] at hfile
    simp only [addedWords, override?, Path.text?_ofString, Option.bind_some, withoutSources,
      Table.lookup_withoutKeys hkept]
  have hproperty (key : String) (path : Path) (property : Property) :
      (document.withoutSources files).property key path property =
        document.property key path property := by
    have hrequire : (document.withoutSources files).requireLanguage key path =
        document.requireLanguage key path := rfl
    have htarget : (document.withoutSources files).target key = document.target key := rfl
    rw [Document.property, Document.property, hrequire, htarget]
    cases hlanguage : document.requireLanguage key path with
    | error error => rfl
    | ok language => rw [hadded (requireLanguage_eq_ok_iff.1 hlanguage)]
  have harguments (key : String) (path : Path) :
      (document.withoutSources files).arguments key path = document.arguments key path := by
    simp only [Document.arguments, definitions, includes, options, hproperty]
  have hcompiler (key : String) (path : Path) :
      (document.withoutSources files).compiler key path = document.compiler key path := rfl
  have hcommand (key : String) (path directory : Path) :
      (document.withoutSources files).command key path directory =
        document.command key path directory := by
    rw [Document.command, Document.command, hcompiler, harguments]
  refine ⟨fun _ _ => rfl, hcompiler, fun _ _ => rfl, fun _ _ => rfl, hproperty, harguments,
    hcommand, fun directory => ?_⟩
  have htargets : (document.withoutSources files).targets = document.targets := rfl
  simp only [CompileDatabase.ofDocument, CompileDatabase.commandsOf, htargets, hcommand]

/-! ## Warnings -/

theorem events_load_of_error {payload : Except Fault Payload} {error : Error}
    (h : (load payload).result = .error error) : (load payload).events = [] := by
  cases payload with
  | error fault => rfl
  | ok written =>
    have hload : load (.ok written) = Traced.ofExcept (ofPayload written) >>= fun document =>
      ⟨document.unusedOverrides.map .unusedOverride, .ok document⟩ := rfl
    rw [result_load_ok] at h
    rw [hload, h]
    rfl

theorem events_load_of_ok {payload : Except Fault Payload} {document : Document}
    (h : (load payload).result = .ok document) :
    (load payload).events = document.unusedOverrides.map .unusedOverride := by
  obtain ⟨written, rfl, hwritten⟩ := load_eq_ok_iff.1 h
  have hload : load (.ok written) = Traced.ofExcept (ofPayload written) >>= fun document =>
    ⟨document.unusedOverrides.map .unusedOverride, .ok document⟩ := rfl
  rw [hload, hwritten]
  rfl

/-- The source files for which there is a warning, of a document that was loaded from a payload.

* There is one for each file that the payload has properties of, if no question for words of the
  file has an answer, and for no other file.
* Without the properties of any of these files the payload can be loaded too, as a document that
  answers all questions as this one does.
* The properties of every other file are appended to the words of a target. -/
structure WarnsExactly (document : Document) (payload : Payload) (files : List String) : Prop where
  nodup : files.Nodup
  mem_iff : ∀ file, file ∈ files ↔ file ∈ payload.sources.keys ∧
    ∀ key property words, (document.property key (.ofString file) property).result ≠ .ok words
  leftOut : ∀ unused ⊆ files, ∃ document', document.ResolvesAlike document' ∧
    ∀ given : Given, given.payload = .ok (payload.withoutSources unused) →
      given.document.result = .ok document'
  used : ∀ file ∈ payload.sources.keys, file ∉ files →
    ∃ override, document.override? (.ofString file) = some override ∧
      ∃ key target language, document.targets.lookup key = some target ∧
        target.languageOf? (.ofString file) = some language ∧
        ∀ property, (document.property key (.ofString file) property).result =
          .ok ((target.properties.get property).forLanguage language ++
            (override.words.get property).getD [])

/-- The warnings of a document are exact. -/
theorem warnsExactly_unusedOverrides {payload : Payload} (h : ofPayload payload = .ok document)
    (hloaded : document.Loaded) : document.WarnsExactly payload document.unusedOverrides := by
  have hsources : document.sources.keys = payload.sources.keys :=
    (means_of_ofPayload h).sources.keys_eq
  constructor
  · exact hloaded.nodup_sourceKeys.filter _
  · intro file
    rw [mem_unusedOverrides_iff, hsources, ← Bool.not_eq_true, compiles_iff_exists_property hloaded]
    simp only [not_exists, ne_eq]
  · intro unused hunused
    have hcompiles : ∀ file ∈ unused, document.compiles file = false := fun file hfile =>
      (mem_unusedOverrides_iff.1 (hunused hfile)).2
    refine ⟨document.withoutSources unused, resolvesAlike_withoutSources hcompiles, ?_⟩
    intro given hpayload
    rw [Given.result_eq_of_payload hpayload, ofPayload_withoutSources h]
  · intro file hmem hfile
    rw [← hsources] at hmem
    obtain ⟨override, hoverride⟩ := Table.mem_keys.1 hmem
    have hlookup := (Table.lookup_eq_some_iff_mem hloaded.nodup_sourceKeys).2 hoverride
    have hfound : document.override? (.ofString file) = some override := by
      rw [override?, Path.text?_ofString, Option.bind_some, hlookup]
    have hcompiles : document.compiles file = true := by
      by_contra hnot
      exact hfile (mem_unusedOverrides_iff.2 ⟨hmem, Bool.eq_false_iff.2 hnot⟩)
    obtain ⟨key, language, target, htarget, hlanguage⟩ :=
      exists_compilesAs_of_compiles hloaded hcompiles
    refine ⟨override, hfound, key, target, language, htarget, hlanguage, fun property => ?_⟩
    rw [result_property htarget hlanguage, wordsFor, addedWords, hfound, Option.bind_some]

/-- How a payload without the properties of some source files is given: as the value without their
entries, or in a text that writes this value and repeats no key. -/
structure WritesWithout (value : Value) (payload : Payload) : Prop where
  mem_keys_iff : ∀ file, file ∈ payload.sources.keys ↔ (value.sourceAt? file).isSome
  asValue : ∀ unused,
    (Given.asValue (value.withoutSources unused)).payload = .ok (payload.withoutSources unused)
  inText : ∀ unused text, parse text = .ok (value.withoutSources unused) → RepeatsNoKey text →
    (Given.inText text).payload = .ok (payload.withoutSources unused)

theorem writesWithout {value : Value} {payload : Payload} (hkeys : value.KeysDistinct)
    (hvalue : Payload.decoder.fromValue value = .ok payload) : WritesWithout value payload where
  mem_keys_iff file := by
    have hnodup := (Payload.yields_nodup_keys.value hvalue).2
    constructor
    · intro hmem
      obtain ⟨source, hsource⟩ := Table.mem_keys.1 hmem
      have hlookup := (Table.lookup_eq_some_iff_mem hnodup).2 hsource
      obtain ⟨part, hpart, _⟩ := (Payload.lookup_sources_iff hkeys hvalue).1 hlookup
      rw [hpart, Option.isSome_some]
    · intro hsome
      obtain ⟨part, hpart⟩ := Option.isSome_iff_exists.1 hsome
      obtain ⟨source, _, hlookup⟩ := Payload.source_of_written hkeys hvalue hpart
      exact Table.mem_keys.2 ⟨source, Table.mem_of_lookup hlookup⟩
  asValue unused := Payload.fromValue_withoutSources hkeys hvalue unused
  inText unused text htext hrepeats :=
    (Payload.agrees_decoder.read_eq_ok_iff htext hrepeats).2
      (Payload.fromValue_withoutSources hkeys hvalue unused)

/-- Warnings of unused properties are exact, and where a payload cannot be loaded there are none.
The source files of a payload are those that are written, in whichever way it was given. -/
theorem unusedOverrides_exact (given : Given) :
    (∀ error, given.document.result = .error error → given.document.events = []) ∧
    ∀ document, given.document.result = .ok document →
      ∃ payload files, given.payload = .ok payload ∧
        given.document.events = files.map .unusedOverride ∧
        document.WarnsExactly payload files ∧
        ∀ value, given.Writes value → value.KeysDistinct → WritesWithout value payload := by
  constructor
  · intro error herror
    rw [given.document_eq_load] at herror ⊢
    exact events_load_of_error herror
  · intro document hdocument
    have hloaded := given.loaded hdocument
    rw [given.document_eq_load] at hdocument ⊢
    obtain ⟨payload, hpayload, hmeans⟩ := load_eq_ok_iff.1 hdocument
    refine ⟨payload, document.unusedOverrides, hpayload, events_load_of_ok hdocument,
      warnsExactly_unusedOverrides hmeans hloaded, fun value hvalue hkeys => ?_⟩
    exact writesWithout hkeys (Given.fromValue_of_writes hpayload hvalue)

/-- A payload with properties of a file that is compiled, of a header, and of the compiled file
under another spelling. -/
def overridesPayload : Value :=
  .object
    [("targets", .object
        [("t", .object
          [("object_sources_c", .array [.string "a.c"]),
            ("header_sources", .array [.string "h.h"])])]),
      ("sources", .object
        [("h.h", .object [("compile_definitions", .array [.string "H"])]),
          ("a.c", .object [("compile_definitions", .array [.string "A"])]),
          ("./a.c", .object [("compile_definitions", .array [.string "B"])])])]

theorem unusedOverrides_exact_overridesPayload :
    ∃ document document', (ofValue overridesPayload).result = .ok document ∧
      (ofValue overridesPayload).events = [.unusedOverride "h.h", .unusedOverride "./a.c"] ∧
      (ofValue (overridesPayload.withoutSources ["h.h", "./a.c"])).result = .ok document' ∧
      document.ResolvesAlike document' ∧
      ∃ key base,
        (document'.property key (.ofString "a.c") .definitions).result = .ok (base ++ ["A"]) := by
  have hkeys : overridesPayload.KeysDistinct := by simp [overridesPayload, Table.keys]
  obtain ⟨document, hload, hsource⟩ : ∃ document,
      (Given.asValue overridesPayload).document.result = .ok document ∧
        document.sources.lookup "a.c" = some ⟨none, some ["A"], none, none⟩ := ⟨_, rfl, rfl⟩
  have hevents : (ofValue overridesPayload).events =
      [.unusedOverride "h.h", .unusedOverride "./a.c"] := by rfl
  obtain ⟨payload, files, -, hfiles, hexact, hwrites⟩ :=
    (unusedOverrides_exact (.asValue overridesPayload)).2 document hload
  have hwithout := hwrites overridesPayload rfl hkeys
  obtain rfl : files = ["h.h", "./a.c"] := by
    have hmap := hfiles.symm.trans hevents
    have hinjective : Function.Injective Event.unusedOverride := fun _ _ => by simp
    exact List.map_injective_iff.2 hinjective hmap
  obtain ⟨document', hresolves, hload'⟩ := hexact.leftOut _ (List.Subset.refl _)
  obtain ⟨override, hoverride, key, target, language, -, -, hwords⟩ :=
    hexact.used "a.c" ((hwithout.mem_keys_iff "a.c").2 rfl) (by decide)
  rw [override?, Path.text?_ofString, Option.bind_some, hsource] at hoverride
  obtain rfl := Option.some.inj hoverride
  exact ⟨document, document', hload, hevents, hload' _ (hwithout.asValue _), hresolves, key,
    _, (hresolves.property _ _ _ ▸ hwords .definitions)⟩

end Document

end BuildFacts
