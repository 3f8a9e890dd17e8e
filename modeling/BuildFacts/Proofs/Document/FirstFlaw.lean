import BuildFacts.Proofs.Document.Flaws
import BuildFacts.Proofs.Document.Given
import BuildFacts.Proofs.Document.Properties
import BuildFacts.Proofs.Json.Pointer
import BuildFacts.Proofs.Json.Takes

/-!
# The mismatch that is reported

A payload of the right types can have many flaws, and one of them is reported.
`Json.Value.checkpoints` are the places at which there may be a flaw, in the order in which they
are looked at: target by target the compiled files and then the words under each key, and after
the targets the words of each source file.  `Checkpoint.Reports` is what is reported for one
place.

* `WrittenTarget.resolve_eq_error_iff_firstOf` and `WrittenSource.resolve_eq_error_iff_firstOf`
  are about one entry, and `Document.ofPayload_eq_error_iff_firstOf` puts the entries behind each
  other.
* `Document.first_mismatch_located` is the result.  The first place with a flaw is reported, with
  a pointer that leads to the text or to the target that is to blame.
-/

namespace BuildFacts

open Json

/-! ## Places that may have a flaw -/

namespace Json.Value

/-- The entries of a table of a payload, in order. -/
def entries (payload : Value) (name : String) : Table Value :=
  ((payload.member? name).bind members?).getD []

/-- A place of a payload that may have a flaw. -/
inductive Checkpoint where
  /-- The compiled files of the target with a key. -/
  | files (key : String) (target : Value)
  /-- The words under a key of the entry at a place. -/
  | words (place : List Pointer.Step) (entry : Value) (name : String)

/-- What is reported for a place: that a file stands under both languages, with a pointer to the
target, or that a text does not split, with a pointer to the text. -/
inductive Checkpoint.Reports : Checkpoint → Error → Prop where
  | conflict {key : String} {target : Value} {cause : Mismatch}
      (h : Classification.FirstConflict target.compiledFiles cause) :
      Reports (.files key target)
        (.mismatch (Pointer.write [.member "targets", .member key]) cause)
  | unbalanced {place : List Pointer.Step} {entry : Value} {name text : String}
      (htext : entry.member? name = some (.string text)) (hsplit : ShellWords.split text = none) :
      Reports (.words place entry name)
        (.mismatch (Pointer.write (place ++ [.member name])) (.unbalanced text))

/-- The places of a target: its files come before its words. -/
def targetCheckpoints (key : String) (target : Value) : List Checkpoint :=
  .files key target ::
    WrittenTarget.wordKeys.map (.words [.member "targets", .member key] target)

/-- The places of a source file. -/
def sourceCheckpoints (key : String) (source : Value) : List Checkpoint :=
  WrittenSource.wordKeys.map (.words [.member "sources", .member key] source)

/-- The places of a payload: targets come before source files. -/
def checkpoints (payload : Value) : List Checkpoint :=
  ((payload.entries "targets").flatMap fun entry => targetCheckpoints entry.1 entry.2) ++
    (payload.entries "sources").flatMap fun entry => sourceCheckpoints entry.1 entry.2

/-- No target has a file under both languages, and every text for words splits. -/
structure Flawless (payload : Value) : Prop where
  files : ∀ key target, payload.entry? "targets" key = some target →
    ∀ file, ¬((file, .c) ∈ target.compiledFiles ∧ (file, .cxx) ∈ target.compiledFiles)
  targetWords : ∀ key target, payload.entry? "targets" key = some target →
    ∀ name ∈ WrittenTarget.wordKeys, ∀ text, target.member? name = some (.string text) →
      ShellWords.split text ≠ none
  sourceWords : ∀ key source, payload.entry? "sources" key = some source →
    ∀ name ∈ WrittenSource.wordKeys, ∀ text, source.member? name = some (.string text) →
      ShellWords.split text ≠ none

/-- A pointer leads to what a mismatch is about: to a target that has a file under both
languages, or to a text that does not split. -/
inductive LeadsTo (payload : Value) (pointer : String) : Mismatch → Prop where
  | target {key file : String} {target : Value} {previous language : Language}
      (htarget : payload.entry? "targets" key = some target)
      (hpointer : Pointer.resolve? payload pointer.toList = some target)
      (hne : previous ≠ language) (hprevious : (file, previous) ∈ target.compiledFiles)
      (hlanguage : (file, language) ∈ target.compiledFiles) :
      LeadsTo payload pointer (.conflict file previous language)
  | text {text : String} (hpointer : Pointer.resolve? payload pointer.toList = some (.string text))
      (hsplit : ShellWords.split text = none) : LeadsTo payload pointer (.unbalanced text)

end Json.Value

open Json.Value

/-! ## Pointers -/

/-- The pointer to a member of what a pointer leads to. -/
theorem pointerTo_write (place : List Pointer.Step) (name : String) :
    pointerTo (Pointer.write place) (Pointer.escape name) =
      Pointer.write (place ++ [.member name]) := by
  rw [Pointer.write_append, pointerTo]
  simp [Pointer.write, Pointer.Step.token, String.append_assoc]

theorem targetPointer_eq_write (key : String) :
    targetPointer key = Pointer.write [.member "targets", .member key] := by
  have hroot : "/targets" = Pointer.write [.member "targets"] := rfl
  rw [targetPointer, Pointer.escapeByReplacing_eq_escape, hroot, pointerTo_write]
  rfl

theorem sourcePointer_eq_write (key : String) :
    sourcePointer key = Pointer.write [.member "sources", .member key] := by
  have hroot : "/sources" = Pointer.write [.member "sources"] := rfl
  rw [sourcePointer, Pointer.escapeByReplacing_eq_escape, hroot, pointerTo_write]
  rfl

/-! ## Entries -/

/-- Where the words of a record may be, they are resolved up to the first text that does not
split. -/
theorem WrittenWords.resolveAll_eq_error_iff_firstOf {σ : Type} {record : Record σ}
    {parts : List (String × (σ → Option WrittenWords))}
    (hparts : ∀ part ∈ parts, record.Part part.1 WrittenWords.decoder part.2 ∧
      part.2 record.initial = none)
    (hplain : ∀ part ∈ parts, Pointer.escape part.1 = part.1)
    (hnames : (record.fields.map (·.name)).Nodup) {value : Value} {result : σ}
    (hkeys : value.KeysDistinct) (hkind : value.kind = .object)
    (hresult : record.decoder.fromValue value = .ok result) (place : List Pointer.Step)
    {error : Error} :
    WrittenWords.resolveAll (Pointer.write place) (parts.map fun part => (part.1, part.2 result)) =
        .error error ↔
      FirstOf Checkpoint.Reports ((parts.map Prod.fst).map (.words place value)) error := by
  rw [WrittenWords.resolveAll, mapM_eq_error_iff_firstOf]
  refine firstOf_iff_of_forall₂ ?_
  rw [List.map_map, List.forall₂_map_left_iff, List.forall₂_map_right_iff, List.forall₂_same]
  intro part hmem error
  obtain ⟨hpart, hinitial⟩ := hparts part hmem
  have hwords (text : String) :
      part.2 result = some (.joined text) ↔ value.member? part.1 = some (.string text) := by
    rw [hpart.words_eq_joined_iff hnames hkeys hresult hinitial, Record.written?_of_object hkind]
  rw [WrittenWords.wordsAt?_eq_error_iff, ← hplain part hmem, pointerTo_write, hplain part hmem]
  simp only [hwords]
  constructor
  · rintro ⟨text, htext, hsplit, rfl⟩
    exact .unbalanced htext hsplit
  · intro hreports
    cases hreports with
    | unbalanced htext hsplit => exact ⟨_, htext, hsplit, rfl⟩

/-- A target fails for its files, and if they are classified for the first of its words. -/
theorem WrittenTarget.resolve_eq_error_iff_firstOf {key : String} {value : Value}
    {target : WrittenTarget} (hkeys : value.KeysDistinct) (hkind : value.kind = .object)
    (hvalue : record.decoder.fromValue value = .ok target) {error : Error} :
    target.resolve key = .error error ↔
      FirstOf Checkpoint.Reports (targetCheckpoints key value) error := by
  have hfiles (error : Error) : Checkpoint.Reports (.files key value) error ↔
      ∃ cause, Classification.ofTarget target = .error cause ∧
        error = .mismatch (targetPointer key) cause := by
    simp only [Classification.ofTarget_eq_error_iff, ← listed_written hkeys hvalue,
      targetPointer_eq_write]
    constructor
    · rintro ⟨hconflict⟩
      exact ⟨_, hconflict, rfl⟩
    · rintro ⟨cause, hconflict, rfl⟩
      exact .conflict hconflict
  have hwords : WrittenWords.resolveAll (targetPointer key) target.wordLists = .error error ↔
      FirstOf Checkpoint.Reports
        (wordKeys.map (.words [.member "targets", .member key] value)) error := by
    rw [targetPointer_eq_write]
    exact WrittenWords.resolveAll_eq_error_iff_firstOf part_of_mem_wordParts (by decide)
      nodup_fieldNames hkeys hkind hvalue _
  rw [resolve_eq_error_iff, targetCheckpoints, firstOf_cons_iff, hfiles, hwords]
  refine or_congr Iff.rfl (and_congr_left' ?_)
  simp only [exists_eq_ok_iff, hfiles, not_exists, not_and]
  constructor
  · intro hnone other cause hcause
    exact absurd hcause (hnone cause)
  · intro hnone cause hcause
    exact hnone _ cause hcause rfl

/-- A source file fails for the first of its words. -/
theorem WrittenSource.resolve_eq_error_iff_firstOf {key : String} {value : Value}
    {source : WrittenSource} (hkeys : value.KeysDistinct) (hkind : value.kind = .object)
    (hvalue : record.decoder.fromValue value = .ok source) {error : Error} :
    source.resolve key = .error error ↔
      FirstOf Checkpoint.Reports (sourceCheckpoints key value) error := by
  rw [resolve_eq_error_iff, sourcePointer_eq_write]
  exact WrittenWords.resolveAll_eq_error_iff_firstOf part_of_mem_wordParts (by decide)
    (by decide) hkeys hkind hvalue _

/-! ## Tables -/

theorem Json.Value.mem_entries_iff {payload part : Value} {name key : String}
    (hkeys : payload.KeysDistinct) :
    (key, part) ∈ payload.entries name ↔ payload.entry? name key = some part := by
  unfold entries entry?
  cases htable : payload.member? name with
  | none => simp
  | some table =>
    cases hkeys.member htable with
    | object hnodup _ => exact (Table.lookup_eq_some_iff_mem hnodup).symm
    | _ => simp [member?, members?]

/-- A table of a payload is taken entry by entry. -/
theorem Payload.resolved_entries {α : Type} {name : String} {decoder : Decoder α}
    {get : Payload → Table α} (hpart : record.Part name decoder.table get)
    (hinitial : get record.initial = []) {value : Value} {payload : Payload}
    (hkeys : value.KeysDistinct) (hkind : value.kind = .object)
    (hvalue : Payload.decoder.fromValue value = .ok payload) :
    Table.Resolved (fun _ value => decoder.fromValue value) (value.entries name) (get payload) := by
  unfold Json.Value.entries
  cases htable : value.member? name with
  | none =>
    rw [hpart.fromValue_absent hkind hvalue htable, hinitial]
    exact .nil
  | some table =>
    have hwritten : record.written? name value = some table :=
      (Record.written?_of_object hkind).trans htable
    obtain ⟨members, rfl, hresolved⟩ :=
      hpart.resolved_of_written nodup_fieldNames hkeys hvalue hwritten
    exact hresolved

/-- The entries of a table fail with the first error of the first of them that has one. -/
theorem resolveEntries_eq_error_iff_firstOf {α β : Type} {resolve : String → α → Except Error β}
    {decoder : Decoder α} {written : Table Value} {table : Table α}
    {stages : String → Value → List Checkpoint}
    (hwritten : Table.Resolved (fun _ value => decoder.fromValue value) written table)
    (hentry : ∀ entry ∈ written, ∀ a, decoder.fromValue entry.2 = .ok a → ∀ error,
      resolve entry.1 a = .error error ↔
        FirstOf Checkpoint.Reports (stages entry.1 entry.2) error) {error : Error} :
    resolveEntries resolve table = .error error ↔
      FirstOf Checkpoint.Reports (written.flatMap fun entry => stages entry.1 entry.2) error := by
  rw [resolveEntries, mapM_eq_error_iff_firstOf, firstOf_flatMap_iff]
  refine (firstOf_iff_of_forall₂ ?_).symm
  refine List.Forall₂.imp ?_ ((List.forall₂_and_left _ _).2 ⟨hentry, hwritten⟩)
  rintro ⟨key, value⟩ ⟨key', a⟩ ⟨hentry, rfl, hdecode⟩ error
  rw [map_eq_error_iff]
  exact (hentry a hdecode error).symm

/-! ## Payloads -/

namespace Document

variable {value : Value} {payload : Payload}

/-- A payload fails with the first error in the order of its places. -/
theorem ofPayload_eq_error_iff_firstOf (hkeys : value.KeysDistinct) (hform : value.ObjectForm)
    (hvalue : Payload.decoder.fromValue value = .ok payload) {error : Error} :
    ofPayload payload = .error error ↔
      FirstOf Checkpoint.Reports value.checkpoints error := by
  have htargets (error : Error) :
      resolveEntries WrittenTarget.resolve payload.targets = .error error ↔
        FirstOf Checkpoint.Reports
          ((value.entries "targets").flatMap fun entry => targetCheckpoints entry.1 entry.2)
          error := by
    refine resolveEntries_eq_error_iff_firstOf
      (Payload.resolved_entries Payload.part_targets rfl hkeys hform.root hvalue) ?_
    rintro ⟨key, part⟩ hmem target htarget error
    have hpart := (mem_entries_iff hkeys).1 hmem
    exact WrittenTarget.resolve_eq_error_iff_firstOf (hkeys.entry hpart)
      (hform.targets key part hpart) htarget
  have hsources : resolveEntries WrittenSource.resolve payload.sources = .error error ↔
      FirstOf Checkpoint.Reports
        ((value.entries "sources").flatMap fun entry => sourceCheckpoints entry.1 entry.2)
        error := by
    refine resolveEntries_eq_error_iff_firstOf
      (Payload.resolved_entries Payload.part_sources rfl hkeys hform.root hvalue) ?_
    rintro ⟨key, part⟩ hmem source hsource error
    have hpart := (mem_entries_iff hkeys).1 hmem
    exact WrittenSource.resolve_eq_error_iff_firstOf (hkeys.entry hpart)
      (hform.sources key part hpart) hsource
  rw [checkpoints, firstOf_append_iff, ← not_firstOf_iff, ← hsources]
  simp only [← htargets, ofPayload, bind_eq_error_iff, pure, Except.pure, reduceCtorEq, and_false,
    exists_false, or_false, exists_and_right, exists_eq_ok_iff, ne_eq]

/-- A payload has no flaw if no target has a file under both languages and every text splits. -/
theorem flawless_iff (hform : value.ObjectForm) :
    value.Flawless ↔ ∀ error, ¬value.Flaw error := by
  have htargetAt (key : String) : value.targetAt? key = value.entry? "targets" key := by
    rw [targetAt?, Record.written?_of_object hform.root, entry?]
  have hsourceAt (key : String) : value.sourceAt? key = value.entry? "sources" key := by
    rw [sourceAt?, Record.written?_of_object hform.root, entry?]
  constructor
  · rintro hflawless error (@⟨key, target, file, _, _, htarget, hne, hprevious, hlanguage⟩ |
      @⟨key, name, text, target, htarget, hname, hwords, hsplit⟩ |
      @⟨key, name, text, source, hsource, hname, hwords, hsplit⟩)
    · rw [htargetAt] at htarget
      exact hflawless.files key target htarget file
        (Classification.mem_both_of_ne hne hprevious hlanguage)
    · rw [htargetAt] at htarget
      rw [Record.written?_of_object (hform.targets key target htarget)] at hwords
      exact hflawless.targetWords key target htarget name hname text hwords hsplit
    · rw [hsourceAt] at hsource
      rw [Record.written?_of_object (hform.sources key source hsource)] at hwords
      exact hflawless.sourceWords key source hsource name hname text hwords hsplit
  · intro hnone
    constructor
    · rintro key target htarget file ⟨hc, hcxx⟩
      exact hnone _ (.conflict ((htargetAt key).trans htarget) (by decide) hc hcxx)
    · intro key target htarget name hname text hwords hsplit
      refine hnone _ (.targetWords ((htargetAt key).trans htarget) hname ?_ hsplit)
      rwa [Record.written?_of_object (hform.targets key target htarget)]
    · intro key source hsource name hname text hwords hsplit
      refine hnone _ (.sourceWords ((hsourceAt key).trans hsource) hname ?_ hsplit)
      rwa [Record.written?_of_object (hform.sources key source hsource)]

/-- The pointer of what is reported leads to what it is about. -/
theorem leadsTo_of_reports (hkeys : value.KeysDistinct) {checkpoint : Checkpoint} {error : Error}
    (hmem : checkpoint ∈ value.checkpoints) (h : checkpoint.Reports error) :
    ∃ pointer cause, error = .mismatch pointer cause ∧ value.LeadsTo pointer cause := by
  have hentry {name key : String} {part : Value} (hpart : (key, part) ∈ value.entries name) :
      [name, key].foldlM member? value = some part := by
    rw [mem_entries_iff hkeys, entry?] at hpart
    simpa using hpart
  -- The words under a key of an entry that its place leads to.
  have hwords {names : List String} {part : Value} {place : List Pointer.Step} {name : String}
      (hpart : names.foldlM member? value = some part) (hplace : place = names.map .member)
      (h : (Checkpoint.words place part name).Reports error) :
      ∃ pointer cause, error = .mismatch pointer cause ∧ value.LeadsTo pointer cause := by
    cases h with
    | @unbalanced _ _ _ text htext hsplit =>
      have hleads : (names ++ [name]).foldlM member? value = some (.string text) := by
        rw [List.foldlM_append, hpart]
        simpa using htext
      have hnames : place ++ [.member name] = (names ++ [name]).map .member := by simp [hplace]
      exact ⟨_, _, rfl, .text (Pointer.resolve?_write_members hleads hnames) hsplit⟩
  rw [checkpoints, List.mem_append, List.mem_flatMap, List.mem_flatMap] at hmem
  rcases hmem with ⟨⟨key, target⟩, htarget, hmem⟩ | ⟨⟨key, source⟩, hsource, hmem⟩
  · rcases List.mem_cons.1 hmem with rfl | hmem
    · cases h with
      | conflict hconflict =>
        obtain ⟨file, previous, language, hne, hprevious, hlanguage, rfl⟩ :=
          hconflict.exists_listed
        exact ⟨_, _, rfl, .target ((mem_entries_iff hkeys).1 htarget)
          (Pointer.resolve?_write_members (hentry htarget) rfl) hne hprevious hlanguage⟩
    · obtain ⟨name, _, rfl⟩ := List.mem_map.1 hmem
      exact hwords (hentry htarget) rfl h
  · obtain ⟨name, _, rfl⟩ := List.mem_map.1 hmem
    exact hwords (hentry hsource) rfl h

/-- How a payload loads whose parts have the right types.

* It loads exactly if no target has a file under both languages and every text for words splits,
  also where no file asks for the words.
* If it does not load, the first place with a flaw is reported: targets in order, and of each one
  first the files and then the words; and then the source files in order.
* What is reported has a pointer to the text that does not split, or to the target that has a file
  under both languages, whatever the keys of targets and source files are. -/
theorem first_mismatch_located (hkeys : value.KeysDistinct) (hform : value.ObjectForm)
    (htypes : Payload.decoder.Takes value) :
    ((∃ document, (ofValue value).result = .ok document) ↔ value.Flawless) ∧
    (∀ error, (ofValue value).result = .error error ↔
      FirstOf Checkpoint.Reports value.checkpoints error) ∧
    ∀ error, (ofValue value).result = .error error →
      ∃ pointer cause, error = .mismatch pointer cause ∧ value.LeadsTo pointer cause := by
  obtain ⟨payload, hpayload⟩ := htypes
  have hfirst (error : Error) : ofPayload payload = .error error ↔
      FirstOf Checkpoint.Reports value.checkpoints error :=
    ofPayload_eq_error_iff_firstOf hkeys hform hpayload
  rw [ofValue, hpayload, result_load_ok]
  refine ⟨?_, hfirst, fun error herror => ?_⟩
  · rw [exists_ofPayload_iff, flawless_iff hform]
    exact forall_congr' fun error => not_congr (Payload.flaw_iff hkeys hpayload)
  · obtain ⟨checkpoint, hmem, hreports⟩ := ((hfirst error).1 herror).exists_mem
    exact leadsTo_of_reports hkeys hmem hreports

/-- A payload whose target may have a file under both languages, and whose source file has two
texts that do not split.  Both keys have a `~` and a `/`. -/
def unusualKeysPayload (generated : String) : Value :=
  .object
    [("targets", .object
      [("a/b~c", .object
        [("object_sources_c", .array [.string "x"]),
          ("generated_object_sources_cxx", .array [.string generated])])]),
      ("sources", .object
        [("/p/~x", .object
          [("compile_definitions", .string "'"), ("compile_flags", .string "'-O")])])]

theorem kind_of_entry_unusualKeysPayload {generated name key : String} {part : Value}
    (h : Value.entry? (unusualKeysPayload generated) name key = some part) :
    part.kind = .object := by
  simp only [Value.entry?, member?, unusualKeysPayload, members?, Option.bind_some,
    List.lookup_cons, List.lookup_nil] at h
  grind [kind, members?]

theorem first_mismatch_located_unusualKeys :
    (unusualKeysPayload "x").LeadsTo "/targets/a~1b~0c" (.conflict "x" .c .cxx) ∧
    (unusualKeysPayload "y").LeadsTo "/sources/~1p~1~0x/compile_flags" (.unbalanced "'-O") ∧
    ¬(unusualKeysPayload "y").Flawless := by
  have hkeys (generated : String) : (unusualKeysPayload generated).KeysDistinct := by
    simp [unusualKeysPayload, Table.keys]
  have hlocated (generated : String) := first_mismatch_located (hkeys generated)
    ⟨rfl, fun _ _ => kind_of_entry_unusualKeysPayload, fun _ _ => kind_of_entry_unusualKeysPayload⟩
    ⟨_, rfl⟩
  have hconflict : (ofValue (unusualKeysPayload "x")).result =
      .error (.mismatch "/targets/a~1b~0c" (.conflict "x" .c .cxx)) := rfl
  have htext : (ofValue (unusualKeysPayload "y")).result =
      .error (.mismatch "/sources/~1p~1~0x/compile_flags" (.unbalanced "'-O")) := rfl
  refine ⟨?_, ?_, fun hflawless => ?_⟩
  · obtain ⟨_, _, heq, hleads⟩ := (hlocated "x").2.2 _ hconflict
    obtain ⟨rfl, rfl⟩ := Error.mismatch.inj heq
    exact hleads
  · obtain ⟨_, _, heq, hleads⟩ := (hlocated "y").2.2 _ htext
    obtain ⟨rfl, rfl⟩ := Error.mismatch.inj heq
    exact hleads
  · obtain ⟨document, hdocument⟩ := (hlocated "y").1.2 hflawless
    exact nomatch htext.symm.trans hdocument

end Document

end BuildFacts
