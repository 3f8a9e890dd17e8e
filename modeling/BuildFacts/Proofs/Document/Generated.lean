import BuildFacts.Proofs.Document.Files

/-!
# Files that the build writes

A target lists files that the build writes under four keys: object files of two languages, and the
`Companion` files, which are headers and extra files.  `Target.FlagsGenerated` says that exactly
these files are flagged, and that the companion files are those of both lists one behind the other.

* `Classification.add_generated` is the step: an object file is flagged when it is new and comes
  from a list of files that the build writes.  A file that is classified already is passed over,
  and so its flag stays as it was.
* `Classification.ofTarget_generated` is the result for the object files of a target.
* `Document.flagsGenerated_iff` is the result for a target.  An object file that is also an
  ordinary one goes without its flag, unless it is a companion file that the build writes.
-/

namespace BuildFacts

open Json

/-! ## Flags of object files -/

namespace Classification

variable {language : Language} {isGenerated : Bool} {state next : Classification}
  {files : List String} {file : String}

/-- The step: a new file is classified, and flagged if the build writes it. -/
theorem add_generated (h : add language isGenerated state file = .ok next) (other : String) :
    (other ∈ next.languages.keys ↔ other ∈ state.languages.keys ∨ other = file) ∧
      (other ∈ next.generated ↔ other ∈ state.generated ∨
        isGenerated = true ∧ other = file ∧ file ∉ state.languages.keys) := by
  rw [add] at h
  split at h
  · rename_i previous hfound
    have hmem : file ∈ state.languages.keys := Table.mem_keys.2 ⟨_, Table.mem_of_lookup hfound⟩
    split at h
    · obtain rfl := Except.ok.inj h
      constructor
      · constructor
        · exact .inl
        · rintro (hother | rfl)
          · exact hother
          · exact hmem
      · simp [hmem]
    · simp at h
  · rename_i hfound
    have hnew : file ∉ state.languages.keys := Table.lookup_eq_none_iff_notMem.1 hfound
    obtain rfl := Except.ok.inj h
    have hkeys : Table.keys (state.languages ++ [(file, language)]) =
        state.languages.keys ++ [file] := by simp [Table.keys]
    cases isGenerated <;> simp [hkeys, hnew]

/-- The run: of the files of a list the new ones are flagged, if the build writes them. -/
theorem addAll_generated (h : addAll language isGenerated state files = .ok next)
    (other : String) :
    (other ∈ next.languages.keys ↔ other ∈ state.languages.keys ∨ other ∈ files) ∧
      (other ∈ next.generated ↔ other ∈ state.generated ∨
        isGenerated = true ∧ other ∈ files ∧ other ∉ state.languages.keys) := by
  induction files generalizing state with
  | nil =>
    obtain rfl : state = next := Except.ok.inj h
    simp
  | cons file files ih =>
    rw [addAll, List.foldlM_cons] at h
    obtain ⟨middle, hadd, h⟩ := bind_eq_ok_iff.1 h
    obtain ⟨hkeys, hgenerated⟩ := add_generated hadd other
    obtain ⟨hkeys', hgenerated'⟩ := ih h
    rw [hkeys', hgenerated', hkeys, hgenerated, List.mem_cons]
    by_cases heq : other = file
    · subst heq
      simp only [true_or, or_true, true_and, not_true_eq_false, and_false, or_false]
    · simp [heq]

/-- The object files of a target that are flagged: the build writes them, and they are not
listed as ordinary ones. -/
theorem ofTarget_generated {target : WrittenTarget} (h : ofTarget target = .ok state)
    (file : String) :
    file ∈ state.generated ↔
      (∃ language, file ∈ target.generatedObjects.get language) ∧
        ∀ language, file ∉ target.objects.get language := by
  unfold ofTarget at h
  obtain ⟨first, hfirst, h⟩ := bind_eq_ok_iff.1 h
  obtain ⟨second, hsecond, h⟩ := bind_eq_ok_iff.1 h
  obtain ⟨third, hthird, hlast⟩ := bind_eq_ok_iff.1 h
  obtain ⟨hkeys₁, hgenerated₁⟩ := addAll_generated hfirst file
  obtain ⟨hkeys₂, hgenerated₂⟩ := addAll_generated hsecond file
  obtain ⟨hkeys₃, hgenerated₃⟩ := addAll_generated hthird file
  obtain ⟨-, hgenerated₄⟩ := addAll_generated hlast file
  have hlanguages (P : Language → Prop) : (∀ language, P language) ↔ P .c ∧ P .cxx :=
    ⟨fun hall => ⟨hall .c, hall .cxx⟩, fun hboth language => by cases language <;> simp [hboth]⟩
  have hsome (P : Language → Prop) : (∃ language, P language) ↔ P .c ∨ P .cxx := by
    rw [← not_iff_not, not_exists, hlanguages, not_or]
  rw [hgenerated₄, hkeys₃, hgenerated₃, hkeys₂, hgenerated₂, hkeys₁, hgenerated₁, hlanguages,
    hsome]
  simp only [Table.keys, List.map_nil, List.not_mem_nil, false_or, Bool.false_eq_true, false_and,
    true_and, ByLanguage.get, not_or]
  by_cases hlisted : file ∈ target.generatedObjects.c
  · simp [hlisted]
  · simp [hlisted]

end Classification

/-! ## Companion files -/

/-- The files that a target lists beside those that it compiles. -/
inductive Companion where
  | header
  | extra
  deriving DecidableEq

namespace Companion

/-- The key of companion files. -/
def key : Companion → String
  | .header => "header_sources"
  | .extra => "extra_sources"

/-- The key of companion files that the build writes. -/
def generatedKey : Companion → String
  | .header => "generated_header_sources"
  | .extra => "generated_extra_sources"

end Companion

/-- The companion files of a target. -/
def Target.companions (target : Target) : Companion → List Path
  | .header => target.headers
  | .extra => target.extra

namespace WrittenTarget

/-- The companion files of a target as they are listed, without those that the build writes. -/
def companions (target : WrittenTarget) : Companion → List String
  | .header => target.headers
  | .extra => target.extra

/-- The companion files of a target that the build writes. -/
def generatedCompanions (target : WrittenTarget) : Companion → List String
  | .header => target.generatedHeaders
  | .extra => target.generatedExtra

theorem part_companions (kind : Companion) :
    record.Part kind.key Decoder.string.list fun target => target.companions kind where
  present := by
    cases kind <;> simp [Record.field?, record, text, files, words, Companion.key]
  fields := by
    cases kind <;> simp [record, text, files, words, Companion.key, companions]

theorem part_generatedCompanions (kind : Companion) :
    record.Part kind.generatedKey Decoder.string.list
      fun target => target.generatedCompanions kind where
  present := by
    cases kind <;> simp [Record.field?, record, text, files, words, Companion.generatedKey]
  fields := by
    cases kind <;>
      simp [record, text, files, words, Companion.generatedKey, generatedCompanions]

end WrittenTarget

/-! ## Flags of a target -/

namespace WrittenTarget

/-- A target lists a file among those that the build writes. -/
def ListsGenerated (target : WrittenTarget) (file : String) : Prop :=
  (∃ language, file ∈ target.generatedObjects.get language) ∨
    ∃ kind, file ∈ target.generatedCompanions kind

/-- A target lists an object file that the build writes among the ordinary object files too. -/
def ListsTwice (target : WrittenTarget) (file : String) : Prop :=
  (∃ language, file ∈ target.generatedObjects.get language) ∧
    ∃ language, file ∈ target.objects.get language

end WrittenTarget

/-- The files that a target flags, whichever other lists they stand in, are those that are
listed as written by the build, and its companion files are those of either list, one list
behind the other. -/
structure Target.FlagsGenerated (target : Target) (written : WrittenTarget) : Prop where
  isGenerated_iff : ∀ path, target.isGenerated path = true ↔
    ∃ file, path = .ofString file ∧ written.ListsGenerated file
  companions_eq : ∀ kind, target.companions kind =
    (written.companions kind ++ written.generatedCompanions kind).map .ofString

theorem Target.isGenerated_iff_mem {target : Target} {path : Path} :
    target.isGenerated path = true ↔ ∃ file, path = .ofString file ∧ file ∈ target.generated := by
  unfold isGenerated
  cases hpath : path.text? with
  | none =>
    simp only [Bool.false_eq_true, false_iff, not_exists, not_and]
    intro file hfile
    rw [Path.text?_eq_some_iff.2 hfile] at hpath
    simp at hpath
  | some text =>
    have heq := Path.text?_eq_some_iff.1 hpath
    subst heq
    rw [List.contains_iff_mem]
    constructor
    · intro hmem
      exact ⟨text, rfl, hmem⟩
    · rintro ⟨file, hfile, hmem⟩
      rwa [Path.ofString_injective hfile]

namespace WrittenTarget

variable {key : String} {written : WrittenTarget} {target : Target}

theorem exists_generatedCompanions_iff {file : String} :
    (∃ kind, file ∈ written.generatedCompanions kind) ↔
      file ∈ written.generatedHeaders ∨ file ∈ written.generatedExtra := by
  constructor
  · rintro ⟨kind, hmem⟩
    cases kind with
    | header => exact .inl hmem
    | extra => exact .inr hmem
  · rintro (hmem | hmem)
    · exact ⟨.header, hmem⟩
    · exact ⟨.extra, hmem⟩

/-- A target flags what its classification flags, and all companion files that the build writes. -/
theorem files_of_resolve (h : written.resolve key = .ok target) :
    ∃ state, Classification.ofTarget written = .ok state ∧
      target.generated = state.generated ++ written.generatedHeaders ++ written.generatedExtra ∧
      ∀ kind, target.companions kind =
        (written.companions kind ++ written.generatedCompanions kind).map .ofString := by
  unfold resolve at h
  obtain ⟨state, hstate, h⟩ := bind_eq_ok_iff.1 h
  obtain ⟨_, _, h⟩ := bind_eq_ok_iff.1 h
  obtain ⟨_, _, h⟩ := bind_eq_ok_iff.1 h
  obtain ⟨_, _, h⟩ := bind_eq_ok_iff.1 h
  obtain rfl := Except.ok.inj h
  refine ⟨state, mapError_eq_ok_iff.1 hstate, rfl, fun kind => ?_⟩
  cases kind <;> rfl

/-- The files that a target flags: those that the build writes, but not object files that are
ordinary ones too, unless they are companion files that it writes. -/
theorem isGenerated_iff_of_resolve (h : written.resolve key = .ok target) (path : Path) :
    target.isGenerated path = true ↔ ∃ file, path = .ofString file ∧ written.ListsGenerated file ∧
      (written.ListsTwice file → ∃ kind, file ∈ written.generatedCompanions kind) := by
  obtain ⟨state, hstate, hgenerated, -⟩ := files_of_resolve h
  rw [Target.isGenerated_iff_mem]
  refine exists_congr fun file => and_congr_right fun _ => ?_
  rw [hgenerated, List.mem_append, List.mem_append, or_assoc, ← exists_generatedCompanions_iff,
    Classification.ofTarget_generated hstate, ListsGenerated, ListsTwice, ← not_exists]
  tauto

/-- A target has the lists of files that are written under its keys. -/
structure ReadFrom (target : WrittenTarget) (value : Value) : Prop where
  objects : ∀ language, value.filesAt (objectsKey language) = target.objects.get language
  generatedObjects : ∀ language,
    value.filesAt (generatedObjectsKey language) = target.generatedObjects.get language
  companions : ∀ kind : Companion, value.filesAt kind.key = target.companions kind
  generatedCompanions : ∀ kind : Companion,
    value.filesAt kind.generatedKey = target.generatedCompanions kind

theorem readFrom_of_fromValue {value : Value} (hkeys : value.KeysDistinct)
    (hvalue : record.decoder.fromValue value = .ok written) : written.ReadFrom value where
  objects language :=
    filesAt_eq_of_part (part_objects language) (by cases language <;> rfl) hkeys hvalue
  generatedObjects language :=
    filesAt_eq_of_part (part_generatedObjects language) (by cases language <;> rfl) hkeys hvalue
  companions kind :=
    filesAt_eq_of_part (part_companions kind) (by cases kind <;> rfl) hkeys hvalue
  generatedCompanions kind :=
    filesAt_eq_of_part (part_generatedCompanions kind) (by cases kind <;> rfl) hkeys hvalue

end WrittenTarget

namespace Document

variable {given : Given} {document : Document} {key : String} {target : Target}

/-- Which files a target of a document flags as written by the build.

* The lists of the target are those of the payload, in whichever way it was given.
* An object file is flagged if it is listed as written by the build and not as an ordinary object
  file; a companion file is flagged if it is listed as written by the build.
* The companion files are those of both lists, in order.
* So all listed files are flagged exactly if each file that is listed both ways is a companion
  file that the build writes. -/
theorem flagsGenerated_iff (hdocument : given.document.result = .ok document)
    (htarget : (key, target) ∈ document.targets) :
    ∃ payload written, given.payload = .ok payload ∧ payload.targets.lookup key = some written ∧
      (∀ value, given.Writes value → value.KeysDistinct →
        ∃ part, value.targetAt? key = some part ∧ written.ReadFrom part) ∧
      (∀ path, target.isGenerated path = true ↔ ∃ file, path = .ofString file ∧
        written.ListsGenerated file ∧
          (written.ListsTwice file → ∃ kind, file ∈ written.generatedCompanions kind)) ∧
      (∀ kind, target.companions kind =
        (written.companions kind ++ written.generatedCompanions kind).map .ofString) ∧
      (target.FlagsGenerated written ↔ ∀ file, written.ListsTwice file →
        ∃ kind, file ∈ written.generatedCompanions kind) := by
  rw [Given.document_eq_load] at hdocument
  obtain ⟨payload, hpayload, hmeans⟩ := load_eq_ok_iff.1 hdocument
  obtain ⟨written, hwritten, hresolve⟩ :=
    (means_of_ofPayload hmeans).targets.exists_of_mem htarget
  have hlookup := (Table.lookup_eq_some_iff_mem (Given.nodup_keys hpayload).1).2 hwritten
  have hflags := WrittenTarget.isGenerated_iff_of_resolve hresolve
  obtain ⟨-, -, -, hlists⟩ := WrittenTarget.files_of_resolve hresolve
  refine ⟨payload, written, hpayload, hlookup, fun value hvalue hkeys => ?_, hflags, hlists,
    fun hall file htwice => ?_, fun hall => ⟨fun path => ?_, hlists⟩⟩
  · obtain ⟨part, hpart, htaken⟩ :=
      (Payload.lookup_targets_iff hkeys (Given.fromValue_of_writes hpayload hvalue)).1 hlookup
    exact ⟨part, hpart, WrittenTarget.readFrom_of_fromValue (hkeys.targetAt hpart) htaken⟩
  · have hflagged := (hall.isGenerated_iff (.ofString file)).2 ⟨file, rfl, .inl htwice.1⟩
    obtain ⟨other, hother, -, hcompanion⟩ := (hflags _).1 hflagged
    obtain rfl := Path.ofString_injective hother
    exact hcompanion htwice
  · rw [hflags]
    refine exists_congr fun file => and_congr_right fun _ => ?_
    exact and_iff_left (hall file)

/-- A payload with an object file that is listed both as an ordinary one and as one that the
build writes, and with extra files that the build writes. -/
def listedTwicePayload (extra : List Value) : Value :=
  .object
    [("targets", .object
      [("t", .object
        [("object_sources_c", .array [.string "a.c"]),
          ("generated_object_sources_c", .array [.string "a.c"]),
          ("generated_extra_sources", .array extra)])])]

/-- A file that is an object file twice is flagged if it is an extra file too. -/
theorem flagsGenerated_listedTwice :
    ∃ document target payload written,
      (ofValue (listedTwicePayload [.string "a.c"])).result = .ok document ∧
      ("t", target) ∈ document.targets ∧
      Payload.decoder.fromValue (listedTwicePayload [.string "a.c"]) = .ok payload ∧
      payload.targets.lookup "t" = some written ∧
      target.FlagsGenerated written ∧ target.isGenerated (.ofString "a.c") = true := by
  obtain ⟨document, target, hload, htarget⟩ : ∃ document target,
      (Given.asValue (listedTwicePayload [.string "a.c"])).document.result = .ok document ∧
        ("t", target) ∈ document.targets := ⟨_, _, rfl, List.mem_singleton_self _⟩
  obtain ⟨payload, written, hpayload, hwritten, -, -, -, hall⟩ :=
    flagsGenerated_iff hload htarget
  obtain rfl := Except.ok.inj (hpayload.symm.trans rfl)
  obtain rfl := Option.some.inj (hwritten.symm.trans rfl)
  have hflags : target.FlagsGenerated _ := hall.2 fun file htwice => by
    obtain ⟨⟨language, hfile⟩, -⟩ := htwice
    cases language with
    | c => exact ⟨.extra, hfile⟩
    | cxx => exact absurd hfile List.not_mem_nil
  exact ⟨document, target, _, _, hload, htarget, hpayload, hwritten, hflags,
    (hflags.isGenerated_iff _).2 ⟨"a.c", rfl, .inr ⟨.extra, List.mem_singleton_self _⟩⟩⟩

/-- A file that is an object file twice goes without its flag. -/
theorem not_flagsGenerated_listedTwice :
    ∃ document target payload written,
      (ofValue (listedTwicePayload [])).result = .ok document ∧
      ("t", target) ∈ document.targets ∧
      Payload.decoder.fromValue (listedTwicePayload []) = .ok payload ∧
      payload.targets.lookup "t" = some written ∧
      ¬target.FlagsGenerated written := by
  refine ⟨_, _, _, _, rfl, List.mem_singleton_self _, rfl, rfl, fun hflags => ?_⟩
  have hflagged := (hflags.isGenerated_iff (.ofString "a.c")).2
    ⟨"a.c", rfl, .inl ⟨.c, List.mem_singleton_self _⟩⟩
  obtain ⟨file, -, hmem⟩ := Target.isGenerated_iff_mem.1 hflagged
  exact List.not_mem_nil hmem

end Document

end BuildFacts
