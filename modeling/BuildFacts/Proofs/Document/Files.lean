import Mathlib.Data.List.Nodup
import BuildFacts.Proofs.Document.Given
import BuildFacts.Proofs.Path
import BuildFacts.Proofs.Payload.Written

/-!
# The compiled files of a loaded target

A payload lists the files of a target under four keys, and `Json.Value.compiledFiles` reads the
four lists off the value.  `Target.Compiles` says what a target makes of them.

`Document.targets_compile_as_listed` is the result.  A target that lists a file under both languages
keeps the payload from loading; a file that is listed again under the same language does not.
In a loaded document the files of a target are those that are listed, each of them once, and
nothing else about a path decides on its language.
-/

namespace BuildFacts

open Json

/-! ## Targets -/

/-- A target compiles the files that are listed: in that order, each of them once and in the
language that it is listed with. -/
structure Target.Compiles (target : Target) (listed : List (String × Language)) : Prop where
  files : target.files = listed.eraseDups.map fun entry => (.ofString entry.1, entry.2)
  nodup_files : (target.files.map Prod.fst).Nodup
  languageOf : ∀ path language, target.languageOf? path = some language ↔
    ∃ text, path = .ofString text ∧ (text, language) ∈ listed

theorem Target.languageOf?_eq_some_iff {target : Target} {path : Path} {language : Language} :
    target.languageOf? path = some language ↔
      ∃ text, path = .ofString text ∧ target.classification.lookup text = some language := by
  simp only [languageOf?, Option.bind_eq_some_iff, Path.text?_eq_some_iff]

theorem WrittenTarget.compiles_of_resolve {key : String} {written : WrittenTarget} {target : Target}
    (h : written.resolve key = .ok target) : target.Compiles written.listed := by
  have hinv := (means_of_resolve h).classifies
  have horder : target.classification = written.listed.eraseDups := by
    obtain ⟨state, hstate, h⟩ := bind_eq_ok_iff.1 h
    obtain ⟨_, _, h⟩ := bind_eq_ok_iff.1 h
    obtain ⟨_, _, h⟩ := bind_eq_ok_iff.1 h
    obtain ⟨_, _, h⟩ := bind_eq_ok_iff.1 h
    obtain rfl := Except.ok.inj h
    exact Classification.ofTarget_eraseDups (mapError_eq_ok_iff.1 hstate)
  constructor
  · rw [Target.files, horder]
  · have hfiles : target.files.map Prod.fst = target.classification.keys.map Path.ofString := by
      simp [Target.files, Table.keys]
    rw [hfiles]
    exact List.Nodup.map Path.ofString_injective hinv.nodup_keys
  · intro path language
    simp only [Target.languageOf?_eq_some_iff, hinv.lookup]

/-! ## Documents -/

namespace Document

variable {given : Given} {payload : Payload} {value : Value}

/-- The files of a target are those that are written under its key. -/
theorem Given.listed_written (h : given.payload = .ok payload) (hvalue : given.Writes value)
    (hkeys : value.KeysDistinct) (key : String) :
    (value.targetAt? key).map Value.compiledFiles =
      (payload.targets.lookup key).map WrittenTarget.listed := by
  have hpayload := fromValue_of_writes h hvalue
  ext files
  simp only [Option.map_eq_some_iff, Payload.lookup_targets_iff hkeys hpayload]
  constructor
  · rintro ⟨part, hpart, rfl⟩
    obtain ⟨target, htarget, _⟩ := Payload.target_of_written hkeys hpayload hpart
    exact ⟨target, ⟨part, hpart, htarget⟩,
      (WrittenTarget.listed_written (hkeys.targetAt hpart) htarget).symm⟩
  · rintro ⟨target, ⟨part, hpart, htarget⟩, rfl⟩
    exact ⟨part, hpart, WrittenTarget.listed_written (hkeys.targetAt hpart) htarget⟩

/-- The files of a payload that can be decoded, and the targets of its document.

* If a target lists a file under both languages, loading fails with a mismatch.
* If loading fails, then for a mismatch that has its cause in the payload: a file under both
  languages, or words that do not split.  A file listed twice under one language is no such
  cause.
* A target of the document compiles the files that the payload lists for it.
* These are the ones that stand in the four lists of the target, in whichever way the payload
  was given. -/
theorem targets_compile_as_listed (h : given.payload = .ok payload) :
    (∀ key target file, payload.targets.lookup key = some target →
      (file, Language.c) ∈ target.listed → (file, Language.cxx) ∈ target.listed →
        ∃ pointer cause, given.document.result = .error (.mismatch pointer cause)) ∧
    (∀ error, given.document.result = .error error → payload.Flaw error) ∧
    (∀ document, given.document.result = .ok document → ∀ key target,
      (key, target) ∈ document.targets →
        ∃ written, payload.targets.lookup key = some written ∧ target.Compiles written.listed) ∧
    ∀ value, given.Writes value → value.KeysDistinct → ∀ key,
      (payload.targets.lookup key).map WrittenTarget.listed =
        (value.targetAt? key).map Value.compiledFiles := by
  rw [given.result_eq_of_payload h]
  refine ⟨?_, fun error => flaw_of_ofPayload, ?_, ?_⟩
  · intro key target file hlookup hc hcxx
    cases hresult : ofPayload payload with
    | ok document =>
      have hflaw := Payload.Flaw.conflict (Table.mem_of_lookup hlookup) (by decide) hc hcxx
      exact absurd hflaw (exists_ofPayload_iff.1 ⟨document, hresult⟩ _)
    | error error =>
      obtain ⟨pointer, cause, rfl⟩ := (flaw_of_ofPayload hresult).exists_mismatch
      exact ⟨pointer, cause, rfl⟩
  · intro document hdocument key target hmem
    obtain ⟨written, hwritten, hresolve⟩ :=
      (means_of_ofPayload hdocument).targets.exists_of_mem hmem
    exact ⟨written, (Table.lookup_eq_some_iff_mem (Given.nodup_keys h).1).2 hwritten,
      WrittenTarget.compiles_of_resolve hresolve⟩
  · intro value hvalue hkeys key
    exact (Given.listed_written h hvalue hkeys key).symm

/-- A text with a target that lists files more than once. -/
def repeatedFilesText : String :=
  "\x7b\"targets\": \x7b\"t\": \x7b\"object_sources_c\": [\"b.cxx\", \"a\", \"b.cxx\"], " ++
    "\"object_sources_cxx\": [\"./a\"], \"generated_object_sources_c\": [\"a\", \"g\"], " ++
    "\"header_sources\": [\"h\"]\x7d\x7d\x7d"

theorem targets_compile_as_listed_repeatedFiles :
    (∃ document target, (ofText repeatedFilesText).result = .ok document ∧
      ("t", target) ∈ document.targets ∧
      target.files = [(.ofString "b.cxx", .c), (.ofString "a", .c), (.ofString "./a", .cxx),
        (.ofString "g", .c)] ∧
      target.languageOf? (.ofString "h") = none) ∧
    ∃ pointer cause, (ofText conflictingText).result = .error (.mismatch pointer cause) := by
  constructor
  · obtain ⟨payload, hpayload, hlisted⟩ : ∃ payload,
        (Given.inText repeatedFilesText).payload = .ok payload ∧
          (payload.targets.lookup "t").map WrittenTarget.listed =
            some [("b.cxx", .c), ("a", .c), ("b.cxx", .c), ("./a", .cxx), ("a", .c), ("g", .c)] :=
      map_toOption_eq_some_iff.1 (by decide +kernel)
    obtain ⟨document, hdocument, hkeys⟩ : ∃ document,
        (Given.inText repeatedFilesText).document.result = .ok document ∧
          document.targets.keys = ["t"] :=
      map_toOption_eq_some_iff.1 (by decide +kernel)
    obtain ⟨target, hmem⟩ := Table.mem_keys.1 (hkeys ▸ List.mem_singleton_self "t")
    obtain ⟨written, hwritten, hcompiles⟩ :=
      (targets_compile_as_listed hpayload).2.2.1 document hdocument "t" target hmem
    rw [hwritten, Option.map_some, Option.some.injEq] at hlisted
    rw [hlisted] at hcompiles
    refine ⟨document, target, hdocument, hmem, hcompiles.files, ?_⟩
    rw [Option.eq_none_iff_forall_ne_some]
    intro language hlanguage
    obtain ⟨text, hpath, hmem⟩ := (hcompiles.languageOf _ _).1 hlanguage
    rw [← Path.ofString_injective hpath] at hmem
    simp at hmem
  · obtain ⟨payload, hpayload, hlisted⟩ : ∃ payload,
        (Given.inText conflictingText).payload = .ok payload ∧
          (payload.targets.lookup "t").map WrittenTarget.listed = some [("a", .c), ("a", .cxx)] :=
      map_toOption_eq_some_iff.1 (by decide +kernel)
    obtain ⟨target, hlookup, hlist⟩ := Option.map_eq_some_iff.1 hlisted
    exact (targets_compile_as_listed hpayload).1 "t" target "a" hlookup (by simp [hlist])
      (by simp [hlist])

end Document

end BuildFacts
