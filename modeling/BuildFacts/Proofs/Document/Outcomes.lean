import BuildFacts.Proofs.Document.Files
import BuildFacts.Proofs.Document.Queries

/-!
# How questions about a file end

Every question about a file falls into one of three cases, and all questions about it fall into
the same one.  The target does not exist; or it does not list the file; or it lists the file
under a language.  `Document.questions_end` says how the questions end in each case, in terms
of the payload that the document was loaded from.

Only in the last case does a question have an answer, and even then it may have none: the
payload need not tell everything of the compiler.
-/

namespace BuildFacts

open Json

/-! ## Questions and answers -/

/-- A question about a file as a target compiles it.  Definitions, include directories and
options are asked for as the words of a property. -/
inductive Question where
  | language
  | compiler
  | compilerId
  | compilerVersion
  | words (property : Property)
  | arguments
  | command (directory : Path)
  deriving DecidableEq

/-- How a question ends, without what it answers. -/
def Question.outcome (document : Document) (key : String) (file : Path) :
    Question → Except Error Unit
  | .language => (fun _ => ()) <$> document.languageOf key file
  | .compiler => (fun _ => ()) <$> document.compiler key file
  | .compilerId => (fun _ => ()) <$> document.compilerId key file
  | .compilerVersion => (fun _ => ()) <$> document.compilerVersion key file
  | .words property => (fun _ => ()) <$> (document.property key file property).result
  | .arguments => (fun _ => ()) <$> (document.arguments key file).result
  | .command directory => (fun _ => ()) <$> (document.command key file directory).result

/-- The answer to a question about the compiler of a language, from what is known of it. -/
def Language.compilerAnswer (language : Language) : Option String → Except Error String
  | some text => .ok text
  | none => .error (.noCompiler language)

/-- The answers to questions about a file that a target compiles in a language, with what is
known of the compiler of that language. -/
structure Document.Answers (document : Document) (key file : String) (language : Language)
    (known : Compiler) : Prop where
  languageOf : document.languageOf key (.ofString file) = .ok (some language)
  compiler : document.compiler key (.ofString file) = language.compilerAnswer known.path
  compilerId : document.compilerId key (.ofString file) = language.compilerAnswer known.id
  compilerVersion :
    document.compilerVersion key (.ofString file) = language.compilerAnswer known.version
  words : ∀ property, ∃ words,
    (document.property key (.ofString file) property).result = .ok words
  arguments : ∃ words, (document.arguments key (.ofString file)).result = .ok words ∧
    ∀ directory, (document.command key (.ofString file) directory).result =
      (fun path => {
        directory := directory
        file := .ofString file
        command := none
        arguments := some (path :: words ++ ["-c", file])
        output := none }) <$> language.compilerAnswer known.path

namespace Document

variable {document : Document} {key : String} {file : Path} {target : Target} {language : Language}

/-! ## The three cases -/

/-- Every question but the one for the language needs a language, and fails without one. -/
theorem outcome_of_requireLanguage {question : Question} {error : Error}
    (h : document.requireLanguage key file = .error error) (hquestion : question ≠ .language) :
    question.outcome document key file = .error error := by
  have hfield (field : Compiler → Option String) :
      document.compilerField field key file = .error error := by
    rw [compilerField, h]
    rfl
  have hwords (property : Property) :
      (document.property key file property).result = .error error := by
    simp only [Document.property, Traced.result_bind, Traced.result_ofExcept, h]
    rfl
  cases question with
  | language => exact absurd rfl hquestion
  | compiler | compilerId | compilerVersion => exact map_eq_error_iff.2 (hfield _)
  | words property => exact map_eq_error_iff.2 (hwords property)
  | arguments =>
    refine map_eq_error_iff.2 ?_
    simp only [arguments, definitions, Traced.result_bind, hwords]
    rfl
  | command directory =>
    refine map_eq_error_iff.2 ?_
    simp only [command, compiler, Traced.result_bind, Traced.result_ofExcept, hfield]
    rfl

theorem outcome_of_noTarget (h : document.targets.lookup key = none) (question : Question) :
    question.outcome document key file = .error (.noTarget key) := by
  by_cases hquestion : question = .language
  · subst hquestion
    simp only [Question.outcome, languageOf, Document.target, h]
    rfl
  · have hnone (language : Language) : ¬document.CompilesAs key file language := by
      rintro ⟨_, htarget, _⟩
      simp [h] at htarget
    refine outcome_of_requireLanguage ?_ hquestion
    rw [requireLanguage_of_not_compilesAs hnone, h]
    rfl

theorem languageOf_eq (h : document.targets.lookup key = some target) :
    document.languageOf key file = .ok (target.languageOf? file) := by
  rw [languageOf, Document.target, h]
  rfl

theorem outcome_of_noLanguage (htarget : document.targets.lookup key = some target)
    (hlanguage : target.languageOf? file = none) {question : Question}
    (hquestion : question ≠ .language) :
    question.outcome document key file = .error (.noLanguage key file) := by
  refine outcome_of_requireLanguage ?_ hquestion
  rw [requireLanguage_of_not_compilesAs, htarget]
  · rfl
  · intro language ⟨found, hfound, hcompiles⟩
    obtain rfl := Option.some.inj (htarget.symm.trans hfound)
    simp [hlanguage] at hcompiles

theorem answers_of_compiles {text : String} (htarget : document.targets.lookup key = some target)
    (hlanguage : target.languageOf? (.ofString text) = some language) :
    document.Answers key text language (document.compilers.get language) := by
  have hfield (field : Compiler → Option String) : document.compilerField field key (.ofString text)
      = language.compilerAnswer (field (document.compilers.get language)) := by
    rw [compilerField_of_compilesAs field ⟨target, htarget, hlanguage⟩]
    cases field (document.compilers.get language) <;> rfl
  constructor
  · rw [languageOf_eq htarget, hlanguage]
  · exact hfield Compiler.path
  · exact hfield Compiler.id
  · exact hfield Compiler.version
  · exact fun property => ⟨_, result_property htarget hlanguage property⟩
  · refine ⟨_, result_arguments htarget hlanguage, fun directory => ?_⟩
    rw [result_command htarget hlanguage]
    cases hpath : (document.compilers.get language).path with
    | none => rfl
    | some path =>
      simp only [commandFor, Path.display_ofString]
      rfl

theorem compilerAnswer_outcome (language : Language) (known : Option String) :
    (fun _ => ()) <$> language.compilerAnswer known = .ok () ∨
      (fun _ => ()) <$> language.compilerAnswer known = .error (.noCompiler language) := by
  cases known with
  | none => exact .inr rfl
  | some text => exact .inl rfl

/-- A question about a file that is compiled is answered, or nothing is known of its compiler. -/
theorem Answers.outcome {text : String} {known : Compiler}
    (h : document.Answers key text language known) (question : Question) :
    question.outcome document key (.ofString text) = .ok () ∨
      question.outcome document key (.ofString text) = .error (.noCompiler language) := by
  cases question with
  | language => exact .inl (by rw [Question.outcome, h.languageOf]; rfl)
  | compiler => rw [Question.outcome, h.compiler]; exact compilerAnswer_outcome _ _
  | compilerId => rw [Question.outcome, h.compilerId]; exact compilerAnswer_outcome _ _
  | compilerVersion => rw [Question.outcome, h.compilerVersion]; exact compilerAnswer_outcome _ _
  | words property =>
    obtain ⟨words, hwords⟩ := h.words property
    exact .inl (by rw [Question.outcome, hwords]; rfl)
  | arguments =>
    obtain ⟨words, hwords, _⟩ := h.arguments
    exact .inl (by rw [Question.outcome, hwords]; rfl)
  | command directory =>
    obtain ⟨words, _, hcommand⟩ := h.arguments
    rw [Question.outcome, hcommand]
    cases known.path with
    | none => exact .inr rfl
    | some path => exact .inl rfl

/-- All questions fail for want of the target together. -/
theorem outcome_eq_noTarget_iff {question : Question} :
    question.outcome document key file = .error (.noTarget key) ↔
      key ∉ document.targets.keys := by
  rw [← Table.lookup_eq_none_iff_notMem]
  refine ⟨fun houtcome => ?_, fun hnone => outcome_of_noTarget hnone question⟩
  cases htarget : document.targets.lookup key with
  | none => rfl
  | some target =>
    cases hlanguage : target.languageOf? file with
    | none =>
      by_cases hquestion : question = .language
      · subst hquestion
        simp [Question.outcome, languageOf_eq htarget, Functor.map, Except.map] at houtcome
      · simp [outcome_of_noLanguage htarget hlanguage hquestion] at houtcome
    | some language =>
      obtain ⟨text, rfl, _⟩ := Target.languageOf?_eq_some_iff.1 hlanguage
      rcases (answers_of_compiles htarget hlanguage).outcome question with hok | hnoCompiler
      · simp [hok] at houtcome
      · simp [hnoCompiler] at houtcome

/-! ## Loaded documents -/

/-- How the questions about a file end in a document that was loaded from a payload.

* They all fail for want of the target exactly if its key is not among those of the payload.
* If the target does not list the file, the answer to the question for the language is that there
  is none, and all other questions fail for want of a language.
* If the target lists the file under a language, the questions have their answers: the words and
  arguments always, and what the payload tells of the compiler of this language.
* The files of the target and the compilers are those that are written, in whichever way the
  payload was given. -/
theorem questions_end {given : Given} {payload : Payload} (h : given.payload = .ok payload)
    (hdocument : given.document.result = .ok document) (key : String) (file : Path) :
    (∀ question : Question,
      question.outcome document key file = .error (.noTarget key) ↔ key ∉ payload.targets.keys) ∧
    (∀ written, payload.targets.lookup key = some written →
      ((∀ text language, file = .ofString text → (text, language) ∉ written.listed) →
        document.languageOf key file = .ok none ∧
        ∀ question : Question, question ≠ .language →
          question.outcome document key file = .error (.noLanguage key file)) ∧
      ∀ text language, file = .ofString text → (text, language) ∈ written.listed →
        document.Answers key text language (payload.compilers.get language)) ∧
    ∀ value, given.Writes value → value.KeysDistinct →
      (payload.targets.lookup key).map WrittenTarget.listed =
        (value.targetAt? key).map Json.Value.compiledFiles ∧
      ∀ language, payload.compilers.get language = value.compilerFor language := by
  rw [given.result_eq_of_payload h] at hdocument
  have hmeans := means_of_ofPayload hdocument
  have hcompiles {written : WrittenTarget} (hwritten : payload.targets.lookup key = some written) :
      ∃ target, document.targets.lookup key = some target ∧ target.Compiles written.listed := by
    obtain ⟨target, hresolve, htarget⟩ := hmeans.targets.lookup hwritten
    exact ⟨target, htarget, WrittenTarget.compiles_of_resolve hresolve⟩
  refine ⟨fun question => ?_, fun written hwritten => ⟨fun hunlisted => ?_, ?_⟩, ?_⟩
  · rw [outcome_eq_noTarget_iff, hmeans.targets.keys_eq]
  · obtain ⟨target, htarget, hlisted⟩ := hcompiles hwritten
    have hlanguage : target.languageOf? file = none := by
      rw [Option.eq_none_iff_forall_ne_some]
      intro language hlanguage
      obtain ⟨text, hfile, hmem⟩ := (hlisted.languageOf _ _).1 hlanguage
      exact hunlisted text language hfile hmem
    exact ⟨by rw [languageOf_eq htarget, hlanguage],
      fun question => outcome_of_noLanguage htarget hlanguage⟩
  · rintro text language rfl hmem
    obtain ⟨target, htarget, hlisted⟩ := hcompiles hwritten
    rw [← hmeans.compilers]
    exact answers_of_compiles htarget ((hlisted.languageOf _ _).2 ⟨text, rfl, hmem⟩)
  · intro value hvalue hkeys
    exact ⟨(Given.listed_written h hvalue hkeys key).symm, fun language =>
      (Payload.compiler_written hkeys (Given.fromValue_of_writes h hvalue) language).symm⟩

/-- A text with a target that has another name than its key, and with a compiler that has a path
for one language and only an identity for the other. -/
def partialCompilersText : String :=
  "\x7b\"c_compiler\": \"cc\", \"cxx_compiler_id\": \"GNU\", \"targets\": \x7b\"t\": \x7b" ++
    "\"name\": \"n\", \"object_sources_c\": [\"a\"], \"object_sources_cxx\": [\"b\"]\x7d\x7d\x7d"

theorem questions_end_partialCompilers :
    ∃ document, (ofText partialCompilersText).result = .ok document ∧
      (Question.compiler.outcome document "n" (.ofString "a") = .error (.noTarget "n")) ∧
      ((Question.command ⟨[]⟩).outcome document "t" ⟨[0xFF]⟩ = .error (.noLanguage "t" ⟨[0xFF]⟩)) ∧
      document.compiler "t" (.ofString "a") = .ok "cc" ∧
      document.compilerId "t" (.ofString "b") = .ok "GNU" ∧
      (document.command "t" (.ofString "b") ⟨[]⟩).result = .error (.noCompiler .cxx) := by
  obtain ⟨payload, hpayload, hparts⟩ : ∃ payload,
      (Given.inText partialCompilersText).payload = .ok payload ∧
        (payload.targets.keys, payload.compilers,
          (payload.targets.lookup "t").map WrittenTarget.listed) =
          (["t"], ⟨⟨some "cc", none, none⟩, ⟨none, some "GNU", none⟩⟩,
            some [("a", .c), ("b", .cxx)]) :=
    map_toOption_eq_some_iff.1 (by decide +kernel)
  obtain ⟨document, hdocument, _⟩ : ∃ document,
      (Given.inText partialCompilersText).document.result = .ok document ∧ () = () :=
    map_toOption_eq_some_iff.1 (by decide +kernel)
  simp only [Prod.mk.injEq] at hparts
  obtain ⟨hkeys, hcompilers, hlisted⟩ := hparts
  obtain ⟨written, hwritten, hfiles⟩ := Option.map_eq_some_iff.1 hlisted
  have hends (key : String) (file : Path) := questions_end hpayload hdocument key file
  have hanswers {text : String} {language : Language}
      (hmem : (text, language) ∈ [("a", Language.c), ("b", .cxx)]) :
      document.Answers "t" text language _ :=
    ((hends "t" (.ofString text)).2.1 written hwritten).2 text language rfl (hfiles ▸ hmem)
  have hunlisted : ∀ text language, (⟨[0xFF]⟩ : Path) = .ofString text →
      (text, language) ∉ written.listed := by
    intro text language hpath
    have hnone : (⟨[0xFF]⟩ : Path).text? = none := by decide +kernel
    exact absurd (hnone.symm.trans (Path.text?_eq_some_iff.2 hpath)) (by simp)
  have ha := hanswers (by simp : ("a", Language.c) ∈ _)
  have hb := hanswers (by simp : ("b", Language.cxx) ∈ _)
  rw [hcompilers] at ha hb
  refine ⟨document, hdocument, ?_, ?_, ha.compiler, hb.compilerId, ?_⟩
  · exact ((hends "n" _).1 _).2 (by simp [hkeys])
  · exact (((hends "t" _).2.1 written hwritten).1 hunlisted).2 _ (by simp)
  · obtain ⟨words, _, hcommand⟩ := hb.arguments
    exact hcommand _

end Document

end BuildFacts
