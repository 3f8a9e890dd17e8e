import BuildFacts.Proofs.Outcome
import BuildFacts.Resolve

/-!
# Answers to questions about a file

Every question starts with the language of the file in the target.  It has three
outcomes: there is no such target, the target does not compile the file, or it
compiles it in a language (`CompilesAs`).  In the first two cases every question
fails as the language does.  In the third one the lemmas here say what each
question answers.
-/

namespace BuildFacts.Document

variable {document : Document} {key : String} {file : Path} {target : Target} {language : Language}

/-! ## Languages -/

/-- The target with a key compiles a file in a language. -/
def CompilesAs (document : Document) (key : String) (file : Path) (language : Language) : Prop :=
  ∃ target, document.targets.lookup key = some target ∧ target.languageOf? file = some language

theorem requireLanguage_eq_ok_iff :
    document.requireLanguage key file = .ok language ↔ document.CompilesAs key file language := by
  unfold requireLanguage languageOf CompilesAs Document.target
  cases hlookup : document.targets.lookup key with
  | none => simp [bind, Except.bind]
  | some target =>
    cases hlanguage : target.languageOf? file with
    | none => simp [hlanguage, bind, Except.bind, pure, Except.pure, throw, throwThe,
        MonadExceptOf.throw]
    | some found => simp [hlanguage, bind, Except.bind, pure, Except.pure]

theorem CompilesAs.unique {other : Language} (h : document.CompilesAs key file language)
    (h' : document.CompilesAs key file other) : language = other := by
  have heq := requireLanguage_eq_ok_iff.2 h
  rw [requireLanguage_eq_ok_iff.2 h'] at heq
  exact (Except.ok.inj heq).symm

/-- A file that a target does not compile has no language there. -/
theorem requireLanguage_of_not_compilesAs (h : ∀ language, ¬document.CompilesAs key file language) :
    document.requireLanguage key file =
      .error (if (document.targets.lookup key).isSome then .noLanguage key file
        else .noTarget key) := by
  unfold requireLanguage languageOf Document.target
  cases hlookup : document.targets.lookup key with
  | none => rfl
  | some target =>
    cases hlanguage : target.languageOf? file with
    | none => simp [hlanguage, bind, Except.bind, pure, Except.pure, throw, throwThe,
        MonadExceptOf.throw]
    | some found => exact absurd ⟨target, hlookup, hlanguage⟩ (h found)

/-! ## Compilers -/

theorem compilerField_of_compilesAs (field : Compiler → Option String)
    (h : document.CompilesAs key file language) :
    document.compilerField field key file =
      match field (document.compilers.get language) with
      | some text => .ok text
      | none => .error (.noCompiler language) := by
  unfold compilerField
  rw [requireLanguage_eq_ok_iff.2 h]
  cases hfield : field (document.compilers.get language) with
  | none => simp [hfield, bind, Except.bind, throw, throwThe, MonadExceptOf.throw]
  | some text => simp [hfield, bind, Except.bind, pure, Except.pure]

/-! ## Properties and arguments -/

/-- The words of a property for a file that a target compiles. -/
def wordsFor (document : Document) (target : Target) (language : Language) (file : Path)
    (property : Property) : List String :=
  (target.properties.get property).forLanguage language ++ document.addedWords file property

/-- The arguments for a file that a target compiles. -/
def argumentsFor (document : Document) (target : Target) (language : Language) (file : Path) :
    List String :=
  flagged "-D" (document.wordsFor target language file .definitions) ++
    flagged "-I" (document.wordsFor target language file .includes) ++
    document.wordsFor target language file .options

theorem result_property (htarget : document.targets.lookup key = some target)
    (hlanguage : target.languageOf? file = some language) (property : Property) :
    (document.property key file property).result =
      .ok (document.wordsFor target language file property) := by
  have hrequire := requireLanguage_eq_ok_iff.2 ⟨target, htarget, hlanguage⟩
  have hfound : document.target key = .ok target := by
    rw [Document.target, htarget]
  simp only [Document.property, Traced.result_bind, Traced.result_ofExcept, hrequire, hfound]
  rfl

theorem result_arguments (htarget : document.targets.lookup key = some target)
    (hlanguage : target.languageOf? file = some language) :
    (document.arguments key file).result =
      .ok (document.argumentsFor target language file) := by
  simp only [arguments, definitions, includes, options, Traced.result_bind,
    result_property htarget hlanguage]
  rfl

/-! ## Commands -/

/-- The command for a file that a target compiles with a compiler. -/
def commandFor (document : Document) (target : Target) (language : Language) (compiler : String)
    (file directory : Path) : CompileCommand where
  directory := directory
  file := file
  command := none
  arguments :=
    some (compiler :: document.argumentsFor target language file ++ ["-c", file.display])
  output := none

theorem result_command (htarget : document.targets.lookup key = some target)
    (hlanguage : target.languageOf? file = some language) (directory : Path) :
    (document.command key file directory).result =
      match (document.compilers.get language).path with
      | some compiler => .ok (document.commandFor target language compiler file directory)
      | none => .error (.noCompiler language) := by
  have hcompiler := compilerField_of_compilesAs Compiler.path ⟨target, htarget, hlanguage⟩
  simp only [command, compiler, Traced.result_bind, Traced.result_ofExcept, hcompiler,
    result_arguments htarget hlanguage]
  cases (document.compilers.get language).path <;> rfl

/-- A command that cannot be made for want of a language fails as the language does. -/
theorem result_command_of_not_compilesAs
    (h : ∀ language, ¬document.CompilesAs key file language) (directory : Path) :
    (document.command key file directory).result =
      .error (if (document.targets.lookup key).isSome then .noLanguage key file
        else .noTarget key) := by
  simp only [command, compiler, compilerField, Traced.result_bind, Traced.result_ofExcept,
    requireLanguage_of_not_compilesAs h]
  rfl

theorem result_command_eq_ok_iff {directory : Path} {made : CompileCommand} :
    (document.command key file directory).result = .ok made ↔
      ∃ target language compiler, document.targets.lookup key = some target ∧
        target.languageOf? file = some language ∧
        (document.compilers.get language).path = some compiler ∧
        made = document.commandFor target language compiler file directory := by
  by_cases h : ∃ language, document.CompilesAs key file language
  · obtain ⟨language, target, htarget, hlanguage⟩ := h
    rw [result_command htarget hlanguage]
    constructor
    · intro hmade
      split at hmade
      · rename_i compiler hcompiler
        exact ⟨target, language, compiler, htarget, hlanguage, hcompiler,
          (Except.ok.inj hmade).symm⟩
      · simp at hmade
    · rintro ⟨target', language', compiler, htarget', hlanguage', hcompiler, rfl⟩
      obtain rfl := Option.some.inj (htarget.symm.trans htarget')
      obtain rfl := Option.some.inj (hlanguage.symm.trans hlanguage')
      rw [hcompiler]
  · rw [result_command_of_not_compilesAs (not_exists.1 h)]
    constructor
    · simp
    · intro ⟨target, language, _, htarget, hlanguage, _⟩
      exact absurd ⟨language, target, htarget, hlanguage⟩ h

theorem result_command_eq_noCompiler_iff {directory : Path} :
    (document.command key file directory).result = .error (.noCompiler language) ↔
      document.CompilesAs key file language ∧ (document.compilers.get language).path = none := by
  by_cases h : ∃ language, document.CompilesAs key file language
  · obtain ⟨found, target, htarget, hlanguage⟩ := h
    rw [result_command htarget hlanguage]
    constructor
    · intro herror
      split at herror
      · simp at herror
      · rename_i hnone
        obtain rfl : found = language := by simpa using herror
        exact ⟨⟨target, htarget, hlanguage⟩, hnone⟩
    · intro ⟨hcompiles, hnone⟩
      obtain rfl := CompilesAs.unique ⟨target, htarget, hlanguage⟩ hcompiles
      rw [hnone]
  · rw [result_command_of_not_compilesAs (not_exists.1 h)]
    constructor
    · intro herror
      split at herror <;> simp at herror
    · intro ⟨hcompiles, _⟩
      exact absurd ⟨language, hcompiles⟩ h

end BuildFacts.Document
