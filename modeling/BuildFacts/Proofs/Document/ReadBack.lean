import BuildFacts.Proofs.Document.Files
import BuildFacts.Proofs.Document.Queries
import BuildFacts.Proofs.Flag.Scan

/-!
# Flags read back from a command

A command is written with a flag in front of each definition and each include
directory, and `CompileCommand.defines` and `CompileCommand.includes` read flags
off its arguments.  `Document.flags_read_back` says that the reading undoes the
writing: each of these arguments reports what it was written for and nothing
else, and the options and the file behind them are read as if they stood alone.
-/

namespace BuildFacts

/-- Where every place has a value, the values are those. -/
theorem reduceOption_map_some {α : Type} (items : List α) :
    (items.map some).reduceOption = items := by
  simp [List.reduceOption]

/-! ## Arguments that are written -/

namespace Flag

/-- An argument that starts with no flag for a definition or an include directory. -/
def Plain (argument : String) : Prop :=
  ∀ flag ∈ definitionFlags ++ includeFlags, ¬flag.toList <+: argument.toList

instance (argument : String) : Decidable (Plain argument) :=
  inferInstanceAs (Decidable (∀ flag ∈ definitionFlags ++ includeFlags, _))

theorem Plain.read_definitionFlags {argument : String} (h : Plain argument) :
    read definitionFlags argument = .other :=
  read_eq_other_iff.2 fun flag hflag => h flag (List.mem_append_left _ hflag)

theorem Plain.read_includeFlags {argument : String} (h : Plain argument) :
    read includeFlags argument = .other :=
  read_eq_other_iff.2 fun flag hflag => h flag (List.mem_append_right _ hflag)

theorem plain_c : Plain "-c" := by
  decide

end Flag

namespace Document

open BuildFacts.Flag

/-- The words that are not empty. -/
def present (words : List String) : List String :=
  words.filter fun word => !word.isEmpty

theorem flagged_eq (flag : String) (words : List String) :
    flagged flag words = (present words).map (flag ++ ·) :=
  rfl

/-- Each word behind the first of some flags is reported. -/
theorem reports_flagged_self (flag : String) (more words : List String) :
    Reports (flag :: more) (flagged flag words) ((present words).map some) := by
  have hread : ∀ word ∈ present words, read (flag :: more) (flag ++ word) = .value word.toList := by
    intro word hword
    refine read_append more ?_
    simpa using (List.mem_filter.1 hword).2
  rw [flagged_eq]
  refine .of_map ?_ ?_
  · intro word hword
    rw [hread word hword, Reading.isBare]
  · intro word hword
    rw [hread word hword, Reading.value?, String.ofList_toList]

/-- Behind a flag of the other kind no word is reported. -/
theorem reports_flagged_other {flags : List String} {flag : String} (words : List String)
    (h : ∀ word, read flags (flag ++ word) = .other) :
    Reports flags (flagged flag words) ((present words).map fun _ => none) := by
  rw [flagged_eq]
  exact .of_forall_other fun word _ => h word

theorem read_definitionFlags_include (word : String) :
    read definitionFlags ("-I" ++ word) = .other := by
  rw [read_eq_other_iff]
  simp [definitionFlags]

theorem read_includeFlags_definition (word : String) :
    read includeFlags ("-D" ++ word) = .other := by
  rw [read_eq_other_iff]
  simp [includeFlags]

theorem reports_command {flags definitions includes : List String} {compiler : String}
    {foundDefinitions foundIncludes : List (Option String)}
    (hcompiler : read flags compiler = .other)
    (hdefinitions : Reports flags (flagged "-D" definitions) foundDefinitions)
    (hincludes : Reports flags (flagged "-I" includes) foundIncludes) :
    Reports flags (compiler :: flagged "-D" definitions ++ flagged "-I" includes)
      (none :: foundDefinitions ++ foundIncludes) := by
  have hbare : (read flags compiler).isBare = false := by
    rw [hcompiler, Reading.isBare]
  have hall := Reports.cons hbare (hdefinitions.append hincludes)
  rwa [hcompiler] at hall

/-- A command for a file that is written `text` reads back: each flag reports the word that it
was written for where it stands, and the options and the file are read as if they stood
alone. -/
structure ReadsBack (made : CompileCommand) (definitions includes options : List String)
    (text : String) : Prop where
  definesInPlace : reported definitionFlags false made.args =
    none :: (present definitions).map some ++ (present includes).map (fun _ => none) ++
      reported definitionFlags false (options ++ ["-c", text])
  includesInPlace : reported includeFlags false made.args =
    none :: (present definitions).map (fun _ => none) ++ (present includes).map some ++
      reported includeFlags false (options ++ ["-c", text])
  defines_eq : made.defines =
    present definitions ++ values definitionFlags (options ++ ["-c", text])
  includes_eq : made.includes =
    present includes ++ values includeFlags (options ++ ["-c", text])
  eq_present : (∀ argument ∈ text :: options, Plain argument) →
    made.defines = present definitions ∧ made.includes = present includes

section Command

variable {compiler : String} (hplain : Plain compiler) (definitions includes : List String)

include hplain

/-- In front of the options, only the definitions are reported as definitions. -/
theorem reports_command_definitionFlags :
    Reports definitionFlags (compiler :: flagged "-D" definitions ++ flagged "-I" includes)
      (none :: (present definitions).map some ++ (present includes).map fun _ => none) :=
  reports_command hplain.read_definitionFlags (reports_flagged_self "-D" [] definitions)
    (reports_flagged_other includes read_definitionFlags_include)

/-- In front of the options, only the include directories are reported as such. -/
theorem reports_command_includeFlags :
    Reports includeFlags (compiler :: flagged "-D" definitions ++ flagged "-I" includes)
      (none :: (present definitions).map (fun _ => none) ++ (present includes).map some) :=
  reports_command hplain.read_includeFlags
    (reports_flagged_other definitions read_includeFlags_definition)
    (reports_flagged_self "-I" ["-isystem"] includes)

end Command

theorem forall_plain_tail {options : List String} {text : String}
    (h : ∀ argument ∈ text :: options, Plain argument) :
    ∀ argument ∈ options ++ ["-c", text], Plain argument := by
  intro argument hargument
  simp only [List.mem_append, List.mem_cons, List.not_mem_nil, or_false] at hargument
  rcases hargument with hoption | rfl | rfl
  · exact h argument (List.mem_cons_of_mem text hoption)
  · exact plain_c
  · exact h argument List.mem_cons_self

theorem readsBack_of_args {made : CompileCommand} {compiler text : String}
    {definitions includes options : List String}
    (hargs : made.args =
      compiler :: flagged "-D" definitions ++ flagged "-I" includes ++ (options ++ ["-c", text]))
    (hplain : Plain compiler) : ReadsBack made definitions includes options text := by
  have hforDefinitions := reports_command_definitionFlags hplain definitions includes
  have hforIncludes := reports_command_includeFlags hplain definitions includes
  have hdefines : made.defines =
      present definitions ++ values definitionFlags (options ++ ["-c", text]) := by
    rw [CompileCommand.defines, hargs, hforDefinitions.values_append]
    simp [List.reduceOption_append, reduceOption_map_some]
  have hincludes : made.includes =
      present includes ++ values includeFlags (options ++ ["-c", text]) := by
    rw [CompileCommand.includes, hargs, hforIncludes.values_append]
    simp [List.reduceOption_append, reduceOption_map_some]
  refine ⟨?_, ?_, hdefines, hincludes, ?_⟩
  · rw [hargs, hforDefinitions.reported_append]
  · rw [hargs, hforIncludes.reported_append]
  · intro htail
    have hall := forall_plain_tail htail
    constructor
    · rw [hdefines, values_eq_nil fun argument hargument =>
        (hall argument hargument).read_definitionFlags, List.append_nil]
    · rw [hincludes, values_eq_nil fun argument hargument =>
        (hall argument hargument).read_includeFlags, List.append_nil]

variable {document : Document} {key compiler : String} {file directory : Path}
  {made : CompileCommand}

/-- The command for a file reads back, whatever words the document holds, if its compiler does not
look like a flag. -/
theorem flags_read_back (hmade : (document.command key file directory).result = .ok made)
    (hcompiler : document.compiler key file = .ok compiler) (hplain : Plain compiler) :
    ∃ text definitions includes options, file = .ofString text ∧
      (document.definitions key file).result = .ok definitions ∧
      (document.includes key file).result = .ok includes ∧
      (document.options key file).result = .ok options ∧
      ReadsBack made definitions includes options text := by
  obtain ⟨target, language, path, htarget, hlanguage, hpath, rfl⟩ :=
    result_command_eq_ok_iff.1 hmade
  obtain ⟨text, rfl, _⟩ := Target.languageOf?_eq_some_iff.1 hlanguage
  have hproperty := result_property htarget hlanguage
  refine ⟨text, _, _, _, rfl, hproperty .definitions, hproperty .includes, hproperty .options, ?_⟩
  obtain rfl : path = compiler := by
    have hfield := compilerField_of_compilesAs Compiler.path ⟨target, htarget, hlanguage⟩
    rw [hpath] at hfield
    exact Except.ok.inj (hfield.symm.trans hcompiler)
  refine readsBack_of_args ?_ hplain
  simp [CompileCommand.args, commandFor, argumentsFor, Path.display_ofString]

/-- A payload with empty words, words that look like flags, an option that is a flag alone,
and a file that starts with a flag. -/
def flagLikePayload : Json.Value :=
  .object
    [("c_compiler", .string "cc"),
      ("targets", .object
        [("t", .object
          [("object_sources_c", .array [.string "-Ix.c"]),
            ("compile_definitions", .array
              [.string "", .string "-I", .string "KEEP", .string "KEEP"]),
            ("include_directories", .array [.string "-D", .string ""]),
            ("compile_options", .string "-D")])])]

theorem flags_read_back_flagLikePayload :
    ∃ document made, (ofValue flagLikePayload).result = .ok document ∧
      (document.command "t" (.ofString "-Ix.c") (.ofString "/b")).result = .ok made ∧
      document.compiler "t" (.ofString "-Ix.c") = .ok "cc" ∧ Plain "cc" ∧
      made.defines = ["-I", "KEEP", "KEEP", "-c"] ∧ made.includes = ["-D", "x.c"] := by
  obtain ⟨document, target, hload, htarget, hclass, hpath, hdefinitions, hincludes, hoptions⟩ :
      ∃ document target, (ofValue flagLikePayload).result = .ok document ∧
        document.targets.lookup "t" = some target ∧
        target.classification.lookup "-Ix.c" = some .c ∧
        document.compilers.c.path = some "cc" ∧
        document.wordsFor target .c (.ofString "-Ix.c") .definitions = ["", "-I", "KEEP", "KEEP"] ∧
        document.wordsFor target .c (.ofString "-Ix.c") .includes = ["-D", ""] ∧
        document.wordsFor target .c (.ofString "-Ix.c") .options = ["-D"] :=
    ⟨_, _, rfl, rfl, rfl, rfl, by decide +kernel, by decide +kernel, by decide +kernel⟩
  have hlanguage : target.languageOf? (.ofString "-Ix.c") = some .c :=
    Target.languageOf?_eq_some_iff.2 ⟨"-Ix.c", rfl, hclass⟩
  have hmade := result_command htarget hlanguage (.ofString "/b")
  have hcompiler := compilerField_of_compilesAs Compiler.path ⟨target, htarget, hlanguage⟩
  have hproperty := result_property htarget hlanguage
  simp only [ByLanguage.get, hpath] at hmade hcompiler
  have hplain : Plain "cc" := by decide
  obtain ⟨text, definitions, includes, options, htext, hd, hi, ho, hreads⟩ :=
    flags_read_back hmade hcompiler hplain
  obtain rfl := Path.ofString_injective htext
  obtain rfl := Except.ok.inj ((hproperty .definitions).symm.trans hd)
  obtain rfl := Except.ok.inj ((hproperty .includes).symm.trans hi)
  obtain rfl := Except.ok.inj ((hproperty .options).symm.trans ho)
  refine ⟨document, _, hload, hmade, hcompiler, hplain, ?_, ?_⟩
  · rw [hreads.defines_eq, hdefinitions, hoptions]
    decide
  · rw [hreads.includes_eq, hincludes, hoptions]
    decide

end Document

end BuildFacts
