import BuildFacts.CompileDatabase
import BuildFacts.Proofs.Document.Loaded
import BuildFacts.Proofs.Document.Queries

/-!
# The database of a document

A database has a command for each `Job`: each file of each target, with the key
under which the document holds the target.  `result_ofDocument` says how the
commands are made: job by job, and each by asking for the target by its name.

The key and the name of a target may differ.  `ExportsByKey` says that the
database is right all the same, and `exportsByKey_iff` says when it is.  It is
where they do not differ (`exportsByKey_of_name_eq_key`).
-/

namespace BuildFacts

/-! ## Runs over lists -/

namespace Traced

variable {α β : Type}

/-- The result of a run over a list is the run of the results. -/
theorem result_mapM (f : α → Traced β) (items : List α) :
    (items.mapM f).result = items.mapM fun a => (f a).result := by
  suffices h : ∀ done : List β, (List.mapM.loop f items done).result =
      List.mapM.loop (fun a => (f a).result) items done from h []
  induction items with
  | nil => exact fun _ => rfl
  | cons a rest ih =>
    intro done
    rw [List.mapM.loop, result_bind, List.mapM.loop]
    congr 1
    funext b
    exact ih (b :: done)

end Traced

/-- Lists of results put behind each other are the results of the lists put
behind each other. -/
theorem flatten_mapM {ε α β γ : Type} (parts : α → List β) (f : β → Except ε γ) (items : List α) :
    List.flatten <$> (items.mapM fun a => (parts a).mapM f) = (items.flatMap parts).mapM f := by
  induction items with
  | nil => rfl
  | cons a rest ih =>
    rw [List.mapM_cons, List.flatMap_cons, List.mapM_append, ← ih]
    cases (parts a).mapM f with
    | error e => rfl
    | ok bs => cases rest.mapM fun a => (parts a).mapM f <;> rfl

namespace CompileDatabase

open Json

variable {document : Document} {directory : Path}

/-! ## Jobs -/

/-- A file that a target compiles, and the key under which the target is held. -/
structure Job where
  key : String
  target : Target
  file : Path
  language : Language

/-- The jobs of a document: targets in order, and the files of each in order. -/
def jobs (document : Document) : List Job :=
  document.targets.flatMap fun entry =>
    entry.2.files.map fun file => ⟨entry.1, entry.2, file.1, file.2⟩

/-- The command for a job, where the target is asked for by its name. -/
def commandByName (document : Document) (directory : Path) (job : Job) :
    Except Error CompileCommand :=
  (document.command job.target.name job.file directory).result

/-- The command for a job, where the target is asked for by its key. -/
def commandByKey (document : Document) (directory : Path) (job : Job) :
    Except Error CompileCommand :=
  (document.command job.key job.file directory).result

/-- The commands of a database are those for the jobs, by name. -/
theorem result_ofDocument :
    (ofDocument document directory).result =
      (fun commands => ⟨commands⟩) <$> (jobs document).mapM (commandByName document directory) := by
  have hjobs : (jobs document).mapM (commandByName document directory) =
      List.flatten <$> (document.targets.mapM fun entry =>
        (commandsOf document directory entry.2).result) := by
    rw [jobs, ← flatten_mapM]
    congr 2
    funext entry
    rw [commandsOf, Traced.result_mapM, List.mapM_map]
    rfl
  simp only [ofDocument, Traced.result_bind, Traced.result_mapM, hjobs]
  cases document.targets.mapM fun entry => (commandsOf document directory entry.2).result <;> rfl

theorem result_ofDocument_eq_ok_iff {database : CompileDatabase} :
    (ofDocument document directory).result = .ok database ↔
      List.Forall₂ (fun job made => commandByName document directory job = .ok made)
        (jobs document) database.commands := by
  rw [result_ofDocument, map_eq_ok_iff, ← mapM_eq_ok_iff]
  constructor
  · rintro ⟨commands, hcommands, rfl⟩
    exact hcommands
  · intro h
    exact ⟨database.commands, h, rfl⟩

theorem result_ofDocument_eq_error_iff {error : Error} :
    (ofDocument document directory).result = .error error ↔
      ∃ before job after, jobs document = before ++ job :: after ∧
        (∀ earlier ∈ before, ∃ made, commandByName document directory earlier = .ok made) ∧
        commandByName document directory job = .error error := by
  rw [result_ofDocument, ← mapM_eq_error_iff]
  cases (jobs document).mapM (commandByName document directory) <;> simp [Functor.map, Except.map]

/-- The target of a job is held under the key of the job and compiles its file. -/
theorem lookup_of_mem_jobs (h : document.Loaded) {job : Job} (hjob : job ∈ jobs document) :
    document.targets.lookup job.key = some job.target ∧
      job.target.languageOf? job.file = some job.language := by
  obtain ⟨⟨key, target⟩, hentry, hjob⟩ := List.mem_flatMap.1 hjob
  obtain ⟨file, hfile, rfl⟩ := List.mem_map.1 hjob
  obtain ⟨⟨text, language⟩, htext, rfl⟩ := List.mem_map.1 hfile
  refine ⟨(Table.lookup_eq_some_iff_mem h.nodup_keys).2 hentry, ?_⟩
  rw [Target.languageOf?, Path.text?_ofString, Option.bind_some]
  exact (Table.lookup_eq_some_iff_mem (h.nodup_classification hentry)).2 htext

/-- The command for the key of a job is made exactly if its language has a compiler. -/
theorem commandByKey_of_mem_jobs (h : document.Loaded) {job : Job} (hjob : job ∈ jobs document) :
    commandByKey document directory job =
      match (document.compilers.get job.language).path with
      | some compiler =>
        .ok (document.commandFor job.target job.language compiler job.file directory)
      | none => .error (.noCompiler job.language) := by
  obtain ⟨htarget, hlanguage⟩ := lookup_of_mem_jobs h hjob
  exact Document.result_command htarget hlanguage directory

/-! ## Names and keys -/

/-- Every language that a job is in has a compiler. -/
def Configured (document : Document) : Prop :=
  ∀ job ∈ jobs document, (document.compilers.get job.language).path.isSome

/-- The database of a document is right: it is made exactly where every language in
use has a compiler, it fails for want of a compiler otherwise, and it holds for
each job the command for the key of the job. -/
structure ExportsByKey (document : Document) (directory : Path) : Prop where
  succeeds : (∃ database, (ofDocument document directory).result = .ok database) ↔
    Configured document
  fails : ¬Configured document →
    ∃ language, (ofDocument document directory).result = .error (.noCompiler language)
  commands : ∀ database, (ofDocument document directory).result = .ok database →
    List.Forall₂ (fun job made => commandByKey document directory job = .ok made)
      (jobs document) database.commands

/-- The target that is held under the name of the target of a job compiles the file
of the job as this target does: with the same compiler and the same arguments. -/
def NameLeadsBack (document : Document) (job : Job) : Prop :=
  ∃ other language, document.targets.lookup job.target.name = some other ∧
    other.languageOf? job.file = some language ∧
    (document.compilers.get language).path = (document.compilers.get job.language).path ∧
    document.argumentsFor other language job.file =
      document.argumentsFor job.target job.language job.file

/-- The target under the name of the target of a job compiles the file of the job in
a language that has a compiler, or in one that has none. -/
def CompiledByName (document : Document) (job : Job) (hasCompiler : Bool) : Prop :=
  ∃ language, document.CompilesAs job.target.name job.file language ∧
    (document.compilers.get language).path.isSome = hasCompiler

theorem exists_commandByName_iff {job : Job} :
    (∃ made, commandByName document directory job = .ok made) ↔
      CompiledByName document job true := by
  simp only [commandByName, Document.result_command_eq_ok_iff, CompiledByName,
    Option.isSome_iff_exists]
  constructor
  · intro ⟨made, other, language, compiler, hother, hlanguage, hcompiler, _⟩
    exact ⟨language, ⟨other, hother, hlanguage⟩, compiler, hcompiler⟩
  · intro ⟨language, ⟨other, hother, hlanguage⟩, compiler, hcompiler⟩
    exact ⟨_, other, language, compiler, hother, hlanguage, hcompiler, rfl⟩

theorem exists_noCompilerByName_iff {job : Job} :
    (∃ language, commandByName document directory job = .error (.noCompiler language)) ↔
      CompiledByName document job false := by
  simp only [commandByName, Document.result_command_eq_noCompiler_iff, CompiledByName,
    Option.isSome_eq_false_iff, Option.isNone_iff_eq_none]

/-- Where the language of a job has a compiler, its command by name and its command by
key are made and the same exactly if its name leads back. -/
theorem nameLeadsBack_iff (h : document.Loaded) {job : Job} (hjob : job ∈ jobs document)
    (hcompiler : (document.compilers.get job.language).path.isSome) :
    NameLeadsBack document job ↔
      ∃ made, commandByName document directory job = .ok made ∧
        commandByKey document directory job = .ok made := by
  obtain ⟨compiler, hcompiler⟩ := Option.isSome_iff_exists.1 hcompiler
  have hkey : commandByKey document directory job =
      .ok (document.commandFor job.target job.language compiler job.file directory) := by
    rw [commandByKey_of_mem_jobs h hjob, hcompiler]
  constructor
  · intro ⟨other, language, hother, hfound, hpath, harguments⟩
    refine ⟨_, Document.result_command_eq_ok_iff.2
      ⟨other, language, compiler, hother, hfound, hpath.trans hcompiler, rfl⟩, ?_⟩
    rw [hkey]
    simp [Document.commandFor, harguments]
  · intro ⟨made, hname, hmade⟩
    obtain ⟨other, language, compiler', hother, hfound, hcompiler', rfl⟩ :=
      Document.result_command_eq_ok_iff.1 hname
    have hsame := Except.ok.inj (hmade.symm.trans hkey)
    simp only [Document.commandFor, CompileCommand.mk.injEq, Option.some.injEq, List.cons_append,
      List.cons.injEq, List.append_cancel_right_eq, true_and, and_true] at hsame
    exact ⟨other, language, hother, hfound, by rw [hcompiler', hcompiler, hsame.1], hsame.2⟩

/-- A database is made exactly if the name of each job leads to a compiler. -/
theorem exists_result_ofDocument_iff :
    (∃ database, (ofDocument document directory).result = .ok database) ↔
      ∀ job ∈ jobs document, CompiledByName document job true := by
  constructor
  · intro ⟨database, hdatabase⟩ job hjob
    have hmade := exists_forall₂_iff.1 ⟨_, result_ofDocument_eq_ok_iff.1 hdatabase⟩ job hjob
    exact exists_commandByName_iff.1 hmade
  · intro hall
    obtain ⟨commands, hcommands⟩ := exists_forall₂_iff.2 fun job hjob =>
      exists_commandByName_iff.2 (hall job hjob)
    exact ⟨⟨commands⟩, result_ofDocument_eq_ok_iff.2 hcommands⟩

theorem exists_noCompiler_ofDocument_iff :
    (∃ language, (ofDocument document directory).result = .error (.noCompiler language)) ↔
      ∃ before job after, jobs document = before ++ job :: after ∧
        (∀ earlier ∈ before, CompiledByName document earlier true) ∧
        CompiledByName document job false := by
  simp only [result_ofDocument_eq_error_iff, ← @exists_commandByName_iff document directory,
    ← @exists_noCompilerByName_iff document directory]
  constructor
  · intro ⟨language, before, job, after, hjobs, hbefore, hjob⟩
    exact ⟨before, job, after, hjobs, hbefore, language, hjob⟩
  · intro ⟨before, job, after, hjobs, hbefore, language, hjob⟩
    exact ⟨language, before, job, after, hjobs, hbefore, hjob⟩

theorem exportsByKey_iff_of_configured (h : document.Loaded) (hconfigured : Configured document) :
    ExportsByKey document directory ↔ ∀ job ∈ jobs document, NameLeadsBack document job := by
  constructor
  · intro hexports job hjob
    obtain ⟨database, hdatabase⟩ := hexports.succeeds.2 hconfigured
    -- Both notions of a command give this database, so they agree job by job.
    have hboth := (result_ofDocument_eq_ok_iff.1 hdatabase).mp
      (fun _ _ hname hkey => And.intro hname hkey) (hexports.commands database hdatabase)
    exact (nameLeadsBack_iff h hjob (hconfigured job hjob)).2
      (exists_forall₂_iff.1 ⟨_, hboth⟩ job hjob)
  · intro hnames
    have hboth : ∀ job ∈ jobs document, ∃ made, commandByName document directory job = .ok made ∧
        commandByKey document directory job = .ok made := fun job hjob =>
      (nameLeadsBack_iff h hjob (hconfigured job hjob)).1 (hnames job hjob)
    refine ⟨iff_of_true ?_ hconfigured, absurd hconfigured, ?_⟩
    · rw [exists_result_ofDocument_iff]
      intro job hjob
      obtain ⟨made, hname, _⟩ := hboth job hjob
      exact exists_commandByName_iff.1 ⟨made, hname⟩
    · intro database hdatabase
      refine List.Forall₂.imp ?_
        ((List.forall₂_and_left _ _).2 ⟨hboth, result_ofDocument_eq_ok_iff.1 hdatabase⟩)
      rintro job made ⟨⟨made', hname', hkey⟩, hname⟩
      obtain rfl := Except.ok.inj (hname'.symm.trans hname)
      exact hkey

theorem exportsByKey_iff_of_not_configured (hconfigured : ¬Configured document) :
    ExportsByKey document directory ↔
      ∃ language, (ofDocument document directory).result = .error (.noCompiler language) := by
  constructor
  · intro hexports
    exact hexports.fails hconfigured
  · intro ⟨language, herror⟩
    refine ⟨iff_of_false ?_ hconfigured, fun _ => ⟨language, herror⟩, ?_⟩
    · intro ⟨database, hdatabase⟩
      simp [herror] at hdatabase
    · intro database hdatabase
      simp [herror] at hdatabase

/-- Where each target goes by its key, the database is right. -/
theorem exportsByKey_of_name_eq_key (h : document.Loaded)
    (hnames : ∀ entry ∈ document.targets, entry.2.name = entry.1) :
    ExportsByKey document directory := by
  have hname : ∀ job ∈ jobs document, job.target.name = job.key := fun job hjob =>
    hnames _ (Table.mem_of_lookup (lookup_of_mem_jobs h hjob).1)
  have hcommand : ∀ job ∈ jobs document, commandByName document directory job =
      commandByKey document directory job := by
    intro job hjob
    rw [commandByName, hname job hjob, commandByKey]
  by_cases hconfigured : Configured document
  · rw [exportsByKey_iff_of_configured h hconfigured]
    intro job hjob
    obtain ⟨htarget, hlanguage⟩ := lookup_of_mem_jobs h hjob
    exact ⟨job.target, job.language, hname job hjob ▸ htarget, hlanguage, rfl, rfl⟩
  · rw [exportsByKey_iff_of_not_configured hconfigured]
    cases hresult : (ofDocument document directory).result with
    | ok database =>
      refine absurd (fun job hjob => ?_) hconfigured
      obtain ⟨made, hmade⟩ :=
        exists_forall₂_iff.1 ⟨_, result_ofDocument_eq_ok_iff.1 hresult⟩ job hjob
      rw [hcommand job hjob, commandByKey_of_mem_jobs h hjob] at hmade
      split at hmade
      · simp [*]
      · simp at hmade
    | error error =>
      obtain ⟨before, job, after, hjobs, _, hfails⟩ := result_ofDocument_eq_error_iff.1 hresult
      have hjob : job ∈ jobs document := by simp [hjobs]
      rw [hcommand job hjob, commandByKey_of_mem_jobs h hjob] at hfails
      split at hfails
      · simp at hfails
      · obtain rfl := Except.error.inj hfails
        exact ⟨job.language, rfl⟩

/-- The database of a document is right exactly in two cases.  Where every language in
use has a compiler, the names must lead back.  Where one has none, the first
file that cannot be compiled by name must be one that is compiled, without a
compiler. -/
theorem exportsByKey_iff (h : document.Loaded) :
    ExportsByKey document directory ↔
      (Configured document → ∀ job ∈ jobs document, NameLeadsBack document job) ∧
      (¬Configured document → ∃ before job after, jobs document = before ++ job :: after ∧
        (∀ earlier ∈ before, CompiledByName document earlier true) ∧
        CompiledByName document job false) := by
  by_cases hconfigured : Configured document
  · rw [exportsByKey_iff_of_configured h hconfigured]
    exact ⟨fun hnames => ⟨fun _ => hnames, absurd hconfigured⟩, fun hboth => hboth.1 hconfigured⟩
  · rw [exportsByKey_iff_of_not_configured hconfigured, exists_noCompiler_ofDocument_iff]
    exact ⟨fun hfirst => ⟨fun h => absurd h hconfigured, fun _ => hfirst⟩,
      fun hboth => hboth.2 hconfigured⟩

/-- A payload with two targets that compile the same file, each with a definition.
The first one goes by the key of the second one. -/
def namesakePayload (first second : String) : Value :=
  .object
    [("c_compiler", .string "cc"),
      ("targets", .object
        [("a", .object
          [("name", .string "b"), ("object_sources_c", .array [.string "x.c"]),
            ("compile_definitions", .array [.string first])]),
          ("b", .object
          [("object_sources_c", .array [.string "x.c"]),
            ("compile_definitions", .array [.string second])])])]

/-- A target by the name of `b` with a file in C and a definition. -/
def namesake (definition : String) : Target where
  name := "b"
  kind := none
  backtrace := []
  targetFile := none
  linkerFile := none
  sonameFile := none
  classification := [("x.c", .c)]
  generated := []
  headers := []
  extra := []
  excluded := []
  properties := ⟨⟨some [definition], ⟨none, none⟩⟩, ⟨none, ⟨none, none⟩⟩, ⟨none, ⟨none, none⟩⟩⟩

def namesakes (first second : String) : Document where
  sourceDir := none
  generator := none
  platform := none
  compilers := ⟨⟨some "cc", none, none⟩, ⟨none, none, none⟩⟩
  targets := [("a", namesake first), ("b", namesake second)]
  sources := []

theorem ofValue_namesakePayload (first second : String) :
    (Document.ofValue (namesakePayload first second)).result = .ok (namesakes first second) :=
  rfl

theorem jobs_namesakes (first second : String) : jobs (namesakes first second) =
    [⟨"a", namesake first, .ofString "x.c", .c⟩, ⟨"b", namesake second, .ofString "x.c", .c⟩] :=
  rfl

theorem configured_namesakes (first second : String) : Configured (namesakes first second) := by
  simp only [Configured, jobs_namesakes, List.forall_mem_cons]
  exact ⟨rfl, rfl, List.forall_mem_nil _⟩

theorem languageOf?_namesake (definition : String) :
    (namesake definition).languageOf? (.ofString "x.c") = some .c := by
  rw [Target.languageOf?, Path.text?_ofString]
  rfl

theorem not_exportsByKey_namesakePayload :
    ∃ document, (Document.ofValue (namesakePayload "A" "B")).result = .ok document ∧
      ¬ExportsByKey document (.ofString "/b") := by
  refine ⟨_, ofValue_namesakePayload "A" "B", fun hexports => ?_⟩
  rw [exportsByKey_iff_of_configured (.ofValue (ofValue_namesakePayload "A" "B"))
    (configured_namesakes "A" "B")] at hexports
  obtain ⟨other, language, hother, hlanguage, _, harguments⟩ :=
    hexports ⟨"a", namesake "A", .ofString "x.c", .c⟩ (by simp [jobs_namesakes])
  obtain rfl : namesake "B" = other := Option.some.inj hother
  obtain rfl := Option.some.inj ((languageOf?_namesake "B").symm.trans hlanguage)
  exact absurd harguments (by decide)

theorem exportsByKey_namesakePayload :
    ∃ document, (Document.ofValue (namesakePayload "A" "A")).result = .ok document ∧
      ExportsByKey document (.ofString "/b") := by
  refine ⟨_, ofValue_namesakePayload "A" "A", ?_⟩
  refine (exportsByKey_iff (.ofValue (ofValue_namesakePayload "A" "A"))).2
    ⟨fun _ => ?_, fun h => absurd (configured_namesakes "A" "A") h⟩
  simp only [jobs_namesakes, List.forall_mem_cons]
  have hback (key : String) : NameLeadsBack (namesakes "A" "A")
      ⟨key, namesake "A", .ofString "x.c", .c⟩ :=
    ⟨namesake "A", .c, rfl, languageOf?_namesake "A", rfl, rfl⟩
  exact ⟨hback "a", hback "b", List.forall_mem_nil _⟩

end CompileDatabase

end BuildFacts
