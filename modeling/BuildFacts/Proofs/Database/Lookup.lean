import BuildFacts.Proofs.Database.Export
import BuildFacts.Proofs.Document.Files
import BuildFacts.Proofs.Path

/-!
# Looking a file up in a database

A database is asked for the first command whose file has the steps of a path, or
ends in them.  A document tells its files apart as they are written.  Where the
two views differ, a file may be answered with the command for another one.

`CompileDatabase.FindsFile` says that the database of a document answers a file
with the command of the first target that compiles it.  `findsFile_iff` says
when: none of the files before it ends in its steps.  Files that are all written
plainly are found (`findsFile_of_plain`).
-/

namespace BuildFacts.CompileDatabase

variable {document : Document} {directory file : Path} {database : CompileDatabase}

/-! ## Lookups -/

theorem names_iff {path : Path} {command : CompileCommand} :
    names path command ↔ path.components <:+ command.file.components := by
  rw [names, Bool.or_eq_true, Path.same_iff, Path.endsWith_iff]
  constructor
  · rintro (heq | hends)
    · exact heq ▸ List.suffix_rfl
    · exact hends
  · exact .inr

theorem find?_eq_of_findIndex? {index : Nat} (h : database.findIndex? file = some index) :
    database.find? file = database.commands[index]? := by
  rw [find?, List.find?_eq_bind_findIdx?_getElem?, ← findIndex?, h, Option.bind_some]

theorem file_of_commandByName {job : Job} {made : CompileCommand}
    (h : commandByName document directory job = .ok made) : made.file = job.file := by
  obtain ⟨_, _, _, _, _, _, rfl⟩ := Document.result_command_eq_ok_iff.1 h
  rfl

/-- The files of a database are those of the jobs. -/
theorem map_file_commands (h : (ofDocument document directory).result = .ok database) :
    database.commands.map (·.file) = (jobs document).map (·.file) := by
  have hfiles : List.Forall₂ (fun job made => made.file = job.file) (jobs document)
      database.commands :=
    (result_ofDocument_eq_ok_iff.1 h).imp fun _ _ => file_of_commandByName
  rw [← List.forall₂_eq_eq_eq, List.forall₂_map_left_iff, List.forall₂_map_right_iff]
  exact hfiles.flip

/-- A path is looked up among the files of the jobs. -/
theorem findIndex?_eq_findIdx?_jobs (h : (ofDocument document directory).result = .ok database) :
    database.findIndex? file =
      (jobs document).findIdx? fun job => decide (file.components <:+ job.file.components) := by
  have hnames : names file =
      (fun path : Path => decide (file.components <:+ path.components)) ∘ (·.file) := by
    funext command
    rw [Bool.eq_iff_iff, names_iff, Function.comp_apply, decide_eq_true_iff]
  rw [findIndex?, hnames, ← List.findIdx?_map, map_file_commands h, List.findIdx?_map]
  rfl

/-! ## The first job for a file -/

/-- The jobs that stand before the first one for a file. -/
def jobsBefore (document : Document) (file : Path) : List Job :=
  (jobs document).takeWhile fun job => job.file ≠ file

/-- The first job for a file.  It belongs to the first target that compiles the file. -/
structure FirstJob (document : Document) (file : Path) (job : Job) : Prop where
  jobs_eq : ∃ after, jobs document = jobsBefore document file ++ job :: after
  file_eq : job.file = file
  compiles : job.target.languageOf? file = some job.language
  target_first : ∃ earlier later, document.targets = earlier ++ (job.key, job.target) :: later ∧
    ∀ entry ∈ earlier, entry.2.languageOf? file = none

/-- The jobs of one target. -/
def jobsOf (entry : String × Target) : List Job :=
  entry.2.files.map fun file => ⟨entry.1, entry.2, file.1, file.2⟩

/-- A target that does not compile a file has no job for it. -/
theorem file_ne_of_mem_jobsOf (h : document.Loaded) {entry : String × Target}
    (hentry : entry ∈ document.targets) (hnone : entry.2.languageOf? file = none) {job : Job}
    (hjob : job ∈ jobsOf entry) : job.file ≠ file := by
  rintro rfl
  have hmem : job ∈ jobs document := List.mem_flatMap.2 ⟨entry, hentry, hjob⟩
  have hlanguage := (lookup_of_mem_jobs h hmem).2
  obtain ⟨_, _, rfl⟩ := List.mem_map.1 hjob
  rw [hnone] at hlanguage
  simp at hlanguage

/-- In the jobs of a target that compiles a file, there is a first one for the file. -/
theorem exists_jobsOf_eq {entry : String × Target} {language : Language}
    (hlanguage : entry.2.languageOf? file = some language) :
    ∃ above below, jobsOf entry = above ++ ⟨entry.1, entry.2, file, language⟩ :: below ∧
      ∀ job ∈ above, job.file ≠ file := by
  obtain ⟨text, rfl, htext⟩ := Target.languageOf?_eq_some_iff.1 hlanguage
  obtain ⟨above, below, hclassification, habove⟩ := List.lookup_eq_some_iff.1 htext
  have hjobs : jobsOf entry = entry.2.classification.map fun listed =>
      ⟨entry.1, entry.2, .ofString listed.1, listed.2⟩ := by
    rw [jobsOf, Target.files, List.map_map]
    rfl
  rw [hjobs, hclassification, List.map_append, List.map_cons]
  refine ⟨_, _, rfl, ?_⟩
  intro job hjob hfile
  obtain ⟨listed, hlisted, rfl⟩ := List.mem_map.1 hjob
  exact bne_iff_ne.1 (habove listed hlisted) (Path.ofString_injective hfile.symm)

theorem jobsBefore_eq {before after : List Job} {job : Job}
    (hjobs : jobs document = before ++ job :: after) (hfile : job.file = file)
    (hbefore : ∀ earlier ∈ before, earlier.file ≠ file) : jobsBefore document file = before := by
  rw [jobsBefore, hjobs, List.takeWhile_append_of_pos, List.takeWhile_cons_of_neg,
    List.append_nil]
  · simpa using hfile
  · intro earlier hearlier
    simpa using hbefore earlier hearlier

/-- Of the targets that compile a file, one is the first. -/
theorem exists_firstTarget {key : String} {language : Language}
    (hfile : document.CompilesAs key file language) :
    ∃ earlier entry later found, document.targets = earlier ++ entry :: later ∧
      entry.2.languageOf? file = some found ∧
      ∀ other ∈ earlier, other.2.languageOf? file = none := by
  obtain ⟨target, hlookup, hlanguage⟩ := hfile
  have hsome : (document.targets.find? fun entry => (entry.2.languageOf? file).isSome).isSome := by
    rw [List.find?_isSome]
    exact ⟨_, Table.mem_of_lookup hlookup, by rw [hlanguage, Option.isSome_some]⟩
  obtain ⟨entry, hfind⟩ := Option.isSome_iff_exists.1 hsome
  obtain ⟨hentry, earlier, later, htargets, hearlier⟩ := List.find?_eq_some_iff_append.1 hfind
  obtain ⟨found, hfound⟩ := Option.isSome_iff_exists.1 hentry
  refine ⟨earlier, entry, later, found, htargets, hfound, ?_⟩
  intro other hother
  simpa using hearlier other hother

theorem exists_firstJob (h : document.Loaded) {key : String} {language : Language}
    (hfile : document.CompilesAs key file language) :
    ∃ job, FirstJob document file job := by
  obtain ⟨earlier, entry, later, found, htargets, hfound, hnone⟩ := exists_firstTarget hfile
  obtain ⟨above, below, hjobs, habove⟩ := exists_jobsOf_eq hfound
  have hbefore : ∀ job ∈ earlier.flatMap jobsOf ++ above, job.file ≠ file := by
    intro job hjob
    rcases List.mem_append.1 hjob with hjob | hjob
    · obtain ⟨other, hother, hjob⟩ := List.mem_flatMap.1 hjob
      have hmem : other ∈ document.targets := by
        rw [htargets]
        exact List.mem_append_left _ hother
      exact file_ne_of_mem_jobsOf h hmem (hnone other hother) hjob
    · exact habove job hjob
  have hsplit : jobs document = (earlier.flatMap jobsOf ++ above) ++
      ⟨entry.1, entry.2, file, found⟩ :: (below ++ later.flatMap jobsOf) := by
    have hall : jobs document = document.targets.flatMap jobsOf := rfl
    rw [hall, htargets, List.flatMap_append, List.flatMap_cons, hjobs]
    simp only [List.append_assoc, List.cons_append]
  refine ⟨⟨entry.1, entry.2, file, found⟩, ⟨below ++ later.flatMap jobsOf, ?_⟩, rfl,
    hfound, earlier, later, htargets, hnone⟩
  rw [jobsBefore_eq hsplit rfl hbefore]
  exact hsplit

/-! ## Files that are found -/

/-- A database answers a file of its document with the command that was made for the first job
for this file. -/
def FindsFile (document : Document) (directory : Path) (database : CompileDatabase)
    (file : Path) : Prop :=
  ∃ job made, FirstJob document file job ∧
    commandByName document directory job = .ok made ∧ made.file = file ∧
    database.findIndex? file = some (jobsBefore document file).length ∧
    database.find? file = some made

/-- The lookup ends at the first job for a file exactly if no job before it has a file that ends in
its steps. -/
theorem FirstJob.findIndex?_eq_iff {job : Job} (hfirst : FirstJob document file job)
    (hdatabase : (ofDocument document directory).result = .ok database) :
    database.findIndex? file = some (jobsBefore document file).length ↔
      ∀ earlier ∈ jobsBefore document file, ¬file.components <:+ earlier.file.components := by
  obtain ⟨after, hjobs⟩ := hfirst.jobs_eq
  have hself : file.components <:+ job.file.components := hfirst.file_eq ▸ List.suffix_rfl
  rw [findIndex?_eq_findIdx?_jobs hdatabase, hjobs, List.findIdx?_append, List.findIdx?_cons,
    if_pos (decide_eq_true hself)]
  constructor
  · intro hindex earlier hearlier hends
    cases hbefore : (jobsBefore document file).findIdx? fun job =>
        decide (file.components <:+ job.file.components) with
    | none =>
      have hnot := List.findIdx?_eq_none_iff.1 hbefore earlier hearlier
      exact of_decide_eq_false hnot hends
    | some index =>
      obtain ⟨hlt, _⟩ := List.findIdx?_eq_some_iff_getElem.1 hbefore
      simp only [hbefore, Option.some_or, Option.some.injEq] at hindex
      omega
  · intro hbefore
    have hnone : ((jobsBefore document file).findIdx? fun job =>
        decide (file.components <:+ job.file.components)) = none := by
      rw [List.findIdx?_eq_none_iff]
      exact fun earlier hearlier => decide_eq_false (hbefore earlier hearlier)
    simp [hnone]

/-- The command that was made for a job stands where the job stands. -/
theorem exists_getElem?_eq_commandByName {before after : List Job} {job : Job}
    (hjobs : jobs document = before ++ job :: after)
    (hdatabase : (ofDocument document directory).result = .ok database) :
    ∃ made, commandByName document directory job = .ok made ∧
      database.commands[before.length]? = some made := by
  have hmade := List.forall₂_drop before.length (result_ofDocument_eq_ok_iff.1 hdatabase)
  rw [hjobs, List.drop_left, List.forall₂_cons_left_iff] at hmade
  obtain ⟨made, rest, hmade, -, hrest⟩ := hmade
  refine ⟨made, hmade, ?_⟩
  rw [← List.head?_drop, hrest, List.head?_cons]

/-- A file with a first job is found exactly if the lookup ends there. -/
theorem FirstJob.found_iff {job : Job} (hfirst : FirstJob document file job)
    (hdatabase : (ofDocument document directory).result = .ok database) :
    FindsFile document directory database file ↔
      ∀ earlier ∈ jobsBefore document file, ¬file.components <:+ earlier.file.components := by
  rw [← hfirst.findIndex?_eq_iff hdatabase]
  constructor
  · rintro ⟨_, _, -, -, -, hindex, -⟩
    exact hindex
  · intro hindex
    obtain ⟨after, hjobs⟩ := hfirst.jobs_eq
    obtain ⟨made, hmade, hplace⟩ := exists_getElem?_eq_commandByName hjobs hdatabase
    refine ⟨job, made, hfirst, hmade, ?_, hindex, ?_⟩
    · rw [file_of_commandByName hmade, hfirst.file_eq]
    · rw [find?_eq_of_findIndex? hindex, hplace]

theorem mem_jobs_of_mem_jobsBefore {job : Job} (hjob : job ∈ jobsBefore document file) :
    job ∈ jobs document ∧ job.file ≠ file := by
  refine ⟨(List.takeWhile_sublist _).subset hjob, ?_⟩
  simpa using List.all_eq_true.1 List.all_takeWhile job hjob

/-- Where all files are written plainly, each of them is found. -/
theorem findsFile_of_plain (h : document.Loaded)
    (hdatabase : (ofDocument document directory).result = .ok database)
    (hplain : ∀ job ∈ jobs document, job.file.Plain) {job : Job} (hjob : job ∈ jobs document) :
    FindsFile document directory database job.file := by
  obtain ⟨first, hfirst⟩ := exists_firstJob h ⟨job.target, lookup_of_mem_jobs h hjob⟩
  rw [hfirst.found_iff hdatabase]
  intro earlier hearlier hends
  obtain ⟨hmem, hne⟩ := mem_jobs_of_mem_jobsBefore hearlier
  exact hne ((hplain job hjob).eq_of_suffix (hplain earlier hmem) hends).symm

/-- A file that some target compiles is found exactly if no file before it ends in its steps. -/
theorem findsFile_iff (h : document.Loaded)
    (hdatabase : (ofDocument document directory).result = .ok database)
    (hfile : ∃ key language, document.CompilesAs key file language) :
    FindsFile document directory database file ↔
      ∀ earlier ∈ jobsBefore document file, ¬file.components <:+ earlier.file.components := by
  obtain ⟨key, language, hfile⟩ := hfile
  obtain ⟨job, hfirst⟩ := exists_firstJob h hfile
  exact hfirst.found_iff hdatabase

/-- A payload with a target that compiles two files. -/
def twoFilesPayload (first second : String) : Json.Value :=
  .object
    [("cxx_compiler", .string "c++"),
      ("targets", .object
        [("t", .object [("object_sources_cxx", .array [.string first, .string second])])])]

/-- What the document of a payload with two files is, as far as its database is concerned. -/
structure CompilesTwo (document : Document) (target : Target) (first second : String) : Prop where
  targets_eq : document.targets = [("t", target)]
  name_eq : target.name = "t"
  classification_eq : target.classification = [(first, .cxx), (second, .cxx)]
  compiler_eq : document.compilers.cxx.path = some "c++"

section CompilesTwo

variable {target : Target} {first second : String}

theorem CompilesTwo.jobs_eq (h : CompilesTwo document target first second) :
    jobs document =
      [⟨"t", target, .ofString first, .cxx⟩, ⟨"t", target, .ofString second, .cxx⟩] := by
  simp [jobs, h.targets_eq, Target.files, h.classification_eq]

theorem CompilesTwo.compilesAs (h : CompilesTwo document target first second) {text : String}
    (htext : text = first ∨ text = second) : document.CompilesAs "t" (.ofString text) .cxx := by
  refine ⟨target, by rw [h.targets_eq]; rfl, Target.languageOf?_eq_some_iff.2 ⟨text, rfl, ?_⟩⟩
  rw [h.classification_eq]
  rcases htext with rfl | rfl
  · exact List.lookup_cons_self
  · by_cases heq : text = first
    · rw [heq, List.lookup_cons_self]
    · rw [List.lookup_cons, beq_false_of_ne heq]
      exact List.lookup_cons_self

theorem CompilesTwo.exists_database (h : CompilesTwo document target first second)
    (directory : Path) : ∃ database, (ofDocument document directory).result = .ok database := by
  rw [exists_result_ofDocument_iff, h.jobs_eq]
  simp only [List.forall_mem_cons, CompiledByName, h.name_eq]
  have hcompiler : (document.compilers.get .cxx).path.isSome = true := by
    rw [ByLanguage.get, h.compiler_eq, Option.isSome_some]
  exact ⟨⟨.cxx, h.compilesAs (.inl rfl), hcompiler⟩, ⟨.cxx, h.compilesAs (.inr rfl), hcompiler⟩,
    List.forall_mem_nil _⟩

theorem CompilesTwo.jobsBefore_second (h : CompilesTwo document target first second)
    (hne : first ≠ second) :
    jobsBefore document (.ofString second) = [⟨"t", target, .ofString first, .cxx⟩] := by
  refine jobsBefore_eq h.jobs_eq rfl ?_
  simpa using fun heq => hne (Path.ofString_injective heq)

end CompilesTwo

theorem findsFile_twoFilesPayload :
    ∃ document database,
      (Document.ofValue (twoFilesPayload "a.c" "sub/a.c")).result = .ok document ∧
      (ofDocument document (.ofString "/b")).result = .ok database ∧
      FindsFile document (.ofString "/b") database (.ofString "sub/a.c") := by
  obtain ⟨document, target, hload, htwo⟩ : ∃ document target,
      (Document.ofValue (twoFilesPayload "a.c" "sub/a.c")).result = .ok document ∧
        CompilesTwo document target "a.c" "sub/a.c" := ⟨_, _, rfl, rfl, rfl, rfl, rfl⟩
  obtain ⟨database, hdatabase⟩ := htwo.exists_database (.ofString "/b")
  refine ⟨document, database, hload, hdatabase, ?_⟩
  rw [findsFile_iff (.ofValue hload) hdatabase ⟨"t", .cxx, htwo.compilesAs (.inr rfl)⟩,
    htwo.jobsBefore_second (by decide), List.forall_mem_singleton]
  have hends : ¬(Path.ofString "sub/a.c").components <:+ (Path.ofString "a.c").components := by
    decide +kernel
  exact hends

/-- The file `/p/a.cpp` is answered with the command for `/p//a.cpp`. -/
theorem not_findsFile_twoFilesPayload :
    ∃ document database,
      (Document.ofValue (twoFilesPayload "/p//a.cpp" "/p/a.cpp")).result = .ok document ∧
      (ofDocument document (.ofString "/b")).result = .ok database ∧
      (∃ key language, document.CompilesAs key (.ofString "/p/a.cpp") language) ∧
      ¬FindsFile document (.ofString "/b") database (.ofString "/p/a.cpp") := by
  obtain ⟨document, target, hload, htwo⟩ : ∃ document target,
      (Document.ofValue (twoFilesPayload "/p//a.cpp" "/p/a.cpp")).result = .ok document ∧
        CompilesTwo document target "/p//a.cpp" "/p/a.cpp" := ⟨_, _, rfl, rfl, rfl, rfl, rfl⟩
  obtain ⟨database, hdatabase⟩ := htwo.exists_database (.ofString "/b")
  have hfile := htwo.compilesAs (.inr rfl)
  refine ⟨document, database, hload, hdatabase, ⟨"t", .cxx, hfile⟩, ?_⟩
  obtain ⟨job, hfirst⟩ := exists_firstJob (.ofValue hload) hfile
  rw [hfirst.found_iff hdatabase, htwo.jobsBefore_second (by decide), List.forall_mem_singleton]
  have hends : (Path.ofString "/p/a.cpp").components <:+
      (Path.ofString "/p//a.cpp").components := by
    decide +kernel
  exact not_not_intro hends

end BuildFacts.CompileDatabase
