import BuildFacts.Proofs.Database.Lookup
import BuildFacts.Proofs.Document.FirstFlaw
import Mathlib.Data.List.Induction

/-!
# The entries of a database as the payload lists them

A payload lists object files under four keys of each target.  `Json.Value.targetFiles` are these
files with the keys of their targets: targets in order, and the files of each target list after
list, without repeats.

`CompileDatabase.jobs_as_listed` says that these are the jobs of the document, so nothing is lost
or made twice between the payload and the loop that builds the database.
`CompileDatabase.entries_as_listed` is the result: a database that is built has one entry for each
of these files and no others, and it is built only if each of its entries is.
-/

namespace BuildFacts

open Json

/-! ## Lists without repeats -/

section Repeats

variable {α β : Type} [BEq α] [LawfulBEq α] [BEq β] [LawfulBEq β] {items : List α}

theorem eraseDups_concat (items : List α) (item : α) :
    (items ++ [item]).eraseDups =
      if items.contains item then items.eraseDups else items.eraseDups ++ [item] := by
  rw [List.eraseDups_append]
  by_cases hitem : item ∈ items
  · simp [List.removeAll, hitem]
  · simp [List.removeAll, hitem, List.eraseDups_cons]

theorem nodup_eraseDups (items : List α) : items.eraseDups.Nodup := by
  induction items using List.reverseRecOn with
  | nil => exact List.nodup_nil
  | append_singleton items item ih =>
    rw [eraseDups_concat]
    by_cases hitem : item ∈ items
    · simpa [hitem] using ih
    · simp only [List.contains_iff_mem, hitem, if_false, List.nodup_append]
      refine ⟨ih, List.nodup_singleton item, ?_⟩
      intro other hother last hlast heq
      rw [heq, List.mem_singleton.1 hlast, List.mem_eraseDups] at hother
      exact hitem hother

/-- Where a function tells the items of a list apart, repeats may be left out before or after it
is applied. -/
theorem eraseDups_map {f : α → β} (h : ∀ a ∈ items, ∀ b ∈ items, f a = f b → a = b) :
    (items.map f).eraseDups = items.eraseDups.map f := by
  induction items using List.reverseRecOn with
  | nil => rfl
  | append_singleton items item ih =>
    have hbefore : ∀ a ∈ items, ∀ b ∈ items, f a = f b → a = b := fun a ha b hb =>
      h a (List.mem_append_left _ ha) b (List.mem_append_left _ hb)
    have hmem : f item ∈ items.map f ↔ item ∈ items := by
      constructor
      · intro hitem
        obtain ⟨other, hother, heq⟩ := List.mem_map.1 hitem
        have hsame := h other (List.mem_append_left _ hother) item (by simp) heq
        exact hsame ▸ hother
      · exact List.mem_map_of_mem
    rw [List.map_append, List.map_singleton, eraseDups_concat, eraseDups_concat, ih hbefore]
    by_cases hitem : item ∈ items
    · simp [hitem, hmem.2 hitem]
    · have hnew : f item ∉ items.map f := fun hmap => hitem (hmem.1 hmap)
      rw [← List.contains_iff_mem] at hitem hnew
      rw [if_neg hitem, if_neg hnew, List.map_append, List.map_singleton]

end Repeats

/-- A value stands in as many places as there are lists that hold it, where no list
holds it twice. -/
theorem count_flatMap_eq_countP {α β : Type} [DecidableEq β] {parts : α → List β} {b : β}
    {items : List α} (h : ∀ a ∈ items, (parts a).Nodup) :
    (items.flatMap parts).count b = items.countP fun a => b ∈ parts a := by
  induction items with
  | nil => rfl
  | cons a rest ih =>
    obtain ⟨hfirst, hrest⟩ := List.forall_mem_cons.1 h
    rw [List.flatMap_cons, List.count_append, List.countP_cons, ih hrest, hfirst.count,
      Nat.add_comm]
    simp only [decide_eq_true_eq]

/-! ## The files of a payload -/

namespace Json.Value

/-- The object files of a target, list after list and without repeats. -/
def objectFiles (target : Value) : List Path :=
  (target.filesAt "object_sources_c" ++ target.filesAt "object_sources_cxx" ++
    target.filesAt "generated_object_sources_c" ++
    target.filesAt "generated_object_sources_cxx").eraseDups.map .ofString

/-- The object files of a payload, each with the key of its target: targets in order, and the
files of each in order. -/
def targetFiles (payload : Value) : List (String × Path) :=
  (payload.entries "targets").flatMap fun entry => entry.2.objectFiles.map (entry.1, ·)

theorem map_fst_compiledFiles (target : Value) :
    target.compiledFiles.map Prod.fst = target.filesAt "object_sources_c" ++
      target.filesAt "object_sources_cxx" ++ target.filesAt "generated_object_sources_c" ++
      target.filesAt "generated_object_sources_cxx" := by
  simp [compiledFiles, Function.comp_def]

theorem mem_objectFiles_iff {target : Value} {file : Path} :
    file ∈ target.objectFiles ↔
      ∃ text, file = .ofString text ∧ ∃ language, (text, language) ∈ target.compiledFiles := by
  rw [objectFiles, ← map_fst_compiledFiles, List.mem_map]
  constructor
  · rintro ⟨text, htext, rfl⟩
    rw [List.mem_eraseDups] at htext
    obtain ⟨⟨_, language⟩, hmem, rfl⟩ := List.mem_map.1 htext
    exact ⟨_, rfl, language, hmem⟩
  · rintro ⟨text, rfl, language, hmem⟩
    exact ⟨text, List.mem_eraseDups.2 (List.mem_map.2 ⟨_, hmem, rfl⟩), rfl⟩

theorem nodup_objectFiles (target : Value) : target.objectFiles.Nodup :=
  (nodup_eraseDups _).map Path.ofString_injective

theorem mem_targetFiles_iff {payload : Value} (hkeys : payload.KeysDistinct) {key : String}
    {file : Path} : (key, file) ∈ payload.targetFiles ↔
      ∃ target, payload.entry? "targets" key = some target ∧ file ∈ target.objectFiles := by
  simp only [targetFiles, List.mem_flatMap, List.mem_map, Prod.mk.injEq]
  constructor
  · rintro ⟨⟨key, target⟩, hentry, _, hfile, rfl, rfl⟩
    exact ⟨target, (mem_entries_iff hkeys).1 hentry, hfile⟩
  · rintro ⟨target, hentry, hfile⟩
    exact ⟨(key, target), (mem_entries_iff hkeys).2 hentry, file, hfile, rfl, rfl⟩

theorem nodup_keys_entries {payload : Value} (hkeys : payload.KeysDistinct) (name : String) :
    (payload.entries name).keys.Nodup := by
  unfold entries
  cases htable : payload.member? name with
  | none => exact List.nodup_nil
  | some table =>
    cases hkeys.member htable with
    | object hnodup _ => exact hnodup
    | _ => exact List.nodup_nil

/-- No file stands twice under the key of one target. -/
theorem nodup_targetFiles {payload : Value} (hkeys : payload.KeysDistinct) :
    payload.targetFiles.Nodup := by
  refine List.nodup_flatMap.2 ⟨?_, ?_⟩
  · intro entry _
    exact (nodup_objectFiles entry.2).map (Prod.mk_right_injective entry.1)
  · have hdistinct := List.pairwise_map.1 (nodup_keys_entries hkeys "targets")
    refine hdistinct.imp ?_
    intro entry other hne
    show List.Disjoint _ _
    rw [List.disjoint_left]
    intro pair hpair hpair'
    obtain ⟨_, _, rfl⟩ := List.mem_map.1 hpair
    obtain ⟨_, _, heq⟩ := List.mem_map.1 hpair'
    exact hne (congrArg Prod.fst heq).symm

end Json.Value

/-! ## Loaded targets -/

/-- What two steps make of a table, one after the other. -/
theorem Table.Resolved.entrywise {ε ε' α β γ : Type} {step : String → α → Except ε β}
    {step' : String → β → Except ε' γ} {before : Table α} {middle : Table β} {after : Table γ}
    (h : Resolved step before middle) (h' : Resolved step' middle after) :
    Entrywise (fun key a c => ∃ b, step key a = .ok b ∧ step' key b = .ok c) before after := by
  induction h generalizing after with
  | nil =>
    cases h'
    exact .nil
  | cons hentry _ ih =>
    cases h' with
    | cons hentry' hrest' =>
      refine .cons ⟨hentry'.1.trans hentry.1, _, hentry.2, ?_⟩ (ih hrest')
      rw [← hentry.1]
      exact hentry'.2

/-- A target compiles its object files: those that are written, in order. -/
theorem WrittenTarget.map_fst_files {value : Value} {written : WrittenTarget} {key : String}
    {target : Target} (hkeys : value.KeysDistinct)
    (hvalue : record.decoder.fromValue value = .ok written)
    (htarget : written.resolve key = .ok target) :
    target.files.map Prod.fst = value.objectFiles := by
  have hcompiles := compiles_of_resolve htarget
  rw [← listed_written hkeys hvalue] at hcompiles
  -- A file under two languages would have kept the payload from loading.
  have honce : ∀ entry ∈ value.compiledFiles, ∀ other ∈ value.compiledFiles,
      entry.1 = other.1 → entry = other := by
    rintro ⟨text, language⟩ hentry ⟨_, language'⟩ hother rfl
    have hlanguage := (hcompiles.languageOf (.ofString text) language).2 ⟨text, rfl, hentry⟩
    have hlanguage' := (hcompiles.languageOf (.ofString text) language').2 ⟨text, rfl, hother⟩
    rw [Option.some.inj (hlanguage.symm.trans hlanguage')]
  rw [Value.objectFiles, ← Value.map_fst_compiledFiles, eraseDups_map honce, hcompiles.files,
    List.map_map, List.map_map]
  rfl

namespace CompileDatabase

variable {given : Document.Given} {document : Document} {directory : Path} {value : Value}

/-- The jobs of a document are the object files of the payload, target by target. -/
theorem jobs_as_listed (hdocument : given.document.result = .ok document)
    (hvalue : given.Writes value) (hkeys : value.KeysDistinct) (hobject : value.kind = .object) :
    (jobs document).map (fun job => (job.key, job.file)) = value.targetFiles := by
  rw [Document.Given.document_eq_load] at hdocument
  obtain ⟨payload, hpayload, hmeans⟩ := Document.load_eq_ok_iff.1 hdocument
  have hentries := (Payload.resolved_entries Payload.part_targets rfl hkeys hobject
    (Document.Given.fromValue_of_writes hpayload hvalue)).entrywise
      (Document.means_of_ofPayload hmeans).targets
  have hparts : ∀ entry ∈ value.entries "targets", entry.2.KeysDistinct := fun entry hentry =>
    hkeys.entry ((Value.mem_entries_iff hkeys).1 hentry)
  rw [jobs, Value.targetFiles]
  generalize value.entries "targets" = entries at hentries hparts
  generalize document.targets = targets at hentries
  induction hentries with
  | nil => rfl
  | @cons entry target entries targets hentry _ ih =>
    obtain ⟨hkey, written, hwritten, htarget⟩ := hentry
    obtain ⟨hpart, hparts⟩ := List.forall_mem_cons.1 hparts
    rw [List.flatMap_cons, List.flatMap_cons, List.map_append, ih hparts,
      ← WrittenTarget.map_fst_files hpart hwritten htarget, hkey, List.map_map, List.map_map]
    rfl

/-- A command is the entry for an object file of the target under a key, which is asked for by
its name. -/
def EntryFor (document : Document) (directory : Path) (file : String × Path)
    (made : CompileCommand) : Prop :=
  ∃ target, document.targets.lookup file.1 = some target ∧
    (document.command target.name file.2 directory).result = .ok made

/-- A database lists what the payload lists: an entry for each object file of each target, in
their order, and as many entries for a file as there are targets that list it.  The entries tell
the arguments and where they are run, and nothing else. -/
structure ListsPayload (database : CompileDatabase) (document : Document) (directory : Path)
    (payload : Value) : Prop where
  files : database.commands.map (·.file) =
    (payload.entries "targets").flatMap fun entry => entry.2.objectFiles
  entries : List.Forall₂ (EntryFor document directory) payload.targetFiles database.commands
  count : ∀ file, (database.commands.map (·.file)).count file =
    (payload.entries "targets").countP fun entry => file ∈ entry.2.objectFiles
  fields : ∀ made ∈ database.commands, made.directory = directory ∧ made.arguments.isSome ∧
    made.command = none ∧ made.output = none

/-- The entry for the key and the file of a job is what is made for the job. -/
theorem entryFor_iff (h : document.Loaded) {job : Job} (hjob : job ∈ jobs document)
    {made : CompileCommand} :
    EntryFor document directory (job.key, job.file) made ↔
      commandByName document directory job = .ok made := by
  have htarget := (lookup_of_mem_jobs h hjob).1
  constructor
  · rintro ⟨target, hlookup, hmade⟩
    obtain rfl := Option.some.inj (htarget.symm.trans hlookup)
    exact hmade
  · intro hmade
    exact ⟨job.target, htarget, hmade⟩

theorem fields_of_commandByName {job : Job} {made : CompileCommand}
    (h : commandByName document directory job = .ok made) :
    made.directory = directory ∧ made.arguments.isSome ∧ made.command = none ∧
      made.output = none := by
  obtain ⟨_, _, _, _, _, _, rfl⟩ := Document.result_command_eq_ok_iff.1 h
  exact ⟨rfl, rfl, rfl, rfl⟩

theorem listsPayload_of_jobs (h : document.Loaded)
    (hjobs : (jobs document).map (fun job => (job.key, job.file)) = value.targetFiles)
    {database : CompileDatabase} (hdatabase : (ofDocument document directory).result = .ok database) :
    database.ListsPayload document directory value := by
  have hmade := result_ofDocument_eq_ok_iff.1 hdatabase
  have hfiles : database.commands.map (·.file) =
      (value.entries "targets").flatMap fun entry => entry.2.objectFiles := by
    have hsnd : (jobs document).map (·.file) = value.targetFiles.map Prod.snd := by
      rw [← hjobs, List.map_map]
      rfl
    rw [map_file_commands hdatabase, hsnd, Value.targetFiles, List.map_flatMap]
    simp only [List.map_map, Function.comp_def, List.map_id']
  constructor
  · exact hfiles
  · rw [← hjobs, List.forall₂_map_left_iff]
    refine List.Forall₂.imp ?_ ((List.forall₂_and_left _ _).2 ⟨fun _ hjob => hjob, hmade⟩)
    rintro job made ⟨hjob, hmade⟩
    exact (entryFor_iff h hjob).2 hmade
  · intro file
    rw [hfiles]
    exact count_flatMap_eq_countP fun entry _ => Value.nodup_objectFiles entry.2
  · intro made hmem
    obtain ⟨job, hjob⟩ := exists_forall₂_iff.1 ⟨_, hmade.flip⟩ made hmem
    exact fields_of_commandByName hjob

/-- The database of a document lists what the payload lists.

* Under the key of a target, each of its object files stands once, and no file that is only
  listed elsewhere: as a header, an extra file or an excluded one.
* If the database is built, it lists these files, one by one.
* It is built exactly if there is an entry for each of them. -/
theorem entries_as_listed (hdocument : given.document.result = .ok document)
    (hvalue : given.Writes value) (hkeys : value.KeysDistinct) (hobject : value.kind = .object)
    (directory : Path) :
    (value.targetFiles.Nodup ∧ ∀ key file, (key, file) ∈ value.targetFiles ↔
      ∃ target, value.entry? "targets" key = some target ∧ ∃ text, file = .ofString text ∧
        ∃ language, (text, language) ∈ target.compiledFiles) ∧
    (∀ database, (ofDocument document directory).result = .ok database →
      database.ListsPayload document directory value) ∧
    ((∃ database, (ofDocument document directory).result = .ok database) ↔
      ∀ file ∈ value.targetFiles, ∃ made, EntryFor document directory file made) := by
  have hloaded := given.loaded hdocument
  have hjobs := jobs_as_listed hdocument hvalue hkeys hobject
  refine ⟨⟨Value.nodup_targetFiles hkeys, fun key file => ?_⟩, fun database hdatabase => ?_, ?_⟩
  · rw [Value.mem_targetFiles_iff hkeys]
    simp only [Value.mem_objectFiles_iff]
  · exact listsPayload_of_jobs hloaded hjobs hdatabase
  · rw [exists_result_ofDocument_iff, ← hjobs, List.forall_mem_map]
    refine forall₂_congr fun job hjob => ?_
    simp only [entryFor_iff hloaded hjob]
    exact exists_commandByName_iff.symm

/-- A payload with two targets that share a file.  One of them lists files again, and a header. -/
def sharedFilePayload : Value :=
  .object
    [("c_compiler", .string "cc"),
      ("targets", .object
        [("z", .object
            [("object_sources_c", .array [.string "x.c", .string "y.c", .string "x.c"]),
              ("generated_object_sources_c", .array [.string "y.c", .string "g.c"]),
              ("header_sources", .array [.string "h.h"])]),
          ("a", .object [("object_sources_c", .array [.string "x.c"])])])]

theorem entries_as_listed_sharedFile :
    ∃ document database, (Document.ofValue sharedFilePayload).result = .ok document ∧
      (ofDocument document (.ofString "/b")).result = .ok database ∧
      database.commands.map (·.file) =
        [.ofString "x.c", .ofString "y.c", .ofString "g.c", .ofString "x.c"] ∧
      (database.commands.map (·.file)).count (.ofString "x.c") = 2 := by
  have hkeys : sharedFilePayload.KeysDistinct := by simp [sharedFilePayload, Table.keys]
  obtain ⟨document, hload, hnames, hconfigured⟩ : ∃ document,
      (Document.Given.asValue sharedFilePayload).document.result = .ok document ∧
        (∀ entry ∈ document.targets, entry.2.name = entry.1) ∧ Configured document := by
    refine ⟨_, rfl, ?_, ?_⟩
    · exact List.forall_mem_cons.2 ⟨rfl, List.forall_mem_singleton.2 rfl⟩
    · exact List.forall_mem_cons.2 ⟨rfl, List.forall_mem_cons.2 ⟨rfl, List.forall_mem_cons.2
        ⟨rfl, List.forall_mem_singleton.2 rfl⟩⟩⟩
  obtain ⟨database, hdatabase⟩ :=
    (exportsByKey_of_name_eq_key (.ofValue hload) hnames).succeeds.2 hconfigured
  obtain ⟨-, hlists, -⟩ := entries_as_listed hload rfl hkeys rfl (.ofString "/b")
  have hlists := hlists database hdatabase
  refine ⟨document, database, hload, hdatabase, hlists.files.trans ?_, ?_⟩
  · rfl
  · rw [hlists.count]
    decide +kernel

end CompileDatabase

end BuildFacts
