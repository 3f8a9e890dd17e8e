import BuildFacts.Proofs.Document.Loaded

/-!
# Why a payload means no document

A payload means no document for one of two causes: a target lists a file under both
languages, or words that are written as a text do not split.  `Payload.Flaw` says so, with
the entry of the payload that is to blame and the place that is named for it.

* `WrittenTarget.resolve_eq_error_iff` and `WrittenSource.resolve_eq_error_iff` say in which
  order an entry is resolved.
* `Classification.ofTarget_eq_error` finds the file that is listed under both languages by
  the invariant of the classification.
* `Document.exists_ofPayload_iff` is the result: a payload means a document exactly if it
  has no flaw.
-/

namespace BuildFacts

/-! ## Words -/

namespace WrittenWords

theorem wordsAt_eq_error_iff {pointer : String} {written : WrittenWords} {error : Error} :
    written.wordsAt pointer = .error error ↔
      ∃ text, written = .joined text ∧ ShellWords.split text = none ∧
        error = .mismatch pointer (.unbalanced text) := by
  cases written with
  | items list => simp [wordsAt]
  | joined text => cases hsplit : ShellWords.split text <;> simp [wordsAt, hsplit, eq_comm]

theorem wordsAt?_eq_error_iff {pointer : String} {written : Option WrittenWords} {error : Error} :
    wordsAt? pointer written = .error error ↔
      ∃ text, written = some (.joined text) ∧ ShellWords.split text = none ∧
        error = .mismatch pointer (.unbalanced text) := by
  cases written with
  | none => simp [wordsAt?]
  | some written => simp [wordsAt?, map_eq_error_iff, wordsAt_eq_error_iff]

/-- Words under their keys, in the object at `pointer`. -/
def resolveAll (pointer : String) (lists : List (String × Option WrittenWords)) :
    Except Error (List (Option (List String))) :=
  lists.mapM fun entry => wordsAt? (pointerTo pointer entry.1) entry.2

theorem resolveAll_eq_error {pointer : String} {lists : List (String × Option WrittenWords)}
    {error : Error} (h : resolveAll pointer lists = .error error) :
    ∃ key text, (key, some (.joined text)) ∈ lists ∧ ShellWords.split text = none ∧
      error = .mismatch (pointerTo pointer key) (.unbalanced text) := by
  obtain ⟨before, ⟨key, written⟩, after, rfl, _, herror⟩ := mapM_eq_error_iff.1 h
  obtain ⟨text, rfl, hsplit, rfl⟩ := wordsAt?_eq_error_iff.1 herror
  exact ⟨key, text, by simp, hsplit, rfl⟩

theorem split_of_resolveAll {pointer key text : String}
    {lists : List (String × Option WrittenWords)} {words : List (Option (List String))}
    (h : resolveAll pointer lists = .ok words) (hmem : (key, some (.joined text)) ∈ lists) :
    ShellWords.split text ≠ none := by
  intro hsplit
  obtain ⟨result, hresult⟩ := exists_forall₂_iff.1 ⟨words, mapM_eq_ok_iff.1 h⟩ _ hmem
  have herror : wordsAt? (pointerTo pointer key) (some (.joined text)) = .error _ :=
    wordsAt?_eq_error_iff.2 ⟨text, rfl, hsplit, rfl⟩
  exact nomatch herror.symm.trans hresult

theorem resolveAll_append_eq_error_iff {pointer : String}
    {first second : List (String × Option WrittenWords)} {error : Error} :
    resolveAll pointer (first ++ second) = .error error ↔
      resolveAll pointer first = .error error ∨
        (∃ words, resolveAll pointer first = .ok words) ∧
          resolveAll pointer second = .error error := by
  simp only [resolveAll, List.mapM_append, bind_eq_error_iff, pure, Except.pure, reduceCtorEq,
    and_false, exists_false, or_false, exists_and_right]

end WrittenWords

/-- The words of a property under their keys, in the order in which they are resolved. -/
def WrittenProperty.wordLists (property : Property) (written : WrittenProperty) :
    List (String × Option WrittenWords) :=
  [(property.key, written.base), (property.keyFor .c, written.specialized.c),
    (property.keyFor .cxx, written.specialized.cxx)]

/-- The words of a target under their keys, in the order in which they are resolved. -/
def WrittenTarget.wordLists (target : WrittenTarget) : List (String × Option WrittenWords) :=
  target.properties.definitions.wordLists .definitions ++
    (target.properties.includes.wordLists .includes ++
      target.properties.options.wordLists .options)

/-- The words of a source file under their keys, in the order in which they are resolved. -/
def WrittenSource.wordLists (source : WrittenSource) : List (String × Option WrittenWords) :=
  [("compile_options", source.options), ("compile_flags", source.flags),
    ("compile_definitions", source.definitions), ("include_directories", source.includes)]

theorem WrittenProperty.resolve_eq_error_iff {pointer : String} {property : Property}
    {written : WrittenProperty} {error : Error} :
    written.resolve pointer property = .error error ↔
      WrittenWords.resolveAll pointer (written.wordLists property) = .error error := by
  simp only [resolve, WrittenWords.resolveAll, wordLists, List.mapM_cons, List.mapM_nil,
    bind_eq_error_iff, pure, Except.pure, reduceCtorEq, and_false, exists_false, or_false]

theorem WrittenProperty.exists_resolve_iff {pointer : String} {property : Property}
    {written : WrittenProperty} :
    (∃ words, written.resolve pointer property = .ok words) ↔
      ∃ words, WrittenWords.resolveAll pointer (written.wordLists property) = .ok words := by
  simp only [exists_eq_ok_iff, ne_eq, resolve_eq_error_iff]

/-! ## Classification -/

namespace Classification

theorem add_eq_error_iff {language : Language} {isGenerated : Bool} {state : Classification}
    {file : String} {cause : Mismatch} :
    add language isGenerated state file = .error cause ↔
      ∃ previous, state.languages.lookup file = some previous ∧ previous ≠ language ∧
        cause = .conflict file previous language := by
  unfold add
  cases hfound : state.languages.lookup file with
  | none => simp
  | some previous =>
    simp only [Option.some.injEq, exists_eq_left']
    split
    · rename_i heq
      simp [heq]
    · rename_i hne
      rw [Except.error.injEq, and_iff_right hne, eq_comm]

/-- The first file of a list that stands in it already, under the other language. -/
inductive FirstConflict (listed : List (String × Language)) : Mismatch → Prop where
  | intro {before after : List (String × Language)} {file : String} {previous language : Language}
      (hlisted : listed = before ++ (file, language) :: after)
      (hbefore : ∀ other, ¬((other, .c) ∈ before ∧ (other, .cxx) ∈ before))
      (hprevious : (file, previous) ∈ before) (hne : previous ≠ language) :
      FirstConflict listed (.conflict file previous language)

theorem FirstConflict.append {listed : List (String × Language)} {cause : Mismatch}
    (h : FirstConflict listed cause) (more : List (String × Language)) :
    FirstConflict (listed ++ more) cause := by
  obtain @⟨before, after, _, _, _, rfl, hbefore, hprevious, hne⟩ := h
  exact .intro (List.append_assoc _ _ _) hbefore hprevious hne

theorem FirstConflict.exists_listed {listed : List (String × Language)} {cause : Mismatch}
    (h : FirstConflict listed cause) :
    ∃ file previous language, previous ≠ language ∧ (file, previous) ∈ listed ∧
      (file, language) ∈ listed ∧ cause = .conflict file previous language := by
  obtain ⟨rfl, _, hprevious, hne⟩ := h
  exact ⟨_, _, _, hne, List.mem_append_left _ hprevious, by simp, rfl⟩

/-- Of two languages one is C and one is C++. -/
theorem mem_both_of_ne {listed : List (String × Language)} {file : String}
    {previous language : Language} (hne : previous ≠ language)
    (hprevious : (file, previous) ∈ listed) (hlanguage : (file, language) ∈ listed) :
    (file, .c) ∈ listed ∧ (file, .cxx) ∈ listed := by
  cases previous <;> cases language
  · exact absurd rfl hne
  · exact ⟨hprevious, hlanguage⟩
  · exact ⟨hlanguage, hprevious⟩
  · exact absurd rfl hne

/-- A part at the start of a list that has no file under both languages ends before a conflict. -/
theorem length_le_of_conflict {before start rest rest' : List (String × Language)} {file : String}
    {previous language : Language} (hne : previous ≠ language) (hprevious : (file, previous) ∈ before)
    (hstart : ∀ other, ¬((other, .c) ∈ start ∧ (other, .cxx) ∈ start))
    (heq : before ++ (file, language) :: rest = start ++ rest') : start.length ≤ before.length := by
  by_contra hlt
  have hwhole : before ++ [(file, language)] <+: start ++ rest' := ⟨rest, by rw [← heq]; simp⟩
  have hlength : (before ++ [(file, language)]).length ≤ start.length := by
    simp only [List.length_append, List.length_singleton]
    omega
  have hprefix : before ++ [(file, language)] <+: start :=
    List.prefix_of_prefix_length_le hwhole (List.prefix_append _ _) hlength
  have hlanguage : (file, language) ∈ start := hprefix.subset (by simp)
  have hprevious : (file, previous) ∈ start := hprefix.subset (List.mem_append_left _ hprevious)
  exact hstart file (mem_both_of_ne hne hprevious hlanguage)

/-- A list has one first conflict. -/
theorem FirstConflict.unique {listed : List (String × Language)} {cause cause' : Mismatch}
    (h : FirstConflict listed cause) (h' : FirstConflict listed cause') : cause = cause' := by
  obtain @⟨before, after, file, previous, language, hlisted, hbefore, hprevious, hne⟩ := h
  obtain @⟨before', after', file', previous', language', hlisted', hbefore', hprevious', hne'⟩ := h'
  have heq : before ++ (file, language) :: after = before' ++ (file', language') :: after' :=
    hlisted.symm.trans hlisted'
  have hlength : before.length = before'.length :=
    Nat.le_antisymm (length_le_of_conflict hne' hprevious' hbefore heq.symm)
      (length_le_of_conflict hne hprevious hbefore' heq)
  obtain ⟨rfl, hrest⟩ := List.append_inj heq hlength
  obtain ⟨hentry, rfl⟩ := List.cons.inj hrest
  obtain ⟨rfl, rfl⟩ := Prod.mk.inj hentry
  have hsame : previous = previous' := by
    cases previous <;> cases previous' <;> cases language <;> simp_all
  rw [hsame]

/-- What is classified is listed under one language. -/
theorem Classifies.not_both {languages : Table Language} {listed : List (String × Language)}
    (hinv : Classifies languages listed) (file : String) :
    ¬((file, .c) ∈ listed ∧ (file, .cxx) ∈ listed) := by
  intro ⟨hc, hcxx⟩
  have hboth := ((hinv.lookup file .c).2 hc).symm.trans ((hinv.lookup file .cxx).2 hcxx)
  exact absurd (Option.some.inj hboth) (by decide)

/-- A file that cannot be added is listed already, under the other language. -/
theorem add_eq_error {language : Language} {isGenerated : Bool} {state : Classification}
    {file : String} {listed : List (String × Language)} {cause : Mismatch}
    (hinv : Classifies state.languages listed)
    (h : add language isGenerated state file = .error cause) :
    FirstConflict (listed ++ [(file, language)]) cause := by
  obtain ⟨previous, hfound, hne, rfl⟩ := add_eq_error_iff.1 h
  have hlisted := (hinv.lookup file previous).1 hfound
  exact .intro rfl hinv.not_both hlisted hne

/-- The first file of a list that cannot be added is listed under both languages. -/
theorem addAll_eq_error {language : Language} {isGenerated : Bool} {state : Classification}
    {files : List String} {listed : List (String × Language)} {cause : Mismatch}
    (hinv : Classifies state.languages listed)
    (h : addAll language isGenerated state files = .error cause) :
    FirstConflict (listed ++ files.map (·, language)) cause := by
  induction files generalizing state listed with
  | nil => exact nomatch h
  | cons file files ih =>
    rw [addAll, List.foldlM_cons] at h
    rw [List.map_cons, ← List.singleton_append, ← List.append_assoc]
    rcases bind_eq_error_iff.1 h with hadd | ⟨middle, hadd, hrest⟩
    · exact (add_eq_error hinv hadd).append _
    · exact ih (add_classifies hinv hadd) hrest

/-- A target that cannot be classified lists a file under both languages. -/
theorem ofTarget_eq_error {target : WrittenTarget} {cause : Mismatch}
    (h : ofTarget target = .error cause) : FirstConflict target.listed cause := by
  unfold ofTarget at h
  unfold WrittenTarget.listed
  rcases bind_eq_error_iff.1 h with h | ⟨first, hfirst, h⟩
  · exact (((addAll_eq_error Classifies.nil h).append _).append _).append _
  have h₁ := addAll_classifies Classifies.nil hfirst
  rcases bind_eq_error_iff.1 h with h | ⟨second, hsecond, h⟩
  · exact ((addAll_eq_error h₁ h).append _).append _
  have h₂ := addAll_classifies h₁ hsecond
  rcases bind_eq_error_iff.1 h with h | ⟨third, hthird, h⟩
  · exact (addAll_eq_error h₂ h).append _
  exact addAll_eq_error (addAll_classifies h₂ hthird) h

/-- A target that cannot be classified fails for the first file that it lists under both
languages. -/
theorem ofTarget_eq_error_iff {target : WrittenTarget} {cause : Mismatch} :
    ofTarget target = .error cause ↔ FirstConflict target.listed cause := by
  refine ⟨ofTarget_eq_error, fun hfirst => ?_⟩
  cases hresult : ofTarget target with
  | error other => rw [(ofTarget_eq_error hresult).unique hfirst]
  | ok state =>
    obtain ⟨file, _, _, hne, hprevious, hlanguage, _⟩ := hfirst.exists_listed
    exact absurd (mem_both_of_ne hne hprevious hlanguage)
      ((ofTarget_classifies hresult).not_both file)

end Classification

/-! ## Targets and source files -/

/-- A target is classified first, and then its words are resolved. -/
theorem WrittenTarget.resolve_eq_error_iff {key : String} {target : WrittenTarget}
    {error : Error} :
    target.resolve key = .error error ↔
      (∃ cause, Classification.ofTarget target = .error cause ∧
        error = .mismatch (targetPointer key) cause) ∨
      (∃ state, Classification.ofTarget target = .ok state) ∧
        WrittenWords.resolveAll (targetPointer key) target.wordLists = .error error := by
  simp only [resolve, wordLists, bind_eq_error_iff, mapError_eq_error_iff, mapError_eq_ok_iff,
    WrittenWords.resolveAll_append_eq_error_iff, ← WrittenProperty.resolve_eq_error_iff,
    ← WrittenProperty.exists_resolve_iff, pure, Except.pure, reduceCtorEq, and_false,
    exists_false, or_false, exists_and_right, eq_comm (a := error)]

theorem WrittenSource.resolve_eq_error_iff {key : String} {source : WrittenSource}
    {error : Error} :
    source.resolve key = .error error ↔
      WrittenWords.resolveAll (sourcePointer key) source.wordLists = .error error := by
  simp only [resolve, WrittenWords.resolveAll, wordLists, List.mapM_cons, List.mapM_nil,
    bind_eq_error_iff, pure, Except.pure, reduceCtorEq, and_false, exists_false, or_false]

theorem WrittenTarget.split_of_resolve {key name text : String} {written : WrittenTarget}
    {target : Target} (h : written.resolve key = .ok target)
    (hmem : (name, some (.joined text)) ∈ written.wordLists) : ShellWords.split text ≠ none := by
  cases hwords : WrittenWords.resolveAll (targetPointer key) written.wordLists with
  | ok words => exact WrittenWords.split_of_resolveAll hwords hmem
  | error error =>
    have hstate : ∃ state, Classification.ofTarget written = .ok state := by
      obtain ⟨state, hstate, _⟩ := bind_eq_ok_iff.1 h
      exact ⟨state, mapError_eq_ok_iff.1 hstate⟩
    exact nomatch (resolve_eq_error_iff.2 (.inr ⟨hstate, hwords⟩)).symm.trans h

theorem WrittenSource.split_of_resolve {key name text : String} {written : WrittenSource}
    {source : SourceOverride} (h : written.resolve key = .ok source)
    (hmem : (name, some (.joined text)) ∈ written.wordLists) : ShellWords.split text ≠ none := by
  cases hwords : WrittenWords.resolveAll (sourcePointer key) written.wordLists with
  | ok words => exact WrittenWords.split_of_resolveAll hwords hmem
  | error error => exact nomatch (resolve_eq_error_iff.2 hwords).symm.trans h

/-! ## Payloads -/

/-- What keeps a payload from meaning a document, and the error that reports it. -/
inductive Payload.Flaw (payload : Payload) : Error → Prop where
  | conflict {key : String} {target : WrittenTarget} {file : String}
      {previous language : Language} (hmem : (key, target) ∈ payload.targets)
      (hne : previous ≠ language) (hprevious : (file, previous) ∈ target.listed)
      (hlanguage : (file, language) ∈ target.listed) :
      Flaw payload (.mismatch (targetPointer key) (.conflict file previous language))
  | targetWords {key : String} {target : WrittenTarget} {name text : String}
      (hmem : (key, target) ∈ payload.targets)
      (hwords : (name, some (.joined text)) ∈ target.wordLists)
      (hsplit : ShellWords.split text = none) :
      Flaw payload (.mismatch (pointerTo (targetPointer key) name) (.unbalanced text))
  | sourceWords {key : String} {source : WrittenSource} {name text : String}
      (hmem : (key, source) ∈ payload.sources)
      (hwords : (name, some (.joined text)) ∈ source.wordLists)
      (hsplit : ShellWords.split text = none) :
      Flaw payload (.mismatch (pointerTo (sourcePointer key) name) (.unbalanced text))

theorem Payload.Flaw.exists_mismatch {payload : Payload} {error : Error} (h : payload.Flaw error) :
    ∃ pointer cause, error = .mismatch pointer cause := by
  cases h <;> exact ⟨_, _, rfl⟩

theorem resolveEntries_eq_error {α β : Type} {resolve : String → α → Except Error β}
    {table : Table α} {error : Error} (h : resolveEntries resolve table = .error error) :
    ∃ key a, (key, a) ∈ table ∧ resolve key a = .error error := by
  obtain ⟨before, ⟨key, a⟩, after, rfl, _, herror⟩ := mapM_eq_error_iff.1 h
  exact ⟨key, a, by simp, map_eq_error_iff.1 herror⟩

namespace Document

variable {payload : Payload}

theorem flaw_of_ofPayload {error : Error} (h : ofPayload payload = .error error) :
    payload.Flaw error := by
  unfold ofPayload at h
  rcases bind_eq_error_iff.1 h with h | ⟨targets, _, h⟩
  · obtain ⟨key, target, hmem, herror⟩ := resolveEntries_eq_error h
    rcases WrittenTarget.resolve_eq_error_iff.1 herror with ⟨cause, hcause, rfl⟩ | ⟨_, hwords⟩
    · obtain ⟨file, previous, language, hne, hprevious, hlanguage, rfl⟩ :=
        (Classification.ofTarget_eq_error hcause).exists_listed
      exact .conflict hmem hne hprevious hlanguage
    · obtain ⟨name, text, hname, hsplit, rfl⟩ := WrittenWords.resolveAll_eq_error hwords
      exact .targetWords hmem hname hsplit
  · rcases bind_eq_error_iff.1 h with h | ⟨sources, _, h⟩
    · obtain ⟨key, source, hmem, herror⟩ := resolveEntries_eq_error h
      obtain ⟨name, text, hname, hsplit, rfl⟩ :=
        WrittenWords.resolveAll_eq_error (WrittenSource.resolve_eq_error_iff.1 herror)
      exact .sourceWords hmem hname hsplit
    · exact nomatch h

/-- A payload means a document exactly if it has no flaw. -/
theorem exists_ofPayload_iff :
    (∃ document, ofPayload payload = .ok document) ↔ ∀ error, ¬payload.Flaw error := by
  constructor
  · intro ⟨document, hdocument⟩ error hflaw
    have hmeans := means_of_ofPayload hdocument
    cases hflaw with
    | @conflict key target _ _ _ hmem hne hprevious hlanguage =>
      obtain ⟨found, _, hresolve⟩ := hmeans.targets.exists_of_mem_before hmem
      have hinv := (WrittenTarget.means_of_resolve hresolve).classifies
      have hboth := ((hinv.lookup _ _).2 hprevious).symm.trans ((hinv.lookup _ _).2 hlanguage)
      exact hne (Option.some.inj hboth)
    | @targetWords key target _ _ hmem hwords hsplit =>
      obtain ⟨found, _, hresolve⟩ := hmeans.targets.exists_of_mem_before hmem
      exact WrittenTarget.split_of_resolve hresolve hwords hsplit
    | @sourceWords key source _ _ hmem hwords hsplit =>
      obtain ⟨found, _, hresolve⟩ := hmeans.sources.exists_of_mem_before hmem
      exact WrittenSource.split_of_resolve hresolve hwords hsplit
  · intro hnone
    rw [exists_eq_ok_iff]
    exact fun error herror => hnone error (flaw_of_ofPayload herror)

end Document

end BuildFacts
