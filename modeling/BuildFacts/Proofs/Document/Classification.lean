import BuildFacts.Document
import BuildFacts.Proofs.Table

/-!
# The language of each compiled file

`WrittenTarget.listed` is what a target says about its compiled files: each of
them with the language of the list that it stands in, list after list.

`Classifies` is the invariant of the classification: the files so far are each
classified once, in the language in which they were listed.  `add_classifies`
is its step and `ofTarget_classifies` the result for a whole target.

`ofTarget_eraseDups` adds the order: the files stand as they are listed, with
every repetition left out.
-/

namespace BuildFacts

/-- The compiled files of a target as they are listed, with their languages. -/
def WrittenTarget.listed (target : WrittenTarget) : List (String × Language) :=
  target.objects.c.map (·, .c) ++ target.objects.cxx.map (·, .cxx) ++
    target.generatedObjects.c.map (·, .c) ++ target.generatedObjects.cxx.map (·, .cxx)

theorem WrittenTarget.mem_listed {target : WrittenTarget} {file : String} {language : Language} :
    (file, language) ∈ target.listed ↔
      file ∈ target.objects.get language ∨ file ∈ target.generatedObjects.get language := by
  cases language <;> simp [listed, ByLanguage.get]

namespace Classification

/-- Each file of `listed` is classified once, in a language in which it is listed,
and no other file is classified. -/
structure Classifies (languages : Table Language) (listed : List (String × Language)) : Prop where
  nodup_keys : languages.keys.Nodup
  lookup : ∀ file language,
    languages.lookup file = some language ↔ (file, language) ∈ listed

theorem Classifies.nil : Classifies [] [] where
  nodup_keys := List.nodup_nil
  lookup _ _ := by simp

/-- A file that can be added is classified already in the same language, or is
put behind the others. -/
theorem add_cases {language : Language} {isGenerated : Bool} {state next : Classification}
    {file : String} (h : add language isGenerated state file = .ok next) :
    (state.languages.lookup file = some language ∧ next = state) ∨
      (state.languages.lookup file = none ∧
        next.languages = state.languages ++ [(file, language)]) := by
  rw [add] at h
  split at h
  · rename_i previous hfound
    split at h
    · rename_i heq
      exact .inl ⟨heq ▸ hfound, (Except.ok.inj h).symm⟩
    · simp at h
  · rename_i hfound
    obtain rfl := Except.ok.inj h
    exact .inr ⟨hfound, rfl⟩

/-- The step: adding a file keeps the invariant. -/
theorem add_classifies {language : Language} {isGenerated : Bool} {state next : Classification}
    {file : String} {listed : List (String × Language)}
    (hinv : Classifies state.languages listed)
    (h : add language isGenerated state file = .ok next) :
    Classifies next.languages (listed ++ [(file, language)]) := by
  rcases add_cases h with ⟨hfound, rfl⟩ | ⟨hfound, hnext⟩
  · have hlisted := (hinv.lookup file language).1 hfound
    refine ⟨hinv.nodup_keys, fun other language' => ?_⟩
    rw [hinv.lookup, List.mem_append, List.mem_singleton]
    refine ⟨.inl, ?_⟩
    rintro (hmem | heq)
    · exact hmem
    · exact heq ▸ hlisted
  · have hnotMem : ∀ language', (file, language') ∉ listed := by
      intro language' hmem
      rw [(hinv.lookup file language').2 hmem] at hfound
      simp at hfound
    rw [hnext]
    constructor
    · rw [Table.keys, List.map_append, List.nodup_append]
      refine ⟨hinv.nodup_keys, by simp, ?_⟩
      intro key hkey key' hkey' heq
      rw [heq, List.mem_singleton.1 hkey'] at hkey
      exact Table.lookup_eq_none_iff_notMem.1 hfound hkey
    · intro other language'
      rw [List.lookup_append, List.mem_append, List.mem_singleton, Prod.mk.injEq]
      by_cases hother : other = file
      · subst hother
        simp [hfound, hnotMem, eq_comm]
      · have hne : (other == file) = false := beq_eq_false_iff_ne.2 hother
        simp [hinv.lookup, List.lookup_cons, hne, hother]

/-- What adding a file keeps, adding the files of a list keeps. -/
theorem addAll_induction {P : Classification → List (String × Language) → Prop}
    (hstep : ∀ {language isGenerated state next file listed}, P state listed →
      add language isGenerated state file = .ok next → P next (listed ++ [(file, language)]))
    {language : Language} {isGenerated : Bool} {state next : Classification} {files : List String}
    {listed : List (String × Language)} (hinv : P state listed)
    (h : addAll language isGenerated state files = .ok next) :
    P next (listed ++ files.map (·, language)) := by
  induction files generalizing state listed with
  | nil =>
    obtain rfl : state = next := Except.ok.inj h
    simpa using hinv
  | cons file files ih =>
    rw [addAll, List.foldlM_cons] at h
    obtain ⟨middle, hadd, h⟩ := bind_eq_ok_iff.1 h
    have hmiddle := ih (hstep hinv hadd) h
    rwa [List.append_assoc, List.singleton_append] at hmiddle

/-- What holds before the first file and is kept by each file holds of a whole target. -/
theorem ofTarget_induction {P : Classification → List (String × Language) → Prop}
    (hnil : P ⟨[], []⟩ [])
    (hstep : ∀ {language isGenerated state next file listed}, P state listed →
      add language isGenerated state file = .ok next → P next (listed ++ [(file, language)]))
    {target : WrittenTarget} {state : Classification} (h : ofTarget target = .ok state) :
    P state target.listed := by
  unfold ofTarget at h
  obtain ⟨first, hfirst, h⟩ := bind_eq_ok_iff.1 h
  obtain ⟨second, hsecond, h⟩ := bind_eq_ok_iff.1 h
  obtain ⟨third, hthird, hlast⟩ := bind_eq_ok_iff.1 h
  have h₁ := addAll_induction hstep hnil hfirst
  have h₂ := addAll_induction hstep h₁ hsecond
  have h₃ := addAll_induction hstep h₂ hthird
  exact addAll_induction hstep h₃ hlast

theorem addAll_classifies {language : Language} {isGenerated : Bool}
    {state next : Classification} {files : List String} {listed : List (String × Language)}
    (hinv : Classifies state.languages listed)
    (h : addAll language isGenerated state files = .ok next) :
    Classifies next.languages (listed ++ files.map (·, language)) :=
  addAll_induction (P := fun state listed => Classifies state.languages listed)
    add_classifies hinv h

/-- The files of a target are classified as they are listed. -/
theorem ofTarget_classifies {target : WrittenTarget} {state : Classification}
    (h : ofTarget target = .ok state) : Classifies state.languages target.listed :=
  ofTarget_induction (P := fun state listed => Classifies state.languages listed)
    .nil add_classifies h

/-! ## The order of the files -/

/-- The step: a file that is listed again changes nothing, a new one goes to the end. -/
theorem add_eraseDups {language : Language} {isGenerated : Bool} {state next : Classification}
    {file : String} {listed : List (String × Language)}
    (hinv : Classifies state.languages listed) (horder : state.languages = listed.eraseDups)
    (h : add language isGenerated state file = .ok next) :
    next.languages = (listed ++ [(file, language)]).eraseDups := by
  rw [List.eraseDups_append, ← horder]
  rcases add_cases h with ⟨hfound, rfl⟩ | ⟨hfound, hnext⟩
  · have hlisted := (hinv.lookup file language).1 hfound
    simp [List.removeAll, hlisted]
  · have hnotMem : (file, language) ∉ listed := by
      intro hmem
      rw [(hinv.lookup file language).2 hmem] at hfound
      simp at hfound
    simp [hnext, List.removeAll, hnotMem, List.eraseDups_cons]

/-- The files of a target are classified in the order in which they are first listed. -/
theorem ofTarget_eraseDups {target : WrittenTarget} {state : Classification}
    (h : ofTarget target = .ok state) : state.languages = target.listed.eraseDups := by
  let P (state : Classification) (listed : List (String × Language)) : Prop :=
    Classifies state.languages listed ∧ state.languages = listed.eraseDups
  have hrun : P state target.listed :=
    ofTarget_induction ⟨.nil, rfl⟩
      (fun ⟨hinv, horder⟩ hadd => ⟨add_classifies hinv hadd, add_eraseDups hinv horder hadd⟩) h
  exact hrun.2

end Classification

end BuildFacts
