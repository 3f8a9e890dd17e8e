import BuildFacts.Path

/-!
# Steps of paths

`Path.same` and `Path.endsWith` compare the steps of paths, and a path may be
written in several ways with the same steps.

`Path.Writes` says in which ways: the bytes are the names of the steps, with
slashes and `.` steps between them.  `Path.components` reads the steps that are
written (`components_eq_iff`).  A path ends in the steps of another one
(`Path.EndsIn`) only from the start of a step on (`EndsIn.exists_tail`).

Among the paths that are written plainly there is only one for each list of
steps, and none of them is a proper end of another (`Path.Plain.eq_of_suffix`).
-/

namespace BuildFacts.Path

variable {path suffix base left right : Path}

theorem ofString_injective : Function.Injective ofString := by
  intro text other h
  have htext := congrArg text? h
  rwa [text?_ofString, text?_ofString, Option.some.injEq] at htext

theorem same_iff : left.same right ↔ left.components = right.components := by
  rw [same, decide_eq_true_iff]

theorem endsWith_iff : path.endsWith suffix ↔ suffix.components <:+ path.components := by
  rw [endsWith, List.isSuffixOf_iff_suffix]

/-! ## Segments -/

theorem segments_ne_nil (bytes : List UInt8) : segments bytes ≠ [] := by
  intro h
  have hlength := Text.length_splitAt (· == slash) bytes
  rw [← segments, h] at hlength
  simp at hlength

theorem intercalate_segments (bytes : List UInt8) :
    [slash].intercalate (segments bytes) = bytes := by
  rw [segments, Text.splitAt_eq_splitOnP]
  exact List.intercalate_splitOn slash

theorem intercalate_slash_cons (first next : List UInt8) (more : List (List UInt8)) :
    [slash].intercalate (first :: next :: more) =
      first ++ slash :: [slash].intercalate (next :: more) := by
  rw [List.intercalate_cons_cons, List.append_assoc, List.singleton_append]

theorem segments_injective : Function.Injective segments := by
  intro left right h
  rw [← intercalate_segments left, h, intercalate_segments right]

theorem slash_notMem_of_mem_segments {bytes segment : List UInt8}
    (h : segment ∈ segments bytes) : slash ∉ segment := by
  intro hslash
  have hnot := Text.isSeparator_eq_false_of_mem_splitAt h hslash
  simp at hnot

theorem segments_slash (behind : List UInt8) :
    segments (slash :: behind) = [] :: segments behind := by
  simp [segments, Text.splitAt]

theorem segments_name {name : List UInt8} (h : slash ∉ name) : segments name = [name] := by
  rw [segments, Text.splitAt_eq_splitOnP, List.splitOnP_eq_singleton]
  intro byte hbyte
  exact beq_false_of_ne fun heq => h (heq ▸ hbyte)

theorem segments_name_slash {name : List UInt8} (h : slash ∉ name) (behind : List UInt8) :
    segments (name ++ slash :: behind) = name :: segments behind := by
  rw [segments, segments, Text.splitAt_eq_splitOnP, Text.splitAt_eq_splitOnP,
    List.splitOnP_append_cons_of_forall_mem]
  · intro byte hbyte
    exact beq_false_of_ne fun heq => h (heq ▸ hbyte)
  · exact beq_self_eq_true slash

theorem components_of_name {name : List UInt8} {more : List (List UInt8)}
    (h : segments path.bytes = name :: more) (hname : name ≠ []) :
    path.components = .name name :: steps more := by
  rw [components, h]
  cases more with
  | nil => simp [hname, steps]
  | cons next more => simp [hname]

theorem components_of_root {more : List (List UInt8)} (h : segments path.bytes = [] :: more)
    (hmore : more ≠ []) : path.components = .root :: steps more := by
  rw [components, h]
  cases more with
  | nil => exact absurd rfl hmore
  | cons next more => rfl

theorem steps_nil (more : List (List UInt8)) : steps ([] :: more) = steps more := by
  simp [steps]

theorem steps_dot (more : List (List UInt8)) : steps (dot :: more) = steps more := by
  simp [steps]

theorem steps_name {name : List UInt8} (hnil : name ≠ []) (hdot : name ≠ dot)
    (more : List (List UInt8)) : steps (name :: more) = .name name :: steps more := by
  simp [steps, hnil, hdot]

theorem steps_cons (segment : List UInt8) (more : List (List UInt8)) :
    steps (segment :: more) = steps [segment] ++ steps more := by
  rw [steps, steps, steps, ← List.map_append, ← List.filter_append, List.singleton_append]

/-! ## How steps are written -/

/-- Whether a step may end in front of these bytes. -/
def StepEnds (behind : List UInt8) : Prop :=
  ∀ byte ∈ behind.head?, byte = slash

/-- Whether a step may start behind these bytes. -/
def StepStarts (front : List UInt8) : Prop :=
  ∀ byte ∈ front.getLast?, byte = slash

/-- Bytes behind the first step of a path, and the steps that they write. -/
inductive WritesMore : List UInt8 → List Component → Prop
  | done : WritesMore [] []
  | skipSlash {behind : List UInt8} {steps : List Component} (more : WritesMore behind steps) :
      WritesMore (slash :: behind) steps
  | skipDot {behind : List UInt8} {steps : List Component} (ends : StepEnds behind)
      (more : WritesMore behind steps) : WritesMore (dot ++ behind) steps
  | name {name behind : List UInt8} {steps : List Component} (ne_nil : name ≠ [])
      (ne_dot : name ≠ dot) (not_mem : slash ∉ name) (ends : StepEnds behind)
      (more : WritesMore behind steps) : WritesMore (name ++ behind) (.name name :: steps)

/-- The bytes of a path, and the steps that they write.  A `.` at the start is a step. -/
inductive Writes : List UInt8 → List Component → Prop
  | empty : Writes [] []
  | absolute {behind : List UInt8} {steps : List Component} (more : WritesMore behind steps) :
      Writes (slash :: behind) (.root :: steps)
  | relative {name behind : List UInt8} {steps : List Component} (ne_nil : name ≠ [])
      (not_mem : slash ∉ name) (ends : StepEnds behind) (more : WritesMore behind steps) :
      Writes (name ++ behind) (.name name :: steps)

theorem stepEnds_nil : StepEnds [] := by
  simp [StepEnds]

theorem stepEnds_slash (behind : List UInt8) : StepEnds (slash :: behind) := by
  simp [StepEnds]

theorem StepEnds.eq_nil_or_slash {behind : List UInt8} (h : StepEnds behind) :
    behind = [] ∨ ∃ more, behind = slash :: more := by
  cases behind with
  | nil => exact .inl rfl
  | cons byte more => exact .inr ⟨more, by rw [h byte rfl]⟩

theorem segments_name_append {name behind : List UInt8} (h : slash ∉ name)
    (hends : StepEnds behind) :
    ∃ more, segments (name ++ behind) = name :: more ∧ steps (segments behind) = steps more := by
  rcases hends.eq_nil_or_slash with rfl | ⟨more, rfl⟩
  · exact ⟨[], by rw [List.append_nil, segments_name h], rfl⟩
  · exact ⟨segments more, segments_name_slash h more, by rw [segments_slash]; rfl⟩

theorem slash_notMem_dot : slash ∉ dot := by
  decide

theorem WritesMore.steps_segments {bytes : List UInt8} {written : List Component}
    (h : WritesMore bytes written) : steps (segments bytes) = written := by
  induction h with
  | done => rfl
  | skipSlash more ih => rw [segments_slash, steps_nil, ih]
  | skipDot ends more ih =>
    obtain ⟨behind, hsegments, hsteps⟩ := segments_name_append slash_notMem_dot ends
    rw [hsegments, steps_dot, ← hsteps, ih]
  | name ne_nil ne_dot not_mem ends more ih =>
    obtain ⟨behind, hsegments, hsteps⟩ := segments_name_append not_mem ends
    rw [hsegments, steps_name ne_nil ne_dot, ← hsteps, ih]

theorem WritesMore.append_segment {segment behind : List UInt8} {written : List Component}
    (h : slash ∉ segment) (hends : StepEnds behind) (hmore : WritesMore behind written) :
    WritesMore (segment ++ behind) (steps [segment] ++ written) := by
  by_cases hnil : segment = []
  · subst hnil
    exact hmore
  by_cases hdot : segment = dot
  · subst hdot
    exact .skipDot hends hmore
  · rw [steps_name hnil hdot]
    exact .name hnil hdot h hends hmore

/-- Segments with slashes between them write their steps. -/
theorem writesMore_intercalate {segments : List (List UInt8)}
    (h : ∀ segment ∈ segments, slash ∉ segment) :
    WritesMore ([slash].intercalate segments) (steps segments) := by
  induction segments with
  | nil => exact .done
  | cons segment more ih =>
    obtain ⟨hsegment, hmore⟩ := List.forall_mem_cons.1 h
    rw [steps_cons]
    cases more with
    | nil =>
      have hwrites : WritesMore (segment ++ []) (steps [segment] ++ steps []) :=
        .append_segment hsegment stepEnds_nil .done
      rw [List.append_nil] at hwrites
      rwa [List.intercalate_singleton]
    | cons next more =>
      rw [intercalate_slash_cons]
      exact .append_segment hsegment (stepEnds_slash _) (.skipSlash (ih hmore))

theorem Writes.components_eq {bytes : List UInt8} {written : List Component}
    (h : Writes bytes written) : components ⟨bytes⟩ = written := by
  cases h with
  | empty => rfl
  | absolute more =>
    rw [components_of_root (segments_slash _) (segments_ne_nil _), more.steps_segments]
  | relative ne_nil not_mem ends more =>
    obtain ⟨behind, hsegments, hsteps⟩ := segments_name_append not_mem ends
    rw [components_of_name hsegments ne_nil, ← hsteps, more.steps_segments]

/-- Every path writes the steps that are read from it. -/
theorem writes_components (path : Path) : Writes path.bytes path.components := by
  have hbytes := intercalate_segments path.bytes
  obtain ⟨first, more, hsegments⟩ := List.exists_cons_of_ne_nil (segments_ne_nil path.bytes)
  have hno : ∀ segment ∈ first :: more, slash ∉ segment :=
    fun _ hsegment => slash_notMem_of_mem_segments (hsegments ▸ hsegment)
  obtain ⟨hfirst, hmore⟩ := List.forall_mem_cons.1 hno
  rw [hsegments] at hbytes
  cases more with
  | nil =>
    rw [List.intercalate_singleton] at hbytes
    by_cases hnil : first = []
    · rw [components, hsegments, ← hbytes, hnil]
      exact .empty
    · rw [components_of_name hsegments hnil, ← hbytes]
      have hwrites := Writes.relative hnil hfirst stepEnds_nil .done
      rwa [List.append_nil] at hwrites
  | cons next more =>
    rw [intercalate_slash_cons] at hbytes
    have hwrites := writesMore_intercalate hmore
    by_cases hnil : first = []
    · rw [components_of_root (hnil ▸ hsegments) (List.cons_ne_nil _ _), ← hbytes, hnil]
      exact .absolute hwrites
    · rw [components_of_name hsegments hnil, ← hbytes]
      exact .relative hnil hfirst (stepEnds_slash _) (.skipSlash hwrites)

/-- The steps of a path are the ones that its bytes write. -/
theorem components_eq_iff {written : List Component} :
    path.components = written ↔ Writes path.bytes written := by
  constructor
  · rintro rfl
    exact writes_components path
  · exact Writes.components_eq

/-! ## Paths that end in others -/

/-- A path writes the steps of another one behind other steps. -/
def EndsIn (path suffix : Path) : Prop :=
  ∃ before steps, Writes path.bytes (before ++ steps) ∧ Writes suffix.bytes steps

theorem endsIn_iff : path.EndsIn suffix ↔ suffix.components <:+ path.components := by
  constructor
  · rintro ⟨before, steps, hpath, hsuffix⟩
    rw [components_eq_iff.2 hpath, components_eq_iff.2 hsuffix]
    exact List.suffix_append before steps
  · rintro ⟨before, heq⟩
    exact ⟨before, suffix.components, components_eq_iff.1 heq.symm, writes_components suffix⟩

theorem EndsIn.trans {shorter : Path} (h : path.EndsIn suffix) (hsuffix : suffix.EndsIn shorter) :
    path.EndsIn shorter :=
  endsIn_iff.2 ((endsIn_iff.1 hsuffix).trans (endsIn_iff.1 h))

theorem stepStarts_nil : StepStarts [] := by
  simp [StepStarts]

theorem StepStarts.slash {front : List UInt8} (h : StepStarts front) :
    StepStarts (slash :: front) := by
  cases front with
  | nil => simp [StepStarts]
  | cons byte front => simpa [StepStarts] using h

/-- Where no step ends in front of `tail`, one that ends in front of `front ++ tail` does so in
front of a byte of `front`. -/
theorem StepStarts.append {front tail : List UInt8} (h : StepStarts front)
    (hends : StepEnds (front ++ tail)) (htail : ¬StepEnds tail) (name : List UInt8) :
    StepStarts (name ++ front) := by
  cases front with
  | nil => exact absurd hends htail
  | cons byte front => simpa [StepStarts] using h

theorem not_stepEnds_name {name : List UInt8} (hnil : name ≠ []) (hslash : slash ∉ name)
    (behind : List UInt8) : ¬StepEnds (name ++ behind) := by
  obtain ⟨byte, more, rfl⟩ := List.exists_cons_of_ne_nil hnil
  intro hends
  have hbyte : byte = Path.slash := hends byte rfl
  exact hslash (hbyte ▸ List.mem_cons_self)

/-- The last ones of the steps behind the first are written from the start of a step on. -/
theorem WritesMore.exists_tail {bytes : List UInt8} {before written : List Component}
    (h : WritesMore bytes (before ++ written)) (hwritten : written ≠ []) :
    ∃ front tail, bytes = front ++ tail ∧ StepStarts front ∧ ¬StepEnds tail ∧
      Writes tail written := by
  generalize hall : before ++ written = all at h
  induction h generalizing before with
  | done => exact absurd (List.append_eq_nil_iff.1 hall).2 hwritten
  | skipSlash more ih =>
    obtain ⟨front, tail, rfl, hstarts, htail, hwrites⟩ := ih hall
    exact ⟨slash :: front, tail, rfl, hstarts.slash, htail, hwrites⟩
  | skipDot ends more ih =>
    obtain ⟨front, tail, rfl, hstarts, htail, hwrites⟩ := ih hall
    exact ⟨dot ++ front, tail, (List.append_assoc _ _ _).symm, hstarts.append ends htail dot,
      htail, hwrites⟩
  | @name name behind steps ne_nil ne_dot not_mem ends more ih =>
    cases before with
    | nil =>
      subst hall
      exact ⟨[], name ++ behind, rfl, stepStarts_nil, not_stepEnds_name ne_nil not_mem behind,
        .relative ne_nil not_mem ends more⟩
    | cons step before =>
      obtain ⟨front, tail, rfl, hstarts, htail, hwrites⟩ := ih (List.cons.inj hall).2
      exact ⟨name ++ front, tail, (List.append_assoc _ _ _).symm, hstarts.append ends htail name,
        htail, hwrites⟩

/-- A path that writes steps behind others writes them from the start of a step on. -/
theorem Writes.exists_tail {bytes : List UInt8} {before written : List Component}
    (h : Writes bytes (before ++ written)) (hwritten : written ≠ []) :
    ∃ front tail, bytes = front ++ tail ∧ StepStarts front ∧ Writes tail written := by
  cases before with
  | nil => exact ⟨[], bytes, rfl, stepStarts_nil, h⟩
  | cons step before =>
    cases h with
    | absolute more =>
      obtain ⟨front, tail, rfl, hstarts, -, hwrites⟩ := more.exists_tail hwritten
      exact ⟨slash :: front, tail, rfl, hstarts.slash, hwrites⟩
    | @relative name _ _ ne_nil not_mem ends more =>
      obtain ⟨front, tail, rfl, hstarts, htail, hwrites⟩ := more.exists_tail hwritten
      exact ⟨name ++ front, tail, (List.append_assoc _ _ _).symm,
        hstarts.append ends htail name, hwrites⟩

/-- A path ends in the steps of another one from the start of a step to its end, never in the
middle of a step. -/
theorem EndsIn.exists_tail (h : path.EndsIn suffix) :
    ∃ front tail steps, path.bytes = front ++ tail ∧ (tail ≠ [] → StepStarts front) ∧
      Writes tail steps ∧ Writes suffix.bytes steps := by
  obtain ⟨before, steps, hpath, hwrites⟩ := h
  by_cases hsteps : steps = []
  · subst hsteps
    exact ⟨path.bytes, [], [], (List.append_nil _).symm, absurd rfl, .empty, hwrites⟩
  · obtain ⟨front, tail, hbytes, hstarts, htail⟩ := hpath.exists_tail hsteps
    exact ⟨front, tail, steps, hbytes, fun _ => hstarts, htail, hwrites⟩

/-! ## Joined paths -/

/-- What is put between a directory and a relative path is the same for all of them. -/
theorem exists_bytes_join (base : Path) :
    ∃ between : List UInt8, ∀ path : Path, path.isAbsolute = false →
      (base.join path).bytes = base.bytes ++ (between ++ path.bytes) := by
  by_cases hends : base.bytes.isEmpty || base.bytes.getLast? == some slash
  · refine ⟨[], fun path hrelative => ?_⟩
    rw [join, hrelative, if_neg Bool.false_ne_true, if_pos hends, List.nil_append]
  · refine ⟨[slash], fun path hrelative => ?_⟩
    rw [join, hrelative, if_neg Bool.false_ne_true, if_neg hends, List.singleton_append]

theorem prefix_join (h : path.isAbsolute = false) : base.bytes <+: (base.join path).bytes := by
  obtain ⟨between, hbytes⟩ := exists_bytes_join base
  exact ⟨_, (hbytes path h).symm⟩

theorem join_inj (hleft : left.isAbsolute = false) (hright : right.isAbsolute = false) :
    base.join left = base.join right ↔ left = right := by
  obtain ⟨between, hbytes⟩ := exists_bytes_join base
  constructor
  · intro h
    have hjoined := congrArg Path.bytes h
    rw [hbytes left hleft, hbytes right hright, List.append_cancel_left_eq,
      List.append_cancel_left_eq] at hjoined
    exact congrArg Path.mk hjoined
  · exact congrArg base.join

theorem bytes_ofString_append (text more : String) :
    (ofString (text ++ more)).bytes = (ofString text).bytes ++ (ofString more).bytes := by
  simp [ofString]

/-! ## Plain paths -/

/-- The steps of an absolute path whose slashes and dots all count. -/
structure PlainSteps (path : Path) (names : List (List UInt8)) : Prop where
  segments_eq : segments path.bytes = [] :: names
  ne_nil : names ≠ []
  name_ne : ∀ name ∈ names, name ≠ [] ∧ name ≠ dot

/-- An absolute path with no repeated slash, no slash at the end and no `.` step. -/
def Plain (path : Path) : Prop :=
  ∃ names, path.PlainSteps names

theorem PlainSteps.components_eq {names : List (List UInt8)} (h : path.PlainSteps names) :
    path.components = .root :: names.map .name := by
  rw [components_of_root h.segments_eq h.ne_nil, steps, List.filter_eq_self.2]
  intro name hname
  obtain ⟨hne, hdot⟩ := h.name_ne name hname
  simp [hne, hdot]

/-- A plain path that another one ends in is this path, byte for byte. -/
theorem Plain.eq_of_suffix (hleft : left.Plain) (hright : right.Plain)
    (h : left.components <:+ right.components) : left = right := by
  obtain ⟨leftNames, hleft⟩ := hleft
  obtain ⟨rightNames, hright⟩ := hright
  rw [hleft.components_eq, hright.components_eq, List.suffix_cons_iff] at h
  rcases h with heq | hinside
  · have hnames : leftNames = rightNames :=
      (List.map_inj_right fun _ _ => Component.name.inj).1 (List.cons.inj heq).2
    have hsegments : segments left.bytes = segments right.bytes := by
      rw [hleft.segments_eq, hright.segments_eq, hnames]
    exact congrArg Path.mk (segments_injective hsegments)
  · -- A root is no step after the first one.
    have hroot : Component.root ∈ rightNames.map .name := hinside.subset List.mem_cons_self
    simp at hroot

end BuildFacts.Path
