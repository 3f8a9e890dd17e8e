import BuildFacts.Proofs.Database.Lookup

/-!
# Lookups by the end of a path

A lookup answers a path with the first command whose file ends in the steps of
the path (`findIndex?_eq_some_iff`), and with none if no file does
(`find?_eq_none_iff`).  So a path with fewer steps is found no later than a path
that ends in it (`exists_findIndex?_le`).  `find?_answers_first` puts the laws
together.
-/

namespace BuildFacts.CompileDatabase

variable {database : CompileDatabase} {path shorter : Path} {command : CompileCommand}
  {index : Nat}

/-- The first command of a database whose file ends in the steps of a path, and its index. -/
structure FirstEnding (database : CompileDatabase) (path : Path) (index : Nat)
    (command : CompileCommand) : Prop where
  getElem?_eq : database.commands[index]? = some command
  endsIn : command.file.EndsIn path
  least : ∀ other found, database.commands[other]? = some found → found.file.EndsIn path →
    index ≤ other

theorem names_iff_endsIn : names path command ↔ command.file.EndsIn path := by
  rw [names_iff, Path.endsIn_iff]

theorem findIndex?_eq_some_iff :
    database.findIndex? path = some index ↔ ∃ command, database.FirstEnding path index command := by
  rw [findIndex?, List.findIdx?_eq_some_iff_getElem]
  constructor
  · rintro ⟨hlt, hnames, hbefore⟩
    refine ⟨database.commands[index], List.getElem?_eq_getElem hlt, names_iff_endsIn.1 hnames, ?_⟩
    intro other found hfound hends
    obtain ⟨_, rfl⟩ := List.getElem?_eq_some_iff.1 hfound
    exact Nat.le_of_not_lt fun hless => hbefore other hless (names_iff_endsIn.2 hends)
  · rintro ⟨command, hgetElem, hends, hleast⟩
    obtain ⟨hlt, rfl⟩ := List.getElem?_eq_some_iff.1 hgetElem
    refine ⟨hlt, names_iff_endsIn.2 hends, ?_⟩
    intro place hless hnames
    have hplace := List.getElem?_eq_getElem (Nat.lt_trans hless hlt)
    have hle := hleast place _ hplace (names_iff_endsIn.1 hnames)
    omega

theorem findIndex?_and_find?_iff :
    database.findIndex? path = some index ∧ database.find? path = some command ↔
      database.FirstEnding path index command := by
  constructor
  · rintro ⟨hindex, hfind⟩
    obtain ⟨found, hfirst⟩ := findIndex?_eq_some_iff.1 hindex
    rw [find?_eq_of_findIndex? hindex, hfirst.getElem?_eq, Option.some.injEq] at hfind
    exact hfind ▸ hfirst
  · intro hfirst
    have hindex := findIndex?_eq_some_iff.2 ⟨command, hfirst⟩
    exact ⟨hindex, by rw [find?_eq_of_findIndex? hindex, hfirst.getElem?_eq]⟩

theorem find?_eq_none_iff :
    database.find? path = none ↔ ∀ command ∈ database.commands, ¬command.file.EndsIn path := by
  rw [find?, List.find?_eq_none]
  exact forall₂_congr fun _ _ => not_congr names_iff_endsIn

theorem findIndex?_eq_none_iff :
    database.findIndex? path = none ↔ ∀ command ∈ database.commands, ¬command.file.EndsIn path := by
  rw [findIndex?, List.findIdx?_eq_none_iff]
  exact forall₂_congr fun _ _ => by rw [← Bool.not_eq_true, names_iff_endsIn]

/-- A path that another one ends in is found no later than this other one. -/
theorem exists_findIndex?_le (h : path.EndsIn shorter)
    (hindex : database.findIndex? path = some index) :
    ∃ sooner ≤ index, database.findIndex? shorter = some sooner := by
  obtain ⟨command, hcommand, hends, -⟩ := findIndex?_eq_some_iff.1 hindex
  have hshorter : command.file.EndsIn shorter := hends.trans h
  cases hsooner : database.findIndex? shorter with
  | none =>
    have hmem := List.mem_of_getElem? hcommand
    exact absurd hshorter (findIndex?_eq_none_iff.1 hsooner command hmem)
  | some sooner =>
    obtain ⟨_, -, -, hleast⟩ := findIndex?_eq_some_iff.1 hsooner
    exact ⟨sooner, hleast index command hcommand hshorter, rfl⟩

/-- A lookup answers a path with the first command whose file ends in the steps of the path, and
with none if there is no such file.  A path that this one ends in is found no later.  A file that
is found writes the steps from the start of one of its own steps to its end. -/
theorem find?_answers_first (database : CompileDatabase) (path : Path) :
    (∀ index command,
      database.findIndex? path = some index ∧ database.find? path = some command ↔
        database.FirstEnding path index command) ∧
    (database.findIndex? path = none ↔
      ∀ command ∈ database.commands, ¬command.file.EndsIn path) ∧
    (database.find? path = none ↔ ∀ command ∈ database.commands, ¬command.file.EndsIn path) ∧
    (∀ shorter, path.EndsIn shorter → ∀ index, database.findIndex? path = some index →
      ∃ sooner ≤ index, database.findIndex? shorter = some sooner) ∧
    (∀ command, database.find? path = some command →
      ∃ front tail steps, command.file.bytes = front ++ tail ∧
        (tail ≠ [] → Path.StepStarts front) ∧
        Path.Writes tail steps ∧ Path.Writes path.bytes steps) := by
  refine ⟨fun _ _ => findIndex?_and_find?_iff, findIndex?_eq_none_iff, find?_eq_none_iff,
    fun _ h _ => exists_findIndex?_le h, ?_⟩
  intro command hfind
  have hends : command.file.EndsIn path := names_iff_endsIn.1 (List.find?_some hfind)
  exact hends.exists_tail

/-- Commands for files, one for each. -/
def ofFiles (files : List String) : CompileDatabase :=
  ⟨files.map fun file => ⟨.ofString "/b", .ofString file, none, some ["cc"], none⟩⟩

/-- `data.cpp` is no `a.cpp`, whereas `/p//src/./a.cpp/` ends in `src/a.cpp`. -/
theorem find?_answers_first_ofFiles :
    (ofFiles ["data.cpp", "/p//src/./a.cpp/", "a.cpp"]).findIndex? (.ofString "src//a.cpp") =
        some 1 ∧
      ∃ sooner ≤ 1,
        (ofFiles ["data.cpp", "/p//src/./a.cpp/", "a.cpp"]).findIndex? (.ofString "a.cpp") =
          some sooner := by
  obtain ⟨-, -, -, hsooner, -⟩ :=
    find?_answers_first (ofFiles ["data.cpp", "/p//src/./a.cpp/", "a.cpp"]) (.ofString "src//a.cpp")
  have hindex : (ofFiles ["data.cpp", "/p//src/./a.cpp/", "a.cpp"]).findIndex?
      (.ofString "src//a.cpp") = some 1 := by
    decide +kernel
  have hends : (Path.ofString "src//a.cpp").EndsIn (.ofString "a.cpp") := by
    rw [Path.endsIn_iff]
    decide +kernel
  exact ⟨hindex, hsooner _ hends 1 hindex⟩

end BuildFacts.CompileDatabase
