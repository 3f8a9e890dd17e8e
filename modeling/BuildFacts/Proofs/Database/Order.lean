import BuildFacts.Proofs.Database.Export
import BuildFacts.Proofs.Document.Order

/-!
# Databases of documents in another order

The database of a document has a block of commands for each target.  A document that holds its
targets in another order has the same blocks, in that order (`CompileDatabase.Regrouped`).

`Document.ofValue_rearranged` puts together what a payload and a rearranged one have in common.
-/

namespace BuildFacts

open Json

namespace CompileDatabase

variable {d d' : Document} {directory : Path}

/-- A database has the commands of the targets, target by target. -/
theorem result_ofDocument_eq_map_flatten : (ofDocument d directory).result =
    (fun blocks => ⟨blocks.flatten⟩) <$>
      d.targets.mapM fun entry => (commandsOf d directory entry.2).result := by
  simp only [ofDocument, Traced.result_bind, Traced.result_mapM]
  cases d.targets.mapM fun entry => (commandsOf d directory entry.2).result <;> rfl

/-- The commands of a target, or none where they cannot be made. -/
def block (d : Document) (directory : Path) (target : Target) : List CompileCommand :=
  (commandsOf d directory target).result.toOption.getD []

/-- Two databases of documents have the same commands.  The commands of a target stand together,
and in the same order in either database. -/
structure Regrouped (d d' : Document) (directory : Path) (made made' : CompileDatabase) :
    Prop where
  perm : made.commands.Perm made'.commands
  commandsOf : ∀ entry ∈ d.targets,
    (commandsOf d directory entry.2).result = .ok (block d directory entry.2)
  commands : made.commands = d.targets.flatMap fun entry => block d directory entry.2
  commands' : made'.commands = d'.targets.flatMap fun entry => block d directory entry.2

/-- Where the commands of all targets are made, they are the blocks of the targets. -/
theorem commandsOf_of_mapM {targets : Table Target} {blocks : List (List CompileCommand)}
    (h : (targets.mapM fun entry => (commandsOf d directory entry.2).result) = .ok blocks) :
    (∀ entry ∈ targets, (commandsOf d directory entry.2).result =
      .ok (block d directory entry.2)) ∧
    blocks.flatten = targets.flatMap fun entry => block d directory entry.2 := by
  have hblock {entry : String × Target} {commands : List CompileCommand}
      (hcommands : (commandsOf d directory entry.2).result = .ok commands) :
      block d directory entry.2 = commands := by
    rw [block, hcommands]
    rfl
  have hblocks := mapM_eq_ok_iff.1 h
  clear h
  induction hblocks with
  | nil => simp
  | @cons entry commands targets blocks hfirst _ ih =>
    rw [List.forall_mem_cons, List.flatten_cons, List.flatMap_cons, ih.2, hblock hfirst]
    exact ⟨⟨hfirst, ih.1⟩, rfl⟩

/-- Documents that differ in the order of their targets have databases that differ in the order
of the targets, or neither has one. -/
theorem ofDocument_reordered (hloaded : d.Loaded) (h : d.Reordered d') :
    BothEnd (Regrouped d d' directory) (ofDocument d directory).result
      (ofDocument d' directory).result := by
  have hanswers := Document.answersAlike_of_reordered hloaded h
  have hcommandsOf : commandsOf d' directory = commandsOf d directory := by
    funext target
    simp only [commandsOf, hanswers.command]
  rw [result_ofDocument_eq_map_flatten, result_ofDocument_eq_map_flatten, hcommandsOf]
  refine (EndAlike.mapM_perm h.targets).map_ok fun blocks blocks' hblocks hblocks' hperm => ?_
  obtain ⟨hcommands, hflatten⟩ := commandsOf_of_mapM hblocks
  obtain ⟨_, hflatten'⟩ := commandsOf_of_mapM hblocks'
  exact ⟨hperm.flatten, hcommands, hflatten, hflatten'⟩

end CompileDatabase

namespace Document

/-- The order of members does not matter.  A payload and a rearranged one either both fail to
load, with errors of one kind, or both load.  The documents then hold the same targets and source
files, answer every question alike, and have databases with the same commands target by
target. -/
theorem ofValue_rearranged {value value' : Value} (hkeys : value.KeysDistinct)
    (h : value.Rearranged value') :
    EndAlike Error.SameKind
      (fun d d' => d.Reordered d' ∧ d.AnswersAlike d' ∧ ∀ directory,
        BothEnd (CompileDatabase.Regrouped d d' directory)
          (CompileDatabase.ofDocument d directory).result
          (CompileDatabase.ofDocument d' directory).result)
      (ofValue value).result (ofValue value').result := by
  refine (ofValue_reordered hkeys h).imp_ok fun d d' hvalue _ hreordered => ?_
  have hloaded : d.Loaded := .ofValue hvalue
  exact ⟨hreordered, answersAlike_of_reordered hloaded hreordered,
    fun _ => CompileDatabase.ofDocument_reordered hloaded hreordered⟩

/-- A payload with two targets, and one with its members in another order. -/
def crossedPayload : Value :=
  .object
    [("c_compiler", .string "cc"),
      ("targets", .object
        [("a", .object
          [("object_sources_c", .array [.string "x.c", .string "y.c"]),
            ("compile_definitions", .string "A 'B C'")]),
          ("b", .object
          [("name", .string "a"), ("object_sources_c", .array [.string "x.c"])])])]

@[inherit_doc crossedPayload]
def crossedPayload' : Value :=
  .object
    [("targets", .object
        [("b", .object
          [("object_sources_c", .array [.string "x.c"]), ("name", .string "a")]),
          ("a", .object
          [("compile_definitions", .string "A 'B C'"),
            ("object_sources_c", .array [.string "x.c", .string "y.c"])])]),
      ("c_compiler", .string "cc")]

theorem rearranged_crossedPayload : crossedPayload.Rearranged crossedPayload' := by
  have hfiles (names : List String) : (Value.array (names.map .string)).Rearranged
      (.array (names.map .string)) := by
    refine Value.rearranged_array_iff.2 ⟨_, rfl, List.forall₂_same.2 fun value hmem => ?_⟩
    obtain ⟨name, _, rfl⟩ := List.mem_map.1 hmem
    exact .string name
  -- Each object has two members, and they change places.
  exact .swap (.string _)
    (.swap (.swap (hfiles ["x.c", "y.c"]) (.string _)) (.swap (.string _) (hfiles ["x.c"])))

theorem ofValue_rearranged_crossedPayload :
    ∃ d d', (ofValue crossedPayload).result = .ok d ∧ (ofValue crossedPayload').result = .ok d' ∧
      d.targets.keys = ["a", "b"] ∧ d'.targets.keys = ["b", "a"] ∧ d.AnswersAlike d' ∧
      ∃ made made', CompileDatabase.Regrouped d d' (.ofString "/b") made made' ∧
        made.commands.length = 3 := by
  have hkeys : crossedPayload.KeysDistinct := by simp [crossedPayload, Table.keys]
  have hboth := ofValue_rearranged hkeys rearranged_crossedPayload
  obtain ⟨d, hd, hfound⟩ : ∃ d, (ofValue crossedPayload).result = .ok d ∧
      (d.targets.keys, (CompileDatabase.ofDocument d (.ofString "/b")).result.toOption.map
        fun made => made.commands.length) = (["a", "b"], some 3) :=
    map_toOption_eq_some_iff.1 (by decide +kernel)
  obtain ⟨d', hd', hkeys'⟩ : ∃ d', (ofValue crossedPayload').result = .ok d' ∧
      d'.targets.keys = ["b", "a"] :=
    map_toOption_eq_some_iff.1 (by decide +kernel)
  obtain ⟨hkeys, hmade⟩ := Prod.mk.inj hfound
  obtain ⟨made, hmade, hlength⟩ := map_toOption_eq_some_iff.1 hmade
  rw [hd, hd'] at hboth
  cases hboth with
  | ok h =>
    obtain ⟨_, hanswers, hdatabases⟩ := h
    have hdatabase := hdatabases (.ofString "/b")
    rw [hmade] at hdatabase
    cases hmade' : (CompileDatabase.ofDocument d' (.ofString "/b")).result with
    | error e =>
      rw [hmade'] at hdatabase
      exact nomatch hdatabase
    | ok made' =>
      rw [hmade'] at hdatabase
      cases hdatabase with
      | ok hregrouped =>
        exact ⟨d, d', hd, hd', hkeys, hkeys', hanswers, made, made', hregrouped, hlength⟩

end Document

end BuildFacts
