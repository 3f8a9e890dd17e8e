import BuildFacts.CompileDatabase
import BuildFacts.Proofs.Json.Printed
import BuildFacts.Proofs.Outcome

/-!
# Databases as texts

A database has a text exactly if each of its paths has one, and the text is read
back as the same database (`ofText_toText`).

The text is read while it is scanned.  So each decoder is followed on the outline
of the value that was printed: a text, a list, and a record member by member.
-/

namespace BuildFacts

open Json

/-! ## Decoders on printed values -/

namespace Json

variable {α : Type} {depth : Nat}

theorem Decoder.fromOutline_text (expected s : String) :
    (Decoder.text expected).fromOutline depth (Value.string s).outline = .ok s :=
  StringLiteral.text_printed s

/-- Data that is not printed as `null` is taken as it is. -/
theorem Decoder.fromOutline_optional {decoder : Decoder α} {value : Value} {a : α}
    (hnull : value ≠ .null) (h : decoder.fromOutline depth value.outline = .ok a) :
    decoder.optional.fromOutline depth value.outline = .ok (some a) := by
  have hother : decoder.optional.fromOutline depth value.outline =
      some <$> decoder.fromOutline depth value.outline := by
    cases value with
    | null => exact absurd rfl hnull
    | bool b => cases b <;> rfl
    | _ => rfl
  rw [hother, h]
  rfl

/-- A list is taken item by item. -/
theorem Decoder.fromOutline_list {decoder : Decoder α} {values : List Value} {items : List α}
    (h : List.Forall₂ (fun value a => decoder.fromOutline depth value.outline = .ok a)
      values items) :
    decoder.list.fromOutline (depth + 1) (Value.array values).outline = .ok items := by
  rw [Decoder.list, Value.outline]
  show Decoder.items (decoder.fromOutline depth) (Value.itemsOutline values) = .ok items
  induction h with
  | nil => rfl
  | cons hfirst _ ih =>
    rw [Value.itemsOutline, Decoder.items, hfirst, ih]
    rfl

namespace Record

variable {σ : Type} {record : Record σ} {seen : List String} {state : σ} {name : String}
  {rest : List (String × Value)}

/-- A member of a field makes the change of the field. -/
theorem readMembers_member {field : Field σ} {value : Value} {change : σ → σ}
    (hfield : record.field? name = some field) (hseen : name ∉ seen)
    (hchange : field.change.fromOutline depth value.outline = .ok change) :
    record.readMembers depth seen state (Value.membersOutline ((name, value) :: rest)) =
      record.readMembers depth (name :: seen) (change state) (Value.membersOutline rest) := by
  have hcontains : seen.contains name = false := by simpa using hseen
  rw [Value.membersOutline, readMembers, StringLiteral.text_printed]
  simp only [bind, Except.bind, hfield, hcontains, Bool.false_eq_true, if_false, hchange]

/-- A member that is written only where there is data makes the change of its field in
either case, where the record starts without the data. -/
theorem readMembers_member? {α β : Type} {data : Option α} {encode : α → Value} {decode : α → β}
    {decoder : Decoder β} {set : Option β → σ → σ}
    (hfield : record.field? name = some (.optional name decoder.optional set))
    (hseen : name ∉ seen) (hstate : set none state = state)
    (hnull : ∀ a, encode a ≠ .null)
    (hread : ∀ a, decoder.fromOutline depth (encode a).outline = .ok (decode a)) :
    record.readMembers depth seen state
        (Value.membersOutline (CompileCommand.member? name (data.map encode) ++ rest)) =
      record.readMembers depth (if data.isSome then name :: seen else seen)
        (set (data.map decode) state) (Value.membersOutline rest) := by
  cases data with
  | none =>
    rw [Option.map_none, Option.map_none, hstate]
    rfl
  | some a =>
    have hchange : (Field.optional name decoder.optional set).change.fromOutline depth
        (encode a).outline = .ok (set (some (decode a))) := by
      simp only [Field.optional, Decoder.map, Decoder.fromOutline_optional (hnull a) (hread a)]
      rfl
    exact readMembers_member hfield hseen hchange

end Record

end Json

/-! ## Commands -/

namespace CompileCommand

/-- The paths of a command. -/
def paths (command : CompileCommand) : List Path :=
  command.directory :: command.file :: command.output.toList

/-- A command whose paths are texts. -/
def ofTexts (directory file : String) (command : Option String)
    (arguments : Option (List String)) (output : Option String) : CompileCommand :=
  ⟨.ofString directory, .ofString file, command, arguments, output.map .ofString⟩

/-- The members of a command whose paths are texts. -/
def membersOfTexts (directory file : String) (command : Option String)
    (arguments : Option (List String)) (output : Option String) : List (String × Value) :=
  ("directory", .string directory) :: ("file", .string file) ::
    (member? "command" (command.map .string) ++
      (member? "arguments" (arguments.map fun list => .array (list.map .string)) ++
        (member? "output" (output.map .string) ++ [])))

theorem fromOutline_pathDecoder (depth : Nat) (text : String) :
    pathDecoder.fromOutline depth (Value.string text).outline = .ok (.ofString text) := by
  simp only [pathDecoder, Decoder.map, Decoder.fromOutline_text]
  rfl

theorem fromOutline_arguments (depth : Nat) (arguments : List String) :
    Decoder.string.list.fromOutline (depth + 1) (Value.array (arguments.map .string)).outline =
      .ok arguments := by
  apply Decoder.fromOutline_list
  rw [List.forall₂_map_left_iff, List.forall₂_same]
  exact fun text _ => Decoder.fromOutline_text _ text

/-- Takes a command from what it was printed as. -/
theorem fromOutline_membersOfTexts (depth : Nat) (directory file : String)
    (command : Option String) (arguments : Option (List String)) (output : Option String) :
    record.decoder.fromOutline (depth + 2)
        (Value.object (membersOfTexts directory file command arguments output)).outline =
      .ok (ofTexts directory file command arguments output) := by
  have hpath (name text : String) (set : Path → CompileCommand → CompileCommand) :
      (Field.mandatory name pathDecoder set).change.fromOutline (depth + 1)
        (Value.string text).outline = .ok (set (.ofString text)) := by
    simp only [Field.mandatory, Decoder.map, fromOutline_pathDecoder]
    rfl
  rw [Value.outline, membersOfTexts]
  show record.readMembers (depth + 1) [] record.initial _ = _
  rw [Record.readMembers_member rfl (by simp) (hpath "directory" directory _),
    Record.readMembers_member rfl (by simp) (hpath "file" file _),
    Record.readMembers_member? rfl (by simp) rfl nofun (Decoder.fromOutline_text _),
    Record.readMembers_member? rfl (by cases command <;> simp) rfl nofun
      (fromOutline_arguments depth),
    Record.readMembers_member? rfl (by cases command <;> cases arguments <;> simp) rfl nofun
      (fromOutline_pathDecoder (depth + 1))]
  cases command <;> cases arguments <;> cases output <;> rfl

theorem numberFree_membersOfTexts (directory file : String) (command : Option String)
    (arguments : Option (List String)) (output : Option String) :
    (Value.object (membersOfTexts directory file command arguments output)).NumberFree := by
  apply Value.NumberFree.object
  rw [membersOfTexts, List.forall_mem_cons, List.forall_mem_cons]
  refine ⟨.string _, .string _, ?_⟩
  have harguments (list : List String) : (Value.array (list.map .string)).NumberFree := by
    apply Value.NumberFree.array
    rw [List.forall_mem_map]
    exact fun text _ => .string text
  have hdata {α : Type} (name : String) (data : Option α) (encode : α → Value)
      (hencode : ∀ a, (encode a).NumberFree) :
      ∀ member ∈ member? name (data.map encode), member.2.NumberFree := by
    cases data with
    | none => exact List.forall_mem_nil _
    | some a => exact List.forall_mem_singleton.2 (hencode a)
  simp only [List.forall_mem_append]
  exact ⟨hdata _ _ _ .string, hdata _ _ _ harguments, hdata _ _ _ .string, List.forall_mem_nil _⟩

theorem pathValue_ofString (text : String) : pathValue (.ofString text) = .ok (.string text) := by
  rw [pathValue, Path.text?_ofString]

theorem toValue_ofTexts (directory file : String) (command : Option String)
    (arguments : Option (List String)) (output : Option String) :
    (ofTexts directory file command arguments output).toValue =
      .ok (.object (membersOfTexts directory file command arguments output)) := by
  have houtput : (output.map Path.ofString).mapM pathValue = .ok (output.map .string) := by
    cases output with
    | none => rfl
    | some text => simp [pathValue_ofString, Functor.map, Except.map]
  simp only [toValue, ofTexts, pathValue_ofString, houtput, membersOfTexts]
  simp [bind, Except.bind, pure, Except.pure]

/-- A command whose paths have texts, and which is taken back from the value that it is
written as. -/
structure Writable (command : CompileCommand) : Prop where
  texts : ∀ path ∈ command.paths, path.text? ≠ none
  written : ∃ value, command.toValue = .ok value ∧ value.NumberFree ∧
    ∀ depth, record.decoder.fromOutline (depth + 2) value.outline = .ok command

theorem writable_ofTexts (directory file : String) (command : Option String)
    (arguments : Option (List String)) (output : Option String) :
    (ofTexts directory file command arguments output).Writable where
  texts := by cases output <;> simp [ofTexts, paths, Path.text?_ofString]
  written := ⟨_, toValue_ofTexts directory file command arguments output,
    numberFree_membersOfTexts directory file command arguments output,
    fun depth => fromOutline_membersOfTexts depth directory file command arguments output⟩

/-- A command is writable, or it has a path without a text. -/
theorem writable_or_toValue_eq_error (command : CompileCommand) :
    command.Writable ∨
      (command.toValue = .error .unwritablePath ∧ ∃ path ∈ command.paths, path.text? = none) := by
  obtain ⟨directory, file, text, arguments, output⟩ := command
  cases hdirectory : directory.text? with
  | none =>
    refine .inr ⟨?_, directory, by simp [paths], hdirectory⟩
    simp [toValue, pathValue, hdirectory, bind, Except.bind]
  | some directoryText =>
    obtain rfl := Path.ofString_of_text? hdirectory
    cases hfile : file.text? with
    | none =>
      refine .inr ⟨?_, file, by simp [paths], hfile⟩
      simp [toValue, pathValue, hdirectory, hfile, bind, Except.bind]
    | some fileText =>
      obtain rfl := Path.ofString_of_text? hfile
      cases output with
      | none => exact .inl (writable_ofTexts directoryText fileText text arguments none)
      | some output =>
        cases houtput : output.text? with
        | none =>
          refine .inr ⟨?_, output, by simp [paths], houtput⟩
          simp [toValue, pathValue, hdirectory, hfile, houtput, bind, Except.bind, Functor.map,
            Except.map]
        | some outputText =>
          obtain rfl := Path.ofString_of_text? houtput
          exact .inl (writable_ofTexts directoryText fileText text arguments (some outputText))

end CompileCommand

/-! ## Databases -/

namespace CompileDatabase

/-- A database of writable commands has a text, which is read back as the database. -/
theorem exists_toText_of_writable {database : CompileDatabase}
    (h : ∀ command ∈ database.commands, command.Writable) :
    ∃ text, database.toText = .ok text ∧ ofText text = .ok database := by
  obtain ⟨values, hvalues⟩ := exists_forall₂_iff.2 fun command hcommand =>
    (h command hcommand).written
  have hwritten : database.commands.mapM CompileCommand.toValue = .ok values :=
    mapM_eq_ok_iff.2 (hvalues.imp fun _ _ hvalue => hvalue.1)
  have hfree : (Value.array values).NumberFree := by
    apply Value.NumberFree.array
    intro value hvalue
    obtain ⟨_, _, hfree, _⟩ := exists_forall₂_iff.1 ⟨_, hvalues.flip⟩ value hvalue
    exact hfree
  have hread : CompileCommand.record.decoder.list.fromOutline maxDepth
      (Value.array values).outline = .ok database.commands :=
    Decoder.fromOutline_list (hvalues.flip.imp fun _ _ hvalue => hvalue.2.2 124)
  refine ⟨String.ofList (Value.array values).pretty, ?_, ?_⟩
  · rw [toText, hwritten]
    rfl
  · rw [ofText, Decoder.read, Value.readAll_pretty hfree, hread]

/-- A database with a path that has no text has none. -/
theorem toText_of_mem_paths {database : CompileDatabase} {command : CompileCommand} {path : Path}
    (hcommand : command ∈ database.commands) (hpath : path ∈ command.paths)
    (h : path.text? = none) : database.toText = .error .unwritablePath := by
  rw [toText]
  cases hvalues : database.commands.mapM CompileCommand.toValue with
  | ok values =>
    obtain ⟨value, hvalue⟩ := exists_forall₂_iff.1 ⟨_, mapM_eq_ok_iff.1 hvalues⟩ command hcommand
    rcases command.writable_or_toValue_eq_error with hwritable | ⟨herror, _⟩
    · exact absurd h (hwritable.texts path hpath)
    · simp [herror] at hvalue
  | error error =>
    obtain ⟨_, first, _, _, _, hfirst⟩ := mapM_eq_error_iff.1 hvalues
    rcases first.writable_or_toValue_eq_error with hwritable | ⟨herror, _⟩
    · obtain ⟨value, hvalue, _⟩ := hwritable.written
      simp [hvalue] at hfirst
    · obtain rfl := Except.error.inj (herror.symm.trans hfirst)
      rfl

/-- Writing a database fails exactly if one of its paths has no text, and what is
written is read back as the database. -/
theorem ofText_toText (database : CompileDatabase) :
    (∀ error, database.toText = .error error ↔
      error = .unwritablePath ∧
        ∃ command ∈ database.commands, ∃ path ∈ command.paths, path.text? = none) ∧
    ∀ text, database.toText = .ok text → ofText text = .ok database := by
  by_cases h : ∃ command ∈ database.commands, ∃ path ∈ command.paths, path.text? = none
  · obtain ⟨command, hcommand, path, hpath, hnone⟩ := h
    rw [toText_of_mem_paths hcommand hpath hnone]
    refine ⟨fun error => ?_, nofun⟩
    rw [Except.error.injEq, eq_comm]
    exact (and_iff_left ⟨command, hcommand, path, hpath, hnone⟩).symm
  · have hwritable : ∀ command ∈ database.commands, command.Writable := by
      intro command hcommand
      rcases command.writable_or_toValue_eq_error with hwritable | ⟨_, path, hpath, hnone⟩
      · exact hwritable
      · exact absurd ⟨command, hcommand, path, hpath, hnone⟩ h
    obtain ⟨text, htext, hread⟩ := exists_toText_of_writable hwritable
    rw [htext]
    refine ⟨fun error => iff_of_false nofun fun hboth => h hboth.2, fun text' htext' => ?_⟩
    obtain rfl := Except.ok.inj htext'
    exact hread

/-- Two commands, with quotes and control characters in their data, and without some of
it. -/
def quotedDatabase : CompileDatabase where
  commands :=
    [⟨.ofString "", .ofString "a \"b\"\\\n.c", some "cc \x01\x7f", some [], none⟩,
      ⟨.ofString "/b", .ofString "é.c", none, some ["", "\t"], some (.ofString "é.o")⟩]

theorem ofText_toText_quotedDatabase :
    ∃ text, quotedDatabase.toText = .ok text ∧ ofText text = .ok quotedDatabase := by
  have hwritable : ∀ command ∈ quotedDatabase.commands, command.Writable := by
    rw [quotedDatabase, List.forall_mem_cons, List.forall_mem_singleton]
    exact ⟨CompileCommand.writable_ofTexts _ _ _ _ none,
      CompileCommand.writable_ofTexts _ _ _ _ (some "é.o")⟩
  obtain ⟨text, htext, _⟩ := exists_toText_of_writable hwritable
  exact ⟨text, htext, (ofText_toText quotedDatabase).2 text htext⟩

end CompileDatabase

end BuildFacts
