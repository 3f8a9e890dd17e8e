import BuildFacts.Proofs.Json.Printed
import BuildFacts.Proofs.Outcome
import BuildFacts.Session

/-!
# Loading, stage by stage

A payload goes through two texts that are parsed, a check against the schema, and the decoding.
`Document.result_loadTexts` says so for two texts.

The check lets a payload pass or stops it, and does nothing else (`Document.ValidationFilters`).
Loading two files adds the reading of each.  What is reported is the first stage at which
something is wrong, where `Document.Trouble` says of each stage on its own what is wrong there
(`Document.ReportsFirst`).  `Document.validation_filters` is the result.
-/

namespace BuildFacts

/-! ## Files -/

theorem FileTree.read_of_find {tree : FileTree} {path : Path} {text : String}
    (h : tree.find path = .ok (.file (Path.ofString text).bytes)) : tree.read path = .ok text := by
  have htext : Path.text? ⟨(Path.ofString text).bytes⟩ = some text := Path.text?_ofString text
  rw [FileTree.read, h]
  simp only [bind, Except.bind, htext]
  rfl

namespace Document

/-! ## Two texts -/

/-- The steps of loading two texts. -/
theorem result_loadTexts (payload schema : String) (validation : Validation) :
    (loadTexts payload schema validation).result = (do
      let root ← (Schema.parse schema).mapError (Error.malformed .schema)
      let value ← (Json.parse payload).mapError (Error.malformed .metadata)
      (check validation root value).result
      (ofValue value).result) := by
  have hreport (run : Except Error Document) :
      (do let document ← run; Except.ok (); Except.ok document) = run := by
    cases run <;> rfl
  simp [loadTexts, hreport]

/-- Checking a payload ends well, or with the first violation of the schema. -/
theorem result_check_structural (root : Schema) (value : Json.Value) :
    (check .structural root value).result = .ok () ∧ (root.validate value).violation = none ∨
      ∃ violation, (check .structural root value).result = .error violation.error ∧
        (root.validate value).violation = some violation := by
  simp only [check, Schema.enforce]
  cases (root.validate value).violation with
  | none => exact .inl ⟨rfl, rfl⟩
  | some violation => exact .inr ⟨violation, rfl, rfl⟩

/-- The payload breaks a rule of the schema, and the error reports the first one. -/
def Violated (payload schema : String) (error : Error) : Prop :=
  ∃ root value violation, Schema.parse schema = .ok root ∧ Json.parse payload = .ok value ∧
    (root.validate value).violation = some violation ∧ error = violation.error

/-- How the check changes the loading of a payload. -/
structure ValidationFilters (payload : String) : Prop where
  /-- Without the check, all schemas that can be parsed are the same. -/
  off : ∀ {schema schema' root root'}, Schema.parse schema = .ok root →
    Schema.parse schema' = .ok root' →
    loadTexts payload schema .off = loadTexts payload schema' .off
  /-- A schema that cannot be parsed is reported, with the check or without it. -/
  malformed : ∀ {schema fault validation}, Schema.parse schema = .error fault →
    (loadTexts payload schema validation).result = .error (.malformed .schema fault)
  /-- What is loaded with the check is loaded without it. -/
  passes : ∀ {schema document}, (loadTexts payload schema .structural).result = .ok document →
    (loadTexts payload schema .off).result = .ok document
  /-- Loading with the check ends as loading without it, unless the check stops the payload. -/
  stops : ∀ schema, (loadTexts payload schema .structural).result =
      (loadTexts payload schema .off).result ∨
    ∃ error, (loadTexts payload schema .structural).result = .error error ∧
      Violated payload schema error

/-- Loading with the check ends as loading without it, unless the check stops the payload. -/
theorem result_structural (payload schema : String) :
    (loadTexts payload schema .structural).result = (loadTexts payload schema .off).result ∨
      ∃ error, (loadTexts payload schema .structural).result = .error error ∧
        Violated payload schema error := by
  simp only [result_loadTexts]
  cases hroot : Schema.parse schema with
  | error fault => exact .inl rfl
  | ok root =>
    cases hvalue : Json.parse payload with
    | error fault => exact .inl rfl
    | ok value =>
      rcases result_check_structural root value with ⟨hcheck, _⟩ | ⟨violation, hcheck, hviolation⟩
      · left
        show ((check .structural root value).result >>= _) = _
        rw [hcheck]
        rfl
      · right
        refine ⟨violation.error, ?_, root, value, violation, hroot, hvalue, hviolation, rfl⟩
        show ((check .structural root value).result >>= _) = _
        rw [hcheck]
        rfl

theorem validationFilters (payload : String) : ValidationFilters payload where
  off hroot hroot' := by
    rw [loadTexts, loadTexts, hroot, hroot']
    rfl
  malformed hroot := by
    rw [result_loadTexts, hroot]
    rfl
  passes hdocument := by
    rcases result_structural payload _ with hsame | ⟨error, herror, _⟩
    · rw [← hsame, hdocument]
    · exact nomatch hdocument.symm.trans herror
  stops := result_structural payload

/-! ## Two files -/

/-- The stages of loading two files. -/
inductive Stage where
  | payloadFile
  | schemaFile
  | schemaText
  | payloadText
  | violation
  | decoding

/-- The stages in the order in which they are reported. -/
def Stage.all : List Stage :=
  [.payloadFile, .schemaFile, .schemaText, .payloadText, .violation, .decoding]

/-- What is wrong at a stage, whatever is wrong at others. -/
def Trouble (tree : FileTree) (payload schema : Path) (validation : Validation) :
    Stage → Error → Prop
  | .payloadFile, error =>
    ∃ failure, tree.read payload = .error failure ∧ error = .unreadable payload failure
  | .schemaFile, error =>
    ∃ failure, tree.read schema = .error failure ∧ error = .unreadable schema failure
  | .schemaText, error =>
    ∃ text fault, tree.read schema = .ok text ∧ Schema.parse text = .error fault ∧
      error = .malformed .schema fault
  | .payloadText, error =>
    ∃ text fault, tree.read payload = .ok text ∧ Json.parse text = .error fault ∧
      error = .malformed .metadata fault
  | .violation, error =>
    validation = .structural ∧ ∃ payloadText schemaText, tree.read payload = .ok payloadText ∧
      tree.read schema = .ok schemaText ∧ Violated payloadText schemaText error
  | .decoding, error =>
    ∃ text value, tree.read payload = .ok text ∧ Json.parse text = .ok value ∧
      (ofValue value).result = .error error

section Files

variable {tree : FileTree} {payload schema : Path} {validation : Validation} {error : Error}

/-- The steps of loading two files. -/
theorem result_loadFiles : (loadFiles tree payload schema validation).result = (do
    let payloadText ← (tree.read payload).mapError (Error.unreadable payload)
    let schemaText ← (tree.read schema).mapError (Error.unreadable schema)
    (loadTexts payloadText schemaText validation).result) := by
  have hemit (run : Except Error Document) : (do Except.ok (); run) = run := rfl
  simp [loadFiles, FileTree.readText, hemit]

/-- Two files that can be read are loaded as their texts are. -/
theorem loadFiles_of_read {payloadText schemaText : String}
    (hpayload : tree.read payload = .ok payloadText)
    (hschema : tree.read schema = .ok schemaText) :
    (loadFiles tree payload schema validation).result =
      (loadTexts payloadText schemaText validation).result := by
  rw [result_loadFiles, hpayload, hschema]
  rfl

/-- Loading two files reports the first stage at which something is wrong. -/
theorem result_loadFiles_eq_error_iff :
    (loadFiles tree payload schema validation).result = .error error ↔
      FirstOf (Trouble tree payload schema validation) Stage.all error := by
  simp only [Stage.all, firstOf_cons_iff, firstOf_nil, Trouble, result_loadFiles]
  cases tree.read payload with
  | error failure => simp [eq_comm, Except.mapError, bind, Except.bind]
  | ok payloadText =>
    cases tree.read schema with
    | error failure => simp [eq_comm, Except.mapError, bind, Except.bind]
    | ok schemaText =>
      simp only [result_loadTexts, Violated]
      cases hroot : Schema.parse schemaText with
      | error fault => simp [eq_comm, Except.mapError, bind, Except.bind, hroot]
      | ok root =>
        cases hvalue : Json.parse payloadText with
        | error fault => simp [eq_comm, Except.mapError, bind, Except.bind, hroot, hvalue]
        | ok value =>
          cases validation with
          | off =>
            have hcheck : (check .off root value).result = .ok () := rfl
            simp [hcheck, Except.mapError, bind, Except.bind, hroot, hvalue]
          | structural =>
            obtain ⟨hcheck, hviolation⟩ | ⟨violation, hcheck, hviolation⟩ :=
              result_check_structural root value
            all_goals
              simp [hcheck, hviolation, eq_comm, Except.mapError, bind, Except.bind, hroot, hvalue]

end Files

/-- What loading two files reports, and what it loads. -/
structure ReportsFirst (tree : FileTree) (payload schema : Path) (validation : Validation) :
    Prop where
  /-- Loading fails at the first stage at which something is wrong. -/
  error_iff : ∀ error, (loadFiles tree payload schema validation).result = .error error ↔
    FirstOf (Trouble tree payload schema validation) Stage.all error
  /-- Files that can be read are loaded as their texts are. -/
  texts : ∀ {payloadText schemaText}, tree.read payload = .ok payloadText →
    tree.read schema = .ok schemaText → (loadFiles tree payload schema validation).result =
      (loadTexts payloadText schemaText validation).result

/-- Validation filters: it never changes what is loaded.  Loading two files, those of a session
among them, reports the first stage at which something is wrong. -/
theorem validation_filters :
    (∀ payload, ValidationFilters payload) ∧
    (∀ tree payload schema validation, ReportsFirst tree payload schema validation) ∧
    ∀ (session : Session) (tree : FileTree), session.load tree =
      loadFiles tree session.metadataPath session.schemaPath session.validation :=
  ⟨validationFilters, fun _ _ _ _ => ⟨fun _ => result_loadFiles_eq_error_iff, loadFiles_of_read⟩,
    fun _ _ => rfl⟩

/-- A directory with a payload and a schema. -/
def twoFiles (payload schema : String) : FileTree where
  entries :=
    [([(Path.ofString "p.json").bytes], .file (Path.ofString payload).bytes),
      ([(Path.ofString "s.json").bytes], .file (Path.ofString schema).bytes)]

theorem validation_filters_twoFiles :
    (loadFiles (twoFiles "\x7b" "null") (.ofString "p.json") (.ofString "s.json") .off).result =
      .error (.malformed .schema .rootNotSchema) ∧
    (loadFiles (twoFiles "null" "false") (.ofString "p.json") (.ofString "s.json")
      .structural).result = .error (.mismatch "" (.breach .nothingAllowed)) ∧
    ∃ fault, (loadFiles (twoFiles "null" "false") (.ofString "p.json") (.ofString "s.json")
      .off).result = .error (.malformed .metadata fault) := by
  have hread (payload schema : String) :
      (twoFiles payload schema).read (.ofString "p.json") = .ok payload ∧
        (twoFiles payload schema).read (.ofString "s.json") = .ok schema :=
    ⟨FileTree.read_of_find rfl, FileTree.read_of_find rfl⟩
  obtain ⟨_, hreports, _⟩ := validation_filters
  have hnull : Json.parse "null" = .ok .null := Json.Value.readAll_pretty .null
  have hroot : Schema.parse "null" = .error .rootNotSchema := by
    rw [Schema.parse, hnull]
    rfl
  have hfalse : Schema.parse "false" = .ok ⟨.bool false⟩ := by
    have hvalue : Json.parse "false" = .ok (.bool false) := Json.Value.readAll_pretty (.bool false)
    rw [Schema.parse, hvalue]
    rfl
  refine ⟨?_, ?_, ?_⟩
  · refine ((hreports _ _ _ _).error_iff _).2
      ⟨[.payloadFile, .schemaFile], .schemaText, _, rfl, ?_, "null", _, (hread _ _).2, hroot, rfl⟩
    simp [Trouble, hread]
  · refine ((hreports _ _ _ _).error_iff _).2
      ⟨[.payloadFile, .schemaFile, .schemaText, .payloadText], .violation, _, rfl, ?_, rfl, "null",
        "false", (hread _ _).1, (hread _ _).2, _, _, ⟨[], .nothingAllowed⟩, hfalse, hnull, rfl, rfl⟩
    simp [Trouble, hread, hfalse, hnull]
  · rw [(hreports _ _ _ _).texts (hread _ _).1 (hread _ _).2, result_loadTexts, hfalse, hnull]
    exact ⟨_, rfl⟩

end Document

end BuildFacts
