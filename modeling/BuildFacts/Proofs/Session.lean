import Mathlib.Data.List.Nodup
import BuildFacts.Proofs.Loading
import BuildFacts.Proofs.Path

/-!
# The files of sessions

The metadata file of a session has a name that is made from its configuration.
The files of different configurations are different and stand in the build
directory (`Session.metadataPath_inj`, `Session.prefix_metadataPath`).

The usual schema file has a name that a configuration can give to its metadata
file, so that the metadata are checked against themselves
(`load_of_schemaConfiguration`).  `Session.FilesApart` says that no session
reads one file as both, and `filesApart_iff` says when: no configuration may be
called `schema`.
-/

namespace BuildFacts.Session

variable {session left right : Session} {buildDir : Path}

/-! ## Names -/

/-- The name of the metadata file of a build, or of one of its configurations. -/
def fileName : Option String → String
  | some configuration => metadataNameFor configuration
  | none => metadataName

theorem metadataPath_eq (session : Session) :
    session.metadataPath = session.buildDir.join (.ofString (fileName session.configuration)) :=
  rfl

theorem schemaName_eq : schemaName = fileName (some "schema") :=
  rfl

theorem metadataName_ne (configuration : String) : metadataName ≠ metadataNameFor configuration := by
  intro h
  -- The names part at the character behind their common start.
  have hplace := congrArg (fun name => name.toList[14]?) h
  simp [metadataName, metadataNameFor] at hplace

theorem fileName_injective : Function.Injective fileName := by
  intro first second h
  cases first with
  | none =>
    cases second with
    | none => rfl
    | some configuration => exact absurd h (metadataName_ne configuration)
  | some configuration =>
    cases second with
    | none => exact absurd h.symm (metadataName_ne configuration)
    | some other =>
      have hname := (String.append_right_inj _).1 ((String.append_left_inj _).1 h)
      rw [hname]

theorem isAbsolute_fileName (configuration : Option String) :
    (Path.ofString (fileName configuration)).isAbsolute = false := by
  cases configuration with
  | none => rfl
  | some configuration =>
    rw [fileName, metadataNameFor, Path.isAbsolute, Path.bytes_ofString_append,
      Path.bytes_ofString_append, List.head?_append, List.head?_append]
    rfl

/-! ## Files -/

/-- The metadata file stands in the build directory as it is written. -/
theorem prefix_metadataPath (session : Session) :
    session.buildDir.bytes <+: session.metadataPath.bytes :=
  Path.prefix_join (isAbsolute_fileName session.configuration)

/-- Sessions for one build directory have the same metadata file only for the same
configuration. -/
theorem metadataPath_inj (h : left.buildDir = right.buildDir) :
    left.metadataPath = right.metadataPath ↔ left.configuration = right.configuration := by
  rw [metadataPath_eq, metadataPath_eq, h,
    Path.join_inj (isAbsolute_fileName _) (isAbsolute_fileName _), Path.ofString_injective.eq_iff,
    fileName_injective.eq_iff]

/-- The usual schema file is the metadata file of one configuration. -/
theorem metadataPath_eq_schemaPath_iff (h : session.schema = none) :
    session.metadataPath = session.schemaPath ↔ session.configuration = some "schema" := by
  have hdir : session.buildDir = (session.withConfiguration "schema").buildDir := rfl
  rw [schemaPath, h, Option.getD_none, schemaName_eq]
  exact metadataPath_inj hdir

/-- The session for the configuration `schema` checks its metadata against themselves. -/
theorem load_of_schemaConfiguration {tree : FileTree} {text : String} (h : session.schema = none)
    (hname : session.configuration = some "schema")
    (hread : tree.read session.schemaPath = .ok text) :
    (session.load tree).result = (Document.loadTexts text text session.validation).result := by
  rw [load, (metadataPath_eq_schemaPath_iff h).2 hname]
  exact Document.loadFiles_of_read hread hread

/-- The session for a configuration of a build, or for a build without configurations. -/
def forConfiguration (buildDir : Path) (configuration : Option String) : Session :=
  { forBuildDir buildDir with configuration := configuration }

/-- The files of sessions for some configurations: each session has a metadata file of its own in
the build directory, and none reads one file both as the metadata and as the schema. -/
structure FilesApart (buildDir : Path) (configurations : List (Option String)) : Prop where
  nodup : (configurations.map fun configuration =>
    (forConfiguration buildDir configuration).metadataPath).Nodup
  inside : ∀ configuration ∈ configurations,
    buildDir.bytes <+: (forConfiguration buildDir configuration).metadataPath.bytes
  apart : ∀ configuration ∈ configurations,
    (forConfiguration buildDir configuration).metadataPath ≠
      (forConfiguration buildDir configuration).schemaPath

/-- The files of different configurations are kept apart exactly if none is called `schema`. -/
theorem filesApart_iff {configurations : List (Option String)} :
    FilesApart buildDir configurations ↔
      configurations.Nodup ∧ some "schema" ∉ configurations := by
  have hinj : Function.Injective fun configuration =>
      (forConfiguration buildDir configuration).metadataPath := by
    intro first second h
    have hdir : (forConfiguration buildDir first).buildDir =
        (forConfiguration buildDir second).buildDir := rfl
    exact (metadataPath_inj hdir).1 h
  constructor
  · intro h
    refine ⟨(List.nodup_map_iff hinj).1 h.nodup, fun hschema => ?_⟩
    exact h.apart _ hschema ((metadataPath_eq_schemaPath_iff rfl).2 rfl)
  · rintro ⟨hnodup, hschema⟩
    refine ⟨(List.nodup_map_iff hinj).2 hnodup, ?_, ?_⟩
    · intro configuration _
      exact prefix_metadataPath (forConfiguration buildDir configuration)
    · intro configuration hconfiguration heq
      have hname : configuration = some "schema" := (metadataPath_eq_schemaPath_iff rfl).1 heq
      exact hschema (hname ▸ hconfiguration)

/-- The metadata file of the configuration `schema` is the usual schema file. -/
theorem not_filesApart_schemaConfiguration :
    [none, some "schema", some "Debug"].Nodup ∧
      ¬FilesApart (.ofString "b") [none, some "schema", some "Debug"] := by
  refine ⟨by decide, fun h => ?_⟩
  exact h.apart (some "schema") (by decide) ((metadataPath_eq_schemaPath_iff rfl).2 rfl)

end BuildFacts.Session
