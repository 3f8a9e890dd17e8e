import BuildFacts.Schema

/-!
# The schema of metadata payloads

The schema that a build writes beside its metadata.  It has a node for each kind of part that a
payload has; the nodes of targets, of source files and of lists stand under `definitions`, and
the others refer to them.
-/

namespace BuildFacts.Schema

open Json

/-! ## Nodes -/

/-- The node of values of a kind. -/
def kindNode (kind : Value.Kind) : Value :=
  .object [("type", .string kind.name)]

/-- The node of texts. -/
def textNode : Value :=
  kindNode .string

/-- The node that refers to a definition. -/
def definedNode (name : String) : Value :=
  .object [("$ref", .string ("#/definitions/" ++ name))]

/-- The node of lists. -/
def listNode (item : Value) : Value :=
  .object [("type", .string "array"), ("items", item)]

/-- The node of objects in which every member has the same node. -/
def tableNode (member : Value) : Value :=
  .object [("type", .string "object"), ("additionalProperties", member)]

/-- The node of objects with a node for some of the members. -/
def objectNode (properties : Table Value) : Value :=
  .object [("type", .string "object"), ("properties", .object properties)]

/-- The node of words: a list of texts or one text. -/
def propertyValueNode : Value :=
  .object [("type", .array [.string "array", .string "string"]), ("items", textNode)]

/-- The node of the kinds of targets. -/
def targetKindNode : Value :=
  .object
    [("enum", .array
      [.string "EXECUTABLE", .string "STATIC_LIBRARY", .string "SHARED_LIBRARY",
        .string "MODULE_LIBRARY", .string "OBJECT_LIBRARY", .string "UTILITY"])]

/-- The node of lines. -/
def lineNode : Value :=
  .object [("type", .array [.string "string", .string "integer"])]

/-- The node of the frames of a backtrace. -/
def frameNode : Value :=
  .object
    [("type", .string "object"),
      ("required", .array [.string "path", .string "line"]),
      ("properties", .object [("path", textNode), ("line", lineNode)])]

/-- The members of a target and their nodes. -/
def targetProperties : Table Value :=
  [("name", textNode), ("type", targetKindNode),
    ("backtrace", listNode frameNode),
    ("target_file", textNode), ("target_linker_file", textNode), ("target_soname_file", textNode),
    ("object_sources_c", definedNode "stringList"),
    ("object_sources_cxx", definedNode "stringList"),
    ("generated_object_sources_c", definedNode "stringList"),
    ("generated_object_sources_cxx", definedNode "stringList"),
    ("header_sources", definedNode "stringList"),
    ("generated_header_sources", definedNode "stringList"),
    ("extra_sources", definedNode "stringList"),
    ("generated_extra_sources", definedNode "stringList"),
    ("excluded_sources", definedNode "stringList"),
    ("compile_definitions", definedNode "propertyValue"),
    ("compile_definitions_c", definedNode "propertyValue"),
    ("compile_definitions_cxx", definedNode "propertyValue"),
    ("include_directories", definedNode "propertyValue"),
    ("include_directories_c", definedNode "propertyValue"),
    ("include_directories_cxx", definedNode "propertyValue"),
    ("compile_options", definedNode "propertyValue"),
    ("compile_options_c", definedNode "propertyValue"),
    ("compile_options_cxx", definedNode "propertyValue")]

/-- The members of a source file and their nodes. -/
def sourceProperties : Table Value :=
  [("path", textNode), ("compile_flags", definedNode "propertyValue"),
    ("compile_definitions", definedNode "propertyValue"),
    ("include_directories", definedNode "propertyValue"),
    ("compile_options", definedNode "propertyValue")]

/-- The members of a payload and their nodes. -/
def payloadProperties : Table Value :=
  [("sourceDir", textNode), ("generator", textNode), ("platform", textNode),
    ("c_compiler", textNode), ("c_compiler_id", textNode), ("c_compiler_version", textNode),
    ("cxx_compiler", textNode), ("cxx_compiler_id", textNode),
    ("cxx_compiler_version", textNode),
    ("targets", tableNode (definedNode "target")), ("sources", tableNode (definedNode "source"))]

/-- The schema of metadata payloads. -/
def metadata : Schema where
  root :=
    .object
      [("$schema", .string "http://json-schema.org/draft-04/schema#"),
        ("title", .string "Build metadata"),
        ("type", .string "object"),
        ("required", .array [.string "targets"]),
        ("definitions", .object
          [("stringList", listNode textNode), ("propertyValue", propertyValueNode),
            ("target", objectNode targetProperties), ("source", objectNode sourceProperties)]),
        ("properties", .object payloadProperties)]

end BuildFacts.Schema
