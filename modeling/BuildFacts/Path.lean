import BuildFacts.Text.Split
import BuildFacts.Text.Utf8

/-!
# Paths

A path is a sequence of bytes.  It has three views.

* `text?` is the path as a text, for a path that is UTF-8, and `display` is a
  text for every path.
* `components` is what the path names step by step.  Repeated slashes, slashes
  at the end and `.` steps after the first do not count; `..` steps stay.
  `same` and `endsWith` compare this view.
* `join` puts one path behind another.
-/

namespace BuildFacts

/-- A path as it is written, byte for byte. -/
structure Path where
  bytes : List UInt8
  deriving DecidableEq, Inhabited

namespace Path

/-! ## Text -/

/-- The path that a text writes. -/
def ofString (text : String) : Path :=
  ⟨text.toByteArray.data.toList⟩

/-- The text of a path that is UTF-8. -/
def text? (path : Path) : Option String :=
  String.fromUTF8? ⟨path.bytes.toArray⟩

/-- The path as a text, with U+FFFD where it is not UTF-8. -/
def display (path : Path) : String :=
  path.text?.getD (Text.decodeLossy path.bytes)

theorem text?_ofString (text : String) : (ofString text).text? = some text := by
  simp [text?, ofString, String.fromUTF8?, String.fromUTF8, text.isValidUTF8]

theorem ofString_of_text? {path : Path} {text : String} (h : path.text? = some text) :
    path = ofString text := by
  simp only [text?, String.fromUTF8?] at h
  split at h
  · obtain ⟨bytes⟩ := path
    simp only [Option.some.injEq] at h
    subst h
    simp [ofString, String.fromUTF8]
  · simp at h

/-- A path has a text exactly when that text writes it. -/
theorem text?_eq_some_iff {path : Path} {text : String} :
    path.text? = some text ↔ path = ofString text :=
  ⟨ofString_of_text?, fun h => h ▸ text?_ofString text⟩

theorem display_ofString (text : String) : (ofString text).display = text := by
  simp [display, text?_ofString]

/-! ## Components -/

/-- The byte of the slash between two steps. -/
def slash : UInt8 := 0x2F

/-- The step that stays where it is. -/
def dot : List UInt8 := [0x2E]

/-- The step to the parent. -/
def dotDot : List UInt8 := [0x2E, 0x2E]

/-- One step of a path. -/
inductive Component where
  | root
  | name (bytes : List UInt8)
  deriving DecidableEq

/-- The runs of bytes between slashes. -/
def segments (bytes : List UInt8) : List (List UInt8) :=
  Text.splitAt (· == slash) bytes

/-- The steps that segments name: empty segments and `.` name none. -/
def steps (segments : List (List UInt8)) : List Component :=
  (segments.filter fun s => !s.isEmpty && s != dot).map .name

/-- The steps of a path.  A `.` counts only where it starts the path. -/
def components (path : Path) : List Component :=
  match segments path.bytes with
  | [] => []
  | [only] => if only.isEmpty then [] else [.name only]
  | first :: more =>
    if first.isEmpty then .root :: steps more
    else .name first :: steps more

/-- Whether two paths have the same steps. -/
def same (left right : Path) : Bool :=
  left.components = right.components

/-- Whether the steps of `suffix` are the last steps of `path`. -/
def endsWith (path suffix : Path) : Bool :=
  suffix.components.isSuffixOf path.components

/-! ## Joining -/

/-- Whether a path starts at the root. -/
def isAbsolute (path : Path) : Bool :=
  path.bytes.head? == some slash

/-- `path` seen from `base`.  An absolute path stands alone; between the two
there is one slash, unless `base` is empty or ends in one. -/
def join (base path : Path) : Path :=
  if path.isAbsolute then path
  else if base.bytes.isEmpty || base.bytes.getLast? == some slash then ⟨base.bytes ++ path.bytes⟩
  else ⟨base.bytes ++ slash :: path.bytes⟩

end Path

end BuildFacts
