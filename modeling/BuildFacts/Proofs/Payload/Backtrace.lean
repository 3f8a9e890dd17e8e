import BuildFacts.Proofs.Json.Contents
import BuildFacts.Proofs.Json.Takes
import BuildFacts.Proofs.Payload.Agreement
import BuildFacts.Proofs.Payload.Line
import BuildFacts.Proofs.Payload.Written

/-!
# Frames of backtraces

`Frame.IsLine` says which values are lines.  `Outline.IsLine` says it of what a text holds, where a
number is still written out in digits: there a minus, a fraction or an exponent makes it no line.

A frame is written as an object or as a list of its two fields (`Frame.Writes`).  In either form it
is taken exactly if its path is a text and its line is a line (`Frame.fromValue_eq_ok_iff`).

Of a payload that can be taken every line is a line (`Payload.isLine_of_takes`), and of one that is
read in a text also those of targets that do not count (`Payload.isLine_of_reads`).
-/

namespace BuildFacts

open Json

/-! ## Lines in a text -/

/-- A literal is the integer `n` exactly if it has no minus, no fraction and no exponent, and its
digits write `n`. -/
theorem Json.NumberLiteral.integer?_eq_ofNat_iff {literal : NumberLiteral} {n : Nat}
    (hn : n < coefficientBound) :
    literal.integer? = some (n : Int) ↔ literal.negative = false ∧ literal.fraction = [] ∧
      literal.exponent = none ∧ ofDigits literal.whole = n := by
  unfold integer?
  cases literal with
  | mk negative whole fraction exponent =>
    cases fraction with
    | cons d fraction => simp
    | nil =>
      cases exponent with
      | some exponent => simp
      | none =>
        cases negative with
        | true =>
          simp only [List.isEmpty_nil, Option.isNone_none, Bool.and_self, if_true,
            Option.ite_none_right_eq_some, Option.some.injEq, Bool.true_eq_false, false_and,
            iff_false]
          omega
        | false =>
          simp only [List.isEmpty_nil, Option.isNone_none, Bool.and_self, if_true,
            Bool.false_eq_true, if_false, Option.ite_none_right_eq_some, Option.some.injEq,
            true_and]
          omega

theorem Json.readNumber_eq_integer_iff {literal : Option NumberLiteral} {i : Int} :
    readNumber literal = .ok (.integer i) ↔
      ∃ written, literal = some written ∧ written.integer? = some i := by
  cases literal with
  | none => simp [readNumber]
  | some literal =>
    simp only [readNumber, NumberLiteral.value?, Option.some.injEq, exists_eq_left']
    cases literal.integer? with
    | some j => simp
    | none => cases literal.magnitude? <;> simp

/-- An outline is a line: a number in range without a minus, a fraction or an exponent, or a text
that writes a line between blanks. -/
inductive Json.Outline.IsLine : Outline → Nat → Prop where
  | number {literal : NumberLiteral} {n : Nat} (hnegative : literal.negative = false)
      (hfraction : literal.fraction = []) (hexponent : literal.exponent = none)
      (hdigits : NumberLiteral.ofDigits literal.whole = n) (h : n ≤ Frame.maxLine) :
      IsLine (.number (some literal)) n
  | text {literal : StringLiteral} {text : String} {n : Nat} (htext : literal.text = .ok text)
      (h : Frame.WritesLine (Text.trim text.toList) n) : IsLine (.string literal) n

namespace Frame

/-- Lines are taken from the outlines that are lines, and from no others. -/
theorem fromOutline_line_eq_ok_iff {depth : Nat} {outline : Outline} {n : Nat} :
    (Decoder.ofValue lineOfValue).fromOutline depth outline = .ok n ↔ outline.IsLine n := by
  have hbound (h : n ≤ maxLine) : n < NumberLiteral.coefficientBound :=
    Nat.lt_of_le_of_lt h (by decide)
  refine bind_eq_ok_iff.trans ?_
  simp only [lineOfValue_eq_ok_iff]
  constructor
  · rintro ⟨value, hvalue, hline⟩
    cases Outline.readsAs_of_value hvalue with
    | word word => cases word <;> nomatch hline
    | number hnumber =>
      cases hline with
      | integer hmax =>
        obtain ⟨literal, rfl, hinteger⟩ := readNumber_eq_integer_iff.1 hnumber
        obtain ⟨hnegative, hfraction, hexponent, hdigits⟩ :=
          (NumberLiteral.integer?_eq_ofNat_iff (hbound hmax)).1 hinteger
        exact .number hnegative hfraction hexponent hdigits hmax
    | string htext =>
      cases hline with
      | text hwrites => exact .text htext hwrites
    | array _ => nomatch hline
    | object _ => nomatch hline
  · intro h
    cases h with
    | number hnegative hfraction hexponent hdigits hmax =>
      have hinteger := (NumberLiteral.integer?_eq_ofNat_iff (hbound hmax)).2
        ⟨hnegative, hfraction, hexponent, hdigits⟩
      have hnumber := readNumber_eq_integer_iff.2 ⟨_, rfl, hinteger⟩
      exact ⟨.number (.integer n), map_eq_ok_iff.2 ⟨_, hnumber, rfl⟩, .integer hmax⟩
    | text htext hwrites =>
      exact ⟨.string _, map_eq_ok_iff.2 ⟨_, htext, rfl⟩, .text hwrites⟩

/-- An outline that has a value is a line exactly if its value is one. -/
theorem isLine_iff_of_value {depth : Nat} {outline : Outline} {value : Value} {n : Nat}
    (hvalue : outline.value depth = .ok value) : outline.IsLine n ↔ IsLine value n := by
  have hread : (outline.value depth >>= lineOfValue) = .ok n ↔ outline.IsLine n :=
    fromOutline_line_eq_ok_iff
  rw [hvalue] at hread
  exact hread.symm.trans lineOfValue_eq_ok_iff

/-- A value is one line only. -/
theorem IsLine.unique {line : Value} {n m : Nat} (hn : IsLine line n) (hm : IsLine line m) :
    n = m :=
  Except.ok.inj ((lineOfValue_eq_ok_iff.2 hn).symm.trans (lineOfValue_eq_ok_iff.2 hm))

/-! ## Frames -/

theorem nodup_fieldNames : (record.fields.map (·.name)).Nodup := by
  decide

theorem part_path :
    record.Part "path" ((Decoder.text "path string").map Path.ofString)
      fun frame => frame.path where
  present := by simp [Record.field?, record]
  fields := by
    have hsets : (Json.Field.mandatory "path" (Decoder.text "path string") fun x (f : Frame) =>
        { f with path := .ofString x }).Sets
          ((Decoder.text "path string").map Path.ofString) fun frame => frame.path := by
      let set (path : Path) (frame : Frame) : Frame := { frame with path }
      exact ⟨set, (Decoder.map_map Path.ofString set _).symm, fun _ _ => rfl⟩
    simp [record, hsets]

theorem part_line : record.Part "line" (.ofValue lineOfValue) fun frame => frame.line where
  present := by simp [Record.field?, record]
  fields := by simp [record]

/-- How a frame is written: as an object with a path and a line, or as a list of the two. -/
inductive Writes (path line : Value) : Value → Prop where
  | members {value : Value} (hpath : value.member? "path" = some path)
      (hline : value.member? "line" = some line) : Writes path line value
  | items : Writes path line (.array [path, line])

variable {path line value : Value} {frame : Frame}

theorem Writes.written (h : Writes path line value) :
    record.written? "path" value = some path ∧ record.written? "line" value = some line := by
  cases h with
  | members hpath hline =>
    cases value with
    | object members => exact ⟨hpath, hline⟩
    | _ => exact nomatch hpath
  | items => exact ⟨rfl, rfl⟩

theorem fromValue_path_eq_ok_iff {taken : Path} :
    ((Decoder.text "path string").map Path.ofString).fromValue path = .ok taken ↔
      ∃ text, path = .string text ∧ taken = .ofString text := by
  refine map_eq_ok_iff.trans ?_
  cases path <;> simp [Decoder.text, eq_comm]

/-- A frame takes the line that is written. -/
theorem isLine_of_fromValue (hkeys : value.KeysDistinct)
    (h : record.decoder.fromValue value = .ok frame)
    (hline : record.written? "line" value = some line) : IsLine line frame.line := by
  have htaken := part_line.fromValue_written nodup_fieldNames hkeys h
  rw [hline] at htaken
  exact lineOfValue_eq_ok_iff.1 htaken

/-- What a frame takes is its path and its line. -/
theorem taken_of_fromValue (hkeys : value.KeysDistinct) (hwrites : Writes path line value)
    (h : record.decoder.fromValue value = .ok frame) :
    (∃ text, path = .string text ∧ frame.path = .ofString text) ∧ IsLine line frame.line := by
  obtain ⟨hpath, hline⟩ := hwrites.written
  have htaken := part_path.fromValue_written nodup_fieldNames hkeys h
  rw [hpath] at htaken
  exact ⟨fromValue_path_eq_ok_iff.1 htaken, isLine_of_fromValue hkeys h hline⟩

/-- A frame is taken if its path is a text and its line is a line. -/
theorem takes_of_writes (hkeys : value.KeysDistinct) (hwrites : Writes path line value)
    {text : String} (hpath : path = .string text) {n : Nat} (hline : IsLine line n) :
    record.decoder.Takes value := by
  have hchange : lineOfValue line = .ok n := lineOfValue_eq_ok_iff.2 hline
  subst hpath
  cases hwrites with
  | members hpath hmember =>
    have hkind : value.kind = .object := by
      cases value with
      | object members => rfl
      | _ => exact nomatch hpath
    refine (Record.takes_decoder_iff hkeys hkind).2 ⟨?_, ?_⟩
    · simp [record, Json.Field.mandatory, hpath, hmember]
    · rintro name part field hpart hfield
      obtain ⟨hmem, rfl⟩ := Record.name_of_field? hfield
      simp only [record, List.mem_cons, List.not_mem_nil, or_false] at hmem
      rcases hmem with rfl | rfl
      · obtain rfl := Option.some.inj (hpart.symm.trans hpath)
        exact Decoder.takes_map_iff.2 ⟨text, rfl⟩
      · obtain rfl := Option.some.inj (hpart.symm.trans hmember)
        exact Decoder.takes_map_iff.2 ⟨n, hchange⟩
  | items =>
    refine ⟨⟨.ofString text, n⟩, ?_⟩
    simp [Record.decoder, Record.takeItems, record, Json.Field.mandatory, Decoder.map, Decoder.text,
      Decoder.ofValue, hchange, bind, Except.bind]

/-- A frame is taken with a path and a line exactly if they are written. -/
theorem fromValue_eq_ok_iff (hkeys : value.KeysDistinct) (hwrites : Writes path line value) :
    record.decoder.fromValue value = .ok frame ↔
      (∃ text, path = .string text ∧ frame.path = .ofString text) ∧ IsLine line frame.line := by
  constructor
  · exact taken_of_fromValue hkeys hwrites
  · rintro ⟨⟨text, hpath, hpathEq⟩, hline⟩
    obtain ⟨taken, htaken⟩ := takes_of_writes hkeys hwrites hpath hline
    obtain ⟨⟨text', hpath', htakenPath⟩, htakenLine⟩ := taken_of_fromValue hkeys hwrites htaken
    obtain rfl := Value.string.inj (hpath.symm.trans hpath')
    have hpaths : taken.path = frame.path := htakenPath.trans hpathEq.symm
    have hlines : taken.line = frame.line := htakenLine.unique hline
    have hsame : taken = frame := congrArg₂ Frame.mk hpaths hlines
    rwa [hsame] at htaken

/-- A frame that is taken has a path and a line. -/
theorem writes_of_fromValue (hkeys : value.KeysDistinct)
    (h : record.decoder.fromValue value = .ok frame) : ∃ path line, Writes path line value := by
  cases value with
  | object members =>
    obtain ⟨hpresent, _⟩ := (Record.takes_decoder_iff hkeys rfl).1 ⟨frame, h⟩
    simp only [record, Json.Field.mandatory, List.forall_mem_cons] at hpresent
    obtain ⟨hpath, hline, _⟩ := hpresent
    obtain ⟨path, hpath⟩ := Option.isSome_iff_exists.1 (hpath trivial)
    obtain ⟨line, hline⟩ := Option.isSome_iff_exists.1 (hline trivial)
    exact ⟨path, line, .members hpath hline⟩
  | array items =>
    -- A list that is shorter lacks a field, and one that is longer has too many.
    rcases items with _ | ⟨path, _ | ⟨line, _ | ⟨_, _⟩⟩⟩
    · cases h
    · obtain ⟨_, _, h⟩ := bind_eq_ok_iff.1 h
      cases h
    · exact ⟨path, line, .items⟩
    · obtain ⟨_, _, h⟩ := bind_eq_ok_iff.1 h
      obtain ⟨_, _, h⟩ := bind_eq_ok_iff.1 h
      cases h
  | _ => cases h

/-- A frame is the one that a value writes. -/
def WrittenAs (value : Value) (frame : Frame) : Prop :=
  ∃ text line, Writes (.string text) line value ∧ frame.path = .ofString text ∧
    IsLine line frame.line

/-- A frame that is taken is the one that is written. -/
theorem writtenAs_of_fromValue (hkeys : value.KeysDistinct)
    (h : record.decoder.fromValue value = .ok frame) : WrittenAs value frame := by
  obtain ⟨path, line, hwrites⟩ := writes_of_fromValue hkeys h
  obtain ⟨⟨text, rfl, hpath⟩, hline⟩ := taken_of_fromValue hkeys hwrites h
  exact ⟨text, line, hwrites, hpath, hline⟩

end Frame

/-! ## Backtraces -/

theorem WrittenTarget.part_backtrace :
    record.Part "backtrace" Frame.record.decoder.list fun target => target.backtrace where
  present := by simp [Record.field?, record, text, files, words]
  fields := by simp [record, text, files, words]

/-- The frames of a target as they are written; no frames for a value that is no list. -/
def Json.Value.framesAt (target : Value) : List Value :=
  ((WrittenTarget.record.written? "backtrace" target).bind items?).getD []

theorem Json.Value.KeysDistinct.frameAt {target frame : Value} (h : target.KeysDistinct)
    (hframe : frame ∈ target.framesAt) : frame.KeysDistinct := by
  unfold Value.framesAt at hframe
  cases hfield : WrittenTarget.record.written? "backtrace" target with
  | none => simp [hfield] at hframe
  | some part =>
    rw [hfield] at hframe
    have hpart := h.written hfield
    cases part with
    | array frames => exact Value.keysDistinct_array_iff.1 hpart frame hframe
    | _ => exact nomatch hframe

/-- The frames of a target are taken one by one as they are written. -/
theorem WrittenTarget.forall₂_backtrace {value : Value} {target : WrittenTarget}
    (hkeys : value.KeysDistinct) (h : record.decoder.fromValue value = .ok target) :
    List.Forall₂ (fun written frame => Frame.record.decoder.fromValue written = .ok frame)
      value.framesAt target.backtrace := by
  have hwritten := part_backtrace.fromValue_written nodup_fieldNames hkeys h
  unfold Value.framesAt
  cases hfield : record.written? "backtrace" value with
  | none =>
    rw [hfield] at hwritten
    rw [hwritten]
    exact .nil
  | some part =>
    rw [hfield] at hwritten
    cases part with
    | array frames => exact mapM_eq_ok_iff.1 hwritten
    | _ => exact nomatch hwritten

/-- A value is given for the line of a frame in the backtrace of a target. -/
def Json.Value.GivesLine (payload line : Value) : Prop :=
  ∃ key target, payload.targetAt? key = some target ∧
    ∃ frame ∈ target.framesAt, Frame.record.written? "line" frame = some line

/-- A part of a text is given for the line of a frame in the backtrace of a target.  The target need
not be the one that counts for its key. -/
def Json.Outline.GivesLine (payload line : Outline) : Prop :=
  ∃ targets, Payload.record.Gives "targets" (.object targets) payload ∧
    ∃ key target, targets.Has key target ∧
      ∃ frames, WrittenTarget.record.Gives "backtrace" (.array frames) target ∧
        ∃ place frame, frames.get? place = some frame ∧ Frame.record.Gives "line" line frame

namespace Payload

/-- Of a payload that is taken each line is a line. -/
theorem isLine_of_takes {value line : Value} (hkeys : value.KeysDistinct)
    (h : decoder.Takes value) (hline : value.GivesLine line) : ∃ n, Frame.IsLine line n := by
  obtain ⟨payload, hpayload⟩ := h
  obtain ⟨key, targetValue, htarget, frameValue, hframe, hline⟩ := hline
  obtain ⟨target, htaken, _⟩ := target_of_written hkeys hpayload htarget
  have htargetKeys := hkeys.targetAt htarget
  have hframes := WrittenTarget.forall₂_backtrace htargetKeys htaken
  obtain ⟨frame, hframeTaken⟩ := exists_forall₂_iff.1 ⟨_, hframes⟩ frameValue hframe
  exact ⟨frame.line, Frame.isLine_of_fromValue (htargetKeys.frameAt hframe) hframeTaken hline⟩

/-- Of a payload that is read each line is a line, also in a target that does not count. -/
theorem isLine_of_reads {outline line : Outline} (h : decoder.Reads outline)
    (hline : outline.GivesLine line) : ∃ n, line.IsLine n := by
  obtain ⟨targets, htargets, key, target, htarget, frames, hframes, place, frame, hframe, hline⟩ :=
    hline
  have htargetReads := (part_targets.reads h htargets).entry htarget
  have hframeReads := (WrittenTarget.part_backtrace.reads htargetReads hframes).item hframe
  obtain ⟨_, n, hn⟩ := Frame.part_line.reads hframeReads hline
  exact ⟨n, Frame.fromOutline_line_eq_ok_iff.1 hn⟩

end Payload

end BuildFacts
