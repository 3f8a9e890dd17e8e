import BuildFacts.Proofs.Document.Validated
import BuildFacts.Proofs.Json.Printed
import BuildFacts.Proofs.Loading
import BuildFacts.Proofs.Payload.Backtrace

/-!
# The lines of loaded backtraces

A line that is loaded is the line that is written: no number wraps around, and nothing else counts
as a line.  `Frame.ReadsLines` says so of a frame, `Document.Given.KeepsLines` of a payload, and
`Document.lines_as_written` is the result.

One value that is no line makes the whole payload malformed, wherever it stands.  In a text this
also goes for a target that does not count, because a later one has its key.
-/

namespace BuildFacts

open Json

/-- How a frame is taken. -/
structure Frame.ReadsLines : Prop where
  /-- A frame is taken exactly if the path is a text and the line is a line, and with these. -/
  value : ∀ {path line value : Value}, value.KeysDistinct → Frame.Writes path line value →
    ∀ frame, Frame.record.decoder.fromValue value = .ok frame ↔
      (∃ text, path = .string text ∧ frame.path = .ofString text) ∧ Frame.IsLine line frame.line
  /-- A frame in a text that repeats no key is the one of its value. -/
  text : ∀ {depth : Nat} {outline : Outline} {value : Value}, outline.value depth = .ok value →
    outline.KeysOnce → ∀ frame, Frame.record.decoder.fromOutline depth outline = .ok frame ↔
      Frame.record.decoder.fromValue value = .ok frame
  /-- A line in a text is a text that writes a line, or a number in range without a minus, a
  fraction or an exponent. -/
  line : ∀ (depth : Nat) (outline : Outline) (n : Nat),
    (Decoder.ofValue Frame.lineOfValue).fromOutline depth outline = .ok n ↔ outline.IsLine n
  /-- A line in a text is a line exactly if its value is. -/
  lineValue : ∀ {depth : Nat} {outline : Outline} {value : Value},
    outline.value depth = .ok value → ∀ n, outline.IsLine n ↔ Frame.IsLine value n

theorem Frame.readsLines : Frame.ReadsLines where
  value hkeys hwrites _ := Frame.fromValue_eq_ok_iff hkeys hwrites
  text hvalue hkeys _ :=
    ⟨Frame.agrees_decoder.ofValue hvalue, Frame.agrees_decoder.ofOutline hvalue hkeys⟩
  line _ _ _ := Frame.fromOutline_line_eq_ok_iff
  lineValue hvalue _ := Frame.isLine_iff_of_value hvalue

/-- A target keeps its backtrace. -/
theorem WrittenTarget.backtrace_of_resolve {key : String} {written : WrittenTarget}
    {target : Target} (h : written.resolve key = .ok target) :
    target.backtrace = written.backtrace := by
  unfold resolve at h
  obtain ⟨_, _, h⟩ := bind_eq_ok_iff.1 h
  obtain ⟨_, _, h⟩ := bind_eq_ok_iff.1 h
  obtain ⟨_, _, h⟩ := bind_eq_ok_iff.1 h
  obtain ⟨_, _, h⟩ := bind_eq_ok_iff.1 h
  obtain rfl := Except.ok.inj h
  rfl

namespace Document

/-! ## Payloads -/

namespace Given

variable {given : Given} {value line : Value}

theorem malformed_of_payload (h : ∀ payload, given.payload ≠ .ok payload) :
    ∃ fault, given.document.result = .error (.malformed .metadata fault) := by
  cases hpayload : given.payload with
  | ok payload => exact absurd hpayload (h payload)
  | error fault =>
    rw [document_eq_load]
    exact ⟨fault, load_eq_error_iff.2 (.inl ⟨fault, hpayload, rfl⟩)⟩

/-- What the lines in the backtraces of a payload do to it. -/
structure KeepsLines (given : Given) : Prop where
  /-- A value that is given as a line and is none makes the payload malformed. -/
  malformed : ∀ {value line}, given.Writes value → value.KeysDistinct → value.GivesLine line →
    (∀ n, ¬Frame.IsLine line n) →
    ∃ fault, given.document.result = .error (.malformed .metadata fault)
  /-- So does what a text gives as a line, also where it has no value or does not count. -/
  malformedText : ∀ {text line}, given = .inText text →
    (Outline.scan text.toList).1.GivesLine line → (∀ n, ¬line.IsLine n) →
    ∃ fault, given.document.result = .error (.malformed .metadata fault)
  /-- The frames of a document that loads are those that are written. -/
  loaded : ∀ {value document}, given.Writes value → value.KeysDistinct →
    given.document.result = .ok document →
    ∀ {key target}, (key, target) ∈ document.targets →
      ∃ written, value.targetAt? key = some written ∧
        List.Forall₂ Frame.WrittenAs written.framesAt target.backtrace

theorem keepsLines (given : Given) : given.KeepsLines where
  malformed hvalue hkeys hgives hnone := malformed_of_payload fun payload hpayload => by
    obtain ⟨n, hn⟩ := Payload.isLine_of_takes hkeys ⟨payload, fromValue_of_writes hpayload hvalue⟩
      hgives
    exact hnone n hn
  malformedText := by
    rintro text line rfl hgives hnone
    refine malformed_of_payload fun payload hpayload => ?_
    have hreads : Payload.decoder.Reads (Outline.scan text.toList).1 :=
      ⟨_, payload, (readAll_eq_ok_iff.1 hpayload).1⟩
    obtain ⟨n, hn⟩ := Payload.isLine_of_reads hreads hgives
    exact hnone n hn
  loaded := by
    intro value document hvalue hkeys hdocument key target htarget
    rw [document_eq_load] at hdocument
    obtain ⟨payload, hpayload, hmeans⟩ := load_eq_ok_iff.1 hdocument
    obtain ⟨taken, htaken, hresolve⟩ := (means_of_ofPayload hmeans).targets.exists_of_mem htarget
    have hlookup := (Table.lookup_eq_some_iff_mem (nodup_keys hpayload).1).2 htaken
    obtain ⟨written, hwritten, hfromValue⟩ :=
      (Payload.lookup_targets_iff hkeys (fromValue_of_writes hpayload hvalue)).1 hlookup
    have htargetKeys := hkeys.targetAt hwritten
    have hframes := WrittenTarget.forall₂_backtrace htargetKeys hfromValue
    refine ⟨written, hwritten, ?_⟩
    rw [WrittenTarget.backtrace_of_resolve hresolve]
    have hframeKeys (frame : Value) (hframe : frame ∈ written.framesAt) : frame.KeysDistinct :=
      htargetKeys.frameAt hframe
    exact ((List.forall₂_and_left _ _).2 ⟨hframeKeys, hframes⟩).imp fun _ _ h =>
      Frame.writtenAs_of_fromValue h.1 h.2

end Given

/-! ## Two texts -/

/-- A payload that is no value, or that gives a line which is none, does not load from two texts.
It is malformed, unless a check against the schema stops it before its data are taken. -/
theorem loadTexts_of_line {payload schema : String} (validation : Validation)
    (h : ∀ value, parse payload = .ok value →
      ∃ line, value.GivesLine line ∧ ∀ n, ¬Frame.IsLine line n) :
    (∃ input fault, (loadTexts payload schema validation).result =
        .error (.malformed input fault)) ∨
      validation = .structural ∧ ∃ error, (loadTexts payload schema validation).result =
        .error error ∧ Violated payload schema error := by
  have hoff : ∃ input fault, (loadTexts payload schema .off).result =
      .error (.malformed input fault) := by
    rw [result_loadTexts]
    cases hroot : Schema.parse schema with
    | error fault => exact ⟨.schema, fault, rfl⟩
    | ok root =>
      cases hvalue : parse payload with
      | error fault => exact ⟨.metadata, fault, rfl⟩
      | ok value =>
        obtain ⟨line, hgives, hnone⟩ := h value hvalue
        obtain ⟨fault, hfault⟩ := (Given.keepsLines (.asValue value)).malformed rfl
          (keysDistinct_of_parse hvalue) hgives hnone
        exact ⟨.metadata, fault, hfault⟩
  cases validation with
  | off => exact .inl hoff
  | structural =>
    rcases result_structural payload schema with hsame | hviolated
    · exact .inl (hsame ▸ hoff)
    · exact .inr ⟨rfl, hviolated⟩

/-! ## The result -/

/-- A line that is loaded is the line that is written.

* A frame is taken exactly if its path is a text and its line is an integer in range, or a text
  that writes one between blanks.
* Every other line makes the payload malformed.  The frames of a document that loads are those
  that are written.
* From two texts, a payload that gives such a line, or that is no value at all, does not load.  It
  is malformed, unless a check against the schema stops it first. -/
theorem lines_as_written :
    Frame.ReadsLines ∧ (∀ given : Given, given.KeepsLines) ∧
    ∀ (payload schema : String) (validation : Validation),
      (∀ value, parse payload = .ok value →
        ∃ line, value.GivesLine line ∧ ∀ n, ¬Frame.IsLine line n) →
      (∃ input fault, (loadTexts payload schema validation).result =
          .error (.malformed input fault)) ∨
        validation = .structural ∧ ∃ error, (loadTexts payload schema validation).result =
          .error error ∧ Violated payload schema error :=
  ⟨Frame.readsLines, Given.keepsLines, fun _ _ validation h => loadTexts_of_line validation h⟩

/-- A payload with two targets under one key.  The first one has a line in its backtrace, and the
second one counts. -/
def replacedLinePayload (line : String) : Value :=
  .object
    [("targets", .object
      [("t", .object
        [("backtrace", .array [.object [("path", .string "f"), ("line", .string line)]])]),
        ("t", .object [])])]

theorem numberFree_replacedLinePayload (line : String) :
    (replacedLinePayload line).NumberFree := by
  have hframe : (Value.object [("path", .string "f"), ("line", .string line)]).NumberFree :=
    .object (List.forall_mem_cons.2 ⟨.string _, List.forall_mem_singleton.2 (.string _)⟩)
  have hfirst : (Value.object [("backtrace",
      .array [.object [("path", .string "f"), ("line", .string line)]])]).NumberFree :=
    .object (List.forall_mem_singleton.2 (.array (List.forall_mem_singleton.2 hframe)))
  have hsecond : (Value.object []).NumberFree := .object (List.forall_mem_nil _)
  exact .object (List.forall_mem_singleton.2 (.object (List.forall_mem_cons.2
    ⟨hfirst, List.forall_mem_singleton.2 hsecond⟩)))

/-- A text with a number as a line that is too large for a double. -/
def hugeLineText : String :=
  "\x7b\"targets\": \x7b\"t\": \x7b\"backtrace\": [[\"f\", 1e999]]\x7d\x7d\x7d"

theorem lines_as_written_runs :
    (∃ frame, Frame.record.decoder.fromValue (.array [.string "f", .string " +007 "]) = .ok frame ∧
      frame.line = 7) ∧
    (∃ fault, (ofValue (linePayload (.string "4294967296"))).result =
      .error (.malformed .metadata fault)) ∧
    (∃ fault, (ofText (String.ofList (replacedLinePayload "4294967296").pretty)).result =
      .error (.malformed .metadata fault)) ∧
    ∃ input fault, (loadTexts hugeLineText "true" .off).result =
      .error (.malformed input fault) := by
  obtain ⟨hframes, hpayloads, htexts⟩ := lines_as_written
  have hnone (n : Nat) : ¬Frame.IsLine (.string "4294967296") n := by
    intro hline
    cases Frame.lineOfValue_eq_ok_iff.2 hline
  refine ⟨⟨⟨.ofString "f", 7⟩, ?_, rfl⟩, ?_, ?_, ?_⟩
  · exact (hframes.value (by simp) .items _).2
      ⟨⟨"f", rfl, rfl⟩, Frame.lineOfValue_eq_ok_iff.1 rfl⟩
  · exact (hpayloads (.asValue _)).malformed rfl (by simp [linePayload, Table.keys])
      ⟨"t", _, rfl, _, List.mem_singleton_self _, rfl⟩ hnone
  · -- The text is printed from a value, so its outline is known; the first target gives the line.
    have hgives : (Outline.scan (String.ofList
        (replacedLinePayload "4294967296").pretty).toList).1.GivesLine
          (.string (.printed "4294967296")) := by
      have hkey (key : String) {part : Outline} {rest : Members} :
          (Members.member (.printed key) part rest).Has key part :=
        .here (StringLiteral.text_printed key)
      rw [String.toList_ofList, Value.scan_pretty (numberFree_replacedLinePayload _)]
      exact ⟨_, .member (hkey "targets"), "t", _, hkey "t", _, .member (hkey "backtrace"), 0, _,
        rfl, .member (.later (hkey "line"))⟩
    have hvalue : Outline.value 0 (.string (.printed "4294967296")) =
        .ok (.string "4294967296") :=
      map_eq_ok_iff.2 ⟨_, StringLiteral.text_printed _, rfl⟩
    exact (hpayloads (.inText _)).malformedText rfl hgives fun n hline =>
      hnone n ((hframes.lineValue hvalue n).1 hline)
  · have hparse : (parse hugeLineText).toOption.isNone = true := by decide +kernel
    refine (htexts hugeLineText "true" .off fun value hvalue => ?_).resolve_right (by simp)
    simp [hvalue, Except.toOption] at hparse

end Document

end BuildFacts
