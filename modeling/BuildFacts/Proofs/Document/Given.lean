import BuildFacts.Proofs.Document.Failures
import BuildFacts.Proofs.Payload.Agreement

/-!
# Payloads in texts and as values

A payload is given in a text or as a value (`Given`).  In a text it is decoded while the
text is read; a value has been read before, from some text, and is decoded as a whole.
`ofText_agrees_ofValue` says that the two come to the same.

* What a text loads its value loads too, as the same document, and with the same warnings.
* If the text repeats no key, the text and its value also fail alike.  Only what is wrong with
  malformed data may be told differently, because a text is read in another order.

So what holds of all payloads that are decoded need not ask how they were given.
-/

namespace BuildFacts.Document

open Json

/-! ## Loading step by step -/

theorem load_eq_error_iff {payload : Except Fault Payload} {error : Error} :
    (load payload).result = .error error ↔
      (∃ fault, payload = .error fault ∧ error = .malformed .metadata fault) ∨
        ∃ written, payload = .ok written ∧ ofPayload written = .error error := by
  simp only [load, Traced.result_bind, Traced.result_ofExcept, bind_eq_error_iff,
    mapError_eq_error_iff, mapError_eq_ok_iff, reduceCtorEq, and_false, exists_false, or_false,
    eq_comm (b := error)]

theorem result_load_ok (written : Payload) : (load (.ok written)).result = ofPayload written := by
  show (Traced.ofExcept (.ok written) >>= _).result = _
  simp only [Traced.result_bind, Traced.result_ofExcept]
  show (ofPayload written >>= fun document => .ok document) = _
  cases ofPayload written <;> rfl

/-! ## Payloads as they are given -/

/-- A payload as it is given: in a text, or as a value. -/
inductive Given where
  | inText (text : String)
  | asValue (value : Value)

namespace Given

/-- The payload with its data taken. -/
def payload : Given → Except Fault Payload
  | .inText text => Payload.decoder.read text
  | .asValue value => Payload.decoder.fromValue value

/-- The document of the payload. -/
def document : Given → Traced Document
  | .inText text => ofText text
  | .asValue value => ofValue value

/-- The value that is given, or that the text writes. -/
def Writes : Given → Value → Prop
  | .inText text, value => parse text = .ok value
  | .asValue given, value => given = value

variable {given : Given} {payload : Payload} {value : Value}

theorem document_eq_load (given : Given) : given.document = load given.payload := by
  cases given <;> rfl

theorem loaded {document : Document} (given : Given) (h : given.document.result = .ok document) :
    document.Loaded := by
  cases given with
  | inText text => exact .ofText h
  | asValue value => exact .ofValue h

theorem result_eq_of_payload (h : given.payload = .ok payload) :
    given.document.result = ofPayload payload := by
  rw [document_eq_load, h, result_load_ok]

/-- However a payload is given, each of its targets and source files has a key of its own. -/
theorem nodup_keys (h : given.payload = .ok payload) :
    payload.targets.keys.Nodup ∧ payload.sources.keys.Nodup := by
  cases given with
  | inText text => exact Payload.yields_nodup_keys.read h
  | asValue value => exact Payload.yields_nodup_keys.value h

/-- However a payload is given, it is the one that is taken from the value. -/
theorem fromValue_of_writes (h : given.payload = .ok payload) (hvalue : given.Writes value) :
    Payload.decoder.fromValue value = .ok payload := by
  cases given with
  | inText text => exact Payload.agrees_decoder.fromValue_of_read hvalue h
  | asValue given =>
    obtain rfl : given = value := hvalue
    exact h

end Given

/-! ## Texts and their values -/

/-- A payload in a text and the value of the text come to the same.

What the text loads the value loads too.  If no object of the text has a key twice, the two
load the same document, or both are malformed, or both fail for the same cause at the same
place. -/
theorem ofText_agrees_ofValue {text : String} {value : Value} (hvalue : parse text = .ok value) :
    (∀ document, (ofText text).result = .ok document →
      (ofValue value).result = .ok document ∧ (ofValue value).events = (ofText text).events) ∧
    (RepeatsNoKey text →
      (∃ document, (ofText text).result = .ok document ∧ (ofValue value).result = .ok document) ∨
      (∃ fault fault', (ofText text).result = .error (.malformed .metadata fault) ∧
        (ofValue value).result = .error (.malformed .metadata fault')) ∨
      ∃ pointer cause, (ofText text).result = .error (.mismatch pointer cause) ∧
        (ofValue value).result = .error (.mismatch pointer cause)) := by
  constructor
  · intro document hdocument
    obtain ⟨payload, hread, _⟩ := load_eq_ok_iff.1 hdocument
    have hsame : ofValue value = ofText text := by
      rw [ofValue, ofText, hread, Payload.agrees_decoder.fromValue_of_read hvalue hread]
    rw [hsame]
    exact ⟨hdocument, rfl⟩
  · intro hkeys
    have hagrees (payload : Payload) :
        Payload.decoder.read text = .ok payload ↔ Payload.decoder.fromValue value = .ok payload :=
      Payload.agrees_decoder.read_eq_ok_iff hvalue hkeys
    rw [ofText, ofValue]
    cases hread : Payload.decoder.read text with
    | ok payload =>
      rw [(hagrees payload).1 hread, result_load_ok]
      cases hloaded : ofPayload payload with
      | ok document => exact .inl ⟨document, rfl, rfl⟩
      | error error =>
        obtain ⟨pointer, cause, rfl⟩ := (flaw_of_ofPayload hloaded).exists_mismatch
        exact .inr (.inr ⟨pointer, cause, rfl, rfl⟩)
    | error fault =>
      cases htake : Payload.decoder.fromValue value with
      | ok payload => exact nomatch hread.symm.trans ((hagrees payload).2 htake)
      | error fault' => exact .inr (.inl ⟨fault, fault', rfl, rfl⟩)

/-- A text that repeats an unknown member and a target.  The target that counts is a list of
fields, with the line of its backtrace in a text. -/
def repeatingText : String :=
  "\x7b\"note\": 1, \"note\": [], \"targets\": \x7b" ++
    "\"t\": \x7b\"object_sources_c\": [\"a.c\"]\x7d,\"t\": [\"n\", null, [[\"f\", \" 7\"]]]\x7d\x7d"

/-- A text that repeats no key, with a file under both languages. -/
def conflictingText : String :=
  "\x7b\"targets\": \x7b\"t\": \x7b\"object_sources_c\": [\"a\"], " ++
    "\"object_sources_cxx\": [\"a\"]\x7d\x7d\x7d"

theorem ofText_agrees_ofValue_repeatingText :
    (∃ value document, parse repeatingText = .ok value ∧
      (ofText repeatingText).result = .ok document ∧ (ofValue value).result = .ok document ∧
      document.targets.keys = ["t"]) ∧
    ∃ value pointer cause, parse conflictingText = .ok value ∧ RepeatsNoKey conflictingText ∧
      (ofText conflictingText).result = .error (.mismatch pointer cause) ∧
      (ofValue value).result = .error (.mismatch pointer cause) := by
  have hparse (text : String) (h : (parse text).toOption.map (fun _ => ()) = some ()) :
      ∃ value, parse text = .ok value := by
    obtain ⟨value, hvalue, _⟩ := map_toOption_eq_some_iff.1 h
    exact ⟨value, hvalue⟩
  constructor
  · obtain ⟨value, hvalue⟩ := hparse repeatingText (by decide +kernel)
    obtain ⟨document, hdocument, hkeys⟩ : ∃ document,
        (ofText repeatingText).result = .ok document ∧ document.targets.keys = ["t"] :=
      map_toOption_eq_some_iff.1 (by decide +kernel)
    exact ⟨value, document, hvalue, hdocument,
      ((ofText_agrees_ofValue hvalue).1 document hdocument).1, hkeys⟩
  · obtain ⟨value, hvalue⟩ := hparse conflictingText (by decide +kernel)
    have hkeys : RepeatsNoKey conflictingText := by decide +kernel
    have hcode : (match (ofText conflictingText).result with
        | .ok _ => ""
        | .error error => error.code) = "buildmeta::schema_mismatch" := by decide +kernel
    rcases (ofText_agrees_ofValue hvalue).2 hkeys with ⟨document, htext, _⟩ | ⟨_, _, htext, _⟩ | h
    · rw [htext] at hcode
      have hloaded : "" = "buildmeta::schema_mismatch" := hcode
      exact absurd hloaded (by decide)
    · rw [htext] at hcode
      have hmalformed : "buildmeta::malformed_input" = "buildmeta::schema_mismatch" := hcode
      exact absurd hmalformed (by decide)
    · obtain ⟨pointer, cause, htext, hboth⟩ := h
      exact ⟨value, pointer, cause, hvalue, hkeys, htext, hboth⟩

end BuildFacts.Document
