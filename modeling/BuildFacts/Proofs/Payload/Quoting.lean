import BuildFacts.Proofs.Document.Flaws
import BuildFacts.Proofs.Json.Alike
import BuildFacts.Proofs.ShellWords

/-!
# Payloads with words that are quoted

Words may stand in a payload one by one, or quoted in a text.  `Value.QuotedPayload` relates a
payload to the ones in which some of the words are quoted instead.

What is taken from the two differs only in how words are written.  `itemize` writes them one by
one wherever they split, and `Payload.takesAlike_decoder` is the result: either both payloads
cannot be taken, for one reason, or they are the same once they are itemized.
-/

namespace BuildFacts

open Json

/-! ## Words one by one -/

/-- The words one by one.  A text that does not split stays as it is. -/
def WrittenWords.itemize (written : WrittenWords) : WrittenWords :=
  match written.words? with
  | some words => .items words
  | none => written

/-- A property with its words one by one. -/
def WrittenProperty.itemize (written : WrittenProperty) : WrittenProperty where
  base := written.base.map WrittenWords.itemize
  specialized :=
    ⟨written.specialized.c.map WrittenWords.itemize,
      written.specialized.cxx.map WrittenWords.itemize⟩

/-- A target with its words one by one. -/
def WrittenTarget.itemize (target : WrittenTarget) : WrittenTarget :=
  { target with
    properties := ⟨target.properties.definitions.itemize, target.properties.includes.itemize,
      target.properties.options.itemize⟩ }

/-- The properties of a source file with their words one by one. -/
def WrittenSource.itemize (source : WrittenSource) : WrittenSource where
  path := source.path
  definitions := source.definitions.map WrittenWords.itemize
  includes := source.includes.map WrittenWords.itemize
  options := source.options.map WrittenWords.itemize
  flags := source.flags.map WrittenWords.itemize

/-- A payload with all its words one by one. -/
def Payload.itemize (payload : Payload) : Payload :=
  { payload with
    targets := payload.targets.map fun entry => (entry.1, entry.2.itemize)
    sources := payload.sources.map fun entry => (entry.1, entry.2.itemize) }

/-! ## Quoted words -/

namespace Json.Value

/-- Words one by one, and the same words quoted in a text. -/
def Quotes (a b : Value) : Prop :=
  ∃ words : List String, a = .array (words.map .string) ∧ b = .string (ShellWords.quote words)

/-- The value of a member, and the same value or, under one of the keys, its words quoted. -/
def QuotedUnder (keys : List String) (name : String) (a b : Value) : Prop :=
  b = a ∨ name ∈ keys ∧ a.Quotes b

/-- The value of a member of a payload, and the same value with words of targets or of source
files quoted. -/
def QuotedMember (name : String) : Value → Value → Prop :=
  if name = "targets" then
    EntriesRelated (WrittenTarget.record.Related (QuotedUnder WrittenTarget.wordKeys))
  else if name = "sources" then
    EntriesRelated (WrittenSource.record.Related (QuotedUnder WrittenSource.wordKeys))
  else fun a b => b = a

/-- A payload, and the same payload with words of targets or of source files quoted. -/
def QuotedPayload (a b : Value) : Prop :=
  Payload.record.Related QuotedMember a b

theorem QuotedUnder.eq_of_notMem {keys : List String} {name : String} (hname : name ∉ keys)
    {a b : Value} (h : QuotedUnder keys name a b) : b = a :=
  h.resolve_right fun hquotes => hname hquotes.1

end Json.Value

open Value

/-- Words and quoted words are the same one by one. -/
theorem WrittenWords.itemize_of_quotes {a b : Value} (h : a.Quotes b) :
    EndAlike Eq (InvImage Eq (Option.map itemize)) (decoder.fromValue a) (decoder.fromValue b) := by
  obtain ⟨words, rfl, rfl⟩ := h
  have hitems : decoder.fromValue (.array (words.map .string)) = .ok (some (.items words)) := by
    have htexts : (words.map Value.string).mapM Value.string? = some words := by
      induction words with
      | nil => rfl
      | cons word words ih => simp [string?, ih]
    simp only [decoder, Decoder.optional, Decoder.ofValue, ofValue, htexts]
    rfl
  rw [hitems]
  refine .ok ?_
  simp [InvImage, itemize, words?, ShellWords.split_quote]

/-! ## Fields -/

section Fields

variable {σ α : Type} {keys : List String} {name : String} {decoder : Decoder α} {f : σ → σ}

/-- A field whose value stays as it is. -/
theorem Json.Field.changesAlike_of_eq {V : Value → Value → Prop} {set : α → σ → σ}
    (hV : ∀ {a b}, V a b → b = a) (hset : ∀ a s, f (set a s) = set a (f s)) :
    (optional name decoder set).ChangesAlike Eq V (InvImage Eq f) :=
  changesAlike_of_unchanged (fun _ => rfl) hV fun a s t hst => by rw [InvImage, hset, hset, hst]

/-- A field with words is taken with the same words. -/
theorem Json.Field.changesAlike_of_words {set : Option WrittenWords → σ → σ}
    (hset : ∀ words s, f (set words s) = set (words.map WrittenWords.itemize) (f s)) :
    (optional name WrittenWords.decoder set).ChangesAlike Eq (QuotedUnder keys name)
      (InvImage Eq f) := by
  refine changesAlike_optional (Q := InvImage Eq (Option.map WrittenWords.itemize)) ?_
    fun a b s t hab hst => ?_
  · rintro a _ (rfl | ⟨_, hquotes⟩)
    · exact .refl (fun _ => rfl) (fun words => Eq.refl (words.map WrittenWords.itemize)) _
    · exact WrittenWords.itemize_of_quotes hquotes
  · rw [InvImage, hset, hset, hab, hst]

/-- A table is taken with the same words. -/
theorem Json.Field.changesAlike_of_table {V : Value → Value → Prop} {g : α → α}
    (h : decoder.TakesAlike Eq V (InvImage Eq g)) {set : Table α → σ → σ}
    (hset : ∀ table s, f (set table s) = set (table.map fun entry => (entry.1, g entry.2)) (f s)) :
    (optional name decoder.table set).ChangesAlike Eq (EntriesRelated V) (InvImage Eq f) := by
  refine changesAlike_optional (h.table fun _ => rfl) fun table table' s t htables hst => ?_
  have hmap : table.map (fun entry => (entry.1, g entry.2)) =
      table'.map fun entry => (entry.1, g entry.2) := by
    induction htables with
    | nil => rfl
    | cons hentry _ ih => rw [List.map_cons, List.map_cons, ih, hentry.1, hentry.2]
  rw [InvImage, hset, hset, hmap, hst]

end Fields

/-! ## Targets, source files and payloads -/

theorem WrittenTarget.takesAlike_decoder :
    record.decoder.TakesAlike Eq (record.Related (QuotedUnder wordKeys)) (InvImage Eq itemize) := by
  refine Record.takesAlike_decoder (fun _ => rfl) ?_ rfl
  simp only [record, text, files, words, List.forall_mem_cons, Field.name_optional]
  and_intros
  all_goals first
    | exact Field.changesAlike_of_words fun _ _ => rfl
    | exact Field.changesAlike_of_eq (QuotedUnder.eq_of_notMem (by decide)) fun _ _ => rfl
    | exact List.forall_mem_nil _

theorem WrittenSource.takesAlike_decoder :
    record.decoder.TakesAlike Eq (record.Related (QuotedUnder wordKeys)) (InvImage Eq itemize) := by
  refine Record.takesAlike_decoder (fun _ => rfl) ?_ rfl
  simp only [record, List.forall_mem_cons, Field.name_optional]
  and_intros
  all_goals first
    | exact Field.changesAlike_of_words fun _ _ => rfl
    | exact Field.changesAlike_of_eq (QuotedUnder.eq_of_notMem (by decide)) fun _ _ => rfl
    | exact List.forall_mem_nil _

/-- Payloads that differ in how words are quoted are the same with their words one by one. -/
theorem Payload.takesAlike_decoder :
    decoder.TakesAlike Eq QuotedPayload (InvImage Eq itemize) := by
  refine Record.takesAlike_decoder (fun _ => rfl) ?_ rfl
  simp only [record, text, List.forall_mem_cons, Field.name_optional]
  and_intros
  all_goals first
    | exact Field.changesAlike_of_eq (fun h => h) fun _ _ => rfl
    | exact Field.changesAlike_of_table WrittenTarget.takesAlike_decoder fun _ _ => rfl
    | exact Field.changesAlike_of_table WrittenSource.takesAlike_decoder fun _ _ => rfl
    | exact List.forall_mem_nil _

end BuildFacts
