import BuildFacts.CompileCommand
import BuildFacts.Proofs.Payload.Quoting

/-!
# Words and quoted words mean the same

A payload means what it means with its words one by one (`Document.ofPayload_itemize`), and so a
payload with quoted words is the same document (`Document.ofValue_quoted`).

The arguments of a compile command may be quoted in the same way.
`ShellWords.quote_interchangeable` has both facts.
-/

namespace BuildFacts

open Json

/-! ## Payloads -/

namespace WrittenWords

theorem wordsAt_itemize (pointer : String) (written : WrittenWords) :
    written.itemize.wordsAt pointer = written.wordsAt pointer := by
  cases written with
  | items words => rfl
  | joined text => cases hsplit : ShellWords.split text <;> simp [itemize, words?, wordsAt, hsplit]

@[simp] theorem wordsAt?_map_itemize (pointer : String) (written : Option WrittenWords) :
    wordsAt? pointer (written.map itemize) = wordsAt? pointer written := by
  cases written with
  | none => rfl
  | some written => simp only [Option.map_some, wordsAt?, wordsAt_itemize]

end WrittenWords

@[simp] theorem WrittenProperty.resolve_itemize (pointer : String) (property : Property)
    (written : WrittenProperty) :
    written.itemize.resolve pointer property = written.resolve pointer property := by
  simp [resolve, itemize]

@[simp] theorem WrittenTarget.resolve_itemize (key : String) (target : WrittenTarget) :
    target.itemize.resolve key = target.resolve key := by
  have hfiles : Classification.ofTarget target.itemize = Classification.ofTarget target := rfl
  rw [resolve, hfiles]
  simp [itemize, resolve]

@[simp] theorem WrittenSource.resolve_itemize (key : String) (source : WrittenSource) :
    source.itemize.resolve key = source.resolve key := by
  simp [resolve, itemize]

namespace Document

/-- A payload means what it means with its words one by one. -/
theorem ofPayload_itemize (payload : Payload) : ofPayload payload.itemize = ofPayload payload := by
  simp [ofPayload, Payload.itemize, resolveEntries, List.mapM_map, Function.comp_def]

/-- Payloads that mean the same are loaded alike, with the same warnings. -/
theorem load_eq_of_endAlike {taken taken' : Except Fault Payload}
    (h : EndAlike Eq (fun p p' => ofPayload p = ofPayload p') taken taken') :
    load taken' = load taken := by
  have hload (p : Payload) : load (.ok p) = Traced.ofExcept (ofPayload p) >>= fun document =>
      ⟨document.unusedOverrides.map .unusedOverride, .ok document⟩ := rfl
  cases h with
  | ok h => rw [hload, hload, h]
  | error h => rw [h]

/-- A payload with quoted words is the same document, with the same warnings, or it cannot be
loaded for the same reason. -/
theorem ofValue_quoted {payload payload' : Value} (h : payload.QuotedPayload payload') :
    ofValue payload' = ofValue payload :=
  load_eq_of_endAlike ((Payload.takesAlike_decoder h).imp fun p p' hitems => by
    rw [← ofPayload_itemize p, ← ofPayload_itemize p', hitems])

end Document

/-! ## Compile commands -/

/-- Arguments that are quoted in a text are the arguments one by one. -/
theorem CompileCommand.args_eq_of_quoted {quoted listed : CompileCommand} {words : List String}
    (harguments : quoted.arguments = none)
    (hcommand : quoted.command = some (ShellWords.quote words))
    (hlisted : listed.arguments = some words) : quoted.args = listed.args := by
  simp [args, harguments, hcommand, hlisted, ShellWords.split_quote]

/-- Words and the same words quoted in a text are interchangeable: at the keys of targets and
source files where words may stand, in any number of places, and as the arguments of a compile
command. -/
theorem ShellWords.quote_interchangeable :
    (∀ payload payload' : Value, payload.QuotedPayload payload' →
      Document.ofValue payload' = Document.ofValue payload) ∧
    ∀ (quoted listed : CompileCommand) (words : List String), quoted.arguments = none →
      quoted.command = some (quote words) → listed.arguments = some words →
      quoted.args = listed.args ∧ quoted.includes = listed.includes ∧
        quoted.defines = listed.defines := by
  refine ⟨fun _ _ => Document.ofValue_quoted, ?_⟩
  intro quoted listed words harguments hcommand hlisted
  have hargs := CompileCommand.args_eq_of_quoted harguments hcommand hlisted
  refine ⟨hargs, ?_, ?_⟩
  · rw [CompileCommand.includes, CompileCommand.includes, hargs]
  · rw [CompileCommand.defines, CompileCommand.defines, hargs]

/-- A payload with options for a target, and flags for a source file that is written as a list. -/
def wordsPayload (options flags : Value) : Value :=
  .object
    [("targets", .object
        [("t", .object
          [("object_sources_c", .array [.string "x.c"]), ("compile_options_c", options)])]),
      ("sources", .object [("x.c", .array [.null, .null, .null, .null, flags])])]

theorem quotedPayload_wordsPayload {options options' flags flags' : Value}
    (hoptions : options.Quotes options') (hflags : flags.Quotes flags') :
    (wordsPayload options flags).QuotedPayload (wordsPayload options' flags') := by
  have hsame (name : String) (value : Value) : Value.QuotedUnder WrittenSource.wordKeys name
    value value := .inl rfl
  have hkey : "compile_options_c" ∈ WrittenTarget.wordKeys := by decide
  refine .object (.cons ⟨rfl, .object (.cons ⟨rfl, .object ?_⟩ .nil)⟩
    (.cons ⟨rfl, .object (.cons ⟨rfl, .list ?_⟩ .nil)⟩ .nil))
  · exact .cons ⟨rfl, .inl rfl⟩ (.cons ⟨rfl, .inr ⟨hkey, hoptions⟩⟩ .nil)
  · exact .cons (hsame _ _) (.cons (hsame _ _) (.cons (hsame _ _) (.cons (hsame _ _)
      (.cons (.inr ⟨by decide, hflags⟩) .nil))))

/-- Words with blanks, quotes, nothing in them, or a sign of a comment. -/
def unusualWords : List String := ["it's", "", "#x", "a \"b\"\n", "-I", "d\\"]

theorem ShellWords.quote_interchangeable_unusualWords :
    (∃ d, (Document.ofValue (wordsPayload (.array (unusualWords.map .string))
        (.array (unusualWords.map .string)))).result = .ok d ∧
      (Document.ofValue (wordsPayload (.string (quote unusualWords))
        (.string (quote unusualWords)))).result = .ok d) ∧
    CompileCommand.includes
      ⟨.ofString "/b", .ofString "x.c", some (quote unusualWords), none, none⟩ = ["d\\"] := by
  have hquotes : (Value.array (unusualWords.map .string)).Quotes (.string (quote unusualWords)) :=
    ⟨unusualWords, rfl, rfl⟩
  constructor
  · rw [quote_interchangeable.1 _ _ (quotedPayload_wordsPayload hquotes hquotes)]
    exact ⟨_, rfl, rfl⟩
  · rw [(quote_interchangeable.2 _ ⟨.ofString "/b", .ofString "x.c", none, some unusualWords, none⟩
      unusualWords rfl rfl rfl).2.1]
    decide +kernel

end BuildFacts
