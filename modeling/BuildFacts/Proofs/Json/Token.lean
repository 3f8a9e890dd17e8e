import BuildFacts.Proofs.Json.Pointer

/-!
# The tokens of a pointer

`Pointer.WellWritten` are the texts that can stand between two slashes of a pointer: they have no
slash themselves, and every `~` in them starts a pair.  `exists_escape_iff` says that these are the
tokens that are written, and no others; it goes through a text pair by pair (`Pairs`).

`Pointer.token_written` is the result for one token.  The two ways to write it come to the same,
whatever pointer it is written behind, and nothing of it is lost.
-/

namespace BuildFacts.Json.Pointer

/-- A text with no slash, in which every `~` has a `0` or a `1` behind it. -/
structure WellWritten (text : List Char) : Prop where
  slash_notMem : '/' ∉ text
  tilde : ∀ before after, text = before ++ '~' :: after →
    after.head? = some '0' ∨ after.head? = some '1'

/-- A text that is made of the pairs for `~` and for `/` and of other characters. -/
inductive Pairs : List Char → Prop where
  | nil : Pairs []
  | tilde {rest : List Char} (h : Pairs rest) : Pairs ('~' :: '0' :: rest)
  | slash {rest : List Char} (h : Pairs rest) : Pairs ('~' :: '1' :: rest)
  | plain {c : Char} {rest : List Char} (htilde : c ≠ '~') (hslash : c ≠ '/') (h : Pairs rest) :
      Pairs (c :: rest)

variable {text : List Char}

/-! ## Pair by pair -/

theorem WellWritten.tail {c : Char} (h : WellWritten (c :: text)) : WellWritten text where
  slash_notMem := mt (List.mem_cons_of_mem c) h.slash_notMem
  tilde before after heq := h.tilde (c :: before) after (by rw [heq, List.cons_append])

theorem WellWritten.cons {c : Char} (htilde : c ≠ '~') (hslash : c ≠ '/') (h : WellWritten text) :
    WellWritten (c :: text) where
  slash_notMem hmem := (List.mem_cons.1 hmem).elim (fun heq => hslash heq.symm) h.slash_notMem
  tilde before after heq := by
    cases before with
    | nil => exact absurd (List.cons.inj heq).1 htilde
    | cons first before => exact h.tilde before after (List.cons.inj heq).2

theorem WellWritten.pair {digit : Char} (hdigit : digit = '0' ∨ digit = '1')
    (h : WellWritten text) : WellWritten ('~' :: digit :: text) := by
  have hrest : WellWritten (digit :: text) := by
    refine h.cons ?_ ?_ <;> rcases hdigit with rfl | rfl <;> decide
  constructor
  · intro hmem
    rcases List.mem_cons.1 hmem with heq | hmem
    · exact absurd heq (by decide)
    · exact hrest.slash_notMem hmem
  · intro before after heq
    cases before with
    | nil =>
      obtain ⟨-, rfl⟩ := List.cons.inj heq
      simpa using hdigit
    | cons first before => exact hrest.tilde before after (List.cons.inj heq).2

theorem WellWritten.ne_slash {c : Char} (h : WellWritten (c :: text)) : c ≠ '/' :=
  fun heq => h.slash_notMem (heq ▸ List.mem_cons_self)

theorem Pairs.of_wellWritten : ∀ {text : List Char}, WellWritten text → Pairs text
  | [], _ => .nil
  | [c], h => by
    have htilde : c ≠ '~' := by
      rintro rfl
      simpa using h.tilde [] [] rfl
    exact .plain htilde h.ne_slash .nil
  | c :: digit :: rest, h => by
    by_cases htilde : c = '~'
    · subst htilde
      have hpair := h.tilde [] (digit :: rest) rfl
      rw [List.head?_cons, Option.some.injEq, Option.some.injEq] at hpair
      have hrest := Pairs.of_wellWritten h.tail.tail
      rcases hpair with rfl | rfl
      · exact .tilde hrest
      · exact .slash hrest
    · exact .plain htilde h.ne_slash (Pairs.of_wellWritten h.tail)

theorem wellWritten_iff_pairs : WellWritten text ↔ Pairs text := by
  refine ⟨Pairs.of_wellWritten, fun h => ?_⟩
  induction h with
  | nil => exact ⟨List.not_mem_nil, by simp⟩
  | tilde _ ih => exact ih.pair (.inl rfl)
  | slash _ ih => exact ih.pair (.inr rfl)
  | plain htilde hslash _ ih => exact ih.cons htilde hslash

theorem pairs_flatMap_escapeChar (token : List Char) : Pairs (token.flatMap escapeChar) := by
  induction token with
  | nil => exact .nil
  | cons c token ih =>
    rw [List.flatMap_cons, escapeChar]
    split
    · exact .tilde ih
    · rename_i htilde
      split
      · exact .slash ih
      · rename_i hslash
        exact .plain htilde hslash ih

theorem Pairs.exists_flatMap_escapeChar (h : Pairs text) :
    ∃ token : List Char, token.flatMap escapeChar = text := by
  induction h with
  | nil => exact ⟨[], rfl⟩
  | tilde _ ih =>
    obtain ⟨token, rfl⟩ := ih
    exact ⟨'~' :: token, rfl⟩
  | slash _ ih =>
    obtain ⟨token, rfl⟩ := ih
    exact ⟨'/' :: token, rfl⟩
  | @plain c _ htilde hslash _ ih =>
    obtain ⟨token, rfl⟩ := ih
    exact ⟨c :: token, by simp [escapeChar, htilde, hslash]⟩

/-! ## Tokens -/

/-- The texts that are written tokens. -/
theorem exists_escape_iff : (∃ token, (escape token).toList = text) ↔ WellWritten text := by
  rw [wellWritten_iff_pairs]
  constructor
  · rintro ⟨token, rfl⟩
    rw [escape, String.toList_ofList]
    exact pairs_flatMap_escapeChar token.toList
  · intro h
    obtain ⟨token, rfl⟩ := h.exists_flatMap_escapeChar
    exact ⟨String.ofList token, by rw [escape, String.toList_ofList, String.toList_ofList]⟩

theorem escape_injective : Function.Injective escape := by
  intro token other heq
  rw [← String.toList_inj, ← unescape_escape token, heq, unescape_escape]

/-- What is written behind a pointer character by character is the token. -/
theorem foldl_escapeChar (token : String) (pointer : List Char) :
    token.toList.foldl (fun written c => written ++ escapeChar c) pointer =
      pointer ++ (escape token).toList := by
  rw [escape, String.toList_ofList]
  induction token.toList generalizing pointer with
  | nil => simp
  | cons c rest ih => rw [List.foldl_cons, ih, List.flatMap_cons, List.append_assoc]

/-- How a token is written.

* In one pass, which writes character by character behind a pointer, and by two replacements it is
  written alike.
* A written token has no slash, and in it every `~` has a `0` or a `1` behind it.  All such texts
  are written tokens.
* No two tokens are written alike: replacing `~1` and then `~0` leads back. -/
theorem token_written :
    (∀ (token : String) (pointer : List Char),
      token.toList.foldl (fun written c => written ++ escapeChar c) pointer =
        pointer ++ (escapeByReplacing token).toList) ∧
    (∀ token, escapeByReplacing token = escape token) ∧
    (∀ text, (∃ token, (escape token).toList = text) ↔ WellWritten text) ∧
    (∀ token, WellWritten (escape token).toList) ∧
    Function.Injective escape ∧
    ∀ token, replacePair '0' '~' (replacePair '1' '/' (escape token).toList) = token.toList := by
  refine ⟨fun token pointer => ?_, escapeByReplacing_eq_escape, fun _ => exists_escape_iff,
    fun token => exists_escape_iff.1 ⟨token, rfl⟩, escape_injective, unescape_escape⟩
  rw [escapeByReplacing_eq_escape, foldl_escapeChar]

end BuildFacts.Json.Pointer
