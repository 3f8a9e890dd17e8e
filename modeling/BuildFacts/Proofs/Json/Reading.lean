import BuildFacts.Proofs.Json.Keys

/-!
# What an outline reads as

`Outline.ReadsAs` says how a value comes from an outline; lists and objects come entry
by entry (`Items.values_item_eq_ok_iff`, `Members.entries_member_eq_ok_iff`).

A value that can be read can also be passed over (`Outline.skip_of_readsAs`).

`Outline.KeysOnce` says that no object has a key twice as it is written.  The value that
is read has forgotten this: there each key stands once in any case.
-/

namespace BuildFacts.Json

/-! ## What an outline reads as -/

/-- How a value comes from an outline that reads as one. -/
inductive Outline.ReadsAs : Nat → Outline → Value → Prop where
  | word {depth : Nat} (word : Word) : ReadsAs depth (.word word .complete) word.value
  | number {depth : Nat} {literal : Option NumberLiteral} {n : Number}
      (h : readNumber literal = .ok n) : ReadsAs depth (.number literal) (.number n)
  | string {depth : Nat} {literal : StringLiteral} {text : String} (h : literal.text = .ok text) :
      ReadsAs depth (.string literal) (.string text)
  | array {depth : Nat} {items : Items} {values : List Value}
      (h : items.values depth = .ok values) :
      ReadsAs (depth + 1) (.array items) (.array values)
  | object {depth : Nat} {members : Members} {entries : List (String × Value)}
      (h : members.entries depth = .ok entries) :
      ReadsAs (depth + 1) (.object members) (.object (Table.ofEntries entries))

theorem Spelling.fault?_eq_none_iff {spelling : Spelling} :
    spelling.fault? = none ↔ spelling = .complete := by
  cases spelling <;> simp [Spelling.fault?]

theorem Ending.faultInList?_eq_none_iff {ending : Ending} :
    ending.faultInList? = none ↔ ending = .closed := by
  cases ending <;> simp [Ending.faultInList?]

theorem Ending.faultInObject?_eq_none_iff {ending : Ending} :
    ending.faultInObject? = none ↔ ending = .closed := by
  cases ending <;> simp [Ending.faultInObject?]

theorem Outline.readsAs_of_value {depth : Nat} {outline : Outline} {value : Value}
    (h : outline.value depth = .ok value) : ReadsAs depth outline value := by
  cases outline with
  | missing => simp [Outline.value] at h
  | stray => simp [Outline.value] at h
  | word word spelling =>
    rw [Outline.value, orFault_eq_ok_iff, Spelling.fault?_eq_none_iff] at h
    obtain ⟨rfl, rfl⟩ := h
    exact .word word
  | number literal =>
    obtain ⟨n, hn, rfl⟩ := map_eq_ok_iff.1 h
    exact .number hn
  | string literal =>
    obtain ⟨text, htext, rfl⟩ := map_eq_ok_iff.1 h
    exact .string htext
  | array items =>
    cases depth with
    | zero => simp [Outline.value] at h
    | succ depth =>
      obtain ⟨values, hvalues, rfl⟩ := map_eq_ok_iff.1 h
      exact .array hvalues
  | object members =>
    cases depth with
    | zero => simp [Outline.value] at h
    | succ depth =>
      obtain ⟨entries, hentries, rfl⟩ := map_eq_ok_iff.1 h
      exact .object hentries

/-! ### Lists and objects entry by entry -/

theorem Items.values_ends_eq_ok_iff {depth : Nat} {ending : Ending} {values : List Value} :
    (Items.ends ending).values depth = .ok values ↔ ending = .closed ∧ values = [] := by
  rw [Items.values, orFault_eq_ok_iff, Ending.faultInList?_eq_none_iff, eq_comm (a := [])]

theorem Items.values_item_eq_ok_iff {depth : Nat} {first : Outline} {rest : Items}
    {values : List Value} :
    (Items.item first rest).values depth = .ok values ↔
      ∃ value, first.value depth = .ok value ∧
        ∃ others, rest.values depth = .ok others ∧ values = value :: others := by
  simp only [Items.values, bind_eq_ok_iff, pure, Except.pure, Except.ok.injEq,
    eq_comm (b := values)]

theorem Members.entries_ends_eq_ok_iff {depth : Nat} {ending : Ending}
    {entries : List (String × Value)} :
    (Members.ends ending).entries depth = .ok entries ↔ ending = .closed ∧ entries = [] := by
  rw [Members.entries, orFault_eq_ok_iff, Ending.faultInObject?_eq_none_iff, eq_comm (a := [])]

theorem Members.entries_keyless {depth : Nat} {entries : List (String × Value)} :
    Members.keyless.entries depth ≠ .ok entries := by
  simp [Members.entries]

theorem Members.entries_bare {depth : Nat} {key : StringLiteral} {atEnd : Bool}
    {entries : List (String × Value)} : (Members.bare key atEnd).entries depth ≠ .ok entries := by
  intro h
  obtain ⟨_, _, h⟩ := bind_eq_ok_iff.1 h
  simp at h

theorem Members.entries_member_eq_ok_iff {depth : Nat} {key : StringLiteral} {value : Outline}
    {rest : Members} {entries : List (String × Value)} :
    (Members.member key value rest).entries depth = .ok entries ↔
      ∃ name, key.text = .ok name ∧ ∃ part, value.value depth = .ok part ∧
        ∃ others, rest.entries depth = .ok others ∧ entries = (name, part) :: others := by
  simp only [Members.entries, bind_eq_ok_iff, pure, Except.pure, Except.ok.injEq,
    eq_comm (b := entries)]

/-! ## Passing over what can be read -/

theorem StringLiteral.fault?_eq_none_of_textOf {ending : StringLiteral.Ending}
    {pieces : List StringLiteral.Piece} {text : List Char}
    (h : textOf ending pieces = .ok text) : ending.fault? = none := by
  fun_induction textOf ending pieces generalizing text with
  | case1 hclosed => exact hclosed
  | case3 _ _ ih | case6 _ _ _ ih | case9 _ _ _ _ _ ih | case11 _ _ _ _ _ _ ih
    | case13 _ _ _ _ _ ih =>
    obtain ⟨_, hrest, _⟩ := map_eq_ok_iff.1 h
    exact ih hrest
  | _ => simp at h

theorem StringLiteral.skip_of_text {literal : StringLiteral} {text : String}
    (h : literal.text = .ok text) : literal.skip = .ok () := by
  obtain ⟨_, htext, _⟩ := map_eq_ok_iff.1 h
  rw [skip, fault?_eq_none_of_textOf htext]

mutual

/-- A value that can be read can be skipped. -/
theorem Outline.skip_of_readsAs :
    ∀ {outline : Outline} {depth : Nat} {value : Value},
      Outline.ReadsAs depth outline value → outline.skip = .ok ()
  | _, _, _, .word _ => rfl
  | .number literal, _, _, .number h => by
    cases literal with
    | none => simp [readNumber] at h
    | some literal => rfl
  | _, _, _, .string h => StringLiteral.skip_of_text h
  | _, _, _, .array h => Items.skip_of_values h
  | _, _, _, .object h => Members.skip_of_entries h

theorem Items.skip_of_values :
    ∀ {items : Items} {depth : Nat} {values : List Value},
      items.values depth = .ok values → items.skip = .ok ()
  | .ends _, _, _, h => by
    obtain ⟨rfl, _⟩ := Items.values_ends_eq_ok_iff.1 h
    rfl
  | .item first rest, _, _, h => by
    obtain ⟨value, hvalue, others, hothers, _⟩ := Items.values_item_eq_ok_iff.1 h
    rw [Items.skip, Outline.skip_of_readsAs (Outline.readsAs_of_value hvalue)]
    exact Items.skip_of_values hothers

theorem Members.skip_of_entries :
    ∀ {members : Members} {depth : Nat} {entries : List (String × Value)},
      members.entries depth = .ok entries → members.skip = .ok ()
  | .ends _, _, _, h => by
    obtain ⟨rfl, _⟩ := Members.entries_ends_eq_ok_iff.1 h
    rfl
  | .keyless, _, _, h => absurd h Members.entries_keyless
  | .bare _ _, _, _, h => absurd h Members.entries_bare
  | .member key value rest, _, _, h => by
    obtain ⟨name, hname, part, hpart, others, hothers, _⟩ := Members.entries_member_eq_ok_iff.1 h
    rw [Members.skip, StringLiteral.skip_of_text hname]
    show (value.skip >>= fun _ => rest.skip) = .ok ()
    rw [Outline.skip_of_readsAs (Outline.readsAs_of_value hpart)]
    exact Members.skip_of_entries hothers

end

/-! ## Keys as they are written -/

/-- The keys of an object in the order in which they are written. -/
def Members.keys : Members → List (Except Fault String)
  | .member key _ rest => key.text :: rest.keys
  | _ => []

mutual

/-- No object of the outline has a key twice, at any depth. -/
def Outline.KeysOnce : Outline → Prop
  | .array items => items.KeysOnce
  | .object members => members.keys.Nodup ∧ members.KeysOnce
  | _ => True

/-- No object in one of the items has a key twice. -/
def Items.KeysOnce : Items → Prop
  | .item first rest => first.KeysOnce ∧ rest.KeysOnce
  | _ => True

/-- No object in one of the members has a key twice. -/
def Members.KeysOnce : Members → Prop
  | .member _ value rest => value.KeysOnce ∧ rest.KeysOnce
  | _ => True

end

mutual

instance Outline.decidableKeysOnce : (outline : Outline) → Decidable outline.KeysOnce
  | .array items => Items.decidableKeysOnce items
  | .object members =>
    have := Members.decidableKeysOnce members
    inferInstanceAs (Decidable (members.keys.Nodup ∧ members.KeysOnce))
  | .missing | .stray | .word .. | .number _ | .string _ => .isTrue trivial

instance Items.decidableKeysOnce : (items : Items) → Decidable items.KeysOnce
  | .ends _ => .isTrue trivial
  | .item first rest =>
    have := Outline.decidableKeysOnce first
    have := Items.decidableKeysOnce rest
    inferInstanceAs (Decidable (first.KeysOnce ∧ rest.KeysOnce))

instance Members.decidableKeysOnce : (members : Members) → Decidable members.KeysOnce
  | .member _ value rest =>
    have := Outline.decidableKeysOnce value
    have := Members.decidableKeysOnce rest
    inferInstanceAs (Decidable (value.KeysOnce ∧ rest.KeysOnce))
  | .ends _ | .keyless | .bare .. => .isTrue trivial

end

/-- The keys of the entries are those that are written. -/
theorem Members.keys_eq_of_entries :
    ∀ {members : Members} {depth : Nat} {entries : List (String × Value)},
      members.entries depth = .ok entries → members.keys = (Table.keys entries).map .ok
  | .ends _, _, _, h => by
    obtain ⟨_, rfl⟩ := entries_ends_eq_ok_iff.1 h
    rfl
  | .keyless, _, _, h => absurd h entries_keyless
  | .bare _ _, _, _, h => absurd h entries_bare
  | .member key _ rest, _, _, h => by
    obtain ⟨name, hname, part, _, others, hothers, rfl⟩ := entries_member_eq_ok_iff.1 h
    rw [Members.keys, hname, keys_eq_of_entries hothers]
    rfl

theorem Members.nodup_keys_of_entries {members : Members} {depth : Nat}
    {entries : List (String × Value)} (hkeys : members.keys.Nodup)
    (h : members.entries depth = .ok entries) : (Table.keys entries).Nodup := by
  rw [keys_eq_of_entries h] at hkeys
  exact List.Pairwise.of_map _ (fun _ _ hne heq => hne (congrArg _ heq)) hkeys

/-! ## Whole texts -/

/-- No object that a text writes has a key twice. -/
def RepeatsNoKey (text : String) : Prop :=
  (Outline.scan text.toList).1.KeysOnce

instance (text : String) : Decidable (RepeatsNoKey text) :=
  inferInstanceAs (Decidable (Outline.scan text.toList).1.KeysOnce)

end BuildFacts.Json
