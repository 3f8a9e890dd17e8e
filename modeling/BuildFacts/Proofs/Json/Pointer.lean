import BuildFacts.Json.Pointer
import BuildFacts.Proofs.Json.Digits
import BuildFacts.Proofs.Json.Keys

/-!
# Pointers lead back

`Value.nodes` are the parts of a value in document order: a value before its parts, and the parts
in the order in which they stand.  Each part comes with its place.

`Pointer.resolve?_write` is the result: the pointer that is written for the place of a part leads
to this part, whatever characters the names on the way are made of.
-/

namespace BuildFacts.Json

/-! ## Tokens -/

namespace Pointer

theorem replacePair_cons_of_ne {digit new c : Char} (hc : c ≠ '~') (rest : List Char) :
    replacePair digit new (c :: rest) = c :: replacePair digit new rest := by
  cases rest with
  | nil => simp [replacePair]
  | cons next rest => simp [replacePair, hc]

/-- Where there is no `~`, nothing is replaced. -/
theorem replacePair_eq_self {digit new : Char} {text : List Char} (h : '~' ∉ text) :
    replacePair digit new text = text := by
  induction text with
  | nil => rfl
  | cons c rest ih =>
    obtain ⟨hc, hrest⟩ := not_or.1 (mt List.mem_cons.2 h)
    rw [replacePair_cons_of_ne (Ne.symm hc), ih hrest]

/-- A token that is written and then read is the token. -/
theorem unescape_escape (token : String) : unescape (escape token).toList = token.toList := by
  have hslash (cs : List Char) : replacePair '1' '/' (cs.flatMap escapeChar) =
      cs.flatMap fun c => if c = '~' then ['~', '0'] else [c] := by
    induction cs with
    | nil => rfl
    | cons c cs ih =>
      by_cases htilde : c = '~'
      · simp [escapeChar, htilde, replacePair, replacePair_cons_of_ne, ih]
      · by_cases hslash : c = '/'
        · simp [escapeChar, hslash, replacePair, ih]
        · simp [escapeChar, htilde, hslash, replacePair_cons_of_ne, ih]
  have htilde (cs : List Char) :
      replacePair '0' '~' (cs.flatMap fun c => if c = '~' then ['~', '0'] else [c]) = cs := by
    induction cs with
    | nil => rfl
    | cons c cs ih =>
      by_cases hc : c = '~'
      · simp [hc, replacePair, ih]
      · simp [hc, replacePair_cons_of_ne, ih]
  rw [unescape, escape, String.toList_ofList, hslash, htilde]

/-- A written token has no slash, so the pointer is cut where a token ends. -/
theorem slash_notMem_escape (token : String) : '/' ∉ (escape token).toList := by
  rw [escape, String.toList_ofList, List.mem_flatMap]
  rintro ⟨c, _, hc⟩
  unfold escapeChar at hc
  split at hc
  · simp at hc
  · split at hc
    · simp at hc
    · rename_i hslash
      exact hslash (List.mem_singleton.1 hc).symm

theorem notMem_repr {n : Nat} {c : Char} (hc : c.isDigit = false) : c ∉ (Nat.repr n).toList := by
  intro hmem
  rw [Nat.toList_repr] at hmem
  simp [Nat.isDigit_of_mem_toDigits (by decide) (by decide) hmem] at hc

/-- An index that is written and then read is the index. -/
theorem index?_repr (n : Nat) : index? (Nat.repr n).toList = some n := by
  rw [Nat.toList_repr]
  unfold index?
  split
  · rename_i hnil
    exact absurd hnil Nat.toDigits_ne_nil
  · rename_i c rest hzero
    -- Only zero starts with a zero, and it has no other digit.
    obtain rfl | hpos := Nat.eq_zero_or_pos n
    · simp at hzero
    · exact absurd (by rw [hzero]; rfl) (head?_toDigits_ne_zero hpos)
  · exact foldlM_digit?_toDigits n

theorem slash_notMem_token (step : Step) : '/' ∉ step.token.toList := by
  cases step with
  | member name => exact slash_notMem_escape name
  | index n => exact notMem_repr rfl

theorem step?_token_member (members : Table Value) (name : String) :
    step? (.object members) (Step.member name).token.toList = members.lookup name := by
  rw [step?, Step.token, unescape_escape, String.ofList_toList]

theorem step?_token_index (items : List Value) (n : Nat) :
    step? (.array items) (Step.index n).token.toList = items[n]? := by
  have htilde : '~' ∉ (Nat.repr n).toList := notMem_repr rfl
  rw [step?, Step.token, unescape, replacePair_eq_self htilde, replacePair_eq_self htilde,
    index?_repr, Option.bind_some]

/-- Two replacements write a token as going through it once does. -/
theorem escapeByReplacing_eq_escape (token : String) : escapeByReplacing token = escape token := by
  have hchar (c : Char) :
      (if c = '~' then ['~', '0'] else [c]).flatMap
        (fun c => if c = '/' then ['~', '1'] else [c]) = escapeChar c := by
    unfold escapeChar
    by_cases htilde : c = '~'
    · simp [htilde]
    · by_cases hslash : c = '/' <;> simp [htilde, hslash]
  rw [escapeByReplacing, escape, replaceChar, replaceChar, List.flatMap_assoc]
  simp only [hchar]

/-! ## Pointers -/

theorem write_append (place more : List Step) : write (place ++ more) = write place ++ write more := by
  induction place with
  | nil => simp [write]
  | cons step place ih =>
    have hcons (rest : List Step) : write (step :: rest) = "/" ++ step.token ++ write rest := rfl
    rw [List.cons_append, hcons, hcons, ih, ← String.append_assoc]

/-- The tokens of a pointer are those that were written. -/
theorem splitAt_write (step : Step) (steps : List Step) :
    Text.splitAt (· == '/') (step.token.toList ++ (write steps).toList) =
      (step :: steps).map fun step => step.token.toList := by
  have hplain (step : Step) : ∀ c ∈ step.token.toList, (c == '/') = false := fun c hc =>
    beq_eq_false_iff_ne.2 fun hslash => slash_notMem_token step (hslash ▸ hc)
  simp only [Text.splitAt_eq_splitOnP]
  induction steps generalizing step with
  | nil => simpa [write] using List.splitOnP_eq_singleton (hplain step)
  | cons next steps ih =>
    have hwrite : (write (next :: steps)).toList =
        '/' :: (next.token.toList ++ (write steps).toList) := by
      simp [write]
    rw [hwrite, List.splitOnP_append_cons_of_forall_mem (hplain step) '/' rfl, ih next]
    rfl

/-- A written pointer is followed step by step. -/
theorem resolve?_write_eq_foldlM (root : Value) (steps : List Step) :
    resolve? root (write steps).toList =
      steps.foldlM (fun value step => step? value step.token.toList) root := by
  cases steps with
  | nil => rfl
  | cons step steps =>
    have hwrite : (write (step :: steps)).toList =
        '/' :: (step.token.toList ++ (write steps).toList) := by
      simp [write]
    rw [hwrite, resolve?, splitAt_write, List.foldlM_map]

/-- The pointer to a member of a member leads to it. -/
theorem resolve?_write_members {root part : Value} {names : List String} {place : List Step}
    (h : names.foldlM Value.member? root = some part) (hplace : place = names.map .member) :
    resolve? root (write place).toList = some part := by
  rw [hplace, resolve?_write_eq_foldlM, List.foldlM_map]
  clear hplace
  induction names generalizing root with
  | nil => exact h
  | cons name names ih =>
    rw [List.foldlM_cons] at h ⊢
    obtain ⟨value, hvalue, hrest⟩ := Option.bind_eq_some_iff.1 h
    obtain ⟨members, hmembers, hlookup⟩ := Option.bind_eq_some_iff.1 hvalue
    have hroot : root = .object members := by
      cases root <;> simp_all [Value.members?]
    rw [hroot, step?_token_member, hlookup]
    exact ih hrest

end Pointer

/-! ## Document order -/

/-- A part of a value, with its place. -/
abbrev Located := List Pointer.Step × Value

/-- A part with its place, seen from one step further out. -/
def Located.under (step : Pointer.Step) (node : Located) : Located :=
  (step :: node.1, node.2)

namespace Value

mutual

/-- The parts of a value with their places, in document order. -/
def nodes : Value → List Located
  | .array items => ([], .array items) :: itemNodes 0 items
  | .object members => ([], .object members) :: memberNodes members
  | leaf => [([], leaf)]

/-- The parts of the items of an array, from `index` on. -/
def itemNodes (index : Nat) : List Value → List Located
  | [] => []
  | item :: rest => item.nodes.map (.under (.index index)) ++ itemNodes (index + 1) rest

/-- The parts of the members of an object. -/
def memberNodes : List (String × Value) → List Located
  | [] => []
  | (name, part) :: rest => part.nodes.map (.under (.member name)) ++ memberNodes rest

end

/-- A value comes before its parts. -/
theorem nodes_eq_cons (value : Value) : ∃ parts, value.nodes = ([], value) :: parts := by
  cases value <;> exact ⟨_, rfl⟩

theorem mem_itemNodes {index : Nat} {items : List Value} {node : Located}
    (h : node ∈ itemNodes index items) : ∃ i, ∃ item : Value, ∃ inner : Located,
      items[i]? = some item ∧ inner ∈ item.nodes ∧ node = inner.under (.index (index + i)) := by
  induction items generalizing index with
  | nil => simp [itemNodes] at h
  | cons item rest ih =>
    rw [itemNodes, List.mem_append] at h
    rcases h with hfirst | hrest
    · obtain ⟨inner, hinner, rfl⟩ := List.mem_map.1 hfirst
      exact ⟨0, item, inner, rfl, hinner, rfl⟩
    · obtain ⟨i, other, inner, hother, hinner, rfl⟩ := ih hrest
      exact ⟨i + 1, other, inner, hother, hinner, by rw [Nat.add_right_comm, Nat.add_assoc]⟩

theorem mem_memberNodes {members : Table Value} {node : Located} (h : node ∈ memberNodes members) :
    ∃ name, ∃ part : Value, ∃ inner : Located, (name, part) ∈ members ∧ inner ∈ part.nodes ∧
      node = inner.under (.member name) := by
  induction members with
  | nil => simp [memberNodes] at h
  | cons member rest ih =>
    obtain ⟨name, part⟩ := member
    rw [memberNodes, List.mem_append] at h
    rcases h with hfirst | hrest
    · obtain ⟨inner, hinner, rfl⟩ := List.mem_map.1 hfirst
      exact ⟨name, part, inner, List.mem_cons_self, hinner, rfl⟩
    · obtain ⟨other, part', inner, hother, hinner, rfl⟩ := ih hrest
      exact ⟨other, part', inner, List.mem_cons_of_mem _ hother, hinner, rfl⟩

end Value

/-- The pointer to a part of a value leads to this part. -/
theorem Pointer.resolve?_write {value part : Value} {place : List Step}
    (hkeys : value.KeysDistinct) (h : (place, part) ∈ value.nodes) :
    resolve? value (write place).toList = some part := by
  rw [resolve?_write_eq_foldlM]
  induction hkeys generalizing place part with
  | @array items _ ih =>
    rw [Value.nodes] at h
    rcases List.mem_cons.1 h with heq | hpart
    · obtain ⟨rfl, rfl⟩ := Prod.mk.inj heq
      rfl
    · obtain ⟨i, item, inner, hitem, hinner, heq⟩ := Value.mem_itemNodes hpart
      obtain ⟨rfl, rfl⟩ := Prod.mk.inj heq
      rw [List.foldlM_cons, Nat.zero_add, step?_token_index, hitem]
      exact ih item (List.mem_of_getElem? hitem) hinner
  | @object members hnodup _ ih =>
    rw [Value.nodes] at h
    rcases List.mem_cons.1 h with heq | hpart
    · obtain ⟨rfl, rfl⟩ := Prod.mk.inj heq
      rfl
    · obtain ⟨name, part', inner, hmember, hinner, heq⟩ := Value.mem_memberNodes hpart
      obtain ⟨rfl, rfl⟩ := Prod.mk.inj heq
      rw [List.foldlM_cons, step?_token_member, (Table.lookup_eq_some_iff_mem hnodup).2 hmember]
      exact ih (name, part') hmember hinner
  | _ =>
    obtain ⟨rfl, rfl⟩ := Prod.mk.inj (List.mem_singleton.1 h)
    rfl

end BuildFacts.Json
