import BuildFacts.Json.Outline.Read
import BuildFacts.Proofs.Json.Literal
import Mathlib.Tactic.SplitIfs

/-!
# Printed values

The text that `pretty` prints for a value has the outline `Value.outline` of the
value, and nothing follows it (`scan_pretty`).  This is proved for values without
numbers.

* `found_scanItems`, `found_scanMembers` and `found_scanMember` say what a scanner finds,
  step by step, without the bounds by which the scanners end.
* `scans_prettyAt` is the induction on the value.  What follows the printed value is
  arbitrary in it, and is what the scanner leaves.
* `readAll_pretty` reads a printed value by its outline.
-/

namespace BuildFacts.Json

theorem skipSpace_cons {c : Char} (h : isSpace c = false) (text : List Char) :
    skipSpace (c :: text) = c :: text := by
  rw [skipSpace, List.dropWhile_cons_of_neg (by simp [h])]

namespace Outline

/-! ## Steps of scanning -/

variable {text after : List Char} {c : Char} {isFirst : Bool}

/-- What was scanned and what follows it, without the bound on its length. -/
def found {α : Type} (scanned : α × Upto text) : α × List Char :=
  (scanned.1, scanned.2.1)

theorem scanLetters_append (letters rest : List Char) :
    scanLetters letters (letters ++ rest) = (.complete, rest) := by
  induction letters with
  | nil => rfl
  | cons letter letters ih => rw [List.cons_append, scanLetters, if_pos rfl, ih]

theorem found_scanFrom_null (rest : List Char) :
    found (scanFrom 'n' (['u', 'l', 'l'] ++ rest)) = (.word .null .complete, rest) := by
  rw [scanFrom, if_neg (by decide), if_neg (by decide), scanLeaf, if_neg (by decide), if_pos rfl]
  simp only [found, scanWord, scanLetters_append]

theorem found_scanFrom_true (rest : List Char) :
    found (scanFrom 't' (['r', 'u', 'e'] ++ rest)) = (.word .true .complete, rest) := by
  rw [scanFrom, if_neg (by decide), if_neg (by decide), scanLeaf, if_neg (by decide),
    if_neg (by decide), if_pos rfl]
  simp only [found, scanWord, scanLetters_append]

theorem found_scanFrom_false (rest : List Char) :
    found (scanFrom 'f' (['a', 'l', 's', 'e'] ++ rest)) = (.word .false .complete, rest) := by
  rw [scanFrom, if_neg (by decide), if_neg (by decide), scanLeaf, if_neg (by decide),
    if_neg (by decide), if_neg (by decide), if_pos rfl]
  simp only [found, scanWord, scanLetters_append]

theorem found_scanFrom_string (text : List Char) :
    found (scanFrom '"' text) =
      (.string (StringLiteral.scan text).1, (StringLiteral.scan text).2) := by
  rw [scanFrom, if_neg (by decide), if_neg (by decide), scanLeaf, if_pos rfl]
  rfl

theorem found_scanFrom_array (text : List Char) :
    found (scanFrom '[' text) =
      (.array (found (scanItems true text)).1, (found (scanItems true text)).2) := by
  rw [scanFrom, if_pos rfl]
  rfl

theorem found_scanFrom_object (text : List Char) :
    found (scanFrom '\x7b' text) =
      (.object (found (scanMembers true text)).1, (found (scanMembers true text)).2) := by
  rw [scanFrom, if_neg (by decide), if_pos rfl]
  rfl

theorem found_scanItem (c : Char) (text : List Char) :
    found (scanItem c text) =
      (.item (found (scanFrom c text)).1 (found (scanItems false (found (scanFrom c text)).2)).1,
        (found (scanItems false (found (scanFrom c text)).2)).2) := by
  rw [scanItem]
  rfl

/-- The items of a list, from the first character that is no space. -/
theorem found_scanItems (h : skipSpace text = c :: after) :
    found (scanItems isFirst text) =
      if c = ']' then (.ends .closed, after)
      else if isFirst then found (scanItem c after)
      else if c = ',' then
        match skipSpace after with
        | [] => (.ends .commaThenEnd, [])
        | d :: more =>
          if d = ']' then (.ends .commaThenClosed, []) else found (scanItem d more)
      else (.ends .unseparated, []) := by
  -- The scanner matches with a proof of what it matched, which `h` cannot be rewritten in.
  rw [scanItems]
  split
  · rename_i hnil
    simp [h] at hnil
  · rename_i d after' hcons
    obtain ⟨rfl, rfl⟩ := List.cons.inj (h.symm.trans hcons)
    split_ifs
    · rfl
    · rfl
    · split <;> rename_i hmore <;> simp only [hmore]
      · rfl
      · split_ifs <;> rfl
    · rfl

/-- The members of an object, from the first character that is no space. -/
theorem found_scanMembers (h : skipSpace text = c :: after) :
    found (scanMembers isFirst text) =
      if c = '\x7d' then (.ends .closed, after)
      else if isFirst then
        if c = '"' then found (scanMember after) else (.keyless, [])
      else if c = ',' then
        match skipSpace after with
        | [] => (.ends .commaThenEnd, [])
        | d :: more =>
          if d = '"' then found (scanMember more)
          else if d = '\x7d' then (.ends .commaThenClosed, [])
          else (.ends .commaThenOther, [])
      else (.ends .unseparated, []) := by
  rw [scanMembers]
  split
  · rename_i hnil
    simp [h] at hnil
  · rename_i d after' hcons
    obtain ⟨rfl, rfl⟩ := List.cons.inj (h.symm.trans hcons)
    split_ifs
    · rfl
    · rfl
    · rfl
    · split <;> rename_i hmore <;> simp only [hmore]
      · rfl
      · split_ifs <;> rfl
    · rfl

/-- A member whose key starts at a text, with the colon and the value behind it. -/
theorem found_scanMember {key : StringLiteral} {colon value : List Char}
    (hkey : StringLiteral.scan text = (key, colon)) (hcolon : skipSpace colon = ':' :: value)
    (h : skipSpace value = c :: after) :
    found (scanMember text) =
      (.member key (found (scanFrom c after)).1
          (found (scanMembers false (found (scanFrom c after)).2)).1,
        (found (scanMembers false (found (scanFrom c after)).2)).2) := by
  have hcolon : skipSpace (StringLiteral.scan text).2 = ':' :: value := by rw [hkey, hcolon]
  rw [scanMember]
  split
  · rename_i hnil
    simp [hcolon] at hnil
  · rename_i d after' hcons
    obtain ⟨rfl, rfl⟩ := List.cons.inj (hcolon.symm.trans hcons)
    rw [if_pos rfl]
    split
    · rename_i hnil
      simp [h] at hnil
    · rename_i d' more hcons'
      obtain ⟨rfl, rfl⟩ := List.cons.inj (h.symm.trans hcons')
      simp [found, hkey]

end Outline

/-! ## Outlines of values -/

namespace Value

mutual

/-- The outline of the text that a value is printed as. -/
def outline : Value → Outline
  | .null => .word .null .complete
  | .bool b => .word (if b then .true else .false) .complete
  | .number n => .number ((NumberLiteral.scan n.write).map Prod.fst)
  | .string s => .string (.printed s)
  | .array items => .array (itemsOutline items)
  | .object members => .object (membersOutline members)

/-- The outline of the items of a list. -/
def itemsOutline : List Value → Items
  | [] => .ends .closed
  | item :: rest => .item item.outline (itemsOutline rest)

/-- The outline of the members of an object. -/
def membersOutline : List (String × Value) → Members
  | [] => .ends .closed
  | (key, value) :: rest => .member (.printed key) value.outline (membersOutline rest)

end

/-- A value without numbers. -/
inductive NumberFree : Value → Prop where
  | null : NumberFree .null
  | bool (b : Bool) : NumberFree (.bool b)
  | string (s : String) : NumberFree (.string s)
  | array {items : List Value} (h : ∀ item ∈ items, NumberFree item) : NumberFree (.array items)
  | object {members : List (String × Value)} (h : ∀ member ∈ members, NumberFree member.2) :
      NumberFree (.object members)

/-! ## Scanning what was printed -/

/-- A text has an outline, whatever follows it.  It starts neither with a space nor
with a bracket that closes a list. -/
def Scans (text : List Char) (outline : Outline) : Prop :=
  ∃ c more, text = c :: more ∧ c ≠ ']' ∧ isSpace c = false ∧
    ∀ rest, Outline.found (Outline.scanFrom c (more ++ rest)) = (outline, rest)

theorem skipSpace_newline (depth : Nat) (text : List Char) :
    skipSpace (newline depth ++ text) = skipSpace text := by
  rw [skipSpace, newline, List.cons_append, List.dropWhile_cons_of_pos (by decide), skipSpace,
    List.dropWhile_append_of_pos]
  intro c hc
  rw [List.eq_of_mem_replicate hc]
  rfl

mutual

/-- A printed value has its outline, whatever follows it. -/
theorem scans_prettyAt (depth : Nat) (value : Value) (h : NumberFree value) :
    Scans (value.prettyAt depth) value.outline := by
  match value with
  | .null =>
    exact ⟨'n', ['u', 'l', 'l'], rfl, by decide, by decide, Outline.found_scanFrom_null⟩
  | .bool true =>
    exact ⟨'t', ['r', 'u', 'e'], rfl, by decide, by decide, Outline.found_scanFrom_true⟩
  | .bool false =>
    exact ⟨'f', ['a', 'l', 's', 'e'], rfl, by decide, by decide, Outline.found_scanFrom_false⟩
  | .string s =>
    refine ⟨'"', s.toList.flatMap escapeChar ++ ['"'], rfl, by decide, by decide, fun rest => ?_⟩
    rw [Outline.found_scanFrom_string, List.append_assoc, List.singleton_append,
      StringLiteral.scan_printed, outline]
  | .array [] =>
    refine ⟨'[', [']'], rfl, by decide, by decide, fun rest => ?_⟩
    rw [Outline.found_scanFrom_array, List.singleton_append,
      Outline.found_scanItems (skipSpace_cons (by decide) rest), if_pos rfl, outline, itemsOutline]
  | .array (item :: items) =>
    cases h with | array h =>
    refine ⟨'[', prettyItems true depth (item :: items), rfl, by decide, by decide, fun rest => ?_⟩
    rw [Outline.found_scanFrom_array, found_scanItems_prettyItems true depth (item :: items) h rest,
      outline]
  | .object [] =>
    refine ⟨'\x7b', ['\x7d'], rfl, by decide, by decide, fun rest => ?_⟩
    rw [Outline.found_scanFrom_object, List.singleton_append,
      Outline.found_scanMembers (skipSpace_cons (by decide) rest), if_pos rfl, outline,
      membersOutline]
  | .object (member :: members) =>
    cases h with | object h =>
    refine ⟨'\x7b', prettyMembers true depth (member :: members), rfl, by decide, by decide,
      fun rest => ?_⟩
    rw [Outline.found_scanFrom_object,
      found_scanMembers_prettyMembers true depth (member :: members) h rest, outline]

theorem found_scanItems_prettyItems (isFirst : Bool) (depth : Nat) (items : List Value)
    (h : ∀ item ∈ items, NumberFree item) (rest : List Char) :
    Outline.found (Outline.scanItems isFirst (prettyItems isFirst depth items ++ rest)) =
      (itemsOutline items, rest) := by
  match items with
  | [] =>
    have hclosed : skipSpace (prettyItems isFirst depth [] ++ rest) = ']' :: rest := by
      rw [prettyItems, List.append_assoc, skipSpace_newline]
      exact skipSpace_cons (by decide) rest
    rw [Outline.found_scanItems hclosed, if_pos rfl, itemsOutline]
  | item :: items =>
    obtain ⟨hfirst, hmore⟩ := List.forall_mem_cons.1 h
    obtain ⟨c, more, hprinted, hbracket, hspace, hitem⟩ := scans_prettyAt (depth + 1) item hfirst
    have hrest := found_scanItems_prettyItems false depth items hmore rest
    have hstart : skipSpace (newline (depth + 1) ++ (c :: more ++ (prettyItems false depth items ++
        rest))) = c :: (more ++ (prettyItems false depth items ++ rest)) := by
      rw [skipSpace_newline]
      exact skipSpace_cons hspace _
    rw [prettyItems, hprinted, List.append_assoc, List.append_assoc, List.append_assoc]
    cases isFirst with
    | true =>
      rw [if_pos rfl, List.nil_append, Outline.found_scanItems hstart, if_neg hbracket, if_pos rfl,
        Outline.found_scanItem, hitem, hrest, itemsOutline]
    | false =>
      rw [if_neg Bool.false_ne_true, List.singleton_append,
        Outline.found_scanItems (skipSpace_cons (by decide) _), if_neg (by decide),
        if_neg Bool.false_ne_true, if_pos rfl]
      simp only [hstart, if_neg hbracket]
      rw [Outline.found_scanItem, hitem, hrest, itemsOutline]

theorem found_scanMembers_prettyMembers (isFirst : Bool) (depth : Nat)
    (members : List (String × Value)) (h : ∀ member ∈ members, NumberFree member.2)
    (rest : List Char) :
    Outline.found (Outline.scanMembers isFirst (prettyMembers isFirst depth members ++ rest)) =
      (membersOutline members, rest) := by
  match members with
  | [] =>
    have hclosed : skipSpace (prettyMembers isFirst depth [] ++ rest) = '\x7d' :: rest := by
      rw [prettyMembers, List.append_assoc, skipSpace_newline]
      exact skipSpace_cons (by decide) rest
    rw [Outline.found_scanMembers hclosed, if_pos rfl, membersOutline]
  | (key, value) :: members =>
    obtain ⟨hfirst, hmore⟩ := List.forall_mem_cons.1 h
    obtain ⟨c, more, hprinted, _, hspace, hvalue⟩ := scans_prettyAt (depth + 1) value hfirst
    have hrest := found_scanMembers_prettyMembers false depth members hmore rest
    have hstart : skipSpace (' ' :: (c :: more ++ (prettyMembers false depth members ++ rest))) =
        c :: (more ++ (prettyMembers false depth members ++ rest)) := by
      rw [skipSpace, List.dropWhile_cons_of_pos (by decide)]
      exact skipSpace_cons hspace _
    have hmember := Outline.found_scanMember (StringLiteral.scan_printed key _)
      (skipSpace_cons (by decide) _) hstart
    rw [hvalue, hrest] at hmember
    have hkey : skipSpace (newline (depth + 1) ++ (printString key ++ ':' :: ' ' ::
        (c :: more ++ (prettyMembers false depth members ++ rest)))) =
        '"' :: (key.toList.flatMap escapeChar ++ '"' :: ':' :: ' ' ::
          (c :: more ++ (prettyMembers false depth members ++ rest))) := by
      rw [skipSpace_newline, printString, List.cons_append, List.append_assoc]
      exact skipSpace_cons (by decide) _
    have htext : prettyMembers isFirst depth ((key, value) :: members) ++ rest =
        (if isFirst then [] else [',']) ++ (newline (depth + 1) ++ (printString key ++ ':' :: ' ' ::
          (c :: more ++ (prettyMembers false depth members ++ rest)))) := by
      simp [prettyMembers, hprinted]
    rw [htext]
    cases isFirst with
    | true =>
      rw [if_pos rfl, List.nil_append, Outline.found_scanMembers hkey, if_neg (by decide),
        if_pos rfl, if_pos rfl, hmember, membersOutline]
    | false =>
      rw [if_neg Bool.false_ne_true, List.singleton_append,
        Outline.found_scanMembers (skipSpace_cons (by decide) _), if_neg (by decide),
        if_neg Bool.false_ne_true, if_pos rfl]
      simp only [hkey, if_true, hmember, membersOutline]

end

/-- A printed value scans to its outline, and nothing follows. -/
theorem scan_pretty {value : Value} (h : NumberFree value) :
    Outline.scan value.pretty = (value.outline, []) := by
  obtain ⟨c, more, hprinted, _, hspace, hvalue⟩ := scans_prettyAt 0 value h
  have hscan := hvalue []
  rw [List.append_nil] at hscan
  rw [Outline.scan, pretty, hprinted, skipSpace_cons hspace]
  exact hscan

/-- What is read from a printed value is read from its outline. -/
theorem readAll_pretty {α : Type} {read : Outline → Except Fault α} {value : Value}
    (h : NumberFree value) :
    readAll read (String.ofList value.pretty) = read value.outline := by
  rw [readAll, String.toList_ofList, scan_pretty h]
  cases hread : read value.outline with
  | error fault => simp [hread]
  | ok a => simp [hread, skipSpace]

end Value

end BuildFacts.Json
