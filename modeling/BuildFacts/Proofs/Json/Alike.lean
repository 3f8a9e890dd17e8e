import BuildFacts.Json.Record
import BuildFacts.Proofs.Alike
import BuildFacts.Proofs.Table

/-!
# Data taken from two values

`Decoder.TakesAlike E V R decoder` says what a decoder makes of two values that are related by
`V`: it takes data from both, and the data are related by `R`; or it takes data from neither.

A table is taken entry by entry, and a record field by field.  Two values of a record are related
where their members, or the items at the places of the fields, are related one by one
(`Record.Related`).  The records that are taken are then related by every relation that each field
keeps (`Record.takesAlike_decoder`).
-/

namespace BuildFacts.Json

variable {σ α β : Type} {E : Fault → Fault → Prop}

/-- A decoder takes related data from related values, or data from neither. -/
def Decoder.TakesAlike (E : Fault → Fault → Prop) (V : Value → Value → Prop) (R : α → α → Prop)
    (decoder : Decoder α) : Prop :=
  ∀ ⦃a b : Value⦄, V a b → EndAlike E R (decoder.fromValue a) (decoder.fromValue b)

namespace Decoder

variable {V : Value → Value → Prop} {R : α → α → Prop} {S : β → β → Prop} {decoder : Decoder α}

theorem TakesAlike.map {f : α → β} (h : decoder.TakesAlike E V R)
    (hmap : ∀ a b, R a b → S (f a) (f b)) : (decoder.map f).TakesAlike E V S :=
  fun _ _ hab => (h hab).map hmap

end Decoder

/-! ## Tables -/

/-- Two objects with the same keys in the same order, and related values under each of them; or a
value that is no object, and itself. -/
inductive Value.EntriesRelated (V : Value → Value → Prop) : Value → Value → Prop where
  | object {as bs : Table Value} (h : Table.Entrywise (fun _ => V) as bs) :
      EntriesRelated V (.object as) (.object bs)
  | leaf {value : Value} (hobject : value.kind ≠ .object) : EntriesRelated V value value

theorem Decoder.TakesAlike.table {V : Value → Value → Prop} {R : α → α → Prop}
    {decoder : Decoder α} (hE : ∀ fault, E fault fault) (h : decoder.TakesAlike E V R) :
    decoder.table.TakesAlike E (Value.EntriesRelated V) (Table.Entrywise fun _ => R) := by
  intro a b hab
  cases hab with
  | object hentries =>
    refine EndAlike.map (EndAlike.mapM hentries ?_) fun _ _ => Table.Entrywise.ofEntries
    rintro ⟨name, a⟩ ⟨_, b⟩ ⟨rfl, hab⟩
    exact (h hab).map fun _ _ hdata => ⟨rfl, hdata⟩
  | leaf hobject =>
    cases a with
    | object => exact absurd rfl hobject
    | _ => exact .error (hE _)

/-! ## Records -/

/-- A field changes related records to related ones, where its values are related. -/
def Field.ChangesAlike (E : Fault → Fault → Prop) (V : Value → Value → Prop) (R : σ → σ → Prop)
    (field : Field σ) : Prop :=
  field.change.TakesAlike E V fun change change' => ∀ s t, R s t → R (change s) (change' t)

theorem Field.changesAlike_optional {V : Value → Value → Prop} {R : σ → σ → Prop}
    {Q : α → α → Prop} {name : String} {decoder : Decoder α} {set : α → σ → σ}
    (h : decoder.TakesAlike E V Q)
    (hset : ∀ a b s t, Q a b → R s t → R (set a s) (set b t)) :
    (optional name decoder set).ChangesAlike E V R :=
  h.map fun a b hab s t => hset a b s t hab

/-- A field whose value is the same in both. -/
theorem Field.changesAlike_of_unchanged {V : Value → Value → Prop} {R : σ → σ → Prop}
    {name : String} {decoder : Decoder α} {set : α → σ → σ} (hE : ∀ fault, E fault fault)
    (hV : ∀ {a b}, V a b → b = a) (hset : ∀ a s t, R s t → R (set a s) (set a t)) :
    (optional name decoder set).ChangesAlike E V R := by
  refine changesAlike_optional (Q := Eq) (fun a b hab => ?_) fun a b s t hab hst => ?_
  · rw [hV hab]
    exact .refl hE (fun _ => rfl) _
  · rw [← hab]
    exact hset a s t hst

theorem Field.changesAlike_mandatory {V : Value → Value → Prop} {R : σ → σ → Prop}
    {Q : α → α → Prop} {name : String} {decoder : Decoder α} {set : α → σ → σ}
    (h : decoder.TakesAlike E V Q)
    (hset : ∀ a b s t, Q a b → R s t → R (set a s) (set b t)) :
    (mandatory name decoder set).ChangesAlike E V R :=
  h.map fun a b hab s t => hset a b s t hab

namespace Record

/-- The items of two lists are related at the place of each field, and there are as many. -/
inductive ItemsRelated (V : String → Value → Value → Prop) :
    List (Field σ) → List Value → List Value → Prop where
  | nil {fields : List (Field σ)} : ItemsRelated V fields [] []
  | surplus {as bs : List Value} (hlength : as.length = bs.length) : ItemsRelated V [] as bs
  | cons {field : Field σ} {fields : List (Field σ)} {a b : Value} {as bs : List Value}
      (hfirst : V field.name a b) (hrest : ItemsRelated V fields as bs) :
      ItemsRelated V (field :: fields) (a :: as) (b :: bs)

/-- Two values of a record are related field by field: members with the same names in the same
order, or items at the same places.  `V` relates the values of the field with a name. -/
inductive Related (record : Record σ) (V : String → Value → Value → Prop) :
    Value → Value → Prop where
  | object {as bs : Table Value} (h : Table.Entrywise V as bs) :
      Related record V (.object as) (.object bs)
  | list {as bs : List Value} (h : ItemsRelated V record.fields as bs) :
      Related record V (.array as) (.array bs)
  | leaf {value : Value} (hobject : value.kind ≠ .object) (harray : value.kind ≠ .array) :
      Related record V value value

variable {record : Record σ} {V : String → Value → Value → Prop} {R : σ → σ → Prop}

theorem ItemsRelated.length_eq {fields : List (Field σ)} {as bs : List Value}
    (h : ItemsRelated V fields as bs) : as.length = bs.length := by
  induction h with
  | nil => rfl
  | surplus hlength => exact hlength
  | cons _ _ ih => simp [ih]

/-- Fields without items are absent in either list. -/
theorem takeItems_nil_alike (hE : ∀ fault, E fault fault) (fields : List (Field σ)) {s t : σ}
    (hstate : R s t) (total index : Nat) :
    EndAlike E R (record.takeItems total index s fields [])
      (record.takeItems total index t fields []) := by
  induction fields generalizing index with
  | nil => exact .ok hstate
  | cons field fields ih =>
    rw [takeItems, takeItems]
    split
    · exact .error (hE _)
    · exact ih (index + 1)

theorem takeItems_alike (hE : ∀ fault, E fault fault) {fields : List (Field σ)}
    (hfields : ∀ field ∈ fields, field.ChangesAlike E (V field.name) R) {as bs : List Value}
    (h : ItemsRelated V fields as bs) {s t : σ} (hstate : R s t) (total index : Nat) :
    EndAlike E R (record.takeItems total index s fields as)
      (record.takeItems total index t fields bs) := by
  induction h generalizing s t index with
  | nil => exact takeItems_nil_alike hE _ hstate total index
  | @surplus as bs hlength =>
    cases as with
    | nil =>
      obtain rfl := List.eq_nil_of_length_eq_zero hlength.symm
      exact takeItems_nil_alike hE [] hstate total index
    | cons a as =>
      cases bs with
      | nil => simp at hlength
      | cons b bs => exact .error (hE _)
  | cons hfirst _ ih =>
    obtain ⟨hfield, hfields⟩ := List.forall_mem_cons.1 hfields
    rw [takeItems, takeItems]
    exact (hfield hfirst).bind fun change change' hchange =>
      ih hfields (hchange s t hstate) (index + 1)

theorem takeMembers_alike (hE : ∀ fault, E fault fault)
    (hfields : ∀ field ∈ record.fields, field.ChangesAlike E (V field.name) R)
    {as bs : Table Value} (h : Table.Entrywise V as bs) {s t : σ} (hstate : R s t)
    (seen : List String) :
    EndAlike E R (record.takeMembers seen s as) (record.takeMembers seen t bs) := by
  induction h generalizing seen s t with
  | nil =>
    rw [takeMembers, takeMembers, finish, finish]
    cases record.missing? seen with
    | none => exact .ok hstate
    | some name => exact .error (hE _)
  | @cons a b _ _ hab _ ih =>
    obtain ⟨name, value⟩ := a
    obtain ⟨name', value'⟩ := b
    obtain ⟨rfl, hvalue⟩ := hab
    rw [takeMembers, takeMembers]
    cases hfield : record.field? name' with
    | none => exact ih hstate seen
    | some field =>
      have hmem := List.mem_of_find?_eq_some hfield
      have hname : field.name = name' := by simpa using List.find?_some hfield
      have hchange := hfields field hmem (hname.symm ▸ hvalue)
      exact hchange.bind fun change change' hboth => ih (hboth s t hstate) (name' :: seen)

/-- Records that are taken from related values are related, where each field keeps the
relation. -/
theorem takesAlike_decoder (hE : ∀ fault, E fault fault)
    (hfields : ∀ field ∈ record.fields, field.ChangesAlike E (V field.name) R)
    (hinitial : R record.initial record.initial) :
    record.decoder.TakesAlike E (record.Related V) R := by
  intro a b hab
  cases hab with
  | object h => exact takeMembers_alike hE hfields h hinitial []
  | @list as bs h =>
    show EndAlike E R (record.takeItems as.length 0 record.initial record.fields as)
      (record.takeItems bs.length 0 record.initial record.fields bs)
    rw [← h.length_eq]
    exact takeItems_alike hE hfields h hinitial as.length 0
  | leaf hobject harray =>
    cases a with
    | object => exact absurd rfl hobject
    | array => exact absurd rfl harray
    | _ => exact .error (hE _)

end Record

end BuildFacts.Json
