import BuildFacts.MetadataSchema
import BuildFacts.Proofs.Json.Takes
import BuildFacts.Proofs.Schema.Validity

/-!
# Decoders and schemas

A schema and a decoder both say which values are of the right form, and they need not say the
same.  `TakesValid root node decoder P` relates them: of the values that are valid at a node, the
decoder takes those that have the property `P`.

There is a lemma for each kind of node.  In a record only one field may ask for more than its
node does (`TakesValid.record`); that is enough for a single form to be followed down to the
place where decoder and schema part.
-/

namespace BuildFacts.Schema

open Json

variable {σ α β : Type} {root node : Value} {decoder : Decoder α} {P Q : Value → Prop}

/-- Of the values that are valid at a node, a decoder takes those with a property. -/
structure TakesValid (root node : Value) (decoder : Decoder α) (P : Value → Prop) : Prop where
  takes_iff : ∀ {hops value}, value.KeysDistinct → Valid root hops node value →
    (decoder.Takes value ↔ P value)

/-! ## Rules of a node -/

theorem not_refersTo {rules : Table Value} (h : rules.lookup "$ref" = none) (reference : String) :
    ¬RefersTo (.object rules) reference := by
  simp [RefersTo, Value.member?, Value.members?, h]

/-- A valid value has the kind that its node asks for. -/
theorem Valid.kind_eq {rules : Table Value} {value : Value} {hops : Nat} {kind : Value.Kind}
    (h : Valid root hops (.object rules) value) (hnoref : rules.lookup "$ref" = none)
    (htype : rules.lookup "type" = some (.string kind.name)) : value.kind = kind :=
  (ofType_name_iff kind value).1
    (((valid_object_iff (not_refersTo hnoref)).1 h).1.type _ htype)

namespace TakesValid

/-! ## Decoders -/

theorem congr (h : TakesValid root node decoder P) (hPQ : ∀ value, P value ↔ Q value) :
    TakesValid root node decoder Q where
  takes_iff hkeys hvalid := (h.takes_iff hkeys hvalid).trans (hPQ _)

theorem map (h : TakesValid root node decoder P) (f : α → β) :
    TakesValid root node (decoder.map f) P where
  takes_iff hkeys hvalid := Decoder.takes_map_iff.trans (h.takes_iff hkeys hvalid)

theorem of_forall (h : ∀ {hops value}, value.KeysDistinct → Valid root hops node value →
    decoder.Takes value) : TakesValid root node decoder fun _ => True where
  takes_iff hkeys hvalid := iff_of_true (h hkeys hvalid) trivial

/-- A decoder that takes all valid values takes them also where they may be `null`. -/
theorem optional (h : TakesValid root node decoder fun _ => True) :
    TakesValid root node decoder.optional fun _ => True :=
  of_forall fun hkeys hvalid =>
    Decoder.takes_optional_iff.2 (.inr ((h.takes_iff hkeys hvalid).2 trivial))

/-! ## Nodes -/

theorem text (expected : String) :
    TakesValid root textNode (Decoder.text expected) fun _ => True :=
  of_forall fun _ hvalid => Decoder.takes_text_iff.2 (hvalid.kind_eq rfl rfl)

/-- Where a reference leads, there is the node that counts. -/
theorem reference {reference : String} {target : Value}
    (htarget : target? root reference = some target) (h : TakesValid root target decoder P) :
    TakesValid root (.object [("$ref", .string reference)]) decoder P where
  takes_iff hkeys hvalid :=
    have href : RefersTo (.object [("$ref", .string reference)]) reference := rfl
    h.takes_iff hkeys (((valid_ref_iff href).1 hvalid).2 target htarget)

/-- The items of a list are taken each for itself. -/
theorem list (hitem : node.kind ≠ .array) (h : TakesValid root node decoder P) :
    TakesValid root (listNode node) decoder.list
      fun value => ∀ items, value = .array items → ∀ item ∈ items, P item := by
  refine ⟨fun {hops value} hkeys hvalid => ?_⟩
  have hparts := ((valid_object_iff (not_refersTo rfl)).1 hvalid).2
  have hkind : value.kind = .array := hvalid.kind_eq rfl rfl
  cases hkeys with
  | @array items hitems =>
    have htakes : ∀ item ∈ items, (decoder.Takes item ↔ P item) := fun item hmem =>
      h.takes_iff (hitems item hmem) (hparts.items items item node rfl hmem rfl hitem)
    simp only [Decoder.takes_list_iff, Value.array.injEq, exists_eq_left', forall_eq']
    exact forall₂_congr htakes
  | _ => simp [Value.kind] at hkind

/-- The values of a table are taken each for itself. -/
theorem table (h : TakesValid root node decoder P) :
    TakesValid root (tableNode node) decoder.table
      fun value => ∀ key part, value.member? key = some part → P part := by
  refine ⟨fun {hops value} hkeys hvalid => ?_⟩
  have hparts := ((valid_object_iff (not_refersTo rfl)).1 hvalid).2
  have hkind : value.kind = .object := hvalid.kind_eq rfl rfl
  cases hkeys with
  | @object members hkeys hmembers =>
    have hnode (name : String) : MemberNode
        [("type", .string "object"), ("additionalProperties", node)] name node :=
      .inr ⟨by simp [PropertyNode, List.lookup_cons], rfl⟩
    have htakes : ∀ member ∈ members, (decoder.Takes member.2 ↔ P member.2) := fun member hmem =>
      h.takes_iff (hmembers member hmem)
        (hparts.members members member.1 member.2 node rfl hmem (hnode _))
    simp only [Decoder.takes_table_iff, Value.object.injEq, exists_eq_left',
      Value.member?_object_eq_some_iff hkeys]
    constructor
    · intro hall key part hmem
      exact (htakes _ hmem).1 (hall _ hmem)
    · intro hall member hmem
      exact (htakes _ hmem).2 (hall member.1 member.2 hmem)
  | _ => simp [Value.kind] at hkind

end TakesValid

/-! ## Records -/

/-- A field takes what is valid at its node; the field `name` asks for `P` besides. -/
def FieldTakesValid (root : Value) (properties : Table Value) (name : String)
    (P : Value → Prop) (field : Json.Field σ) : Prop :=
  ∃ node, properties.lookup field.name = some node ∧
    TakesValid root node field.change fun part => field.name = name → P part

namespace FieldTakesValid

variable {properties : Table Value} {name : String} {field : Json.Field σ} {set : α → σ → σ}

theorem plain (h : TakesValid root node decoder fun _ => True)
    (hnode : properties.lookup field.name = some node) (hne : field.name ≠ name)
    (hchange : field.change = decoder.map set) : FieldTakesValid root properties name P field :=
  ⟨node, hnode, hchange ▸ (h.map set).congr (by simp [hne])⟩

theorem special (h : TakesValid root node decoder P)
    (hnode : properties.lookup field.name = some node) (hname : field.name = name)
    (hchange : field.change = decoder.map set) : FieldTakesValid root properties name P field :=
  ⟨node, hnode, hchange ▸ (h.map set).congr (by simp [hname])⟩

end FieldTakesValid

/-- A record is taken if its field `name` is.  All other fields take what is valid, and the node
asks for the required ones. -/
theorem TakesValid.record {record : Record σ} {rules properties : Table Value} (name : String)
    (hnoref : rules.lookup "$ref" = none) (htype : rules.lookup "type" = some (.string "object"))
    (hproperties : rules.lookup "properties" = some (.object properties))
    (hrequired : ∀ field ∈ record.fields, field.required = true →
      field.name ∈ requiredNames rules)
    (hname : name ∈ record.fields.map (·.name))
    (hfields : ∀ field ∈ record.fields, FieldTakesValid root properties name P field) :
    TakesValid root (.object rules) record.decoder
      fun value => ∀ part, value.member? name = some part → P part := by
  refine ⟨fun {hops value} hkeys hvalid => ?_⟩
  have hkind : value.kind = .object := hvalid.kind_eq hnoref htype
  obtain ⟨hown, hparts⟩ := (valid_object_iff (not_refersTo hnoref)).1 hvalid
  have hpresent : ∀ field ∈ record.fields, field.required = true →
      (value.member? field.name).isSome := by
    intro field hmem hreq
    obtain ⟨names, hnames, hlisted⟩ := mem_requiredNames.1 (hrequired field hmem hreq)
    cases value with
    | object members =>
      exact Value.isSome_member?_object_iff.2
        (hown.required members names _ rfl hnames hlisted)
    | _ => simp [Value.kind] at hkind
  have htakes : ∀ name' part field, value.member? name' = some part →
      record.field? name' = some field → (field.change.Takes part ↔ (name' = name → P part)) := by
    intro name' part field hpart hfield
    obtain ⟨hmem, rfl⟩ := Record.name_of_field? hfield
    obtain ⟨node, hnode, hfield'⟩ := hfields field hmem
    cases value with
    | object members =>
      have hvalid : Valid root 0 node part :=
        hparts.members members field.name part node rfl (Table.mem_of_lookup hpart)
          (.inl ⟨properties, hproperties, hnode⟩)
      exact hfield'.takes_iff (hkeys.member hpart) hvalid
    | _ => simp [Value.kind] at hkind
  rw [Record.takes_decoder_iff hkeys hkind]
  constructor
  · intro ⟨_, hall⟩ part hpart
    obtain ⟨field, hfield⟩ : ∃ field, record.field? name = some field := by
      rw [← Option.isSome_iff_exists, ← Option.ne_none_iff_isSome, Ne, Record.field?_eq_none_iff]
      simpa using hname
    exact (htakes name part field hpart hfield).1 (hall name part field hpart hfield) rfl
  · intro hP
    refine ⟨hpresent, fun name' part field hpart hfield => ?_⟩
    exact (htakes name' part field hpart hfield).2 fun heq => hP part (heq ▸ hpart)

end BuildFacts.Schema
