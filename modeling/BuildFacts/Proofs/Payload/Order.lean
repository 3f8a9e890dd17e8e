import BuildFacts.Proofs.Json.Rearranged
import BuildFacts.Proofs.Payload.Agreement

/-!
# Payloads with their members in another order

A payload that is taken from a value and one that is taken from a rearranged value are the same
but for the order of their targets and source files (`Payload.orderBlind_decoder`).  The parts of
a payload have no tables in them, so they are the same altogether.
-/

namespace BuildFacts

open Json

/-! ## Words, lines and kinds -/

theorem WrittenWords.orderBlind_decoder : decoder.OrderBlind Eq := by
  refine Decoder.OrderBlind.optional fun a b hab => ?_
  obtain ⟨hkeys, hrearranged⟩ := hab
  cases a with
  | array as =>
    obtain ⟨bs, rfl, hitems⟩ := Value.rearranged_array_iff.1 hrearranged
    have htexts : bs.mapM Value.string? = as.mapM Value.string? := by
      clear hkeys hrearranged
      induction hitems with
      | nil => rfl
      | cons hfirst _ ih => rw [List.mapM_cons, List.mapM_cons, hfirst.string?_eq, ih]
    simp only [Decoder.ofValue, ofValue, htexts]
    exact .same _
  | object as =>
    obtain ⟨bs, cs, rfl, _⟩ := Value.rearranged_object_iff.1 hrearranged
    exact .error trivial
  | _ =>
    rw [hrearranged.eq_of_leaf nofun nofun]
    exact .same _

theorem Frame.orderBlind_line : (Decoder.ofValue lineOfValue).OrderBlind Eq := by
  refine Decoder.orderBlind_of_leaf fun value hkind => ?_
  cases value <;> simp_all [Value.kind, Decoder.ofValue, lineOfValue]

theorem TargetKind.orderBlind_decoder : decoder.OrderBlind Eq := by
  intro a b hab
  obtain ⟨hkeys, hrearranged⟩ := hab
  cases a with
  | object as =>
    obtain ⟨bs, cs, rfl, hperm, hmembers⟩ := Value.rearranged_object_iff.1 hrearranged
    refine .of_eq_ok_iff fun kind => ?_
    simp only [fromValue_object_eq_ok_iff]
    refine exists_congr fun name => and_congr_left fun _ => ?_
    rw [← hmembers.eq_singleton_null_iff]
    constructor
    · rintro rfl
      exact (List.singleton_perm.1 hperm).symm
    · rintro rfl
      exact List.perm_singleton.1 hperm
  | array as =>
    obtain ⟨bs, rfl, _⟩ := Value.rearranged_array_iff.1 hrearranged
    exact .error trivial
  | _ =>
    rw [hrearranged.eq_of_leaf nofun nofun]
    exact .same _

/-! ## Records -/

@[simp] theorem Json.Field.orderBlind_optional {σ α : Type} {name : String} {decoder : Decoder α}
    {set : α → σ → σ} (h : decoder.OrderBlind Eq) :
    (optional name decoder set).ChangesAlike (fun _ _ => True) Value.Reorders Eq :=
  changesAlike_optional h fun _ _ _ _ hdata hstate => by rw [hdata, hstate]

@[simp] theorem Json.Field.orderBlind_mandatory {σ α : Type} {name : String}
    {decoder : Decoder α} {set : α → σ → σ} (h : decoder.OrderBlind Eq) :
    (mandatory name decoder set).ChangesAlike (fun _ _ => True) Value.Reorders Eq :=
  changesAlike_mandatory h fun _ _ _ _ hdata hstate => by rw [hdata, hstate]

theorem Frame.orderBlind_decoder : record.decoder.OrderBlind Eq :=
  Record.orderBlind_decoder (by simp [Record.FieldsCommute, record])
    (by simp [record, Decoder.orderBlind_text, orderBlind_line]) rfl

theorem WrittenTarget.orderBlind_decoder : record.decoder.OrderBlind Eq :=
  Record.orderBlind_decoder (by simp [Record.FieldsCommute, record, text, files, words])
    (by
      simp [record, text, files, words, Decoder.string, (Decoder.orderBlind_text _).optional,
        (Decoder.orderBlind_text _).list, TargetKind.orderBlind_decoder.optional,
        Frame.orderBlind_decoder.list, WrittenWords.orderBlind_decoder])
    rfl

theorem WrittenSource.orderBlind_decoder : record.decoder.OrderBlind Eq :=
  Record.orderBlind_decoder (by simp [Record.FieldsCommute, record])
    (by
      simp [record, Decoder.string, (Decoder.orderBlind_text _).optional,
        WrittenWords.orderBlind_decoder])
    rfl

/-! ## Payloads -/

namespace Payload

/-- Two payloads that are the same but for the order of their targets and source files. -/
@[mk_iff]
structure Reordered (p p' : Payload) : Prop where
  sourceDir : p'.sourceDir = p.sourceDir
  generator : p'.generator = p.generator
  platform : p'.platform = p.platform
  compilers : p'.compilers = p.compilers
  targets : p.targets.Perm p'.targets
  sources : p.sources.Perm p'.sources

@[simp] theorem orderBlind_text {name : String} {set : Option String → Payload → Payload}
    (h : ∀ x p p', p.Reordered p' → (set x p).Reordered (set x p')) :
    (text name set).ChangesAlike (fun _ _ => True) Value.Reorders Reordered :=
  Field.changesAlike_optional (Decoder.orderBlind_text _).optional
    fun x _ p p' hdata hstate => hdata ▸ h x p p' hstate

theorem orderBlind_table {α : Type} {name : String} {decoder : Decoder α}
    (h : decoder.OrderBlind Eq) {set : Table α → Payload → Payload}
    (hset : ∀ x x' p p', x.Perm x' → p.Reordered p' → (set x p).Reordered (set x' p')) :
    (Field.optional name decoder.table set).ChangesAlike (fun _ _ => True) Value.Reorders
      Reordered :=
  Field.changesAlike_optional h.table hset

/-- A payload is taken in whatever order members stand, up to the order of its tables. -/
theorem orderBlind_decoder : decoder.OrderBlind Reordered :=
  Record.orderBlind_decoder (by simp [Record.FieldsCommute, record, text])
    (by simp +contextual [record, reordered_iff, orderBlind_table WrittenTarget.orderBlind_decoder,
      orderBlind_table WrittenSource.orderBlind_decoder])
    ⟨rfl, rfl, rfl, rfl, .nil, .nil⟩

end Payload

end BuildFacts
