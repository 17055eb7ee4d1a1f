import RadixEngineToolkit.Sbor.Convert

set_option autoImplicit false

/-! # The wire path: kinds, round trips and network ids

What `to_scrypto_value` and `from_scrypto_value` do to whole value trees.

* Kinds. `From<ValueKind> for ScryptoValueKind` is the kind of what `to_scrypto_value` emits for
  each constructor, and `From<ScryptoValueKind> for ValueKind` the kind of what
  `from_scrypto_value` returns; so both directions keep arrays and maps homogeneous.
* Decoding then encoding is the identity on every SBOR value, so decoding loses nothing.
* Encoding then decoding returns a value exactly when it is already in the wire's normal form
  (`Value.WireCanonical`): options and results come back as numbered enums, byte strings as
  arrays of `U8`, non-fungible global ids as tuples.
* The network id is context only: encoding ignores it and decoding writes it into every address.

The external conversions of bucket and proof identifiers enter through two assumptions,
`IdentifierConversions.Numeric` and `IdentifierConversions.KindPreserving`. -/

/-! ## Identifier conversions -/

/-- A numeric bucket or proof identifier converts to the wire identifier with the same number. -/
structure IdentifierConversions.Numeric (ids : IdentifierConversions) : Prop where
  bucket : ∀ n, ids.bucket ⟨.u32 n⟩ = .ok (.bucket ⟨n⟩)
  proof : ∀ n, ids.proof ⟨.u32 n⟩ = .ok (.proof ⟨n⟩)

/-- A bucket identifier converts to a custom `Bucket` value, a proof identifier to a `Proof`. -/
structure IdentifierConversions.KindPreserving (ids : IdentifierConversions) : Prop where
  bucket : ∀ id c, ids.bucket id = .ok c → c.valueKind = .bucket
  proof : ∀ id c, ids.proof id = .ok c → c.valueKind = .proof

/-- The conversion that keeps numeric identifiers and rejects named ones. -/
def IdentifierConversions.numbered : IdentifierConversions where
  bucket
    | ⟨.u32 n⟩ => .ok (.bucket ⟨n⟩)
    | ⟨.string _⟩ => .error (.unexpectedAstContents .bucket [.u32] .string)
  proof
    | ⟨.u32 n⟩ => .ok (.proof ⟨n⟩)
    | ⟨.string _⟩ => .error (.unexpectedAstContents .proof [.u32] .string)

theorem IdentifierConversions.numbered_numeric : IdentifierConversions.numbered.Numeric :=
  ⟨fun _ => rfl, fun _ => rfl⟩

theorem IdentifierConversions.numbered_kindPreserving :
    IdentifierConversions.numbered.KindPreserving := by
  constructor <;> rintro ⟨_ | _⟩ c h <;> cases h <;> rfl

/-! ## Kinds -/

@[simp]
theorem Value.kind_fromScryptoValue (s : ScryptoValue) (n : UInt8) :
    (Value.fromScryptoValue s n).kind = ValueKind.ofScryptoValueKind s.valueKind := by
  cases s with
  | custom c => cases c <;> rfl
  | _ => rfl

/-- Decoding keeps a node's shape: containers decode to containers and leaves to leaves. -/
theorem Value.isContainer_fromScryptoValue (s : ScryptoValue) (n : UInt8) :
    (Value.fromScryptoValue s n).isContainer = s.isContainer := by
  cases s with
  | custom c => cases c <;> rfl
  | _ => rfl

section Encode

variable {known : KnownEnumDiscriminators} {ids : IdentifierConversions}

/-- The wire kind of an encoded value is `From<ValueKind> for ScryptoValueKind` of its kind. -/
theorem ScryptoValue.valueKind_toScryptoValue (hids : ids.KindPreserving) {v : Value}
    {s : ScryptoValue} (h : v.toScryptoValue known ids = .ok s) :
    s.valueKind = .ofValueKind v.kind := by
  cases v with
  | bucket identifier =>
    simp only [Value.toScryptoValue, Except.bind_eq_ok_iff, Except.pure_eq_ok_iff] at h
    obtain ⟨c, hc, rfl⟩ := h
    exact congrArg ScryptoValueKind.custom (hids.bucket _ _ hc)
  | proof identifier =>
    simp only [Value.toScryptoValue, Except.bind_eq_ok_iff, Except.pure_eq_ok_iff] at h
    obtain ⟨c, hc, rfl⟩ := h
    exact congrArg ScryptoValueKind.custom (hids.proof _ _ hc)
  | enum variant fields =>
    cases fields <;>
      simp only [Value.toScryptoValue, Except.bind_eq_ok_iff, Except.pure_eq_ok_iff] at h
    · obtain ⟨_, _, rfl⟩ := h; rfl
    · obtain ⟨_, _, _, _, rfl⟩ := h; rfl
  | some | ok | err | map | array | tuple =>
    simp only [Value.toScryptoValue, Except.bind_eq_ok_iff, Except.pure_eq_ok_iff] at h
    obtain ⟨_, _, rfl⟩ := h; rfl
  | nonFungibleGlobalId =>
    simp only [Value.toScryptoValue, Except.bind_eq_ok_iff, Except.pure_eq_ok_iff] at h
    obtain ⟨_, _, _, _, rfl⟩ := h; rfl
  | _ => cases h; rfl

/-- Encoding keeps containers homogeneous: the encoding of a well-kinded value is well-kinded on
    the wire. -/
theorem ScryptoValue.wellKinded_toScryptoValue (hids : ids.KindPreserving) (v : Value) :
    ∀ s, v.WellKinded → v.toScryptoValue known ids = .ok s → s.WellKinded := by
  induction v using Value.induction with
  | henum variant fields ih =>
    intro s hv h
    cases fields with
    | none =>
      simp only [Value.toScryptoValue, bind_pure_comp, Except.map_eq_ok_iff] at h
      obtain ⟨_, _, rfl⟩ := h
      exact ScryptoValue.every_enum.2 ⟨trivial, List.forall_mem_nil _⟩
    | some fields =>
      simp only [Value.toScryptoValue, Except.bind_eq_ok_iff, Except.pure_eq_ok_iff,
        Value.toScryptoValues_eq_ok] at h
      obtain ⟨_, _, ss, hss, rfl⟩ := h
      simp only [Value.WellKinded, Value.every_enum, Option.getD_some] at hv
      simp only [ScryptoValue.WellKinded, ScryptoValue.every_enum, ScryptoValue.KindsAgree,
        true_and]
      exact hss.forall_right fun f hf s' hs' => ih f hf s' (hv.2 f hf) hs'
  | hsome value ih | hok value ih | herr value ih =>
    intro s hv h
    simp only [Value.toScryptoValue, Except.bind_eq_ok_iff, Except.pure_eq_ok_iff] at h
    obtain ⟨s', hs', rfl⟩ := h
    simp only [Value.WellKinded, Value.every_some, Value.every_ok, Value.every_err] at hv
    exact ScryptoValue.every_enum.2 ⟨trivial, List.forall_mem_singleton.2 (ih s' hv.2 hs')⟩
  | harray kind elements ih =>
    intro s hv h
    simp only [Value.toScryptoValue, Except.bind_eq_ok_iff, Except.pure_eq_ok_iff,
      Value.toScryptoValues_eq_ok] at h
    obtain ⟨ss, hss, rfl⟩ := h
    simp only [Value.WellKinded, Value.every_array, Value.KindsAgree, id] at hv
    simp only [ScryptoValue.WellKinded, ScryptoValue.every_array, ScryptoValue.KindsAgree]
    refine ⟨hss.forall_right fun e he s' hs' => ?_, hss.forall_right fun e he s' hs' =>
      ih e he s' (hv.2 e he) hs'⟩
    rw [ScryptoValue.valueKind_toScryptoValue hids hs', hv.1 e he]
  | hmap keyKind valueKind entries ih =>
    intro s hv h
    simp only [Value.toScryptoValue, Except.bind_eq_ok_iff, Except.pure_eq_ok_iff,
      Value.toScryptoEntries_eq_ok] at h
    obtain ⟨ss, hss, rfl⟩ := h
    simp only [Value.WellKinded, Value.every_map, Value.KindsAgree, id] at hv
    simp only [ScryptoValue.WellKinded, ScryptoValue.every_map, ScryptoValue.KindsAgree]
    refine ⟨hss.forall_right fun e he s' hs' => ?_, hss.forall_right fun e he s' hs' =>
      ⟨(ih e he).1 s'.1 (hv.2 e he).1 hs'.1, (ih e he).2 s'.2 (hv.2 e he).2 hs'.2⟩⟩
    rw [ScryptoValue.valueKind_toScryptoValue hids hs'.1,
      ScryptoValue.valueKind_toScryptoValue hids hs'.2, (hv.1 e he).1, (hv.1 e he).2]
    exact ⟨rfl, rfl⟩
  | htuple elements ih =>
    intro s hv h
    simp only [Value.toScryptoValue, Except.bind_eq_ok_iff, Except.pure_eq_ok_iff,
      Value.toScryptoValues_eq_ok] at h
    obtain ⟨ss, hss, rfl⟩ := h
    simp only [Value.WellKinded, Value.every_tuple] at hv
    simp only [ScryptoValue.WellKinded, ScryptoValue.every_tuple, ScryptoValue.KindsAgree,
      true_and]
    exact hss.forall_right fun e he s' hs' => ih e he s' (hv.2 e he) hs'
  | hleaf v hleaf =>
    intro s _ h
    cases v with
    | enum | some | ok | err | map | array | tuple => cases hleaf
    | bucket | proof =>
      simp only [Value.toScryptoValue, Except.bind_eq_ok_iff, Except.pure_eq_ok_iff] at h
      obtain ⟨_, _, rfl⟩ := h
      exact ScryptoValue.wellKinded_of_leaf rfl
    | none => cases h; exact ScryptoValue.every_enum.2 ⟨trivial, List.forall_mem_nil _⟩
    | bytes value =>
      cases h
      refine ScryptoValue.every_array.2 ⟨fun e he => ?_, fun e he => ?_⟩ <;>
        obtain ⟨_, _, rfl⟩ := List.mem_map.1 he
      exacts [rfl, ScryptoValue.wellKinded_of_leaf rfl]
    | nonFungibleGlobalId =>
      cases h
      exact ScryptoValue.every_tuple.2 ⟨trivial, List.forall_mem_cons.2
        ⟨ScryptoValue.wellKinded_of_leaf rfl,
          List.forall_mem_singleton.2 (ScryptoValue.wellKinded_of_leaf rfl)⟩⟩
    | _ => cases h; exact ScryptoValue.wellKinded_of_leaf rfl

end Encode

/-- Decoding keeps containers homogeneous: the decoding of a well-kinded SBOR value is
    well-kinded. -/
theorem Value.wellKinded_fromScryptoValue (n : UInt8) (s : ScryptoValue) :
    s.WellKinded → (Value.fromScryptoValue s n).WellKinded := by
  induction s using ScryptoValue.induction with
  | henum discriminator fields ih =>
    intro hs
    simp only [ScryptoValue.WellKinded, ScryptoValue.every_enum] at hs
    simp only [Value.fromScryptoValue, Value.WellKinded, Value.every_enum, Value.KindsAgree,
      true_and]
    split
    · exact fun f hf => absurd hf (List.not_mem_nil f)
    · simpa only [Value.fromScryptoValues_eq, Option.getD_some, List.mem_map, forall_exists_index,
        and_imp, forall_apply_eq_imp_iff₂] using fun f hf => ih f hf (hs.2 f hf)
  | harray kind elements ih =>
    intro hs
    simp only [ScryptoValue.WellKinded, ScryptoValue.every_array, ScryptoValue.KindsAgree] at hs
    simp only [Value.fromScryptoValue, Value.fromScryptoValues_eq, Value.WellKinded,
      Value.every_array, Value.KindsAgree, List.mem_map, id, forall_exists_index, and_imp,
      forall_apply_eq_imp_iff₂, Value.kind_fromScryptoValue]
    exact ⟨fun e he => by rw [hs.1 e he], fun e he => ih e he (hs.2 e he)⟩
  | htuple fields ih =>
    intro hs
    simp only [ScryptoValue.WellKinded, ScryptoValue.every_tuple] at hs
    simp only [Value.fromScryptoValue, Value.fromScryptoValues_eq, Value.WellKinded,
      Value.every_tuple, Value.KindsAgree, List.mem_map, forall_exists_index, and_imp,
      forall_apply_eq_imp_iff₂, true_and]
    exact fun f hf => ih f hf (hs.2 f hf)
  | hmap keyKind valueKind entries ih =>
    intro hs
    simp only [ScryptoValue.WellKinded, ScryptoValue.every_map, ScryptoValue.KindsAgree] at hs
    simp only [Value.fromScryptoValue, Value.fromScryptoEntries_eq, Value.WellKinded,
      Value.every_map, Value.KindsAgree, List.mem_map, id, forall_exists_index, and_imp,
      forall_apply_eq_imp_iff₂, Value.kind_fromScryptoValue]
    refine ⟨fun e he => ?_, fun e he => ⟨(ih e he).1 (hs.2 e he).1, (ih e he).2 (hs.2 e he).2⟩⟩
    rw [(hs.1 e he).1, (hs.1 e he).2]
    exact ⟨rfl, rfl⟩
  | hleaf s hs =>
    intro _
    have hv := (Value.isContainer_fromScryptoValue s n).trans hs
    exact (Value.every_of_leaf hv).2 (Value.kindsAgree_of_leaf hv)

/-- **Homogeneity on the wire.** Encoding a well-kinded value gives a well-kinded SBOR value and
    decoding a well-kinded SBOR value gives a well-kinded value, at every depth: the two kind
    tables agree with the kinds the two conversions emit, constructor by constructor. -/
theorem Value.wire_preserves_homogeneity {known : KnownEnumDiscriminators}
    {ids : IdentifierConversions} (hids : ids.KindPreserving) :
    (∀ (v : Value) (s : ScryptoValue), v.WellKinded → v.toScryptoValue known ids = .ok s →
      s.WellKinded) ∧
    (∀ (s : ScryptoValue) (n : UInt8), s.WellKinded → (Value.fromScryptoValue s n).WellKinded) ∧
    (∀ (v : Value) (s : ScryptoValue), v.toScryptoValue known ids = .ok s →
      s.valueKind = .ofValueKind v.kind) ∧
    (∀ (s : ScryptoValue) (n : UInt8),
      (Value.fromScryptoValue s n).kind = .ofScryptoValueKind s.valueKind) :=
  ⟨ScryptoValue.wellKinded_toScryptoValue hids, fun s n => Value.wellKinded_fromScryptoValue n s,
    fun _ _ h => ScryptoValue.valueKind_toScryptoValue hids h, Value.kind_fromScryptoValue⟩

theorem Value.wire_preserves_homogeneity_numbered :
    IdentifierConversions.numbered.KindPreserving ∧
    (∀ (v : Value) (s : ScryptoValue), v.WellKinded →
      v.toScryptoValue .optionAndResult .numbered = .ok s → s.WellKinded) ∧
    (∀ (s : ScryptoValue) (n : UInt8), s.WellKinded → (Value.fromScryptoValue s n).WellKinded) ∧
    (∀ (v : Value) (s : ScryptoValue), v.toScryptoValue .optionAndResult .numbered = .ok s →
      s.valueKind = .ofValueKind v.kind) ∧
    (∀ (s : ScryptoValue) (n : UInt8),
      (Value.fromScryptoValue s n).kind = .ofScryptoValueKind s.valueKind) :=
  ⟨IdentifierConversions.numbered_kindPreserving,
    Value.wire_preserves_homogeneity IdentifierConversions.numbered_kindPreserving⟩

/-! ## Decoding then encoding -/

section Encode

variable {known : KnownEnumDiscriminators} {ids : IdentifierConversions}

theorem Value.toScryptoValues_map {g : ScryptoValue → Value} {l : List ScryptoValue}
    (h : ∀ s ∈ l, (g s).toScryptoValue known ids = .ok s) :
    Value.toScryptoValues known ids (l.map g) = .ok l :=
  (Value.toScryptoValues_eq_ok known ids).2
    (List.forall₂_map_left_iff.2 (List.forall₂_same.2 h))

theorem Value.toScryptoEntries_map (g : ScryptoValue → Value)
    {l : List (ScryptoValue × ScryptoValue)}
    (h : ∀ e ∈ l, (g e.1).toScryptoValue known ids = .ok e.1 ∧
      (g e.2).toScryptoValue known ids = .ok e.2) :
    Value.toScryptoEntries known ids (l.map fun e => (g e.1, g e.2)) = .ok l :=
  (Value.toScryptoEntries_eq_ok known ids).2
    (List.forall₂_map_left_iff.2 (List.forall₂_same.2 h))

/-- Decoding then encoding gives back every SBOR value, whatever its nesting and declared
    kinds. -/
theorem Value.toScryptoValue_fromScryptoValue (hids : ids.Numeric) (n : UInt8)
    (s : ScryptoValue) : (Value.fromScryptoValue s n).toScryptoValue known ids = .ok s := by
  induction s using ScryptoValue.induction with
  | henum discriminator fields ih =>
    simp only [Value.fromScryptoValue, Value.fromScryptoValues_eq]
    split
    · next hnil => rw [List.isEmpty_iff.1 hnil]; rfl
    · simp only [Value.toScryptoValue, EnumDiscriminator.resolveDiscriminator_u8,
        Value.toScryptoValues_map ih, bind_pure_comp, Except.map_ok, Except.bind_eq_ok_iff,
        Except.ok.injEq, ScryptoValue.enum.injEq, and_true, exists_eq_right]
  | harray kind elements ih =>
    simp only [Value.fromScryptoValue, Value.toScryptoValue, Value.fromScryptoValues_eq,
      Value.toScryptoValues_map ih, ScryptoValueKind.ofValueKind_ofScryptoValueKind,
      bind_pure_comp, Except.map_ok]
  | htuple fields ih =>
    simp only [Value.fromScryptoValue, Value.toScryptoValue, Value.fromScryptoValues_eq,
      Value.toScryptoValues_map ih, bind_pure_comp, Except.map_ok]
  | hmap keyKind valueKind entries ih =>
    simp only [Value.fromScryptoValue, Value.toScryptoValue, Value.fromScryptoEntries_eq,
      Value.toScryptoEntries_map (Value.fromScryptoValue · n) ih,
      ScryptoValueKind.ofValueKind_ofScryptoValueKind, bind_pure_comp, Except.map_ok]
  | hleaf s hs =>
    cases s with
    | custom c =>
      cases c with
      | bucket identifier =>
        simp only [Value.fromScryptoValue, Value.toScryptoValue, hids.bucket, bind_pure_comp,
          Except.map_ok]
      | proof identifier =>
        simp only [Value.fromScryptoValue, Value.toScryptoValue, hids.proof, bind_pure_comp,
          Except.map_ok]
      | _ => rfl
    | _ => first | rfl | cases hs

/-- **Decoding loses nothing.** Encoding undoes decoding on every SBOR value, so decoding on a
    given network is injective. -/
theorem Value.fromScryptoValue_lossless (hids : ids.Numeric) (n : UInt8) :
    (∀ s, (Value.fromScryptoValue s n).toScryptoValue known ids = .ok s) ∧
      Function.Injective (Value.fromScryptoValue · n) := by
  refine ⟨Value.toScryptoValue_fromScryptoValue hids n, fun s s' h => ?_⟩
  have hs : (Value.fromScryptoValue s n).toScryptoValue known ids = .ok s :=
    Value.toScryptoValue_fromScryptoValue hids n s
  rw [show Value.fromScryptoValue s n = Value.fromScryptoValue s' n from h,
    Value.toScryptoValue_fromScryptoValue hids n s'] at hs
  exact (Except.ok.inj hs).symm

theorem Value.fromScryptoValue_lossless_numbered :
    IdentifierConversions.numbered.Numeric ∧
      (∀ s, (Value.fromScryptoValue s 1).toScryptoValue .optionAndResult .numbered = .ok s) ∧
        Function.Injective (Value.fromScryptoValue · 1) :=
  ⟨IdentifierConversions.numbered_numeric,
    Value.fromScryptoValue_lossless IdentifierConversions.numbered_numeric 1⟩

end Encode

/-! ## Encoding then decoding -/

/-- The kinds the wire tells apart: all but `Some`, `None`, `Ok`, `Err`, `Bytes` and
    `NonFungibleGlobalId`, which travel as enums, arrays and tuples. -/
def ValueKind.OnWire (k : ValueKind) : Prop :=
  ValueKind.ofScryptoValueKind (.ofValueKind k) = k

instance : DecidablePred ValueKind.OnWire := fun _ => inferInstanceAs (Decidable (_ = _))

/-- The node-local conditions of the wire's normal form for network `n`: a kind and declared
    kinds the wire tells apart, addresses on `n`, numbered enum variants with no empty field
    list, and numbered buckets and proofs. -/
def Value.IsWireNode (n : UInt8) (w : Value) : Prop :=
  w.kind.OnWire ∧ (∀ m ∈ w.networkIds, m = n) ∧
    match w with
    | .enum variant fields => (∃ d, variant = .u8 d) ∧ fields ≠ .some []
    | .array kind _ => kind.OnWire
    | .map keyKind valueKind _ => keyKind.OnWire ∧ valueKind.OnWire
    | .bucket identifier => ∃ i, identifier.identifier = .u32 i
    | .proof identifier => ∃ i, identifier.identifier = .u32 i
    | _ => True

/-- A value in the wire's normal form for network `n`: what `from_scrypto_value` can return. -/
def Value.WireCanonical (n : UInt8) (v : Value) : Prop :=
  v.Every (Value.IsWireNode n)

@[simp]
theorem ValueKind.onWire_ofScryptoValueKind (k : ScryptoValueKind) :
    (ValueKind.ofScryptoValueKind k).OnWire := by
  simp [ValueKind.OnWire]

/-- Each node `from_scrypto_value` builds is a wire node: its kinds come from
    `From<ScryptoValueKind>`, its addresses carry the given network id, its variant is numbered
    and an empty field list is dropped. -/
theorem Value.isWireNode_fromScryptoValue (s : ScryptoValue) (n : UInt8) :
    (Value.fromScryptoValue s n).IsWireNode n := by
  cases s with
  | enum discriminator fields =>
    refine ⟨rfl, fun m h => absurd h (List.not_mem_nil m), ⟨_, rfl⟩, ?_⟩
    cases fields <;> simp only [List.isEmpty_nil, List.isEmpty_cons, Bool.false_eq_true, ↓reduceIte,
      Value.fromScryptoValues_eq, List.map_cons, ne_eq, Option.some.injEq, reduceCtorEq,
      not_false_eq_true]
  | array kind => exact ⟨rfl, fun m h => absurd h (List.not_mem_nil m),
      ValueKind.onWire_ofScryptoValueKind kind⟩
  | map keyKind valueKind => exact ⟨rfl, fun m h => absurd h (List.not_mem_nil m),
      ValueKind.onWire_ofScryptoValueKind keyKind, ValueKind.onWire_ofScryptoValueKind valueKind⟩
  | custom c =>
    cases c <;> exact ⟨rfl, by simp only [Value.networkIds, Value.fromScryptoValue,
      List.mem_singleton, imp_self, implies_true, List.not_mem_nil, IsEmpty.forall_iff],
      by simp only [Value.fromScryptoValue, TransientIdentifier.u32.injEq, exists_eq']⟩
  | _ => exact ⟨rfl, fun m h => absurd h (List.not_mem_nil m), trivial⟩

/-- Everything `from_scrypto_value` returns is in the wire's normal form. -/
theorem Value.wireCanonical_fromScryptoValue (n : UInt8) (s : ScryptoValue) :
    (Value.fromScryptoValue s n).WireCanonical n := by
  induction s using ScryptoValue.induction with
  | henum discriminator fields ih =>
    refine Value.every_enum.2 ⟨Value.isWireNode_fromScryptoValue (.enum discriminator fields) n, ?_⟩
    cases fields with
    | nil =>
      simp only [List.isEmpty_nil, ↓reduceIte, Option.getD_none, List.not_mem_nil,
        IsEmpty.forall_iff, implies_true]
    | cons =>
      simpa only [List.isEmpty_cons, Bool.false_eq_true, ↓reduceIte, Value.fromScryptoValues_eq,
        List.map_cons, Option.getD_some, List.mem_cons, List.mem_map, forall_eq_or_imp,
        forall_exists_index, and_imp, forall_apply_eq_imp_iff₂] using ih
  | harray kind elements ih =>
    exact Value.every_array.2
      ⟨Value.isWireNode_fromScryptoValue (.array kind elements) n, by
        simpa only [Value.fromScryptoValues_eq, List.mem_map, forall_exists_index, and_imp,
          forall_apply_eq_imp_iff₂] using ih⟩
  | htuple fields ih =>
    exact Value.every_tuple.2
      ⟨Value.isWireNode_fromScryptoValue (.tuple fields) n, by
        simpa only [Value.fromScryptoValues_eq, List.mem_map, forall_exists_index, and_imp,
          forall_apply_eq_imp_iff₂] using ih⟩
  | hmap keyKind valueKind entries ih =>
    refine Value.every_map.2
      ⟨Value.isWireNode_fromScryptoValue (.map keyKind valueKind entries) n, fun e he => ?_⟩
    rw [Value.fromScryptoEntries_eq, List.mem_map] at he
    obtain ⟨e', he', rfl⟩ := he
    exact ih e' he'
  | hleaf s hs =>
    exact (Value.every_of_leaf ((Value.isContainer_fromScryptoValue s n).trans hs)).2
      (Value.isWireNode_fromScryptoValue s n)

section Encode

variable {known : KnownEnumDiscriminators} {ids : IdentifierConversions}

/-- Decoding the encoding of a value in the wire's normal form gives the value back. -/
theorem Value.fromScryptoValue_toScryptoValue_of_wireCanonical (hids : ids.Numeric) (n : UInt8)
    (v : Value) :
    ∀ s, v.WireCanonical n → v.toScryptoValue known ids = .ok s →
      Value.fromScryptoValue s n = v := by
  induction v using Value.induction with
  | henum variant fields ih =>
    intro s hv h
    simp only [Value.WireCanonical, Value.every_enum] at hv
    obtain ⟨⟨-, -, ⟨d, rfl⟩, hne⟩, hfields⟩ := hv
    cases fields with
    | none =>
      simp only [Value.toScryptoValue, EnumDiscriminator.resolveDiscriminator_u8, bind_pure_comp,
        Except.map_ok, Except.ok.injEq] at h
      subst h
      rfl
    | some fields =>
      simp only [Value.toScryptoValue, EnumDiscriminator.resolveDiscriminator_u8, bind_pure_comp,
        Except.bind_eq_ok_iff, Except.ok.injEq, Except.map_eq_ok_iff, Value.toScryptoValues_eq_ok,
        exists_eq_left'] at h
      obtain ⟨ss, hss, rfl⟩ := h
      have hmap := hss.map_eq_left _ fun f hf s' hs' => ih f hf s' (hfields f hf) hs'
      have hss_ne : ss ≠ [] := by
        rintro rfl
        exact hne (by simpa only [Option.some.injEq, List.map_nil] using hmap.symm)
      simp only [Value.fromScryptoValue, List.isEmpty_eq_true, hss_ne, ↓reduceIte,
        Value.fromScryptoValues_eq, hmap]
  | hsome value _ | hok value _ | herr value _ =>
    intro s hv _
    exact nomatch hv.self.1
  | harray kind elements ih =>
    intro s hv h
    simp only [Value.WireCanonical, Value.every_array] at hv
    obtain ⟨⟨-, -, hkind⟩, helements⟩ := hv
    simp only [Value.toScryptoValue, bind_pure_comp, Except.map_eq_ok_iff,
      Value.toScryptoValues_eq_ok] at h
    obtain ⟨ss, hss, rfl⟩ := h
    have hmap := hss.map_eq_left _ fun e he s' hs' => ih e he s' (helements e he) hs'
    simp only [Value.fromScryptoValue, Value.fromScryptoValues_eq, hmap]
    rw [hkind]
  | htuple elements ih =>
    intro s hv h
    simp only [Value.WireCanonical, Value.every_tuple] at hv
    simp only [Value.toScryptoValue, bind_pure_comp, Except.map_eq_ok_iff,
      Value.toScryptoValues_eq_ok] at h
    obtain ⟨ss, hss, rfl⟩ := h
    have hmap := hss.map_eq_left _ fun e he s' hs' => ih e he s' (hv.2 e he) hs'
    simp only [Value.fromScryptoValue, Value.fromScryptoValues_eq, hmap]
  | hmap keyKind valueKind entries ih =>
    intro s hv h
    simp only [Value.WireCanonical, Value.every_map] at hv
    obtain ⟨⟨-, -, hkey, hvalue⟩, hentries⟩ := hv
    simp only [Value.toScryptoValue, bind_pure_comp, Except.map_eq_ok_iff,
      Value.toScryptoEntries_eq_ok] at h
    obtain ⟨ss, hss, rfl⟩ := h
    have hmap := hss.map_eq_left (fun e => (Value.fromScryptoValue e.1 n,
        Value.fromScryptoValue e.2 n)) fun e he s' hs' =>
      Prod.ext ((ih e he).1 s'.1 (hentries e he).1 hs'.1) ((ih e he).2 s'.2 (hentries e he).2 hs'.2)
    simp only [Value.fromScryptoValue, Value.fromScryptoEntries_eq, hmap]
    rw [hkey, hvalue]
  | hleaf v hv_leaf =>
    intro s hv h
    have hnode := hv.self
    cases v with
    | bucket identifier | proof identifier =>
      obtain ⟨-, -, i, hi⟩ := hnode
      obtain ⟨_⟩ := identifier
      subst hi
      simp only [Value.toScryptoValue, hids.bucket, hids.proof, bind_pure_comp, Except.map_ok,
        Except.ok.injEq] at h
      subst h
      rfl
    | none | bytes | nonFungibleGlobalId => exact nomatch hnode.1
    | componentAddress address | resourceAddress address | packageAddress address =>
      cases h
      obtain rfl := hnode.2.1 _ (List.mem_singleton_self _)
      rfl
    | enum | some | ok | err | map | array | tuple => cases hv_leaf
    | _ => cases h; rfl

/-- **Encoding then decoding.** When `to_scrypto_value` encodes `v` as `s`, `from_scrypto_value`
    on network `n` gives `v` back exactly when `v` is in the wire's normal form for `n`; whatever
    `v` is, it gives a value in that normal form which encodes as `s` again. -/
theorem Value.fromScryptoValue_toScryptoValue_eq_iff (hids : ids.Numeric) (n : UInt8) {v : Value}
    {s : ScryptoValue} (h : v.toScryptoValue known ids = .ok s) :
    (Value.fromScryptoValue s n = v ↔ v.WireCanonical n) ∧
      (Value.fromScryptoValue s n).WireCanonical n ∧
      (Value.fromScryptoValue s n).toScryptoValue known ids = .ok s :=
  ⟨⟨fun hs => hs ▸ Value.wireCanonical_fromScryptoValue n s,
      fun hv => Value.fromScryptoValue_toScryptoValue_of_wireCanonical hids n v s hv h⟩,
    Value.wireCanonical_fromScryptoValue n s, Value.toScryptoValue_fromScryptoValue hids n s⟩

theorem Value.fromScryptoValue_toScryptoValue_eq_iff_none :
    IdentifierConversions.numbered.Numeric ∧
      Value.none.toScryptoValue .optionAndResult .numbered = .ok (.enum 0 []) ∧
      (Value.fromScryptoValue (.enum 0 []) 0 = .none ↔ Value.none.WireCanonical 0) :=
  ⟨IdentifierConversions.numbered_numeric, rfl,
    (Value.fromScryptoValue_toScryptoValue_eq_iff IdentifierConversions.numbered_numeric 0
      (rfl : Value.none.toScryptoValue .optionAndResult .numbered = .ok (.enum 0 []))).1⟩

/-- `Value::None` is encoded as the `Option::None` enum and decoded as a numbered enum, not as
    `Value::None`. -/
theorem Value.none_decodes_as_enum :
    ¬∀ (v : Value) (n : UInt8) (s : ScryptoValue), v.WellKinded → v.OnNetwork n →
      v.toScryptoValue .optionAndResult .numbered = .ok s → Value.fromScryptoValue s n = v := by
  intro h
  have hleaf : Value.none.isContainer = false := rfl
  exact nomatch h .none 0 (.enum 0 []) ((Value.every_of_leaf hleaf).2 trivial)
    ((Value.every_of_leaf hleaf).2 (List.forall_mem_nil _)) rfl

end Encode

/-! ## Network ids -/

section Encode

variable {known : KnownEnumDiscriminators} {ids : IdentifierConversions}

theorem Value.toScryptoValues_map_congr {g : Value → Value} {l : List Value}
    (h : ∀ v ∈ l, (g v).toScryptoValue known ids = v.toScryptoValue known ids) :
    Value.toScryptoValues known ids (l.map g) = Value.toScryptoValues known ids l := by
  induction l with
  | nil => rfl
  | cons v vs ih =>
    simp only [List.mem_cons, forall_eq_or_imp] at h
    simp only [List.map_cons, Value.toScryptoValues, h.1, ih h.2]

theorem Value.toScryptoEntries_map_congr (g : Value → Value) {l : List (Value × Value)}
    (h : ∀ e ∈ l, (g e.1).toScryptoValue known ids = e.1.toScryptoValue known ids ∧
      (g e.2).toScryptoValue known ids = e.2.toScryptoValue known ids) :
    Value.toScryptoEntries known ids (l.map fun e => (g e.1, g e.2)) =
      Value.toScryptoEntries known ids l := by
  induction l with
  | nil => rfl
  | cons e es ih =>
    simp only [List.mem_cons, forall_eq_or_imp] at h
    simp only [List.map_cons, Value.toScryptoEntries, h.1.1, h.1.2, ih h.2]

/-- Encoding does not read network ids. -/
theorem Value.toScryptoValue_withNetwork (m : UInt8) (v : Value) :
    (v.withNetwork m).toScryptoValue known ids = v.toScryptoValue known ids := by
  induction v using Value.induction with
  | henum variant fields ih =>
    cases fields with
    | none => rfl
    | some fields =>
      simp only [Option.getD_some] at ih
      simp only [Value.toScryptoValue, Value.withNetworkList_eq, Value.toScryptoValues_map_congr ih]
  | hsome value ih | hok value ih | herr value ih =>
    simp only [Value.toScryptoValue, ih]
  | harray kind elements ih | htuple elements ih =>
    simp only [Value.toScryptoValue, Value.withNetworkList_eq, Value.toScryptoValues_map_congr ih]
  | hmap keyKind valueKind entries ih =>
    simp only [Value.toScryptoValue, Value.withNetworkEntries_eq,
      Value.toScryptoEntries_map_congr (Value.withNetwork m) ih]
  | hleaf v hv =>
    cases v with
    | enum | some | ok | err | array | map | tuple => cases hv
    | _ => rfl

end Encode

/-- Decoding on another network moves every address there and changes nothing else. -/
theorem Value.withNetwork_fromScryptoValue (s : ScryptoValue) (n n' : UInt8) :
    (Value.fromScryptoValue s n).withNetwork n' = Value.fromScryptoValue s n' := by
  induction s using ScryptoValue.induction with
  | henum discriminator fields ih =>
    simp only [Value.fromScryptoValue, Value.fromScryptoValues_eq]
    split
    · rfl
    · simpa only [Value.withNetwork_enum, Value.withNetworkList_eq, List.map_map, Value.enum.injEq,
        Option.some.injEq, List.map_inj_left, Function.comp_apply, true_and] using ih
  | harray kind elements ih =>
    simpa only [Value.fromScryptoValue, Value.fromScryptoValues_eq, Value.withNetwork_array,
      Value.withNetworkList_eq, List.map_map, Value.array.injEq, List.map_inj_left,
      Function.comp_apply, true_and] using ih
  | htuple fields ih =>
    simpa only [Value.fromScryptoValue, Value.fromScryptoValues_eq, Value.withNetwork_tuple,
      Value.withNetworkList_eq, List.map_map, Value.tuple.injEq, List.map_inj_left,
      Function.comp_apply] using ih
  | hmap keyKind valueKind entries ih =>
    simp only [Value.fromScryptoValue, Value.fromScryptoEntries_eq, Value.withNetwork_map,
      Value.withNetworkEntries_eq, List.map_map]
    congr 1
    exact List.map_congr_left fun e he => Prod.ext (ih e he).1 (ih e he).2
  | hleaf s hs =>
    cases s with
    | custom c => cases c <;> rfl
    | enum | array | tuple | map => cases hs
    | _ => rfl

theorem Value.onNetwork_fromScryptoValue (s : ScryptoValue) (n : UInt8) :
    (Value.fromScryptoValue s n).OnNetwork n :=
  (Value.wireCanonical_fromScryptoValue n s).mono fun _ hw => hw.2.1

/-! ## Where encoding fails -/

/-- A bucket or proof node whose identifier does not convert to a wire identifier. -/
def Value.HasUnconvertibleIdentifier (ids : IdentifierConversions) : Value → Prop
  | .bucket identifier => ∃ e, ids.bucket identifier = .error e
  | .proof identifier => ∃ e, ids.proof identifier = .error e
  | _ => False

/-- A node that `to_scrypto_value` can encode by itself: its variant, if it is an enum,
    resolves, and its identifier, if it is a bucket or proof, converts. -/
def Value.EncodableNode (known : KnownEnumDiscriminators) (ids : IdentifierConversions)
    (w : Value) : Prop :=
  ¬w.HasUnresolvableVariant known ∧ ¬w.HasUnconvertibleIdentifier ids

section Encode

variable {known : KnownEnumDiscriminators} {ids : IdentifierConversions}

/-- `to_scrypto_value` succeeds exactly on values with no enum variant that fails to resolve and
    no bucket or proof identifier that fails to convert, at any depth. -/
theorem Value.toScryptoValue_ok_iff (v : Value) :
    (∃ s, v.toScryptoValue known ids = .ok s) ↔ v.Every (Value.EncodableNode known ids) := by
  induction v using Value.induction with
  | henum variant fields ih =>
    rw [Value.every_enum]
    cases fields with
    | none =>
      cases hr : variant.resolveDiscriminator known <;>
        simp only [Value.toScryptoValue, hr, bind_pure_comp, Except.map_error, Except.map_ok,
          Except.ok.injEq, Except.error.injEq, reduceCtorEq, exists_false, exists_eq',
          Value.EncodableNode, Value.HasUnresolvableVariant, Value.HasUnconvertibleIdentifier,
          not_true_eq_false, not_false_eq_true, and_true, and_self, Option.getD_none,
          List.not_mem_nil, IsEmpty.forall_iff, implies_true]
    | some fields =>
      simp only [Option.getD_some] at ih ⊢
      rw [← forall₂_congr fun f hf => ih f hf, ← List.exists_forall₂_iff]
      cases hr : variant.resolveDiscriminator known <;>
        simp only [Value.toScryptoValue, hr, bind_pure_comp, Except.bind_eq_ok_iff,
          Except.map_eq_ok_iff, Except.ok.injEq, Except.error.injEq, Value.toScryptoValues_eq_ok,
          reduceCtorEq, false_and, exists_false, exists_eq', exists_eq_left',
          exists_exists_and_eq_self, Value.EncodableNode, Value.HasUnresolvableVariant,
          Value.HasUnconvertibleIdentifier, not_true_eq_false, not_false_eq_true, and_true,
          and_self, true_and]
  | hsome value ih | hok value ih | herr value ih =>
    simp only [Value.every_some, Value.every_ok, Value.every_err, ← ih, Value.toScryptoValue,
      bind_pure_comp, Except.map_eq_ok_iff, exists_exists_and_eq_self, Value.EncodableNode,
      Value.HasUnresolvableVariant, Value.HasUnconvertibleIdentifier, not_false_eq_true, and_self,
      true_and]
  | harray kind elements ih | htuple elements ih =>
    simp only [Value.every_array, Value.every_tuple]
    rw [← forall₂_congr fun e he => ih e he, ← List.exists_forall₂_iff]
    simp only [Value.toScryptoValue, bind_pure_comp, Except.map_eq_ok_iff,
      Value.toScryptoValues_eq_ok, exists_exists_and_eq_self, Value.EncodableNode,
      Value.HasUnresolvableVariant, Value.HasUnconvertibleIdentifier, not_false_eq_true, and_self,
      true_and]
  | hmap keyKind valueKind entries ih =>
    have hpairs := @List.exists_forall₂_pair_iff _ _ _ _
      (fun (v : Value) (s : ScryptoValue) => v.toScryptoValue known ids = .ok s)
      (fun (v : Value) (s : ScryptoValue) => v.toScryptoValue known ids = .ok s) entries
    beta_reduce at hpairs
    rw [Value.every_map, ← forall₂_congr fun e he => and_congr (ih e he).1 (ih e he).2, ← hpairs]
    simp only [Value.toScryptoValue, bind_pure_comp, Except.map_eq_ok_iff,
      Value.toScryptoEntries_eq_ok, exists_exists_and_eq_self, Value.EncodableNode,
      Value.HasUnresolvableVariant, Value.HasUnconvertibleIdentifier, not_false_eq_true, and_self,
      true_and]
  | hleaf v hv =>
    rw [Value.every_of_leaf hv]
    cases v with
    | bucket identifier =>
      cases h : ids.bucket identifier <;>
        simp only [Value.toScryptoValue, h, bind_pure_comp, Except.map_error, Except.map_ok,
          Except.ok.injEq, Except.error.injEq, reduceCtorEq, exists_false, exists_eq',
          Value.EncodableNode, Value.HasUnresolvableVariant, Value.HasUnconvertibleIdentifier,
          not_true_eq_false, not_false_eq_true, and_false, and_self]
    | proof identifier =>
      cases h : ids.proof identifier <;>
        simp only [Value.toScryptoValue, h, bind_pure_comp, Except.map_error, Except.map_ok,
          Except.ok.injEq, Except.error.injEq, reduceCtorEq, exists_false, exists_eq',
          Value.EncodableNode, Value.HasUnresolvableVariant, Value.HasUnconvertibleIdentifier,
          not_true_eq_false, not_false_eq_true, and_false, and_self]
    | enum | some | ok | err | map | array | tuple => cases hv
    | _ => exact iff_of_true ⟨_, rfl⟩ ⟨id, id⟩

end Encode

/-- **The network id is context only.** Encoding ignores the network ids of addresses; decoding
    writes the given network id into every address and nowhere else. -/
theorem Value.networkId_only_context {known : KnownEnumDiscriminators}
    {ids : IdentifierConversions} :
    (∀ v v' : Value, v.SameUpToNetworks v' →
      v.toScryptoValue known ids = v'.toScryptoValue known ids) ∧
    (∀ (s : ScryptoValue) (n : UInt8), (Value.fromScryptoValue s n).OnNetwork n) ∧
    (∀ (s : ScryptoValue) (n n' : UInt8),
      Value.fromScryptoValue s n' = (Value.fromScryptoValue s n).withNetwork n' ∧
        (Value.fromScryptoValue s n).SameUpToNetworks (Value.fromScryptoValue s n')) := by
  refine ⟨fun v v' h => ?_, Value.onNetwork_fromScryptoValue, fun s n n' => ⟨?_, ?_⟩⟩
  · rw [← Value.toScryptoValue_withNetwork 0 v, h, Value.toScryptoValue_withNetwork]
  · exact (Value.withNetwork_fromScryptoValue s n n').symm
  · simp only [Value.SameUpToNetworks, Value.withNetwork_fromScryptoValue]
