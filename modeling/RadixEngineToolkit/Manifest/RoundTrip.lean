import RadixEngineToolkit.Manifest.Convert
import RadixEngineToolkit.Sbor.RoundTrip

set_option autoImplicit false

/-! # The text path: round trips, kinds, panics and where encoding fails

Printing a value as manifest text and parsing it back is not the identity: the text has no
`Some`/`None`/`Ok`/`Err`/`Map` types, so `ast::Type` folds the declared kind of an array or map
onto `Enum` or `Array`; it prints a named enum variant as its number and an empty field list like
an absent one; the coder writes its own network into every address it decodes; and an `Own`
literal cannot be parsed at all. `Value.textNormal` is what parsing gives back, and
`Value.TextCanonical` the values it leaves unchanged. With lawful codecs (`Literals.Lawful`,
`Bech32Coder.Lawful`) parsing the text of a value with no `Own` node returns its normal form
(`Value.fromAstValue_toAstValue_of_ownFree`), which is the value itself when it is
text-canonical (`Value.textNormal_of_textCanonical`). Everything `from_ast_value` returns is
text-canonical (`Value.textCanonical_fromAstValue`), so parsing printed text is stable.

Two places where the parser falls short of what the value model promises are stated as they
are: an `Own` literal reaches the `todo!()` of its arm and panics, and the array and map arms take
the declared kinds from the text without checking the elements against them, so well-typed text
can decode to a container whose elements are of another kind; what holds is that kinds agree up
to `From<ValueKind> for ast::Type`. The module also proves, for both encoders, that they fail
exactly at an enum whose variant does not resolve or, on the wire, at an identifier that does
not convert. -/

/-! ## Small lemmas -/

theorem LiteralCodec.Lawful.parse_display {α : Type} {codec : LiteralCodec α} (h : codec.Lawful)
    (x : α) : codec.parse (codec.display x) = .ok x :=
  h x

@[simp]
theorem mapIfValueString_string (parsing : ValueKind) (s : String)
    (map : String → Except Error Value) : mapIfValueString parsing (.string s) map = map s :=
  rfl

theorem mapIfValueString_eq_ok {parsing : ValueKind} {a : Ast.Value}
    {map : String → Except Error Value} {v : Value} :
    mapIfValueString parsing a map = .ok v ↔ ∃ s, a = .string s ∧ map s = .ok v := by
  constructor
  · intro h
    cases a <;> first | exact ⟨_, rfl, h⟩ | cases h
  · rintro ⟨s, rfl, h⟩
    exact h

theorem List.mem_flatMap_pair {α : Type} {pairs : List (α × α)} {p : α × α} (hp : p ∈ pairs) :
    p.1 ∈ pairs.flatMap (fun p => [p.1, p.2]) ∧ p.2 ∈ pairs.flatMap (fun p => [p.1, p.2]) :=
  ⟨List.mem_flatMap.2 ⟨p, hp, by simp⟩, List.mem_flatMap.2 ⟨p, hp, by simp⟩⟩

/-! ## The text's normal form -/

/-- A kind that `ast::Type` keeps: the trip to a manifest type and back returns it. All kinds but
    `Some`, `None`, `Ok`, `Err` and `Map` do. -/
def ValueKind.InText (k : ValueKind) : Prop :=
  ValueKind.ofAstType (Ast.AstType.ofValueKind k) = k

instance : DecidablePred ValueKind.InText := fun _ => inferInstanceAs (Decidable (_ = _))

@[simp]
theorem ValueKind.inText_ofAstType (t : Ast.AstType) : (ValueKind.ofAstType t).InText := by
  simp [ValueKind.InText]

/-- A node `from_ast_value` can return with a coder for network `n`: not an `Own`, addresses on
    `n`, an enum numbered and with fields if it has a field list, and declared kinds that
    `ast::Type` keeps. -/
def Value.IsTextNode (n : UInt8) (w : Value) : Prop :=
  w.kind ≠ .own ∧ (∀ m ∈ w.networkIds, m = n) ∧
    match w with
    | .enum variant fields => (∃ d, variant = .u8 d) ∧ fields ≠ .some []
    | .array kind _ => kind.InText
    | .map keyKind valueKind _ => keyKind.InText ∧ valueKind.InText
    | _ => True

/-- A value in the text's normal form for network `n`. -/
def Value.TextCanonical (n : UInt8) (v : Value) : Prop :=
  v.Every (Value.IsTextNode n)

/-- The variant the text writes for an enum: its discriminator, where it resolves. -/
def EnumDiscriminator.inText (known : KnownEnumDiscriminators) (variant : EnumDiscriminator) :
    EnumDiscriminator :=
  match variant.resolveDiscriminator known with
  | .ok discriminator => .u8 discriminator
  | .error _ => variant

mutual
/-- The value `from_ast_value` reads back from the printed text of `v` with a coder for
    network `n`: every enum variant as its discriminator and an empty field list as an absent
    one, every declared kind taken to `ast::Type` and back, and every address on `n`. -/
def Value.textNormal (known : KnownEnumDiscriminators) (n : UInt8) : Value → Value
  | .enum variant (.some (f :: fs)) =>
    .enum (variant.inText known) (.some (Value.textNormalList known n (f :: fs)))
  | .enum variant _ => .enum (variant.inText known) .none
  | .some value => .some (value.textNormal known n)
  | .ok value => .ok (value.textNormal known n)
  | .err value => .err (value.textNormal known n)
  | .array kind elements =>
    .array (.ofAstType (.ofValueKind kind)) (Value.textNormalList known n elements)
  | .map keyKind valueKind entries =>
    .map (.ofAstType (.ofValueKind keyKind)) (.ofAstType (.ofValueKind valueKind))
      (Value.textNormalEntries known n entries)
  | .tuple elements => .tuple (Value.textNormalList known n elements)
  | v => v.withNetwork n
/-- `textNormal` on every element. -/
def Value.textNormalList (known : KnownEnumDiscriminators) (n : UInt8) : List Value → List Value
  | [] => []
  | v :: vs => v.textNormal known n :: Value.textNormalList known n vs
/-- `textNormal` on every key and value. -/
def Value.textNormalEntries (known : KnownEnumDiscriminators) (n : UInt8) :
    List (Value × Value) → List (Value × Value)
  | [] => []
  | (k, v) :: es =>
    (k.textNormal known n, v.textNormal known n) :: Value.textNormalEntries known n es
end

section TextNormal

variable {known : KnownEnumDiscriminators} {n : UInt8}

@[simp]
theorem Value.textNormalList_eq (l : List Value) :
    Value.textNormalList known n l = l.map (Value.textNormal known n) := by
  induction l with
  | nil => rfl
  | cons v vs ih => simp [Value.textNormalList, ih]

@[simp]
theorem Value.textNormalEntries_eq (l : List (Value × Value)) :
    Value.textNormalEntries known n l =
      l.map fun e => (e.1.textNormal known n, e.2.textNormal known n) := by
  induction l with
  | nil => rfl
  | cons e es ih => simp [Value.textNormalEntries, ih]

/-! The container arms of `textNormal`, so that proofs rewrite with them and never unfold its
catch-all arm. -/

@[simp]
theorem Value.textNormal_enum_none {variant : EnumDiscriminator} :
    (Value.enum variant .none).textNormal known n = .enum (variant.inText known) .none := rfl

@[simp]
theorem Value.textNormal_enum_nil {variant : EnumDiscriminator} :
    (Value.enum variant (.some [])).textNormal known n = .enum (variant.inText known) .none := rfl

@[simp]
theorem Value.textNormal_enum_cons {variant : EnumDiscriminator} {f : Value} {fs : List Value} :
    (Value.enum variant (.some (f :: fs))).textNormal known n =
      .enum (variant.inText known) (.some (Value.textNormalList known n (f :: fs))) := rfl

@[simp]
theorem Value.textNormal_some {value : Value} :
    (Value.some value).textNormal known n = .some (value.textNormal known n) := rfl

@[simp]
theorem Value.textNormal_ok {value : Value} :
    (Value.ok value).textNormal known n = .ok (value.textNormal known n) := rfl

@[simp]
theorem Value.textNormal_err {value : Value} :
    (Value.err value).textNormal known n = .err (value.textNormal known n) := rfl

@[simp]
theorem Value.textNormal_array {kind : ValueKind} {elements : List Value} :
    (Value.array kind elements).textNormal known n =
      .array (.ofAstType (.ofValueKind kind)) (Value.textNormalList known n elements) := rfl

@[simp]
theorem Value.textNormal_map {keyKind valueKind : ValueKind} {entries : List (Value × Value)} :
    (Value.map keyKind valueKind entries).textNormal known n =
      .map (.ofAstType (.ofValueKind keyKind)) (.ofAstType (.ofValueKind valueKind))
        (Value.textNormalEntries known n entries) := rfl

@[simp]
theorem Value.textNormal_tuple {elements : List Value} :
    (Value.tuple elements).textNormal known n = .tuple (Value.textNormalList known n elements) :=
  rfl

end TextNormal

section Codecs

variable {known : KnownEnumDiscriminators} {lits : Literals} {c : Bech32Coder}

/-! ## Parsing -/

/-- What a leaf literal decodes to: a leaf of the literal's own kind, in the text's normal form
    for the coder's network. -/
theorem Value.fromAstValue_leaf {a : Ast.Value} (ha : a.isContainer = false) {v : Value}
    (h : Value.fromAstValue lits c a = .ok v) :
    v.isContainer = false ∧ Ast.AstType.ofValueKind v.kind = a.valueKind ∧
      v.IsTextNode c.networkId := by
  cases a with
  | enum | some | ok | err | map | array | tuple => cases ha
  | own => cases h
  | bool | i8 | i16 | i32 | i64 | i128 | u8 | u16 | u32 | u64 | u128 | string | none =>
    cases h
    exact ⟨rfl, rfl, nofun, List.forall_mem_nil _, trivial⟩
  | decimal value | preciseDecimal value | hash value | ecdsaSecp256k1PublicKey value
  | ecdsaSecp256k1Signature value | eddsaEd25519PublicKey value | eddsaEd25519Signature value
  | bytes value =>
    simp only [Value.fromAstValue, Outcome.ofExcept_eq_ok_iff, mapIfValueString_eq_ok,
      Except.map_eq_ok_iff] at h
    obtain ⟨_, -, _, -, rfl⟩ := h
    exact ⟨rfl, rfl, nofun, List.forall_mem_nil _, trivial⟩
  | packageAddress value | componentAddress value | resourceAddress value =>
    simp only [Value.fromAstValue, Outcome.ofExcept_eq_ok_iff, mapIfValueString_eq_ok,
      Bech32Coder.decodeToNetworkAwarePackageAddress,
      Bech32Coder.decodeToNetworkAwareComponentAddress,
      Bech32Coder.decodeToNetworkAwareResourceAddress, Except.map_eq_ok_iff] at h
    obtain ⟨_, -, _, ⟨_, -, rfl⟩, rfl⟩ := h
    exact ⟨rfl, rfl, nofun, List.forall_mem_singleton.2 rfl, trivial⟩
  | blob value =>
    simp only [Value.fromAstValue, Outcome.ofExcept_eq_ok_iff, mapIfValueString_eq_ok,
      Except.bind_eq_ok_iff, Except.pure_eq_ok_iff] at h
    obtain ⟨_, -, _, -, _, -, rfl⟩ := h
    exact ⟨rfl, rfl, nofun, List.forall_mem_nil _, trivial⟩
  | expression value =>
    simp only [Value.fromAstValue, Outcome.ofExcept_eq_ok_iff, mapIfValueString_eq_ok] at h
    obtain ⟨_, -, h⟩ := h
    split at h <;> cases h <;>
    exact ⟨rfl, rfl, nofun, List.forall_mem_nil _, trivial⟩
  | bucket value | proof value =>
    simp only [Value.fromAstValue] at h
    split at h <;> cases h <;>
    exact ⟨rfl, rfl, nofun, List.forall_mem_nil _, trivial⟩
  | nonFungibleLocalId value =>
    simp only [Value.fromAstValue] at h
    split at h
    · simp only [Outcome.ofExcept_eq_ok_iff, Except.map_eq_ok_iff] at h
      obtain ⟨_, -, rfl⟩ := h
      exact ⟨rfl, rfl, nofun, List.forall_mem_nil _, trivial⟩
    · cases h
  | nonFungibleGlobalId value =>
    simp only [Value.fromAstValue] at h
    split at h
    · simp only [Outcome.ofExcept_eq_ok_iff, Except.bind_eq_ok_iff, Except.pure_eq_ok_iff] at h
      obtain ⟨_, -, rfl⟩ := h
      exact ⟨rfl, rfl, nofun, List.forall_mem_singleton.2 rfl, trivial⟩
    · cases h

/-- **Everything `from_ast_value` returns is in the text's normal form** for the coder's
    network. -/
theorem Value.textCanonical_fromAstValue (a : Ast.Value) :
    ∀ v, Value.fromAstValue lits c a = .ok v → v.TextCanonical c.networkId := by
  induction a using Ast.Value.induction with
  | henum variant fields ih =>
    intro v h
    rw [Value.fromAstValue_enum] at h
    split at h
    · cases h
      exact Value.every_enum.2
        ⟨⟨nofun, List.forall_mem_nil _, ⟨_, rfl⟩, nofun⟩, List.forall_mem_nil _⟩
    · next hne =>
      simp only [Outcome.map_eq_bind, Outcome.bind_eq_ok_iff, Outcome.ok.injEq,
        Value.fromAstValues_eq_ok] at h
      obtain ⟨vs, hvs, rfl⟩ := h
      have hvs_ne : vs ≠ [] := by
        rintro rfl
        cases hvs
        exact hne rfl
      simp only [Value.TextCanonical, Value.every_enum, Option.getD_some]
      exact ⟨⟨nofun, List.forall_mem_nil _, ⟨_, rfl⟩, mt Option.some.inj hvs_ne⟩,
        hvs.forall_right fun f hf v hv => ih f hf v hv⟩
  | hsome value ih | hok value ih | herr value ih =>
    intro v h
    simp only [Value.fromAstValue, Outcome.bind_eq_ok_iff, Outcome.pure_eq_ok,
      Outcome.ok.injEq] at h
    obtain ⟨w, hw, rfl⟩ := h
    exact (Value.every_iff _).2
      ⟨⟨nofun, List.forall_mem_nil _, trivial⟩, List.forall_mem_singleton.2 (ih w hw)⟩
  | hmap keyType valueType entries ih =>
    intro v h
    rw [Value.fromAstValue_map] at h
    split at h
    · cases h
    · simp only [Outcome.map_eq_bind, Outcome.bind_eq_ok_iff, Outcome.ok.injEq,
        Value.fromAstEntries_eq_ok] at h
      obtain ⟨es, ⟨pairs, rfl, hpairs⟩, rfl⟩ := h
      simp only [Value.TextCanonical, Value.every_map]
      refine ⟨⟨nofun, List.forall_mem_nil _, ValueKind.inText_ofAstType _,
        ValueKind.inText_ofAstType _⟩, fun e he => ?_⟩
      obtain ⟨p, hp, h1, h2⟩ := hpairs.exists_mem_left he
      exact ⟨ih _ (List.mem_flatMap_pair hp).1 _ h1, ih _ (List.mem_flatMap_pair hp).2 _ h2⟩
  | harray astType elements ih | htuple elements ih =>
    intro v h
    simp only [Value.fromAstValue, Outcome.bind_eq_ok_iff, Outcome.pure_eq_ok, Outcome.ok.injEq,
      Value.fromAstValues_eq_ok] at h
    obtain ⟨vs, hvs, rfl⟩ := h
    simp only [Value.TextCanonical, Value.every_array, Value.every_tuple]
    exact ⟨⟨nofun, List.forall_mem_nil _, by simp⟩, hvs.forall_right fun e he v hv => ih e he v hv⟩
  | hleaf a ha =>
    intro v h
    obtain ⟨hv, -, hnode⟩ := Value.fromAstValue_leaf ha h
    exact (Value.every_of_leaf hv).2 hnode

/-! ## Printing, then parsing -/

/-- A leaf's normal form only moves its addresses. -/
theorem Value.textNormal_of_leaf {v : Value} (hv : v.isContainer = false) :
    v.textNormal known c.networkId = v.withNetwork c.networkId := by
  cases v <;> first | rfl | cases hv

/-- Parsing the printed form of a value with no `Own` node gives the value's text normal form. -/
theorem Value.fromAstValue_toAstValue_of_ownFree (hl : lits.Lawful) (hc : c.Lawful lits)
    (v : Value) : ∀ a, v.OwnFree → v.toAstValue known lits c = .ok a →
      Value.fromAstValue lits c a = .ok (v.textNormal known c.networkId) := by
  induction v using Value.induction with
  | henum variant fields ih =>
    intro a hv h
    have hfields := (Value.every_enum.1 hv).2
    cases hr : variant.resolveDiscriminator known with
    | error e =>
      cases fields <;> simp only [Value.toAstValue, hr, bind, Except.bind, reduceCtorEq] at h
    | ok d =>
      have hd : variant.inText known = .u8 d := by simp only [EnumDiscriminator.inText, hr]
      cases fields with
      | none =>
        simp only [Value.toAstValue, hr, Except.bind_eq_ok_iff, Except.ok.injEq,
          Except.pure_eq_ok_iff] at h
        obtain ⟨_, rfl, rfl⟩ := h
        simp only [Value.fromAstValue_enum, List.isEmpty_nil, ↓reduceIte,
          Value.textNormal_enum_none, hd]
      | some fields =>
        simp only [Value.toAstValue, hr, Except.bind_eq_ok_iff, Except.ok.injEq,
          Except.pure_eq_ok_iff, Value.toAstValues_eq_ok] at h
        obtain ⟨_, rfl, as, has, rfl⟩ := h
        have hfrom := (Value.fromAstValues_eq_ok lits c).2 (List.forall₂_map_right_iff.2
          (has.swap_of_mem fun f hf a ha => ih f hf a (hfields f hf) ha))
        cases has with
        | nil => simp only [Value.fromAstValue_enum, List.isEmpty_nil, ↓reduceIte,
            Value.textNormal_enum_nil, hd]
        | cons =>
          simp only [Value.fromAstValue_enum, List.isEmpty_cons, Bool.false_eq_true, ↓reduceIte,
            hfrom, Outcome.map_eq_bind, Outcome.ok_bind, Value.textNormal_enum_cons,
            Value.textNormalList_eq, hd]
  | hsome value ih | hok value ih | herr value ih =>
    intro a hv h
    simp only [Value.OwnFree, Value.every_some, Value.every_ok, Value.every_err] at hv
    simp only [Value.toAstValue, Except.bind_eq_ok_iff, Except.pure_eq_ok_iff] at h
    obtain ⟨a', ha', rfl⟩ := h
    simp only [Value.fromAstValue, ih a' hv.2 ha', Outcome.pure_eq_ok, Outcome.ok_bind,
      Value.textNormal_some, Value.textNormal_ok, Value.textNormal_err]
  | harray kind elements ih | htuple elements ih =>
    intro a hv h
    simp only [Value.OwnFree, Value.every_array, Value.every_tuple] at hv
    simp only [Value.toAstValue, Except.bind_eq_ok_iff, Except.pure_eq_ok_iff,
      Value.toAstValues_eq_ok] at h
    obtain ⟨as, has, rfl⟩ := h
    have hfrom := (Value.fromAstValues_eq_ok lits c).2 (List.forall₂_map_right_iff.2
      (has.swap_of_mem fun e he a ha => ih e he a (hv.2 e he) ha))
    simp only [Value.fromAstValue, hfrom, Outcome.ok_bind, Outcome.pure_eq_ok,
      Value.textNormal_array, Value.textNormal_tuple, Value.textNormalList_eq]
  | hmap keyKind valueKind entries ih =>
    intro a hv h
    simp only [Value.OwnFree, Value.every_map] at hv
    simp only [Value.toAstValue, Except.bind_eq_ok_iff, Except.pure_eq_ok_iff,
      Value.toAstEntries_eq_ok] at h
    obtain ⟨_, ⟨pairs, rfl, hpairs⟩, rfl⟩ := h
    have hfrom : Value.fromAstEntries lits c _ = .ok (entries.map fun e =>
        (e.1.textNormal known c.networkId, e.2.textNormal known c.networkId)) :=
      (Value.fromAstEntries_eq_ok lits c).2 ⟨pairs, rfl,
      List.forall₂_map_right_iff.2 (hpairs.swap_of_mem fun e he p hp =>
        ⟨(ih e he).1 p.1 (hv.2 e he).1 hp.1, (ih e he).2 p.2 (hv.2 e he).2 hp.2⟩)⟩
    rw [Value.fromAstValue_map, if_neg (by rw [List.length_flatMap_pair]; omega)]
    simp only [hfrom, Outcome.map_eq_bind, Outcome.ok_bind, Value.textNormal_map,
      Value.textNormalEntries_eq]
  | hleaf v hv_leaf =>
    intro a hv h
    have hown : v.kind ≠ .own := hv.self
    rw [Value.textNormal_of_leaf hv_leaf]
    cases v with
    | enum | some | ok | err | array | map | tuple => cases hv_leaf
    | own => exact absurd rfl hown
    | packageAddress address | componentAddress address | resourceAddress address =>
      cases h
      simp only [Value.fromAstValue, mapIfValueString_string,
        Bech32Coder.decodeToNetworkAwarePackageAddress,
        Bech32Coder.decodeToNetworkAwareComponentAddress,
        Bech32Coder.decodeToNetworkAwareResourceAddress, hc.packageAddress, hc.componentAddress,
        hc.resourceAddress, Functor.map, Except.map, Outcome.ofExcept_ok]
      rfl
    | nonFungibleGlobalId address =>
      cases h
      simp only [Value.fromAstValue, hc.nonFungibleGlobalId, bind, Except.bind, pure, Except.pure,
        Outcome.ofExcept_ok]
      rfl
    | bucket identifier | proof identifier =>
      obtain ⟨identifier⟩ := identifier
      cases identifier <;> cases h <;> rfl
    | expression value => cases value <;> cases h <;> rfl
    | blob blobRef =>
      cases h
      change _ = Outcome.ok (Value.blob blobRef)
      simpa only [Value.fromAstValue, bind_pure_comp, mapIfValueString_string,
        Outcome.ofExcept_eq_ok_iff, Except.bind_eq_ok_iff, Except.map_eq_ok_iff, Value.blob.injEq,
        exists_eq_right] using hl.blob blobRef.hash
    | decimal | preciseDecimal | hash | ecdsaSecp256k1PublicKey | ecdsaSecp256k1Signature
    | eddsaEd25519PublicKey | eddsaEd25519Signature | nonFungibleLocalId | bytes =>
      cases h
      simp only [Value.fromAstValue, mapIfValueString_string, hl.decimal.parse_display,
        hl.preciseDecimal.parse_display, hl.hash.parse_display,
        hl.ecdsaSecp256k1PublicKey.parse_display, hl.ecdsaSecp256k1Signature.parse_display,
        hl.eddsaEd25519PublicKey.parse_display, hl.eddsaEd25519Signature.parse_display,
        hl.nonFungibleLocalId.parse_display, hl.hex, Functor.map, Except.map, Outcome.ofExcept_ok]
      rfl
    | _ => cases h; rfl

/-- The normal form of a value already in it is the value itself. -/
theorem Value.textNormal_of_textCanonical {n : UInt8} (v : Value) :
    v.TextCanonical n → v.textNormal known n = v := by
  induction v using Value.induction with
  | henum variant fields ih =>
    intro hv
    simp only [Value.TextCanonical, Value.every_enum] at hv
    obtain ⟨⟨-, -, ⟨d, rfl⟩, hne⟩, hfields⟩ := hv
    cases fields with
    | none => rfl
    | some fields =>
      cases fields with
      | nil => exact absurd rfl hne
      | cons f fs =>
        simp only [Option.getD_some] at ih hfields
        rw [Value.textNormal_enum_cons, Value.textNormalList_eq,
          List.map_congr_left fun f hf => ih f hf (hfields f hf), List.map_id']
        rfl
  | hsome value ih | hok value ih | herr value ih =>
    intro hv
    simp only [Value.TextCanonical, Value.every_some, Value.every_ok, Value.every_err] at hv
    simp only [Value.textNormal_some, Value.textNormal_ok, Value.textNormal_err, ih hv.2]
  | harray kind elements ih =>
    intro hv
    simp only [Value.TextCanonical, Value.every_array] at hv
    obtain ⟨⟨-, -, hkind⟩, helements⟩ := hv
    rw [Value.textNormal_array, Value.textNormalList_eq,
      List.map_congr_left fun e he => ih e he (helements e he), List.map_id', hkind]
  | htuple elements ih =>
    intro hv
    simp only [Value.TextCanonical, Value.every_tuple] at hv
    rw [Value.textNormal_tuple, Value.textNormalList_eq,
      List.map_congr_left fun e he => ih e he (hv.2 e he), List.map_id']
  | hmap keyKind valueKind entries ih =>
    intro hv
    simp only [Value.TextCanonical, Value.every_map] at hv
    obtain ⟨⟨-, -, hkey, hvalue⟩, hentries⟩ := hv
    rw [Value.textNormal_map, Value.textNormalEntries_eq, List.map_congr_left fun e he => by
      rw [(ih e he).1 (hentries e he).1, (ih e he).2 (hentries e he).2], List.map_id', hkey,
      hvalue]
  | hleaf v hv_leaf =>
    intro hv
    obtain ⟨-, hnet, -⟩ := hv.self
    cases v with
    | enum | some | ok | err | array | map | tuple => cases hv_leaf
    | packageAddress address | componentAddress address | resourceAddress address =>
      obtain ⟨m, address⟩ := address
      obtain rfl : m = n := hnet m (List.mem_singleton_self m)
      rfl
    | nonFungibleGlobalId address =>
      obtain ⟨⟨m, address⟩, id⟩ := address
      obtain rfl : m = n := hnet m (List.mem_singleton_self m)
      rfl
    | _ => rfl

/-- Parsing the printed form of a value in the text's normal form gives the value back. -/
theorem Value.fromAstValue_toAstValue_of_textCanonical (hl : lits.Lawful) (hc : c.Lawful lits)
    (v : Value) (a : Ast.Value) (hv : v.TextCanonical c.networkId)
    (h : v.toAstValue known lits c = .ok a) : Value.fromAstValue lits c a = .ok v :=
  (Value.textNormal_of_textCanonical v hv) ▸
    Value.fromAstValue_toAstValue_of_ownFree hl hc v a (hv.mono fun _ hw => hw.1) h

/-! ## Where printing fails -/

/-- `to_ast_value` succeeds exactly on values with no enum variant that fails to resolve, at any
    depth. -/
theorem Value.toAstValue_ok_iff (v : Value) :
    (∃ a, v.toAstValue known lits c = .ok a) ↔
      v.Every fun w => ¬w.HasUnresolvableVariant known := by
  induction v using Value.induction with
  | henum variant fields ih =>
    rw [Value.every_enum]
    cases fields with
    | none =>
      cases hr : variant.resolveDiscriminator known <;>
        simp only [Value.toAstValue, hr, bind_pure_comp, Except.map_error, Except.map_ok,
          Except.ok.injEq, Except.error.injEq, reduceCtorEq, exists_false, exists_eq',
          Value.HasUnresolvableVariant, not_true_eq_false, not_false_eq_true, Option.getD_none,
          List.not_mem_nil, IsEmpty.forall_iff, implies_true, and_true, and_self]
    | some fields =>
      simp only [Option.getD_some] at ih ⊢
      rw [← forall₂_congr fun f hf => ih f hf, ← List.exists_forall₂_iff]
      cases hr : variant.resolveDiscriminator known <;>
        simp only [Value.toAstValue, hr, bind_pure_comp, Except.bind_eq_ok_iff,
          Except.map_eq_ok_iff, Except.ok.injEq, Except.error.injEq, Value.toAstValues_eq_ok,
          reduceCtorEq, false_and, exists_false, exists_eq', exists_eq_left',
          exists_exists_and_eq_self, Value.HasUnresolvableVariant, not_true_eq_false,
          not_false_eq_true, true_and]
  | hsome value ih | hok value ih | herr value ih =>
    simp only [Value.every_some, Value.every_ok, Value.every_err, ← ih]
    simp only [Value.toAstValue, bind_pure_comp, Except.map_eq_ok_iff, exists_exists_and_eq_self,
      Value.HasUnresolvableVariant, not_false_eq_true, true_and]
  | harray kind elements ih | htuple elements ih =>
    simp only [Value.every_array, Value.every_tuple]
    rw [← forall₂_congr fun e he => ih e he, ← List.exists_forall₂_iff]
    simp only [Value.toAstValue, bind_pure_comp, Except.map_eq_ok_iff, Value.toAstValues_eq_ok,
      exists_exists_and_eq_self, Value.HasUnresolvableVariant, not_false_eq_true, true_and]
  | hmap keyKind valueKind entries ih =>
    have hto : (∃ a, (Value.map keyKind valueKind entries).toAstValue known lits c = .ok a) ↔
        ∃ pairs : List (Ast.Value × Ast.Value), List.Forall₂ (fun e p =>
          e.1.toAstValue known lits c = .ok p.1 ∧ e.2.toAstValue known lits c = .ok p.2)
          entries pairs := by
      simp only [Value.toAstValue, Except.bind_eq_ok_iff, Except.pure_eq_ok_iff,
        Value.toAstEntries_eq_ok, exists_exists_and_eq_self]
      exact ⟨fun ⟨_, pairs, _, h⟩ => ⟨pairs, h⟩, fun ⟨pairs, h⟩ => ⟨_, pairs, rfl, h⟩⟩
    rw [Value.every_map, ← forall₂_congr fun e he => and_congr (ih e he).1 (ih e he).2]
    exact hto.trans ((List.exists_forall₂_pair_iff
      (fun (v : Value) a => v.toAstValue known lits c = .ok a)
      (fun (v : Value) a => v.toAstValue known lits c = .ok a)).trans
        ⟨fun h => ⟨fun h => h, h⟩, And.right⟩)
  | hleaf v hv =>
    rw [Value.every_of_leaf hv]
    cases v with
    | enum | some | ok | err | array | map | tuple => cases hv
    | _ => exact iff_of_true ⟨_, rfl⟩ id

theorem Value.IsTextNode.resolvable {n : UInt8} {w : Value} (hw : w.IsTextNode n) :
    ¬w.HasUnresolvableVariant known := by
  cases w with
  | enum variant fields =>
    obtain ⟨-, -, ⟨d, rfl⟩, -⟩ := hw
    exact fun ⟨_, h⟩ => nomatch h
  | _ => exact id

/-! ## The round trips -/

/-- **Parsing printed text is stable.** With lawful codecs, whatever `from_ast_value` returns is
    printed by `to_ast_value` as text that parses back to it. -/
theorem Value.fromAstValue_reparse (hl : lits.Lawful) (hc : c.Lawful lits) {a : Ast.Value}
    {v : Value} (h : Value.fromAstValue lits c a = .ok v) :
    ∃ a', v.toAstValue known lits c = .ok a' ∧ Value.fromAstValue lits c a' = .ok v := by
  have hv := Value.textCanonical_fromAstValue a v h
  obtain ⟨a', ha'⟩ := (Value.toAstValue_ok_iff v).2 (hv.mono fun _ hw => hw.resolvable)
  exact ⟨a', ha', Value.fromAstValue_toAstValue_of_textCanonical hl hc v a' hv ha'⟩

theorem Value.fromAstValue_reparse_some :
    Literals.bytewise.Lawful ∧ (Bech32Coder.bytewise 0).Lawful Literals.bytewise ∧
      Value.fromAstValue .bytewise (.bytewise 0) (.some (.u8 1)) = .ok (.some (.u8 1)) ∧
      ∃ a', (Value.some (.u8 1)).toAstValue .optionAndResult .bytewise (.bytewise 0) = .ok a' ∧
        Value.fromAstValue .bytewise (.bytewise 0) a' = .ok (.some (.u8 1)) :=
  ⟨Literals.bytewise_lawful, Bech32Coder.bytewise_lawful 0, rfl,
    Value.fromAstValue_reparse Literals.bytewise_lawful (Bech32Coder.bytewise_lawful 0)
      (rfl : Value.fromAstValue .bytewise (.bytewise 0) (.some (.u8 1)) = .ok (.some (.u8 1)))⟩

/-! ## Network ids in text -/

theorem Value.toAstValues_map_congr {g : Value → Value} {l : List Value}
    (h : ∀ v ∈ l, (g v).toAstValue known lits c = v.toAstValue known lits c) :
    Value.toAstValues known lits c (l.map g) = Value.toAstValues known lits c l := by
  induction l with
  | nil => rfl
  | cons v vs ih =>
    simp only [List.mem_cons, forall_eq_or_imp] at h
    simp only [List.map_cons, Value.toAstValues, h.1, ih h.2]

theorem Value.toAstEntries_map_congr (g : Value → Value) {l : List (Value × Value)}
    (h : ∀ e ∈ l, (g e.1).toAstValue known lits c = e.1.toAstValue known lits c ∧
      (g e.2).toAstValue known lits c = e.2.toAstValue known lits c) :
    Value.toAstEntries known lits c (l.map fun e => (g e.1, g e.2)) =
      Value.toAstEntries known lits c l := by
  induction l with
  | nil => rfl
  | cons e es ih =>
    simp only [List.mem_cons, forall_eq_or_imp] at h
    simp only [List.map_cons, Value.toAstEntries, h.1.1, h.1.2, ih h.2]

/-- Printing does not read network ids: an address prints as the Bech32 text of its bytes. -/
theorem Value.toAstValue_withNetwork (m : UInt8) (v : Value) :
    (v.withNetwork m).toAstValue known lits c = v.toAstValue known lits c := by
  induction v using Value.induction with
  | henum variant fields ih =>
    cases fields with
    | none => rfl
    | some fields =>
      simp only [Option.getD_some] at ih
      simp only [Value.toAstValue, Value.withNetwork_enum, Value.withNetworkList_eq,
        Value.toAstValues_map_congr ih]
  | hsome value ih | hok value ih | herr value ih =>
    simp only [Value.toAstValue, Value.withNetwork_some, Value.withNetwork_ok,
      Value.withNetwork_err, ih]
  | harray kind elements ih | htuple elements ih =>
    simp only [Value.toAstValue, Value.withNetwork_array, Value.withNetwork_tuple,
      Value.withNetworkList_eq, Value.toAstValues_map_congr ih]
  | hmap keyKind valueKind entries ih =>
    simp only [Value.toAstValue, Value.withNetwork_map, Value.withNetworkEntries_eq,
      Value.toAstEntries_map_congr (Value.withNetwork m) ih]
  | hleaf v hv =>
    cases v with
    | enum | some | ok | err | array | map | tuple => cases hv
    | _ => rfl

/-- **The network of a text value is the coder's.** `to_ast_value` ignores the network ids of
    addresses, so values that differ only in them print alike; every value `from_ast_value`
    returns has its addresses on the coder's network; and with lawful codecs, a value printed and
    parsed again comes back with every address moved to the coder's network whenever the moved
    value is in the text's normal form. -/
theorem Value.textNetworkId_from_coder (hl : lits.Lawful) (hc : c.Lawful lits) :
    (∀ v v' : Value, v.SameUpToNetworks v' →
      v.toAstValue known lits c = v'.toAstValue known lits c) ∧
    (∀ a v, Value.fromAstValue lits c a = .ok v → v.OnNetwork c.networkId) ∧
    ∀ (v : Value) a, (v.withNetwork c.networkId).TextCanonical c.networkId →
      v.toAstValue known lits c = .ok a →
      Value.fromAstValue lits c a = .ok (v.withNetwork c.networkId) := by
  refine ⟨fun v v' h => ?_, fun a v h => ?_, fun v a hv h => ?_⟩
  · rw [← Value.toAstValue_withNetwork 0 v, h, Value.toAstValue_withNetwork]
  · exact (Value.textCanonical_fromAstValue a v h).mono fun _ hw => hw.2.1
  · exact Value.fromAstValue_toAstValue_of_textCanonical hl hc _ a hv
      ((Value.toAstValue_withNetwork _ v).trans h)


/-- A component address on network 1, printed and parsed with the coder of network 0, comes back
    on network 0. -/
theorem Value.textNetworkId_from_coder_moved :
    Literals.bytewise.Lawful ∧ (Bech32Coder.bytewise 0).Lawful Literals.bytewise ∧
      ∃ a, (Value.componentAddress ⟨1, ⟨[7]⟩⟩).toAstValue .optionAndResult .bytewise
          (.bytewise 0) = .ok a ∧
        Value.fromAstValue .bytewise (.bytewise 0) a = .ok (.componentAddress ⟨0, ⟨[7]⟩⟩) :=
  have hcanon : ((Value.componentAddress ⟨1, ⟨[7]⟩⟩).withNetwork 0).TextCanonical 0 :=
    (Value.every_of_leaf (rfl : (Value.componentAddress ⟨0, ⟨[7]⟩⟩).isContainer = false)).2
      ⟨by decide, fun _ hm => List.eq_of_mem_singleton hm, trivial⟩
  ⟨Literals.bytewise_lawful, Bech32Coder.bytewise_lawful 0, _, rfl,
    (@Value.textNetworkId_from_coder .optionAndResult .bytewise (.bytewise 0)
      Literals.bytewise_lawful (Bech32Coder.bytewise_lawful 0)).2.2 _ _ hcanon rfl⟩

end Codecs

/-! ## Panics -/

section Panics

variable {lits : Literals} {c : Bech32Coder}

theorem Value.fromAstValue_leaf_ne_panic {a : Ast.Value} (ha : a.isContainer = false)
    (hown : a.valueKind ≠ .own) : Value.fromAstValue lits c a ≠ .panic := by
  cases a with
  | enum | some | ok | err | map | array | tuple => cases ha
  | own => exact absurd rfl hown
  | bucket value | proof value | nonFungibleLocalId value | nonFungibleGlobalId value =>
    simp only [Value.fromAstValue]
    split <;> first | exact Outcome.ofExcept_ne_panic _ | nofun
  | _ => first | exact Outcome.ofExcept_ne_panic _ | nofun

theorem Value.fromAstValues_ne_panic {l : List Ast.Value}
    (h : ∀ a ∈ l, Value.fromAstValue lits c a ≠ .panic) :
    Value.fromAstValues lits c l ≠ .panic := by
  induction l with
  | nil => nofun
  | cons a as ih =>
    rw [List.forall_mem_cons] at h
    exact Outcome.bind_ne_panic h.1 fun _ => Outcome.bind_ne_panic (ih h.2) fun _ => nofun

theorem Value.fromAstEntries_ne_panic :
    ∀ {l : List Ast.Value}, l.length % 2 = 0 → (∀ a ∈ l, Value.fromAstValue lits c a ≠ .panic) →
      Value.fromAstEntries lits c l ≠ .panic
  | [], _, _ => nofun
  | [_], hl, _ => absurd hl Nat.one_ne_zero
  | key :: value :: entries, hl, h => by
    simp only [List.forall_mem_cons] at h
    have hrest := Value.fromAstEntries_ne_panic ((Nat.add_mod_right _ 2).symm.trans hl) h.2.2
    exact Outcome.bind_ne_panic h.1 fun _ => Outcome.bind_ne_panic h.2.1 fun _ =>
      Outcome.bind_ne_panic hrest fun _ => nofun

/-- Without an `Own` literal, `from_ast_value` returns `Ok` or `Err`. -/
theorem Value.fromAstValue_ne_panic (a : Ast.Value) :
    a.OwnFree → Value.fromAstValue lits c a ≠ .panic := by
  induction a using Ast.Value.induction with
  | henum variant fields ih =>
    intro ha
    simp only [Ast.Value.OwnFree, Ast.Value.every_enum] at ha
    rw [Value.fromAstValue_enum]
    split
    · nofun
    · exact Outcome.bind_ne_panic (Value.fromAstValues_ne_panic fun f hf => ih f hf (ha.2 f hf))
        fun _ => nofun
  | hsome value ih | hok value ih | herr value ih =>
    intro ha
    simp only [Ast.Value.OwnFree, Ast.Value.every_some, Ast.Value.every_ok,
      Ast.Value.every_err] at ha
    exact Outcome.bind_ne_panic (ih ha.2) fun _ => nofun
  | hmap keyType valueType entries ih =>
    intro ha
    simp only [Ast.Value.OwnFree, Ast.Value.every_map] at ha
    rw [Value.fromAstValue_map]
    split
    · nofun
    · next hl =>
      exact Outcome.bind_ne_panic (Value.fromAstEntries_ne_panic (not_not.1 hl)
        fun e he => ih e he (ha.2 e he)) fun _ => nofun
  | harray astType elements ih | htuple elements ih =>
    intro ha
    simp only [Ast.Value.OwnFree, Ast.Value.every_array, Ast.Value.every_tuple] at ha
    exact Outcome.bind_ne_panic (Value.fromAstValues_ne_panic fun e he => ih e he (ha.2 e he))
      fun _ => nofun
  | hleaf a ha =>
    intro hown
    exact Value.fromAstValue_leaf_ne_panic ha ((Ast.Value.every_of_leaf ha).1 hown)

/-- **`from_ast_value` panics only through an `Own` literal.** Without one it returns `Ok` or
    `Err`; an `Own` literal reaches the `todo!()` of its arm; and the panic is passed up through
    every kind of container holding the literal first. -/
theorem Value.fromAstValue_panics_only_at_own (lits : Literals) (c : Bech32Coder) :
    (∀ a : Ast.Value, a.OwnFree → Value.fromAstValue lits c a ≠ .panic) ∧
    (∀ x : Ast.Value, Value.fromAstValue lits c (.own x) = .panic) ∧
    (∀ a : Ast.Value, Value.fromAstValue lits c a = .panic →
      Value.fromAstValue lits c (.some a) = .panic ∧ Value.fromAstValue lits c (.ok a) = .panic ∧
      Value.fromAstValue lits c (.err a) = .panic ∧
      ∀ rest : List Ast.Value,
        Value.fromAstValue lits c (.tuple (a :: rest)) = .panic ∧
        (∀ astType, Value.fromAstValue lits c (.array astType (a :: rest)) = .panic) ∧
        (∀ variant, Value.fromAstValue lits c (.enum variant (a :: rest)) = .panic) ∧
        ∀ keyType valueType, rest.length % 2 = 1 →
          Value.fromAstValue lits c (.map keyType valueType (a :: rest)) = .panic) := by
  refine ⟨Value.fromAstValue_ne_panic, fun _ => rfl, fun a h => ?_⟩
  -- the panic of the first element is passed up by each bind it goes through
  have hfirst : ∀ rest, Value.fromAstValues lits c (a :: rest) = .panic :=
    fun _ => Outcome.bind_eq_panic_iff.2 (.inl h)
  refine ⟨Outcome.bind_eq_panic_iff.2 (.inl h), Outcome.bind_eq_panic_iff.2 (.inl h),
    Outcome.bind_eq_panic_iff.2 (.inl h), fun rest => ⟨Outcome.bind_eq_panic_iff.2
      (.inl (hfirst rest)), fun _ => Outcome.bind_eq_panic_iff.2 (.inl (hfirst rest)),
      fun _ => ?_, fun _ _ hodd => ?_⟩⟩
  · rw [Value.fromAstValue_enum, List.isEmpty_cons, if_neg Bool.false_ne_true]
    exact Outcome.bind_eq_panic_iff.2 (.inl (hfirst rest))
  · cases rest with
    | nil => exact absurd hodd Nat.zero_ne_one
    | cons value entries =>
      have heven : (a :: value :: entries).length % 2 = 0 := by
        rw [List.length_cons, Nat.add_mod, hodd]
      rw [Value.fromAstValue_map, if_neg (not_not_intro heven)]
      exact Outcome.bind_eq_panic_iff.2 (.inl (Outcome.bind_eq_panic_iff.2 (.inl h)))

/-- The panic at its failing input: an `Own` literal inside a tuple reaches the `todo!()` of the
    `Own` arm, and parsing panics where every other arm would return an error. -/
theorem Value.nested_own_panics :
    Value.fromAstValue Literals.bytewise (Bech32Coder.bytewise 0) (.tuple [.own (.string "")]) =
      .panic :=
  rfl

end Panics

/-! ## Kinds -/

section Kinds

variable {lits : Literals} {c : Bech32Coder}

/-- `from_ast_value` returns a value whose kind `ast::Type` names as the literal's type. -/
theorem Value.kind_fromAstValue {a : Ast.Value} {v : Value}
    (h : Value.fromAstValue lits c a = .ok v) : Ast.AstType.ofValueKind v.kind = a.valueKind := by
  cases ha : a.isContainer
  · exact (Value.fromAstValue_leaf ha h).2.1
  · cases a with
    | enum variant fields =>
      rw [Value.fromAstValue_enum] at h
      split at h
      · cases h
        rfl
      · simp only [Outcome.map_eq_bind, Outcome.bind_eq_ok_iff, Outcome.ok.injEq] at h
        obtain ⟨_, -, rfl⟩ := h
        rfl
    | map keyType valueType entries =>
      rw [Value.fromAstValue_map] at h
      split at h
      · cases h
      · simp only [Outcome.map_eq_bind, Outcome.bind_eq_ok_iff, Outcome.ok.injEq] at h
        obtain ⟨_, -, rfl⟩ := h
        rfl
    | some | ok | err | array | tuple =>
      simp only [Value.fromAstValue, Outcome.bind_eq_ok_iff, Outcome.pure_eq_ok,
        Outcome.ok.injEq] at h
      obtain ⟨_, -, rfl⟩ := h
      rfl
    | _ => cases ha

theorem Ast.entriesTyped_flatMap {keyType valueType : Ast.AstType}
    (pairs : List (Ast.Value × Ast.Value)) :
    Ast.EntriesTyped keyType valueType (pairs.flatMap fun p => [p.1, p.2]) ↔
      ∀ p ∈ pairs, p.1.valueKind = keyType ∧ p.2.valueKind = valueType := by
  induction pairs with
  | nil => simp [Ast.EntriesTyped]
  | cons p ps ih =>
    rw [show ((p :: ps).flatMap fun p => [p.1, p.2]) = p.1 :: p.2 :: ps.flatMap
      (fun p => [p.1, p.2]) from rfl]
    simp only [Ast.EntriesTyped, ih, List.mem_cons, forall_eq_or_imp, and_assoc]

/-- **Decoding well-typed text keeps declared kinds up to `ast::Type`.** Each array element and
    map key/value of the result has a kind that `From<ValueKind> for ast::Type` sends to the
    same manifest type as the declared kind. -/
theorem Value.kindsAgree_fromAstValue (a : Ast.Value) :
    a.WellTyped → ∀ v, Value.fromAstValue lits c a = .ok v →
      v.Every (Value.KindsAgree Ast.AstType.ofValueKind) := by
  induction a using Ast.Value.induction with
  | henum variant fields ih =>
    intro ha v h
    simp only [Ast.Value.WellTyped, Ast.Value.every_enum] at ha
    rw [Value.fromAstValue_enum] at h
    split at h
    · cases h
      exact Value.every_enum.2 ⟨trivial, fun f hf => absurd hf (List.not_mem_nil f)⟩
    · simp only [Outcome.map_eq_bind, Outcome.bind_eq_ok_iff, Outcome.ok.injEq,
        Value.fromAstValues_eq_ok] at h
      obtain ⟨vs, hvs, rfl⟩ := h
      simp only [Value.every_enum, Option.getD_some]
      exact ⟨trivial, hvs.forall_right fun f hf v hv => ih f hf (ha.2 f hf) v hv⟩
  | hsome value ih | hok value ih | herr value ih =>
    intro ha v h
    simp only [Ast.Value.WellTyped, Ast.Value.every_some, Ast.Value.every_ok,
      Ast.Value.every_err] at ha
    simp only [Value.fromAstValue, Outcome.bind_eq_ok_iff, Outcome.pure_eq_ok,
      Outcome.ok.injEq] at h
    obtain ⟨w, hw, rfl⟩ := h
    exact (Value.every_iff _).2 ⟨trivial, List.forall_mem_singleton.2 (ih ha.2 w hw)⟩
  | hmap keyType valueType entries ih =>
    intro ha v h
    simp only [Ast.Value.WellTyped, Ast.Value.every_map] at ha
    obtain ⟨htyped, hentries⟩ := ha
    rw [Value.fromAstValue_map] at h
    split at h
    · cases h
    · simp only [Outcome.map_eq_bind, Outcome.bind_eq_ok_iff, Outcome.ok.injEq,
        Value.fromAstEntries_eq_ok] at h
      obtain ⟨es, ⟨pairs, rfl, hpairs⟩, rfl⟩ := h
      have htyped := (Ast.entriesTyped_flatMap pairs).1 htyped
      simp only [Value.every_map]
      refine ⟨fun e he => ?_, fun e he => ?_⟩
      · obtain ⟨p, hp, h1, h2⟩ := hpairs.exists_mem_left he
        simp only [Value.kind_fromAstValue h1, Value.kind_fromAstValue h2, htyped p hp,
          Ast.AstType.ofValueKind_ofAstType, and_self]
      · obtain ⟨p, hp, h1, h2⟩ := hpairs.exists_mem_left he
        exact ⟨ih _ (List.mem_flatMap_pair hp).1 (hentries _ (List.mem_flatMap_pair hp).1) _ h1,
          ih _ (List.mem_flatMap_pair hp).2 (hentries _ (List.mem_flatMap_pair hp).2) _ h2⟩
  | harray astType elements ih =>
    intro ha v h
    simp only [Ast.Value.WellTyped, Ast.Value.every_array] at ha
    obtain ⟨htyped, helements⟩ := ha
    simp only [Value.fromAstValue, Outcome.bind_eq_ok_iff, Outcome.pure_eq_ok, Outcome.ok.injEq,
      Value.fromAstValues_eq_ok] at h
    obtain ⟨vs, hvs, rfl⟩ := h
    simp only [Value.every_array]
    refine ⟨hvs.forall_right fun e he v hv => ?_, hvs.forall_right fun e he v hv => ?_⟩
    · simp only [Value.kind_fromAstValue hv, htyped e he, Ast.AstType.ofValueKind_ofAstType]
    · exact ih e he (helements e he) v hv
  | htuple elements ih =>
    intro ha v h
    simp only [Ast.Value.WellTyped, Ast.Value.every_tuple] at ha
    simp only [Value.fromAstValue, Outcome.bind_eq_ok_iff, Outcome.pure_eq_ok, Outcome.ok.injEq,
      Value.fromAstValues_eq_ok] at h
    obtain ⟨vs, hvs, rfl⟩ := h
    simp only [Value.every_tuple]
    exact ⟨trivial, hvs.forall_right fun e he v hv => ih e he (ha.2 e he) v hv⟩
  | hleaf a ha =>
    intro _ v h
    obtain ⟨hv, -⟩ := Value.fromAstValue_leaf ha h
    exact (Value.every_of_leaf hv).2 (Value.kindsAgree_of_leaf hv)

theorem Value.kindsAgree_fromAstValue_u8Array :
    (Ast.Value.array .u8 [.u8 1]).WellTyped ∧
      Value.fromAstValue .bytewise (.bytewise 0) (.array .u8 [.u8 1]) = .ok (.array .u8 [.u8 1]) ∧
      (Value.array .u8 [.u8 1]).Every (Value.KindsAgree Ast.AstType.ofValueKind) := by
  have hleaf : (Ast.Value.u8 1).Every Ast.Value.TypesAgree :=
    (Ast.Value.every_of_leaf (rfl : (Ast.Value.u8 1).isContainer = false)).2 trivial
  have hwt : (Ast.Value.array .u8 [.u8 1]).WellTyped :=
    Ast.Value.every_array.2 ⟨List.forall_mem_singleton.2 rfl, List.forall_mem_singleton.2 hleaf⟩
  exact ⟨hwt, rfl, Value.kindsAgree_fromAstValue _ hwt _
    (rfl : Value.fromAstValue .bytewise (.bytewise 0) (.array .u8 [.u8 1]) =
      .ok (.array .u8 [.u8 1]))⟩

/-- The unchecked element kind at its failing input: the well-typed manifest
    `Array<Enum>(Some(1u8))` decodes to an array declared to hold enums whose element is a
    `Some`. -/
theorem Value.enumArray_of_some_decodes_illKinded :
    (Ast.Value.array .enum [.some (.u8 1)]).WellTyped ∧
      Value.fromAstValue .bytewise (.bytewise 0) (.array .enum [.some (.u8 1)]) =
        .ok (.array .enum [.some (.u8 1)]) ∧
      ¬(Value.array .enum [.some (.u8 1)]).WellKinded := by
  have hleaf : (Ast.Value.u8 1).Every Ast.Value.TypesAgree :=
    (Ast.Value.every_of_leaf (rfl : (Ast.Value.u8 1).isContainer = false)).2 trivial
  exact ⟨Ast.Value.every_array.2 ⟨List.forall_mem_singleton.2 rfl,
      List.forall_mem_singleton.2 (Ast.Value.every_some.2 ⟨trivial, hleaf⟩)⟩, rfl,
    fun hwk => nomatch (Value.every_array.1 hwk).1 _ (List.mem_singleton_self _)⟩

end Kinds

/-! ## Where encoding fails -/

/-- **The encoders fail exactly at unencodable nodes.** `to_ast_value` returns `Err` exactly when
    some enum node at any depth has a variant that does not resolve; `to_scrypto_value` exactly
    when such an enum or a bucket or proof whose identifier does not convert occurs at any depth. -/
theorem Value.encoders_fail_exactly_at_unencodable_nodes (known : KnownEnumDiscriminators)
    (lits : Literals) (c : Bech32Coder) (ids : IdentifierConversions) (v : Value) :
    ((∃ e, v.toAstValue known lits c = .error e) ↔
      ∃ w ∈ v.nodes, w.HasUnresolvableVariant known) ∧
    ((∃ e, v.toScryptoValue known ids = .error e) ↔
      ∃ w ∈ v.nodes, w.HasUnresolvableVariant known ∨ w.HasUnconvertibleIdentifier ids) := by
  constructor
  · rw [← not_iff_not, ← Except.exists_ok_iff_not_error, Value.toAstValue_ok_iff]
    simp only [Value.Every, not_exists, not_and]
  · rw [← not_iff_not, ← Except.exists_ok_iff_not_error, Value.toScryptoValue_ok_iff]
    simp only [Value.Every, Value.EncodableNode, not_exists, not_and, not_or]

/-- **Parsed text fails to encode only at identifiers.** Every enum `from_ast_value` returns has a
    numbered variant, so `to_scrypto_value` fails on a value parsed from manifest text exactly
    when some bucket or proof in it, at any depth, has an identifier that does not convert. -/
theorem Value.toScryptoValue_fromAstValue_error_iff {known : KnownEnumDiscriminators}
    {lits : Literals} {c : Bech32Coder} {ids : IdentifierConversions} {a : Ast.Value} {v : Value}
    (h : Value.fromAstValue lits c a = .ok v) :
    (∃ e, v.toScryptoValue known ids = .error e) ↔
      ∃ w ∈ v.nodes, w.HasUnconvertibleIdentifier ids := by
  have hv := Value.textCanonical_fromAstValue a v h
  rw [← not_iff_not, ← Except.exists_ok_iff_not_error, Value.toScryptoValue_ok_iff]
  simp only [not_exists, not_and]
  exact ⟨fun henc w hw => (henc w hw).2, fun hid w hw => ⟨(hv w hw).resolvable, hid w hw⟩⟩

/-- A bucket named by a string in the text does not encode with the conversion that keeps only
    numbered identifiers. -/
theorem Value.toScryptoValue_fromAstValue_error_iff_namedBucket :
    Value.fromAstValue .bytewise (.bytewise 0) (.bucket (.string "fee")) =
        .ok (.bucket ⟨.string "fee"⟩) ∧
      ((∃ e, (Value.bucket ⟨.string "fee"⟩).toScryptoValue .optionAndResult .numbered =
          .error e) ↔
        ∃ w ∈ (Value.bucket ⟨.string "fee"⟩).nodes, w.HasUnconvertibleIdentifier .numbered) :=
  ⟨rfl, @Value.toScryptoValue_fromAstValue_error_iff .optionAndResult .bytewise (.bytewise 0)
    .numbered (.bucket (.string "fee")) _ rfl⟩
