import RadixEngineToolkit.Manifest.Ast

set_option autoImplicit false

/-! # The text conversions of `value.rs`

`Value::to_ast_value` and `Value::from_ast_value`, with the two type tables they apply to the
kinds containers declare, `From<ValueKind> for ast::Type` and `From<ast::Type> for ValueKind`,
and the helper `map_if_value_string`. Encoding fails only at an enum whose named variant does not
resolve. Decoding fails where a literal's box does not hold what the literal requires, where a
codec rejects a string, and at a map literal with an odd number of elements; at an `Own` literal
it reaches `todo!()` and panics. `Outcome` keeps a panic apart from an error.

As on the wire path, the list functions of the mutual blocks convert left to right and stop at
the first failure; each is related once to `List.Forall₂` (a map's flat element list to the
pairs it is made of), so that the proofs of `Manifest/RoundTrip.lean` never unfold them. -/

/-! ## Type tables -/

/-- `From<ValueKind> for ast::Type`. Options and results are enums in a manifest, and maps
    arrays. -/
def Ast.AstType.ofValueKind : ValueKind → Ast.AstType
  | .bool => .bool
  | .i8 => .i8
  | .i16 => .i16
  | .i32 => .i32
  | .i64 => .i64
  | .i128 => .i128
  | .u8 => .u8
  | .u16 => .u16
  | .u32 => .u32
  | .u64 => .u64
  | .u128 => .u128
  | .string => .string
  | .enum => .enum
  | .some => .enum
  | .none => .enum
  | .ok => .enum
  | .err => .enum
  | .map => .array
  | .array => .array
  | .tuple => .tuple
  | .decimal => .decimal
  | .preciseDecimal => .preciseDecimal
  | .packageAddress => .packageAddress
  | .componentAddress => .componentAddress
  | .resourceAddress => .resourceAddress
  | .hash => .hash
  | .bucket => .bucket
  | .proof => .proof
  | .nonFungibleLocalId => .nonFungibleLocalId
  | .nonFungibleGlobalId => .nonFungibleGlobalId
  | .blob => .blob
  | .bytes => .bytes
  | .expression => .expression
  | .ecdsaSecp256k1PublicKey => .ecdsaSecp256k1PublicKey
  | .ecdsaSecp256k1Signature => .ecdsaSecp256k1Signature
  | .eddsaEd25519PublicKey => .eddsaEd25519PublicKey
  | .eddsaEd25519Signature => .eddsaEd25519Signature
  | .own => .own

/-- `From<ast::Type> for ValueKind`. -/
def ValueKind.ofAstType : Ast.AstType → ValueKind
  | .bool => .bool
  | .i8 => .i8
  | .i16 => .i16
  | .i32 => .i32
  | .i64 => .i64
  | .i128 => .i128
  | .u8 => .u8
  | .u16 => .u16
  | .u32 => .u32
  | .u64 => .u64
  | .u128 => .u128
  | .string => .string
  | .enum => .enum
  | .array => .array
  | .tuple => .tuple
  | .decimal => .decimal
  | .preciseDecimal => .preciseDecimal
  | .packageAddress => .packageAddress
  | .componentAddress => .componentAddress
  | .resourceAddress => .resourceAddress
  | .hash => .hash
  | .ecdsaSecp256k1PublicKey => .ecdsaSecp256k1PublicKey
  | .ecdsaSecp256k1Signature => .ecdsaSecp256k1Signature
  | .eddsaEd25519PublicKey => .eddsaEd25519PublicKey
  | .eddsaEd25519Signature => .eddsaEd25519Signature
  | .bucket => .bucket
  | .proof => .proof
  | .nonFungibleLocalId => .nonFungibleLocalId
  | .nonFungibleGlobalId => .nonFungibleGlobalId
  | .blob => .blob
  | .expression => .expression
  | .bytes => .bytes
  | .own => .own

/-- Every manifest type survives the trip to a toolkit kind and back. -/
@[simp]
theorem Ast.AstType.ofValueKind_ofAstType (t : Ast.AstType) :
    Ast.AstType.ofValueKind (ValueKind.ofAstType t) = t := by
  cases t <;> rfl

/-! ## Encoding -/

section Encode

variable (known : KnownEnumDiscriminators) (lits : Literals) (bech32Coder : Bech32Coder)

mutual
/-- `Value::to_ast_value`. -/
def Value.toAstValue : Value → Except Error Ast.Value
  | .bool value => .ok (.bool value)
  | .i8 value => .ok (.i8 value)
  | .i16 value => .ok (.i16 value)
  | .i32 value => .ok (.i32 value)
  | .i64 value => .ok (.i64 value)
  | .i128 value => .ok (.i128 value)
  | .u8 value => .ok (.u8 value)
  | .u16 value => .ok (.u16 value)
  | .u32 value => .ok (.u32 value)
  | .u64 value => .ok (.u64 value)
  | .u128 value => .ok (.u128 value)
  | .string value => .ok (.string value)
  -- `fields.clone().unwrap_or_default()`: absent fields print as an empty list
  | .enum variant .none => do
    let discriminator ← variant.resolveDiscriminator known
    return .enum discriminator []
  | .enum variant (.some fields) => do
    let discriminator ← variant.resolveDiscriminator known
    return .enum discriminator (← Value.toAstValues fields)
  | .some value => do return .some (← value.toAstValue)
  | .none => .ok .none
  | .ok value => do return .ok (← value.toAstValue)
  | .err value => do return .err (← value.toAstValue)
  | .array elementKind elements => do
    return .array (.ofValueKind elementKind) (← Value.toAstValues elements)
  | .map keyValueKind valueValueKind entries => do
    return .map (.ofValueKind keyValueKind) (.ofValueKind valueValueKind)
      (← Value.toAstEntries entries)
  | .tuple elements => do return .tuple (← Value.toAstValues elements)
  | .decimal value => .ok (.decimal (.string (lits.decimal.display value)))
  | .preciseDecimal value => .ok (.preciseDecimal (.string (lits.preciseDecimal.display value)))
  | .packageAddress value =>
    .ok (.packageAddress (.string (bech32Coder.encodePackageAddress value.address)))
  | .componentAddress value =>
    .ok (.componentAddress (.string (bech32Coder.encodeComponentAddress value.address)))
  | .resourceAddress value =>
    .ok (.resourceAddress (.string (bech32Coder.encodeResourceAddress value.address)))
  | .hash value => .ok (.hash (.string (lits.hash.display value)))
  | .bucket identifier => .ok (.bucket (match identifier.identifier with
    | .string identifier => .string identifier
    | .u32 identifier => .u32 identifier))
  | .proof identifier => .ok (.proof (match identifier.identifier with
    | .string identifier => .string identifier
    | .u32 identifier => .u32 identifier))
  | .nonFungibleLocalId value =>
    .ok (.nonFungibleLocalId (.string (lits.nonFungibleLocalId.display value)))
  -- the canonical string, resource address and local id separated by a colon
  | .nonFungibleGlobalId address =>
    .ok (.nonFungibleGlobalId (.string
      (bech32Coder.encodeResourceAddress address.resourceAddress.address ++ ":" ++
        lits.nonFungibleLocalId.display address.nonFungibleLocalId)))
  | .blob blobRef => .ok (.blob (.string (lits.hash.display blobRef.hash)))
  | .expression value => .ok (.expression (.string (match value with
    | .entireWorktop => "ENTIRE_WORKTOP"
    | .entireAuthZone => "ENTIRE_AUTH_ZONE")))
  | .ecdsaSecp256k1PublicKey publicKey =>
    .ok (.ecdsaSecp256k1PublicKey (.string (lits.ecdsaSecp256k1PublicKey.display publicKey)))
  | .ecdsaSecp256k1Signature signature =>
    .ok (.ecdsaSecp256k1Signature (.string (lits.ecdsaSecp256k1Signature.display signature)))
  | .eddsaEd25519PublicKey publicKey =>
    .ok (.eddsaEd25519PublicKey (.string (lits.eddsaEd25519PublicKey.display publicKey)))
  | .eddsaEd25519Signature signature =>
    .ok (.eddsaEd25519Signature (.string (lits.eddsaEd25519Signature.display signature)))
  | .bytes value => .ok (.bytes (.string (lits.hexEncode value)))
  | .own value => .ok (.own (.string (lits.ownDebug value)))
/-- The elements of a vector, printed and collected left to right. -/
def Value.toAstValues : List Value → Except Error (List Ast.Value)
  | [] => .ok []
  | v :: vs => do
    let a ← v.toAstValue
    return a :: (← Value.toAstValues vs)
/-- `flat_map(|(x, y)| [x, y])` over a map's entries, then each value printed in that order. -/
def Value.toAstEntries : List (Value × Value) → Except Error (List Ast.Value)
  | [] => .ok []
  | (key, value) :: entries => do
    let key ← key.toAstValue
    let value ← value.toAstValue
    return key :: value :: (← Value.toAstEntries entries)
end

theorem Value.toAstValues_eq_ok {l : List Value} {as : List Ast.Value} :
    Value.toAstValues known lits bech32Coder l = .ok as ↔
      List.Forall₂ (fun v a => v.toAstValue known lits bech32Coder = .ok a) l as := by
  induction l generalizing as with
  | nil => cases as <;> simp only [Value.toAstValues, Except.ok.injEq, List.nil_eq, reduceCtorEq,
    List.forall₂_nil_left_iff, List.forall₂_nil_right_iff]
  | cons v vs ih =>
    cases as <;> simp only [Value.toAstValues, bind_pure_comp, Except.bind_eq_ok_iff, Except.map_eq_ok_iff, ih,
    reduceCtorEq, and_false, exists_false, List.forall₂_nil_right_iff, List.cons.injEq,
    exists_eq_right_right, List.forall₂_cons]

/-- The map arm: the entries' element list, under the declared kinds' manifest types. -/
theorem Value.toAstValue_map (keyValueKind valueValueKind : ValueKind)
    (entries : List (Value × Value)) :
    Value.toAstValue known lits bech32Coder (.map keyValueKind valueValueKind entries) =
      Value.toAstEntries known lits bech32Coder entries >>= fun elements =>
        pure (.map (.ofValueKind keyValueKind) (.ofValueKind valueValueKind) elements) :=
  rfl

/-- A map's printed element list is the flattening of the pairs its entries print as. -/
theorem Value.toAstEntries_eq_ok {l : List (Value × Value)} {as : List Ast.Value} :
    Value.toAstEntries known lits bech32Coder l = .ok as ↔
      ∃ pairs : List (Ast.Value × Ast.Value), as = pairs.flatMap (fun p => [p.1, p.2]) ∧
        List.Forall₂ (fun e p => e.1.toAstValue known lits bech32Coder = .ok p.1 ∧
          e.2.toAstValue known lits bech32Coder = .ok p.2) l pairs := by
  induction l generalizing as with
  | nil =>
    simp only [Value.toAstEntries, eq_comm, Except.ok.injEq, List.forall₂_nil_left_iff,
      exists_eq_right, List.flatMap_nil]
  | cons e es ih =>
    obtain ⟨k, v⟩ := e
    simp only [Value.toAstEntries, Except.bind_eq_ok_iff, Except.pure_eq_ok_iff, ih]
    constructor
    · rintro ⟨k', hk, v', hv, _, ⟨pairs, rfl, hpairs⟩, rfl⟩
      exact ⟨(k', v') :: pairs, rfl, .cons ⟨hk, hv⟩ hpairs⟩
    · rintro ⟨_, rfl, hpairs⟩
      cases hpairs with
      | cons hkv hpairs => exact ⟨_, hkv.1, _, hkv.2, _, ⟨_, rfl, hpairs⟩, rfl⟩

end Encode

/-! ## Decoding -/

/-- `map_if_value_string`: `map` applied to the string in a literal's box, or the error that
    names the kind being parsed and the kind found instead. -/
def mapIfValueString (parsing : ValueKind) (value : Ast.Value)
    (map : String → Except Error Value) : Except Error Value :=
  match value with
  | .string value => map value
  | _ => .error (.unexpectedAstContents parsing [.string] (.ofAstType value.valueKind))

section Decode

variable (lits : Literals) (bech32Coder : Bech32Coder)

mutual
/-- `Value::from_ast_value`. -/
def Value.fromAstValue (value : Ast.Value) : Outcome Error Value :=
  let parsing := ValueKind.ofAstType value.valueKind
  match value with
  | .bool value => .ok (.bool value)
  | .i8 value => .ok (.i8 value)
  | .i16 value => .ok (.i16 value)
  | .i32 value => .ok (.i32 value)
  | .i64 value => .ok (.i64 value)
  | .i128 value => .ok (.i128 value)
  | .u8 value => .ok (.u8 value)
  | .u16 value => .ok (.u16 value)
  | .u32 value => .ok (.u32 value)
  | .u64 value => .ok (.u64 value)
  | .u128 value => .ok (.u128 value)
  | .string value => .ok (.string value)
  | .enum variant fields => do
    let fields ← if fields.isEmpty then pure .none
      else Option.some <$> Value.fromAstValues fields
    return .enum (.u8 variant) fields
  | .some value => do return .some (← Value.fromAstValue value)
  | .none => .ok .none
  | .ok value => do return .ok (← Value.fromAstValue value)
  | .err value => do return .err (← Value.fromAstValue value)
  | .map keyValueKind valueValueKind entries => do
    -- enough elements for the window operation
    let entries ← if entries.length % 2 ≠ 0 then .err (.generatorError .oddNumberOfElements)
      else Value.fromAstEntries entries
    return .map (.ofAstType keyValueKind) (.ofAstType valueValueKind) entries
  | .array astType elements => do
    return .array (.ofAstType astType) (← Value.fromAstValues elements)
  | .tuple elements => do return .tuple (← Value.fromAstValues elements)
  | .decimal value => .ofExcept (mapIfValueString parsing value fun string =>
      Value.decimal <$> lits.decimal.parse string)
  | .preciseDecimal value => .ofExcept (mapIfValueString parsing value fun string =>
      Value.preciseDecimal <$> lits.preciseDecimal.parse string)
  | .packageAddress address => .ofExcept (mapIfValueString parsing address fun addressString =>
      Value.packageAddress <$> bech32Coder.decodeToNetworkAwarePackageAddress addressString)
  | .resourceAddress address => .ofExcept (mapIfValueString parsing address fun addressString =>
      Value.resourceAddress <$> bech32Coder.decodeToNetworkAwareResourceAddress addressString)
  | .componentAddress address => .ofExcept (mapIfValueString parsing address fun addressString =>
      Value.componentAddress <$> bech32Coder.decodeToNetworkAwareComponentAddress addressString)
  | .hash value => .ofExcept (mapIfValueString parsing value fun string =>
      Value.hash <$> lits.hash.parse string)
  | .bucket value =>
    match value with
    | .u32 identifier => .ok (.bucket ⟨.u32 identifier⟩)
    | .string identifier => .ok (.bucket ⟨.string identifier⟩)
    | _ => .err (.unexpectedAstContents .bucket [.u32, .string] (.ofAstType value.valueKind))
  | .proof value =>
    match value with
    | .u32 identifier => .ok (.proof ⟨.u32 identifier⟩)
    | .string identifier => .ok (.proof ⟨.string identifier⟩)
    | _ => .err (.unexpectedAstContents .proof [.u32, .string] (.ofAstType value.valueKind))
  | .nonFungibleLocalId value =>
    match value with
    | .string value => .ofExcept (Value.nonFungibleLocalId <$> lits.nonFungibleLocalId.parse value)
    | _ => .err (.unexpectedAstContents .nonFungibleLocalId [.string] (.ofAstType value.valueKind))
  | .nonFungibleGlobalId value =>
    match value with
    | .string canonical => .ofExcept do
      let nativeGlobalId ← bech32Coder.nonFungibleGlobalIdFromCanonicalString canonical
      return .nonFungibleGlobalId ⟨⟨bech32Coder.networkId, nativeGlobalId.1⟩, nativeGlobalId.2⟩
    | _ =>
      .err (.unexpectedAstContents .nonFungibleGlobalId [.string] (.ofAstType value.valueKind))
  | .blob value => .ofExcept (mapIfValueString parsing value fun blobString => do
      let bytes ← lits.hexDecode blobString
      return .blob (← lits.blobTryFrom bytes))
  | .expression value => .ofExcept (mapIfValueString parsing value fun expressionString =>
      match expressionString with
      | "ENTIRE_WORKTOP" => .ok (.expression .entireWorktop)
      | "ENTIRE_AUTH_ZONE" => .ok (.expression .entireAuthZone)
      | found => .error (.invalidExpressionString found ["ENTIRE_WORKTOP", "ENTIRE_AUTH_ZONE"]))
  | .ecdsaSecp256k1PublicKey value => .ofExcept (mapIfValueString parsing value fun string =>
      Value.ecdsaSecp256k1PublicKey <$> lits.ecdsaSecp256k1PublicKey.parse string)
  | .ecdsaSecp256k1Signature value => .ofExcept (mapIfValueString parsing value fun string =>
      Value.ecdsaSecp256k1Signature <$> lits.ecdsaSecp256k1Signature.parse string)
  | .eddsaEd25519PublicKey value => .ofExcept (mapIfValueString parsing value fun string =>
      Value.eddsaEd25519PublicKey <$> lits.eddsaEd25519PublicKey.parse string)
  | .eddsaEd25519Signature value => .ofExcept (mapIfValueString parsing value fun string =>
      Value.eddsaEd25519Signature <$> lits.eddsaEd25519Signature.parse string)
  | .bytes value => .ofExcept (mapIfValueString parsing value fun string =>
      Value.bytes <$> lits.hexDecode string)
  -- `todo!()`: the manifest form of an owned node is not settled
  | .own _ => .panic
/-- The elements of a vector, decoded and collected left to right. -/
def Value.fromAstValues : List Ast.Value → Outcome Error (List Value)
  | [] => .ok []
  | a :: as => do
    let v ← Value.fromAstValue a
    return v :: (← Value.fromAstValues as)
/-- The loop over `entries.chunks(2)`: each chunk's key, then its value. A last chunk of one
    element has its key decoded and then panics at `chunk[1]`. -/
def Value.fromAstEntries : List Ast.Value → Outcome Error (List (Value × Value))
  | [] => .ok []
  | [key] => do
    let _ ← Value.fromAstValue key
    .panic
  | key :: value :: entries => do
    let key ← Value.fromAstValue key
    let value ← Value.fromAstValue value
    return (key, value) :: (← Value.fromAstEntries entries)
end

theorem Value.fromAstValues_eq_ok {l : List Ast.Value} {vs : List Value} :
    Value.fromAstValues lits bech32Coder l = .ok vs ↔
      List.Forall₂ (fun a v => Value.fromAstValue lits bech32Coder a = .ok v) l vs := by
  induction l generalizing vs with
  | nil => cases vs <;> simp only [Value.fromAstValues, Outcome.ok.injEq, List.nil_eq, reduceCtorEq,
    List.forall₂_nil_left_iff, List.forall₂_nil_right_iff]
  | cons a as ih =>
    cases vs <;> simp only [Value.fromAstValues, Outcome.pure_eq_ok, Outcome.bind_eq_ok_iff, Outcome.ok.injEq, ih,
    reduceCtorEq, and_false, exists_false, List.forall₂_nil_right_iff, List.cons.injEq,
    exists_eq_right_right, List.forall₂_cons]

/-- A map literal's element list decodes exactly when it is the flattening of pairs that
    decode, key and value. -/
theorem Value.fromAstEntries_eq_ok :
    ∀ {l : List Ast.Value} {es : List (Value × Value)},
      Value.fromAstEntries lits bech32Coder l = .ok es ↔
        ∃ pairs : List (Ast.Value × Ast.Value), l = pairs.flatMap (fun p => [p.1, p.2]) ∧
          List.Forall₂ (fun p e => Value.fromAstValue lits bech32Coder p.1 = .ok e.1 ∧
            Value.fromAstValue lits bech32Coder p.2 = .ok e.2) pairs es
  | [], es => by
    simp only [Value.fromAstEntries, Outcome.ok.injEq]
    constructor
    · rintro rfl
      exact ⟨[], rfl, .nil⟩
    · rintro ⟨pairs, hl, hpairs⟩
      cases hpairs with
      | nil => rfl
      | cons _ _ => cases hl
  | [key], es => by
    simp only [Value.fromAstEntries, Outcome.bind_eq_ok_iff]
    constructor
    · rintro ⟨_, _, h⟩
      cases h
    · rintro ⟨pairs, hl, _⟩
      cases pairs <;> cases hl
  | key :: value :: entries, es => by
    simp only [Value.fromAstEntries, Outcome.bind_eq_ok_iff, Outcome.pure_eq_ok,
      Outcome.ok.injEq, Value.fromAstEntries_eq_ok]
    constructor
    · rintro ⟨k, hk, v, hv, _, ⟨pairs, rfl, hpairs⟩, rfl⟩
      exact ⟨(key, value) :: pairs, rfl, .cons ⟨hk, hv⟩ hpairs⟩
    · rintro ⟨pairs, hl, hpairs⟩
      cases hpairs with
      | nil => cases hl
      | cons hkv hpairs =>
        simp only [List.flatMap_cons, List.cons_append, List.singleton_append,
          List.cons.injEq] at hl
        obtain ⟨rfl, rfl, rfl⟩ := hl
        exact ⟨_, hkv.1, _, hkv.2, _, ⟨_, rfl, hpairs⟩, rfl⟩

end Decode

section Decode

variable {lits : Literals} {bech32Coder : Bech32Coder}

/-- The enum arm: no fields decode as an absent field list. -/
theorem Value.fromAstValue_enum (variant : UInt8) (fields : List Ast.Value) :
    Value.fromAstValue lits bech32Coder (.enum variant fields) =
      if fields.isEmpty then .ok (.enum (.u8 variant) .none)
      else (fun vs => Value.enum (.u8 variant) (.some vs)) <$>
        Value.fromAstValues lits bech32Coder fields := by
  simp only [Value.fromAstValue]
  split
  · rfl
  · cases Value.fromAstValues lits bech32Coder fields <;> rfl

/-- The map arm: the length check, then the chunk loop. -/
theorem Value.fromAstValue_map (keyType valueType : Ast.AstType) (entries : List Ast.Value) :
    Value.fromAstValue lits bech32Coder (.map keyType valueType entries) =
      if entries.length % 2 ≠ 0 then .err (.generatorError .oddNumberOfElements)
      else Value.map (.ofAstType keyType) (.ofAstType valueType) <$>
        Value.fromAstEntries lits bech32Coder entries := by
  simp only [Value.fromAstValue]
  split <;> rfl

end Decode

/-! ## The map arm

A map literal's elements alternate key and value. The arm checks the element count before it
converts anything, then converts the elements left to right and pairs them up in order, so that
the pairs a map prints as come back as the same pairs (`Value.fromAstValue_map_pairs`). -/

/-- Consecutive elements paired up in order, a last unpaired element dropped: what the
    `chunks(2)` loop builds from the converted elements. -/
def List.pairUp {α : Type} : List α → List (α × α)
  | a :: b :: rest => (a, b) :: List.pairUp rest
  | _ => []

theorem List.length_flatMap_pair {α : Type} (pairs : List (α × α)) :
    (pairs.flatMap fun p => [p.1, p.2]).length = 2 * pairs.length := by
  induction pairs with
  | nil => rfl
  | cons p ps ih =>
    simp only [List.flatMap_cons, List.cons_append, List.nil_append, List.length_cons, ih]
    rfl

/-- Pairing up undoes the flattening of a pair list. -/
theorem List.pairUp_flatMap {α : Type} :
    ∀ pairs : List (α × α), List.pairUp (pairs.flatMap fun p => [p.1, p.2]) = pairs
  | [] => rfl
  | (a, b) :: pairs => congrArg ((a, b) :: ·) (List.pairUp_flatMap pairs)

section MapArm

variable {lits : Literals} {bech32Coder : Bech32Coder}

/-- On an even element list the chunk loop is the element loop followed by pairing up: it never
    reaches its panic, and it fails with the first element that fails. -/
theorem Value.fromAstEntries_eq_pairUp :
    ∀ {l : List Ast.Value}, l.length % 2 = 0 →
      Value.fromAstEntries lits bech32Coder l =
        List.pairUp <$> Value.fromAstValues lits bech32Coder l
  | [], _ => rfl
  | [_], h => absurd h Nat.one_ne_zero
  | a :: b :: rest, h => by
    have hrest : rest.length % 2 = 0 := (Nat.add_mod_right _ 2).symm.trans h
    rw [Value.fromAstEntries, Value.fromAstValues, Value.fromAstValues,
      Value.fromAstEntries_eq_pairUp hrest]
    cases Value.fromAstValue lits bech32Coder a <;> try rfl
    cases Value.fromAstValue lits bech32Coder b <;> try rfl
    cases Value.fromAstValues lits bech32Coder rest <;> rfl

/-- Elements that convert put their values in front of what the rest of the loop returns. -/
theorem Value.fromAstValues_append {pre rest : List Ast.Value} {values : List Value}
    (hpre : List.Forall₂ (fun a v => Value.fromAstValue lits bech32Coder a = .ok v) pre values) :
    Value.fromAstValues lits bech32Coder (pre ++ rest) =
      (values ++ ·) <$> Value.fromAstValues lits bech32Coder rest := by
  induction hpre with
  | nil =>
    rw [List.nil_append]
    cases Value.fromAstValues lits bech32Coder rest <;> rfl
  | cons ha _ ih =>
    rw [List.cons_append, Value.fromAstValues, ha, ih]
    cases Value.fromAstValues lits bech32Coder rest <;> rfl

/-- **The map arm.** Printing a map flattens its entries' printed pairs into one element list. On
    the way back, an odd element count fails with `OddNumberOfElements` whatever the elements
    are, so none of them is converted. An even list is converted left to right: the first element
    that fails decides the result, and if none fails the converted elements are paired up in
    order. So a flattened pair list decodes exactly to pairs of the conversions, key with key and
    value with value. -/
theorem Value.fromAstValue_map_pairs (keyType valueType : Ast.AstType) :
    (∀ (known : KnownEnumDiscriminators) (keyValueKind valueValueKind : ValueKind)
        (entries : List (Value × Value)) (a : Ast.Value),
      Value.toAstValue known lits bech32Coder (.map keyValueKind valueValueKind entries) = .ok a ↔
        ∃ pairs : List (Ast.Value × Ast.Value),
          a = .map (.ofValueKind keyValueKind) (.ofValueKind valueValueKind)
            (pairs.flatMap fun p => [p.1, p.2]) ∧
          List.Forall₂ (fun e p => e.1.toAstValue known lits bech32Coder = .ok p.1 ∧
            e.2.toAstValue known lits bech32Coder = .ok p.2) entries pairs) ∧
    (∀ entries : List Ast.Value, entries.length % 2 = 1 →
      Value.fromAstValue lits bech32Coder (.map keyType valueType entries) =
        .err (.generatorError .oddNumberOfElements)) ∧
    (∀ (pre : List Ast.Value) (values : List Value) (a : Ast.Value) (post : List Ast.Value),
      (pre ++ a :: post).length % 2 = 0 →
      List.Forall₂ (fun b v => Value.fromAstValue lits bech32Coder b = .ok v) pre values →
      (∀ e, Value.fromAstValue lits bech32Coder a = .err e →
        Value.fromAstValue lits bech32Coder (.map keyType valueType (pre ++ a :: post)) =
          .err e) ∧
      (Value.fromAstValue lits bech32Coder a = .panic →
        Value.fromAstValue lits bech32Coder (.map keyType valueType (pre ++ a :: post)) =
          .panic)) ∧
    (∀ (entries : List Ast.Value) (values : List Value), entries.length % 2 = 0 →
      List.Forall₂ (fun a v => Value.fromAstValue lits bech32Coder a = .ok v) entries values →
      Value.fromAstValue lits bech32Coder (.map keyType valueType entries) =
        .ok (.map (.ofAstType keyType) (.ofAstType valueType) (List.pairUp values))) ∧
    (∀ (pairs : List (Ast.Value × Ast.Value)) (entries : List (Value × Value)),
      Value.fromAstValue lits bech32Coder
          (.map keyType valueType (pairs.flatMap fun p => [p.1, p.2])) =
          .ok (.map (.ofAstType keyType) (.ofAstType valueType) entries) ↔
        List.Forall₂ (fun p e => Value.fromAstValue lits bech32Coder p.1 = .ok e.1 ∧
          Value.fromAstValue lits bech32Coder p.2 = .ok e.2) pairs entries) := by
  refine ⟨?print, fun entries hodd => ?odd, fun pre values a post heven hpre => ?first, ?ok, ?pairs⟩
  case print =>
    intro known keyValueKind valueValueKind entries a
    simp only [Value.toAstValue_map, Except.bind_eq_ok_iff, Except.pure_eq_ok_iff,
      Value.toAstEntries_eq_ok]
    constructor
    · rintro ⟨_, ⟨pairs, rfl, hpairs⟩, rfl⟩
      exact ⟨pairs, rfl, hpairs⟩
    · rintro ⟨pairs, rfl, hpairs⟩
      exact ⟨_, ⟨pairs, rfl, hpairs⟩, rfl⟩
  case odd =>
    rw [Value.fromAstValue_map, if_pos (hodd.trans_ne Nat.one_ne_zero)]
  case first =>
    rw [Value.fromAstValue_map, if_neg (not_not_intro heven), Value.fromAstEntries_eq_pairUp heven,
      Value.fromAstValues_append hpre, Value.fromAstValues]
    exact ⟨fun e ha => by rw [ha]; rfl, fun ha => by rw [ha]; rfl⟩
  case ok =>
    intro entries values heven hvalues
    rw [Value.fromAstValue_map, if_neg (not_not_intro heven), Value.fromAstEntries_eq_pairUp heven,
      (Value.fromAstValues_eq_ok _ _).2 hvalues]
    rfl
  case pairs =>
    intro pairs entries
    have heven : (pairs.flatMap fun p => [p.1, p.2]).length % 2 = 0 := by
      rw [List.length_flatMap_pair, Nat.mul_mod_right]
    rw [Value.fromAstValue_map, if_neg (not_not_intro heven)]
    simp only [Outcome.map_eq_bind, Outcome.bind_eq_ok_iff, Outcome.ok.injEq, Value.map.injEq,
      true_and, exists_eq_right, Value.fromAstEntries_eq_ok]
    constructor
    · rintro ⟨pairs', hflat, hpairs'⟩
      rwa [← List.pairUp_flatMap pairs, hflat, List.pairUp_flatMap]
    · exact fun hpairs => ⟨pairs, rfl, hpairs⟩

end MapArm
