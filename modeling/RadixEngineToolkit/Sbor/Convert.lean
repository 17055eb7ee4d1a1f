import RadixEngineToolkit.Model.Value
import RadixEngineToolkit.Sbor.ScryptoValue

set_option autoImplicit false

/-! # The wire conversions of `value.rs`

`Value::to_scrypto_value` and `Value::from_scrypto_value`, with the two kind tables they use on
the kinds containers declare: `From<ValueKind> for ScryptoValueKind` and
`From<ScryptoValueKind> for ValueKind`. Encoding can fail, at an enum whose named variant does
not resolve and at a bucket or proof whose identifier has no wire form; decoding is total and
reattaches the network id it is given to every address.

The Rust code maps over child vectors and collects into a `Result`, which stops at the first
error; the list functions of the mutual blocks do the same, left to right, and are related to
`List.Forall₂` and `List.map` once here, so that the proofs of `Sbor/RoundTrip.lean` never
unfold them. -/

/-! ## Kind tables -/

/-- `From<ScryptoValueKind> for ValueKind`. -/
def ValueKind.ofScryptoValueKind : ScryptoValueKind → ValueKind
  | .bool => .bool
  | .u8 => .u8
  | .u16 => .u16
  | .u32 => .u32
  | .u64 => .u64
  | .u128 => .u128
  | .i8 => .i8
  | .i16 => .i16
  | .i32 => .i32
  | .i64 => .i64
  | .i128 => .i128
  | .string => .string
  | .enum => .enum
  | .map => .map
  | .array => .array
  | .tuple => .tuple
  | .custom .packageAddress => .packageAddress
  | .custom .componentAddress => .componentAddress
  | .custom .resourceAddress => .resourceAddress
  | .custom .bucket => .bucket
  | .custom .proof => .proof
  | .custom .expression => .expression
  | .custom .blob => .blob
  | .custom .hash => .hash
  | .custom .ecdsaSecp256k1PublicKey => .ecdsaSecp256k1PublicKey
  | .custom .ecdsaSecp256k1Signature => .ecdsaSecp256k1Signature
  | .custom .eddsaEd25519PublicKey => .eddsaEd25519PublicKey
  | .custom .eddsaEd25519Signature => .eddsaEd25519Signature
  | .custom .decimal => .decimal
  | .custom .preciseDecimal => .preciseDecimal
  | .custom .nonFungibleLocalId => .nonFungibleLocalId
  | .custom .own => .own

/-- `From<ValueKind> for ScryptoValueKind`. Options and results are enums on the wire, byte
    strings arrays and non-fungible global ids tuples. -/
def ScryptoValueKind.ofValueKind : ValueKind → ScryptoValueKind
  | .bool => .bool
  | .u8 => .u8
  | .u16 => .u16
  | .u32 => .u32
  | .u64 => .u64
  | .u128 => .u128
  | .i8 => .i8
  | .i16 => .i16
  | .i32 => .i32
  | .i64 => .i64
  | .i128 => .i128
  | .string => .string
  | .enum => .enum
  | .some => .enum
  | .none => .enum
  | .ok => .enum
  | .err => .enum
  | .map => .map
  | .array => .array
  | .bytes => .array
  | .tuple => .tuple
  | .packageAddress => .custom .packageAddress
  | .resourceAddress => .custom .resourceAddress
  | .componentAddress => .custom .componentAddress
  | .proof => .custom .proof
  | .bucket => .custom .bucket
  | .expression => .custom .expression
  | .blob => .custom .blob
  | .nonFungibleGlobalId => .tuple
  | .hash => .custom .hash
  | .ecdsaSecp256k1PublicKey => .custom .ecdsaSecp256k1PublicKey
  | .ecdsaSecp256k1Signature => .custom .ecdsaSecp256k1Signature
  | .eddsaEd25519PublicKey => .custom .eddsaEd25519PublicKey
  | .eddsaEd25519Signature => .custom .eddsaEd25519Signature
  | .decimal => .custom .decimal
  | .preciseDecimal => .custom .preciseDecimal
  | .nonFungibleLocalId => .custom .nonFungibleLocalId
  | .own => .custom .own

/-- Every wire kind survives the trip to a toolkit kind and back. -/
@[simp]
theorem ScryptoValueKind.ofValueKind_ofScryptoValueKind (k : ScryptoValueKind) :
    ScryptoValueKind.ofValueKind (ValueKind.ofScryptoValueKind k) = k := by
  cases k with
  | custom c => cases c <;> rfl
  | _ => rfl

/-! ## Encoding -/

/-- The conversions of the toolkit's `engine_identifier.rs` (not among the sources) that
    `to_scrypto_value` applies with `try_into`: `TryFrom<&BucketId>` and `TryFrom<&ProofId>` for
    `ScryptoCustomValue`. -/
structure IdentifierConversions where
  bucket : BucketId → Except Error ScryptoCustomValue
  proof : ProofId → Except Error ScryptoCustomValue

section Encode

variable (known : KnownEnumDiscriminators) (ids : IdentifierConversions)

mutual
/-- `Value::to_scrypto_value`. -/
def Value.toScryptoValue : Value → Except Error ScryptoValue
  | .bool value => .ok (.bool value)
  | .u8 value => .ok (.u8 value)
  | .u16 value => .ok (.u16 value)
  | .u32 value => .ok (.u32 value)
  | .u64 value => .ok (.u64 value)
  | .u128 value => .ok (.u128 value)
  | .i8 value => .ok (.i8 value)
  | .i16 value => .ok (.i16 value)
  | .i32 value => .ok (.i32 value)
  | .i64 value => .ok (.i64 value)
  | .i128 value => .ok (.i128 value)
  | .string value => .ok (.string value)
  -- `fields.clone().unwrap_or_default()`: absent fields encode as an empty list
  | .enum variant .none => do
    let discriminator ← variant.resolveDiscriminator known
    return .enum discriminator []
  | .enum variant (.some fields) => do
    let discriminator ← variant.resolveDiscriminator known
    return .enum discriminator (← Value.toScryptoValues fields)
  | .some value => do
    return .enum ((known.get "Option::Some").get known.optionSome) [← value.toScryptoValue]
  | .none => .ok (.enum ((known.get "Option::None").get known.optionNone) [])
  | .ok value => do
    return .enum ((known.get "Result::Ok").get known.resultOk) [← value.toScryptoValue]
  | .err value => do
    return .enum ((known.get "Result::Err").get known.resultErr) [← value.toScryptoValue]
  | .map keyValueKind valueValueKind entries => do
    return .map (.ofValueKind keyValueKind) (.ofValueKind valueValueKind)
      (← Value.toScryptoEntries entries)
  | .array elementKind elements => do
    return .array (.ofValueKind elementKind) (← Value.toScryptoValues elements)
  | .tuple elements => do return .tuple (← Value.toScryptoValues elements)
  | .decimal value => .ok (.custom (.decimal value))
  | .preciseDecimal value => .ok (.custom (.preciseDecimal value))
  | .componentAddress address => .ok (.custom (.componentAddress address.address))
  | .packageAddress address => .ok (.custom (.packageAddress address.address))
  | .resourceAddress address => .ok (.custom (.resourceAddress address.address))
  | .hash value => .ok (.custom (.hash value))
  | .ecdsaSecp256k1PublicKey publicKey => .ok (.custom (.ecdsaSecp256k1PublicKey publicKey))
  | .eddsaEd25519PublicKey publicKey => .ok (.custom (.eddsaEd25519PublicKey publicKey))
  | .ecdsaSecp256k1Signature signature => .ok (.custom (.ecdsaSecp256k1Signature signature))
  | .eddsaEd25519Signature signature => .ok (.custom (.eddsaEd25519Signature signature))
  | .bucket identifier => do return .custom (← ids.bucket identifier)
  | .proof identifier => do return .custom (← ids.proof identifier)
  | .nonFungibleLocalId value => .ok (.custom (.nonFungibleLocalId value))
  -- the encodings of `Self::ResourceAddress` and `Self::NonFungibleLocalId`, which the source
  -- obtains by calling `to_scrypto_value` on them (`toScryptoValue_nonFungibleGlobalId`)
  | .nonFungibleGlobalId address =>
    .ok (.tuple [.custom (.resourceAddress address.resourceAddress.address),
      .custom (.nonFungibleLocalId address.nonFungibleLocalId)])
  | .blob blobRef => .ok (.custom (.blob blobRef))
  | .expression value => .ok (.custom (.expression value))
  | .bytes value => .ok (.array .u8 (value.map .u8))
  | .own value => .ok (.custom (.own value))
/-- The elements of a vector, encoded and collected left to right. -/
def Value.toScryptoValues : List Value → Except Error (List ScryptoValue)
  | [] => .ok []
  | v :: vs => do
    let s ← v.toScryptoValue
    return s :: (← Value.toScryptoValues vs)
/-- The entries of a map, key before value, in order. -/
def Value.toScryptoEntries :
    List (Value × Value) → Except Error (List (ScryptoValue × ScryptoValue))
  | [] => .ok []
  | (key, value) :: entries => do
    let key ← key.toScryptoValue
    let value ← value.toScryptoValue
    return (key, value) :: (← Value.toScryptoEntries entries)
end

/-- The non-fungible global id arm is the source's: a tuple of the encodings of its resource
    address and local id as values. -/
theorem Value.toScryptoValue_nonFungibleGlobalId (address : NonFungibleGlobalId) :
    (Value.nonFungibleGlobalId address).toScryptoValue known ids = do
      return .tuple [← (Value.resourceAddress address.resourceAddress).toScryptoValue known ids,
        ← (Value.nonFungibleLocalId address.nonFungibleLocalId).toScryptoValue known ids] :=
  rfl

theorem Value.toScryptoValues_eq_ok {l : List Value} {ss : List ScryptoValue} :
    Value.toScryptoValues known ids l = .ok ss ↔
      List.Forall₂ (fun v s => v.toScryptoValue known ids = .ok s) l ss := by
  induction l generalizing ss with
  | nil => cases ss <;> simp only [Value.toScryptoValues, Except.ok.injEq, List.nil_eq, reduceCtorEq,
    List.forall₂_nil_left_iff, List.forall₂_nil_right_iff]
  | cons v vs ih =>
    cases ss <;> simp only [Value.toScryptoValues, bind_pure_comp, Except.bind_eq_ok_iff, Except.map_eq_ok_iff, ih,
    reduceCtorEq, and_false, exists_false, List.forall₂_nil_right_iff, List.cons.injEq,
    exists_eq_right_right, List.forall₂_cons]

theorem Value.toScryptoEntries_eq_ok {l : List (Value × Value)}
    {ss : List (ScryptoValue × ScryptoValue)} :
    Value.toScryptoEntries known ids l = .ok ss ↔
      List.Forall₂ (fun e s => e.1.toScryptoValue known ids = .ok s.1 ∧
        e.2.toScryptoValue known ids = .ok s.2) l ss := by
  induction l generalizing ss with
  | nil => cases ss <;> simp only [Value.toScryptoEntries, Except.ok.injEq, List.nil_eq,
    reduceCtorEq, List.forall₂_nil_left_iff, List.forall₂_nil_right_iff]
  | cons e es ih =>
    obtain ⟨k, v⟩ := e
    cases ss with
    | nil =>
      simp only [Value.toScryptoEntries, bind_pure_comp, Except.bind_eq_ok_iff,
        Except.map_eq_ok_iff, reduceCtorEq, and_false, exists_false, List.forall₂_nil_right_iff]
    | cons s ss =>
      obtain ⟨sk, sv⟩ := s
      simp only [Value.toScryptoEntries, Except.bind_eq_ok_iff, Except.pure_eq_ok_iff,
        List.cons.injEq, Prod.mk.injEq, List.forall₂_cons, ih]
      constructor
      · rintro ⟨k', hk, v', hv, ss', hss, ⟨rfl, rfl⟩, rfl⟩
        exact ⟨⟨hk, hv⟩, hss⟩
      · rintro ⟨⟨hk, hv⟩, hss⟩
        exact ⟨sk, hk, sv, hv, ss, hss, ⟨rfl, rfl⟩, rfl⟩

end Encode

/-! ## Decoding -/

mutual
/-- `Value::from_scrypto_value`: every wire node becomes the toolkit node of the same name, and
    every address is tagged with `networkId`. -/
def Value.fromScryptoValue (scryptoValue : ScryptoValue) (networkId : UInt8) : Value :=
  match scryptoValue with
  | .bool value => .bool value
  | .u8 value => .u8 value
  | .u16 value => .u16 value
  | .u32 value => .u32 value
  | .u64 value => .u64 value
  | .u128 value => .u128 value
  | .i8 value => .i8 value
  | .i16 value => .i16 value
  | .i32 value => .i32 value
  | .i64 value => .i64 value
  | .i128 value => .i128 value
  | .string value => .string value
  | .enum discriminator fields =>
    .enum (.u8 discriminator)
      (if fields.isEmpty then .none else .some (Value.fromScryptoValues fields networkId))
  | .map keyValueKind valueValueKind entries =>
    .map (.ofScryptoValueKind keyValueKind) (.ofScryptoValueKind valueValueKind)
      (Value.fromScryptoEntries entries networkId)
  | .array elementValueKind elements =>
    .array (.ofScryptoValueKind elementValueKind) (Value.fromScryptoValues elements networkId)
  | .tuple fields => .tuple (Value.fromScryptoValues fields networkId)
  | .custom (.packageAddress address) => .packageAddress ⟨networkId, address⟩
  | .custom (.resourceAddress address) => .resourceAddress ⟨networkId, address⟩
  | .custom (.componentAddress address) => .componentAddress ⟨networkId, address⟩
  | .custom (.bucket identifier) => .bucket ⟨.u32 identifier.id⟩
  | .custom (.proof identifier) => .proof ⟨.u32 identifier.id⟩
  | .custom (.expression value) => .expression value
  | .custom (.blob value) => .blob value
  | .custom (.hash value) => .hash value
  | .custom (.ecdsaSecp256k1PublicKey value) => .ecdsaSecp256k1PublicKey value
  | .custom (.eddsaEd25519PublicKey value) => .eddsaEd25519PublicKey value
  | .custom (.ecdsaSecp256k1Signature value) => .ecdsaSecp256k1Signature value
  | .custom (.eddsaEd25519Signature value) => .eddsaEd25519Signature value
  | .custom (.decimal value) => .decimal value
  | .custom (.preciseDecimal value) => .preciseDecimal value
  | .custom (.nonFungibleLocalId value) => .nonFungibleLocalId value
  | .custom (.own value) => .own value
/-- The elements of a vector, decoded in order. -/
def Value.fromScryptoValues (l : List ScryptoValue) (networkId : UInt8) : List Value :=
  match l with
  | [] => []
  | s :: ss => Value.fromScryptoValue s networkId :: Value.fromScryptoValues ss networkId
/-- The entries of a map, decoded in order. -/
def Value.fromScryptoEntries (l : List (ScryptoValue × ScryptoValue)) (networkId : UInt8) :
    List (Value × Value) :=
  match l with
  | [] => []
  | (key, value) :: entries =>
    (Value.fromScryptoValue key networkId, Value.fromScryptoValue value networkId) ::
      Value.fromScryptoEntries entries networkId
end

@[simp]
theorem Value.fromScryptoValues_eq (l : List ScryptoValue) (networkId : UInt8) :
    Value.fromScryptoValues l networkId = l.map (Value.fromScryptoValue · networkId) := by
  induction l with
  | nil => rfl
  | cons s ss ih => simp [Value.fromScryptoValues, ih]

@[simp]
theorem Value.fromScryptoEntries_eq (l : List (ScryptoValue × ScryptoValue)) (networkId : UInt8) :
    Value.fromScryptoEntries l networkId =
      l.map fun e =>
        (Value.fromScryptoValue e.1 networkId, Value.fromScryptoValue e.2 networkId) := by
  induction l with
  | nil => rfl
  | cons e es ih => simp [Value.fromScryptoEntries, ih]
