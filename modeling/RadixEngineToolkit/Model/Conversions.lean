import RadixEngineToolkit.Model.Value

set_option autoImplicit false

/-! # Values to and from the types they hold

The last section of `value.rs` converts between a `Value` and the plain types its variants
hold. The macro `value_invertible!`, invoked for fourteen variants, writes for each a
`TryFrom<T> for Value`, which always succeeds with the variant, and a `TryFrom<Value> for T`,
which returns the field of a value of the variant and otherwise `Error::InvalidKind`, naming the
variant's kind as expected and the value's own kind as found. `EntityAddress` converts the same
way to and from the three address variants.

The macro is one definition over the variant (`ValueVariant`), which carries the laws of its
constructor and field as fields; each invocation is a `ValueVariant` under the name of the
variant it was invoked on. One lemma per direction holds for all of them: reading a field back
inverts building the value, and every failure is an `InvalidKind` of a value of another
variant (`ValueVariant.tryFromValue_eq_error_iff`). -/

/-- The toolkit `Error`'s `InvalidKind`, the only error the conversions return. -/
structure InvalidKind where
  expected : List ValueKind
  found : ValueKind
  deriving DecidableEq, Repr

/-! ## `value_invertible!` -/

/-- A variant `value_invertible!` is invoked on: its kind, the constructor, and the field of a
    value of the variant. The field of a value built by the constructor is what it was built
    from, and a value with a field is the one the constructor builds from it. -/
structure ValueVariant (α : Type) where
  kind : ValueKind
  wrap : α → Value
  field : Value → Option α
  field_wrap : ∀ x, field (wrap x) = some x
  wrap_field : ∀ v x, field v = some x → wrap x = v

section Invertible

variable {α : Type} (variant : ValueVariant α)

/-- The `TryFrom<$underlying_type> for Value` of `value_invertible!`. -/
def ValueVariant.tryIntoValue (x : α) : Except InvalidKind Value :=
  .ok (variant.wrap x)

/-- The `TryFrom<Value> for $underlying_type` of `value_invertible!`. -/
def ValueVariant.tryFromValue (val : Value) : Except InvalidKind α :=
  match variant.field val with
  | .some x => .ok x
  | .none => .error ⟨[variant.kind], val.kind⟩

variable {variant}

theorem ValueVariant.tryFromValue_eq_ok_iff {val : Value} {x : α} :
    variant.tryFromValue val = .ok x ↔ variant.tryIntoValue x = .ok val := by
  unfold ValueVariant.tryFromValue ValueVariant.tryIntoValue
  constructor
  · intro h
    cases hfield : variant.field val with
    | none => simp only [hfield, reduceCtorEq] at h
    | some y =>
      simp only [hfield, Except.ok.injEq] at h
      rw [← h, variant.wrap_field val y hfield]
  · intro h
    cases h
    rw [variant.field_wrap]

theorem ValueVariant.field_eq_none_iff {val : Value} :
    variant.field val = .none ↔ ∀ x, variant.wrap x ≠ val := by
  constructor
  · rintro h x rfl
    simp only [variant.field_wrap, reduceCtorEq] at h
  · intro h
    cases hfield : variant.field val with
    | none => rfl
    | some y => exact absurd (variant.wrap_field val y hfield) (h y)

/-- A conversion from a value fails exactly on the values the variant's constructor does not
    build, with an `InvalidKind` that expects the variant's kind and finds the value's. -/
theorem ValueVariant.tryFromValue_eq_error_iff {val : Value} {error : InvalidKind} :
    variant.tryFromValue val = .error error ↔
      (∀ x, variant.wrap x ≠ val) ∧ error = ⟨[variant.kind], val.kind⟩ := by
  rw [← ValueVariant.field_eq_none_iff]
  unfold ValueVariant.tryFromValue
  cases variant.field val with
  | none => simp only [Except.error.injEq, true_and, eq_comm]
  | some y => simp only [reduceCtorEq, false_and]

end Invertible

/-! ## The fourteen invocations -/

/-- `value_invertible! {U8, u8, value}`. -/
def ValueVariant.u8 : ValueVariant UInt8 where
  kind := .u8
  wrap := .u8
  field | .u8 value => .some value | _ => .none
  field_wrap _ := rfl
  wrap_field v _ h := by cases v <;> cases h; rfl

/-- `value_invertible! {U32, u32, value}`. -/
def ValueVariant.u32 : ValueVariant UInt32 where
  kind := .u32
  wrap := .u32
  field | .u32 value => .some value | _ => .none
  field_wrap _ := rfl
  wrap_field v _ h := by cases v <;> cases h; rfl

/-- `value_invertible! {Own, Own, value}`. -/
def ValueVariant.own : ValueVariant Own where
  kind := .own
  wrap := .own
  field | .own value => .some value | _ => .none
  field_wrap _ := rfl
  wrap_field v _ h := by cases v <;> cases h; rfl

/-- `value_invertible! {String, String, value}`. -/
def ValueVariant.string : ValueVariant String where
  kind := .string
  wrap := .string
  field | .string value => .some value | _ => .none
  field_wrap _ := rfl
  wrap_field v _ h := by cases v <;> cases h; rfl

/-- `value_invertible! {Decimal, Decimal, value}`. -/
def ValueVariant.decimal : ValueVariant Decimal where
  kind := .decimal
  wrap := .decimal
  field | .decimal value => .some value | _ => .none
  field_wrap _ := rfl
  wrap_field v _ h := by cases v <;> cases h; rfl

/-- `value_invertible! {Proof, ProofId, identifier}`. -/
def ValueVariant.proof : ValueVariant ProofId where
  kind := .proof
  wrap := .proof
  field | .proof identifier => .some identifier | _ => .none
  field_wrap _ := rfl
  wrap_field v _ h := by cases v <;> cases h; rfl

/-- `value_invertible! {Blob, ManifestBlobRef, hash}`. -/
def ValueVariant.blob : ValueVariant ManifestBlobRef where
  kind := .blob
  wrap := .blob
  field | .blob hash => .some hash | _ => .none
  field_wrap _ := rfl
  wrap_field v _ h := by cases v <;> cases h; rfl

/-- `value_invertible! {Bucket, BucketId, identifier}`. -/
def ValueVariant.bucket : ValueVariant BucketId where
  kind := .bucket
  wrap := .bucket
  field | .bucket identifier => .some identifier | _ => .none
  field_wrap _ := rfl
  wrap_field v _ h := by cases v <;> cases h; rfl

/-- `value_invertible! {NonFungibleLocalId, NonFungibleLocalId, value}`. -/
def ValueVariant.nonFungibleLocalId : ValueVariant NonFungibleLocalId where
  kind := .nonFungibleLocalId
  wrap := .nonFungibleLocalId
  field | .nonFungibleLocalId value => .some value | _ => .none
  field_wrap _ := rfl
  wrap_field v _ h := by cases v <;> cases h; rfl

/-- `value_invertible! {NonFungibleGlobalId, NonFungibleGlobalId, address}`. -/
def ValueVariant.nonFungibleGlobalId : ValueVariant NonFungibleGlobalId where
  kind := .nonFungibleGlobalId
  wrap := .nonFungibleGlobalId
  field | .nonFungibleGlobalId address => .some address | _ => .none
  field_wrap _ := rfl
  wrap_field v _ h := by cases v <;> cases h; rfl

/-- `value_invertible! {PackageAddress, NetworkAwarePackageAddress, address}`. -/
def ValueVariant.packageAddress : ValueVariant NetworkAwarePackageAddress where
  kind := .packageAddress
  wrap := .packageAddress
  field | .packageAddress address => .some address | _ => .none
  field_wrap _ := rfl
  wrap_field v _ h := by cases v <;> cases h; rfl

/-- `value_invertible! {ResourceAddress, NetworkAwareResourceAddress, address}`. -/
def ValueVariant.resourceAddress : ValueVariant NetworkAwareResourceAddress where
  kind := .resourceAddress
  wrap := .resourceAddress
  field | .resourceAddress address => .some address | _ => .none
  field_wrap _ := rfl
  wrap_field v _ h := by cases v <;> cases h; rfl

/-- `value_invertible! {ComponentAddress, NetworkAwareComponentAddress, address}`. -/
def ValueVariant.componentAddress : ValueVariant NetworkAwareComponentAddress where
  kind := .componentAddress
  wrap := .componentAddress
  field | .componentAddress address => .some address | _ => .none
  field_wrap _ := rfl
  wrap_field v _ h := by cases v <;> cases h; rfl

/-- `value_invertible! {EcdsaSecp256k1PublicKey, EcdsaSecp256k1PublicKey, public_key}`. -/
def ValueVariant.ecdsaSecp256k1PublicKey : ValueVariant EcdsaSecp256k1PublicKey where
  kind := .ecdsaSecp256k1PublicKey
  wrap := .ecdsaSecp256k1PublicKey
  field | .ecdsaSecp256k1PublicKey publicKey => .some publicKey | _ => .none
  field_wrap _ := rfl
  wrap_field v _ h := by cases v <;> cases h; rfl

example : ValueVariant.u8.tryFromValue (.string "1") = .error ⟨[.u8], .string⟩ := rfl

/-! ## Entity addresses -/

/-- The toolkit's `EntityAddress` (not among the sources), modelled from its use here: one of
    the three network-aware addresses. -/
inductive EntityAddress where
  | componentAddress (address : NetworkAwareComponentAddress)
  | resourceAddress (address : NetworkAwareResourceAddress)
  | packageAddress (address : NetworkAwarePackageAddress)
  deriving DecidableEq, Repr

/-- `TryFrom<EntityAddress> for Value`. -/
def Value.tryFromEntityAddress : EntityAddress → Except InvalidKind Value
  | .componentAddress address => .ok (.componentAddress address)
  | .resourceAddress address => .ok (.resourceAddress address)
  | .packageAddress address => .ok (.packageAddress address)

/-- `TryFrom<Value> for EntityAddress`. -/
def EntityAddress.tryFromValue (value : Value) : Except InvalidKind EntityAddress :=
  match value with
  | .componentAddress address => .ok (.componentAddress address)
  | .resourceAddress address => .ok (.resourceAddress address)
  | .packageAddress address => .ok (.packageAddress address)
  | _ => .error ⟨[.componentAddress, .resourceAddress, .packageAddress], value.kind⟩

/-- A value converts to an entity address exactly when the address converts to the value. -/
theorem EntityAddress.tryFromValue_eq_ok_iff {value : Value} {address : EntityAddress} :
    EntityAddress.tryFromValue value = .ok address ↔
      Value.tryFromEntityAddress address = .ok value := by
  constructor
  · intro h
    cases value <;> cases h <;> rfl
  · intro h
    cases address <;> cases h <;> rfl

/-- A conversion to an entity address fails exactly on the values that are not addresses, with
    an `InvalidKind` that expects the three address kinds and finds the value's. -/
theorem EntityAddress.tryFromValue_eq_error_iff {value : Value} {error : InvalidKind} :
    EntityAddress.tryFromValue value = .error error ↔
      (∀ address, Value.tryFromEntityAddress address ≠ .ok value) ∧
        error = ⟨[.componentAddress, .resourceAddress, .packageAddress], value.kind⟩ := by
  constructor
  · intro h
    refine ⟨fun address h' => ?_, ?_⟩
    · rw [← EntityAddress.tryFromValue_eq_ok_iff, h] at h'
      cases h'
    · cases value <;> first | exact (Except.error.inj h).symm | cases h
  · rintro ⟨hnot, rfl⟩
    cases value with
    | componentAddress a => exact absurd rfl (hnot (.componentAddress a))
    | resourceAddress a => exact absurd rfl (hnot (.resourceAddress a))
    | packageAddress a => exact absurd rfl (hnot (.packageAddress a))
    | _ => rfl
