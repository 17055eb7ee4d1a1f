set_option autoImplicit false

/-! # The Scrypto types a toolkit `Value` carries

The leaves of a `Value` (`value.rs`) hold types that come from Scrypto and from the toolkit's
address and identifier modules: raw entity addresses and their network-aware wrappers, decimals,
hashes, keys and signatures, non-fungible ids, manifest expressions and blobs, owned nodes and
transient bucket/proof identifiers. No function of `value.rs` looks inside one of these payloads:
it copies them, compares them, and hands them to external codecs. They are modelled by the data
they hold, so that equality means what it means in Rust; the codecs are parameters of the
conversions that use them (`Manifest/Ast.lean`). -/

/-! ## Addresses -/

/-- Scrypto's raw `PackageAddress`: the bytes of the entity's node id. -/
structure PackageAddress where
  bytes : List UInt8
  deriving DecidableEq, Repr

/-- Scrypto's raw `ComponentAddress`. -/
structure ComponentAddress where
  bytes : List UInt8
  deriving DecidableEq, Repr

/-- Scrypto's raw `ResourceAddress`. -/
structure ResourceAddress where
  bytes : List UInt8
  deriving DecidableEq, Repr

/-- A package address with the network it belongs to. The wire form keeps only `address`. -/
structure NetworkAwarePackageAddress where
  networkId : UInt8
  address : PackageAddress
  deriving DecidableEq, Repr

/-- A component address with the network it belongs to. -/
structure NetworkAwareComponentAddress where
  networkId : UInt8
  address : ComponentAddress
  deriving DecidableEq, Repr

/-- A resource address with the network it belongs to. -/
structure NetworkAwareResourceAddress where
  networkId : UInt8
  address : ResourceAddress
  deriving DecidableEq, Repr

/-! ## Numbers, hashes, keys and signatures -/

/-- Scrypto's `Decimal`: a 256-bit signed integer read with 18 decimal places. -/
structure Decimal where
  raw : Int
  deriving DecidableEq, Repr

/-- Scrypto's `PreciseDecimal`: a 512-bit signed integer read with 64 decimal places. -/
structure PreciseDecimal where
  raw : Int
  deriving DecidableEq, Repr

/-- A 32-byte SHA256 hash. -/
structure Hash where
  bytes : List UInt8
  deriving DecidableEq, Repr

/-- A 33-byte compressed ECDSA Secp256k1 public key. -/
structure EcdsaSecp256k1PublicKey where
  bytes : List UInt8
  deriving DecidableEq, Repr

/-- A 65-byte ECDSA Secp256k1 signature `[v, r, s]`. -/
structure EcdsaSecp256k1Signature where
  bytes : List UInt8
  deriving DecidableEq, Repr

/-- A 32-byte EdDSA Ed25519 public key. -/
structure EddsaEd25519PublicKey where
  bytes : List UInt8
  deriving DecidableEq, Repr

/-- A 64-byte EdDSA Ed25519 signature. -/
structure EddsaEd25519Signature where
  bytes : List UInt8
  deriving DecidableEq, Repr

/-! ## Non-fungibles, manifest-only values and transient identifiers -/

/-- Scrypto's `NonFungibleLocalId`, by its canonical encoding. -/
structure NonFungibleLocalId where
  bytes : List UInt8
  deriving DecidableEq, Repr

/-- The toolkit's `NonFungibleGlobalId`: a network-aware resource address and a local id. -/
structure NonFungibleGlobalId where
  resourceAddress : NetworkAwareResourceAddress
  nonFungibleLocalId : NonFungibleLocalId
  deriving DecidableEq, Repr

/-- Scrypto's `Own`, a reference to an owned node, by its encoding. -/
structure Own where
  bytes : List UInt8
  deriving DecidableEq, Repr

/-- Scrypto's `ManifestExpression`. -/
inductive ManifestExpression where
  | entireWorktop
  | entireAuthZone
  deriving DecidableEq, Repr

/-- Scrypto's `ManifestBlobRef`: the hash of a blob attached to the transaction. -/
structure ManifestBlobRef where
  hash : Hash
  deriving DecidableEq, Repr

/-- The toolkit's `TransientIdentifier`: a bucket or proof is named by a string or a number. -/
inductive TransientIdentifier where
  | string (value : String)
  | u32 (value : UInt32)
  deriving DecidableEq, Repr

/-- The toolkit's `BucketId`, a newtype over `TransientIdentifier`. -/
structure BucketId where
  identifier : TransientIdentifier
  deriving DecidableEq, Repr

/-- The toolkit's `ProofId`, a newtype over `TransientIdentifier`. -/
structure ProofId where
  identifier : TransientIdentifier
  deriving DecidableEq, Repr

/-- Scrypto's wire bucket identifier `ManifestBucket(u32)`. -/
structure ManifestBucket where
  id : UInt32
  deriving DecidableEq, Repr

/-- Scrypto's wire proof identifier `ManifestProof(u32)`. -/
structure ManifestProof where
  id : UInt32
  deriving DecidableEq, Repr

/-! ## Enum discriminators -/

/-- Modelled from the spec: `enum_discriminator.rs` is not among the sources. The variant of an
    `Enum` value is a number, built by `value.rs` as `EnumDiscriminator::U8`, or a name that is
    resolved to a number through the table of well-known discriminators. -/
inductive EnumDiscriminator where
  | string (discriminator : String)
  | u8 (discriminator : UInt8)
  deriving DecidableEq, Repr

/-- The manifest crate's `KNOWN_ENUM_DISCRIMINATORS`, a table from well-known variant names to
    their numbers. `to_scrypto_value` reads four of its entries with
    `expect("Should never fail!")`; that they are present is part of the table's type. -/
structure KnownEnumDiscriminators where
  get : String → Option UInt8
  optionSome : (get "Option::Some").isSome
  optionNone : (get "Option::None").isSome
  resultOk : (get "Result::Ok").isSome
  resultErr : (get "Result::Err").isSome

/-- A table holding just the four entries `to_scrypto_value` reads, with `None` and `Ok` as
    variant 0 and `Some` and `Err` as variant 1. -/
def KnownEnumDiscriminators.optionAndResult : KnownEnumDiscriminators where
  get
    | "Option::None" => .some 0
    | "Option::Some" => .some 1
    | "Result::Ok" => .some 0
    | "Result::Err" => .some 1
    | _ => .none
  optionSome := rfl
  optionNone := rfl
  resultOk := rfl
  resultErr := rfl
