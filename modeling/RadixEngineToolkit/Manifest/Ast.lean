import RadixEngineToolkit.Model.Value

set_option autoImplicit false

/-! # The manifest's value syntax and the codecs around it

`to_ast_value` and `from_ast_value` (`value.rs`) translate between the toolkit's `Value` and the
manifest compiler's `ast::Value`, the syntax tree of one instruction argument. The manifest crate
is not among the sources, so its two types are modelled from their use: `Ast.Value` has exactly
the constructors that `from_ast_value` matches without a wildcard, and `Ast.AstType` those that
`From<ast::Type> for ValueKind` matches. Every domain-specific literal is a constructor applied to
a boxed child, normally a string: `Decimal("1.5")`, `Bucket(3u32)`, `Own("...")`.

The leaves are rendered and read by external codecs: `Display` and `FromStr` of Scrypto's
numbers, hashes, keys, signatures and local ids, hex, and the bech32 coder for addresses and
canonical non-fungible global ids. They are parameters (`Literals`, `Bech32Coder`); what the round
trips need of them is stated once, as `Literals.Lawful` and `Bech32Coder.Lawful`. A small
codec built from an injective character encoding (`Literals.bytewise`, `Bech32Coder.bytewise`)
shows that these laws can be met. -/

/-! ## Syntax -/

/-- The manifest's `ast::Type`, the declared element type of an array literal and the key and
    value types of a map literal (`Type` is a keyword in Lean). It has no `Map` and no
    `Some`/`None`/`Ok`/`Err`. -/
inductive Ast.AstType where
  | bool
  | i8 | i16 | i32 | i64 | i128
  | u8 | u16 | u32 | u64 | u128
  | string
  | enum
  | array | tuple
  | decimal | preciseDecimal
  | packageAddress | componentAddress | resourceAddress
  | hash
  | ecdsaSecp256k1PublicKey | ecdsaSecp256k1Signature
  | eddsaEd25519PublicKey | eddsaEd25519Signature
  | bucket | proof
  | nonFungibleLocalId | nonFungibleGlobalId
  | blob | expression | bytes | own
  deriving DecidableEq, Repr

/-- The manifest's `ast::Value`. A map literal holds its keys and values in one flat list,
    key, value, key, ... -/
inductive Ast.Value where
  | bool (value : Bool)
  | i8 (value : BitVec 8)
  | i16 (value : BitVec 16)
  | i32 (value : BitVec 32)
  | i64 (value : BitVec 64)
  | i128 (value : BitVec 128)
  | u8 (value : UInt8)
  | u16 (value : UInt16)
  | u32 (value : UInt32)
  | u64 (value : UInt64)
  | u128 (value : BitVec 128)
  | string (value : String)
  | enum (variant : UInt8) (fields : List Ast.Value)
  | some (value : Ast.Value)
  | none
  | ok (value : Ast.Value)
  | err (value : Ast.Value)
  | map (keyValueKind valueValueKind : Ast.AstType) (entries : List Ast.Value)
  | array (astType : Ast.AstType) (elements : List Ast.Value)
  | tuple (elements : List Ast.Value)
  | decimal (value : Ast.Value)
  | preciseDecimal (value : Ast.Value)
  | packageAddress (address : Ast.Value)
  | resourceAddress (address : Ast.Value)
  | componentAddress (address : Ast.Value)
  | hash (value : Ast.Value)
  | bucket (value : Ast.Value)
  | proof (value : Ast.Value)
  | nonFungibleLocalId (value : Ast.Value)
  | nonFungibleGlobalId (value : Ast.Value)
  | blob (value : Ast.Value)
  | expression (value : Ast.Value)
  | ecdsaSecp256k1PublicKey (value : Ast.Value)
  | ecdsaSecp256k1Signature (value : Ast.Value)
  | eddsaEd25519PublicKey (value : Ast.Value)
  | eddsaEd25519Signature (value : Ast.Value)
  | bytes (value : Ast.Value)
  | own (value : Ast.Value)
  deriving Repr

/-- Modelled from the spec: the manifest crate's `Value::value_kind` is not among the sources.
    Every literal has the type it is named after; the sum-type literals are enums and a map
    literal is an array, as `From<ValueKind> for ast::Type` classifies the toolkit's kinds. -/
def Ast.Value.valueKind : Ast.Value → Ast.AstType
  | .bool _ => .bool
  | .i8 _ => .i8
  | .i16 _ => .i16
  | .i32 _ => .i32
  | .i64 _ => .i64
  | .i128 _ => .i128
  | .u8 _ => .u8
  | .u16 _ => .u16
  | .u32 _ => .u32
  | .u64 _ => .u64
  | .u128 _ => .u128
  | .string _ => .string
  | .enum _ _ | .some _ | .none | .ok _ | .err _ => .enum
  | .map _ _ _ | .array _ _ => .array
  | .tuple _ => .tuple
  | .decimal _ => .decimal
  | .preciseDecimal _ => .preciseDecimal
  | .packageAddress _ => .packageAddress
  | .resourceAddress _ => .resourceAddress
  | .componentAddress _ => .componentAddress
  | .hash _ => .hash
  | .bucket _ => .bucket
  | .proof _ => .proof
  | .nonFungibleLocalId _ => .nonFungibleLocalId
  | .nonFungibleGlobalId _ => .nonFungibleGlobalId
  | .blob _ => .blob
  | .expression _ => .expression
  | .ecdsaSecp256k1PublicKey _ => .ecdsaSecp256k1PublicKey
  | .ecdsaSecp256k1Signature _ => .ecdsaSecp256k1Signature
  | .eddsaEd25519PublicKey _ => .eddsaEd25519PublicKey
  | .eddsaEd25519Signature _ => .eddsaEd25519Signature
  | .bytes _ => .bytes
  | .own _ => .own

/-- The literals whose children `from_ast_value` converts recursively: enums, options, results,
    maps, arrays and tuples. The box of a domain-specific literal is only inspected. -/
def Ast.Value.isContainer : Ast.Value → Bool
  | .enum _ _ | .some _ | .ok _ | .err _ | .map _ _ _ | .array _ _ | .tuple _ => true
  | _ => false

/-! ## Traversal -/

mutual
/-- The nodes `from_ast_value` visits: the literal itself, then the nodes of the children it
    converts, left to right. -/
def Ast.Value.nodes : Ast.Value → List Ast.Value
  | a@(.enum _ fields) => a :: Ast.Value.nodesOfList fields
  | a@(.some value) => a :: value.nodes
  | a@(.ok value) => a :: value.nodes
  | a@(.err value) => a :: value.nodes
  | a@(.map _ _ entries) => a :: Ast.Value.nodesOfList entries
  | a@(.array _ elements) => a :: Ast.Value.nodesOfList elements
  | a@(.tuple elements) => a :: Ast.Value.nodesOfList elements
  | a => [a]
/-- The nodes of a list of literals. -/
def Ast.Value.nodesOfList : List Ast.Value → List Ast.Value
  | [] => []
  | a :: as => a.nodes ++ Ast.Value.nodesOfList as
end

section Induction

variable {motive : Ast.Value → Prop}
  (henum : ∀ variant fields, (∀ f ∈ fields, motive f) → motive (.enum variant fields))
  (hsome : ∀ value, motive value → motive (.some value))
  (hok : ∀ value, motive value → motive (.ok value))
  (herr : ∀ value, motive value → motive (.err value))
  (hmap : ∀ keyType valueType entries, (∀ e ∈ entries, motive e) →
    motive (.map keyType valueType entries))
  (harray : ∀ astType elements, (∀ e ∈ elements, motive e) → motive (.array astType elements))
  (htuple : ∀ elements, (∀ e ∈ elements, motive e) → motive (.tuple elements))
  (hleaf : ∀ a, a.isContainer = false → motive a)

include henum hsome hok herr hmap harray htuple hleaf

set_option linter.unusedSectionVars false in
mutual
/-- Induction over literals along the children `from_ast_value` converts. -/
theorem Ast.Value.induction (a : Ast.Value) : motive a := by
  cases a with
  | enum variant fields => exact henum variant fields (Ast.Value.induction_list fields)
  | some value => exact hsome value (Ast.Value.induction value)
  | ok value => exact hok value (Ast.Value.induction value)
  | err value => exact herr value (Ast.Value.induction value)
  | map keyType valueType entries =>
    exact hmap keyType valueType entries (Ast.Value.induction_list entries)
  | array astType elements => exact harray astType elements (Ast.Value.induction_list elements)
  | tuple elements => exact htuple elements (Ast.Value.induction_list elements)
  | _ => exact hleaf _ rfl
theorem Ast.Value.induction_list : ∀ l : List Ast.Value, ∀ a ∈ l, motive a
  | [] => by simp
  | a :: as => by
    simp only [List.mem_cons, forall_eq_or_imp]
    exact ⟨Ast.Value.induction a, Ast.Value.induction_list as⟩
end

end Induction

/-- The children `from_ast_value` converts. -/
def Ast.Value.children : Ast.Value → List Ast.Value
  | .enum _ fields | .map _ _ fields | .array _ fields | .tuple fields => fields
  | .some value | .ok value | .err value => [value]
  | _ => []

@[simp]
theorem Ast.Value.mem_nodesOfList {w : Ast.Value} {l : List Ast.Value} :
    w ∈ Ast.Value.nodesOfList l ↔ ∃ a ∈ l, w ∈ a.nodes := by
  induction l with
  | nil => simp only [Ast.Value.nodesOfList, List.not_mem_nil, false_and, exists_false]
  | cons a as ih =>
    simp only [Ast.Value.nodesOfList, List.mem_append, ih, List.mem_cons, exists_eq_or_imp]

theorem Ast.Value.nodes_eq (a : Ast.Value) : a.nodes = a :: Ast.Value.nodesOfList a.children := by
  cases a with
  | some value | ok value | err value => exact congrArg _ (List.append_nil _).symm
  | _ => rfl

theorem Ast.Value.children_eq_nil {a : Ast.Value} (ha : a.isContainer = false) :
    a.children = [] := by
  cases a with
  | enum | some | ok | err | map | array | tuple => cases ha
  | _ => rfl

/-- A property holds at every node `from_ast_value` visits. -/
def Ast.Value.Every (p : Ast.Value → Prop) (a : Ast.Value) : Prop :=
  ∀ w ∈ a.nodes, p w

section Every

variable {p : Ast.Value → Prop}

theorem Ast.Value.every_iff (a : Ast.Value) :
    a.Every p ↔ p a ∧ ∀ c ∈ a.children, c.Every p := by
  simp only [Ast.Value.Every, Ast.Value.nodes_eq a, List.mem_cons, forall_eq_or_imp,
    Ast.Value.mem_nodesOfList]
  exact and_congr_right fun _ =>
    ⟨fun h c hc w hw => h w ⟨c, hc, hw⟩, fun h w ⟨c, hc, hw⟩ => h c hc w hw⟩

@[simp]
theorem Ast.Value.every_enum {variant : UInt8} {fields : List Ast.Value} :
    (Ast.Value.enum variant fields).Every p ↔
      p (.enum variant fields) ∧ ∀ f ∈ fields, f.Every p :=
  Ast.Value.every_iff _

@[simp]
theorem Ast.Value.every_some {value : Ast.Value} :
    (Ast.Value.some value).Every p ↔ p (.some value) ∧ value.Every p :=
  (Ast.Value.every_iff _).trans (and_congr_right fun _ => List.forall_mem_singleton)

@[simp]
theorem Ast.Value.every_ok {value : Ast.Value} :
    (Ast.Value.ok value).Every p ↔ p (.ok value) ∧ value.Every p :=
  (Ast.Value.every_iff _).trans (and_congr_right fun _ => List.forall_mem_singleton)

@[simp]
theorem Ast.Value.every_err {value : Ast.Value} :
    (Ast.Value.err value).Every p ↔ p (.err value) ∧ value.Every p :=
  (Ast.Value.every_iff _).trans (and_congr_right fun _ => List.forall_mem_singleton)

@[simp]
theorem Ast.Value.every_map {keyType valueType : Ast.AstType} {entries : List Ast.Value} :
    (Ast.Value.map keyType valueType entries).Every p ↔
      p (.map keyType valueType entries) ∧ ∀ e ∈ entries, e.Every p :=
  Ast.Value.every_iff _

@[simp]
theorem Ast.Value.every_array {astType : Ast.AstType} {elements : List Ast.Value} :
    (Ast.Value.array astType elements).Every p ↔
      p (.array astType elements) ∧ ∀ e ∈ elements, e.Every p :=
  Ast.Value.every_iff _

@[simp]
theorem Ast.Value.every_tuple {elements : List Ast.Value} :
    (Ast.Value.tuple elements).Every p ↔ p (.tuple elements) ∧ ∀ e ∈ elements, e.Every p :=
  Ast.Value.every_iff _

theorem Ast.Value.every_of_leaf {a : Ast.Value} (ha : a.isContainer = false) :
    a.Every p ↔ p a := by
  simp [Ast.Value.every_iff a, Ast.Value.children_eq_nil ha]

end Every

/-- The keys of a flat map entry list (even positions) have type `keyType` and the values (odd
    positions) type `valueType`. -/
def Ast.EntriesTyped (keyType valueType : Ast.AstType) : List Ast.Value → Prop
  | [] => True
  | [key] => key.valueKind = keyType
  | key :: value :: entries =>
    key.valueKind = keyType ∧ value.valueKind = valueType ∧
      Ast.EntriesTyped keyType valueType entries

/-- The node-local half of well-typedness: an array literal's elements have its declared type and
    a map literal's keys and values theirs. -/
def Ast.Value.TypesAgree : Ast.Value → Prop
  | .array astType elements => ∀ e ∈ elements, e.valueKind = astType
  | .map keyType valueType entries => Ast.EntriesTyped keyType valueType entries
  | _ => True

/-- At every depth, the elements of each array literal and the keys and values of each map
    literal have the declared `ast::Type`s. -/
def Ast.Value.WellTyped (a : Ast.Value) : Prop :=
  a.Every Ast.Value.TypesAgree

/-- No `Own` literal is among the nodes `from_ast_value` visits. -/
def Ast.Value.OwnFree (a : Ast.Value) : Prop :=
  a.Every fun w => w.valueKind ≠ .own

/-! ## Codecs -/

/-- An external literal codec: a type's `Display` and `FromStr`. -/
structure LiteralCodec (α : Type) where
  display : α → String
  parse : String → Except Error α

/-- The codec's parser reads back what its printer writes. -/
def LiteralCodec.Lawful {α : Type} (codec : LiteralCodec α) : Prop :=
  ∀ x, codec.parse (codec.display x) = .ok x

/-- The external codecs that the leaves of `to_ast_value` and `from_ast_value` go through. -/
structure Literals where
  decimal : LiteralCodec Decimal
  preciseDecimal : LiteralCodec PreciseDecimal
  hash : LiteralCodec Hash
  ecdsaSecp256k1PublicKey : LiteralCodec EcdsaSecp256k1PublicKey
  ecdsaSecp256k1Signature : LiteralCodec EcdsaSecp256k1Signature
  eddsaEd25519PublicKey : LiteralCodec EddsaEd25519PublicKey
  eddsaEd25519Signature : LiteralCodec EddsaEd25519Signature
  nonFungibleLocalId : LiteralCodec NonFungibleLocalId
  /-- The crate function `hex::encode`. -/
  hexEncode : List UInt8 → String
  /-- The crate function `hex::decode`. -/
  hexDecode : String → Except Error (List UInt8)
  /-- The conversion `ManifestBlobRef::try_from` of the decoded bytes of a blob literal. -/
  blobTryFrom : List UInt8 → Except Error ManifestBlobRef
  /-- The debug rendering of an `Own`, the text `to_ast_value` writes for it. -/
  ownDebug : Own → String

/-- The toolkit's `Bech32Coder`: the network it encodes for and decodes from, the bech32 address
    codec of that network, and Scrypto's `NonFungibleGlobalId::try_from_canonical_string` run
    with the coder's decoder. -/
structure Bech32Coder where
  networkId : UInt8
  encodePackageAddress : PackageAddress → String
  encodeComponentAddress : ComponentAddress → String
  encodeResourceAddress : ResourceAddress → String
  decodePackageAddress : String → Except Error PackageAddress
  decodeComponentAddress : String → Except Error ComponentAddress
  decodeResourceAddress : String → Except Error ResourceAddress
  nonFungibleGlobalIdFromCanonicalString :
    String → Except Error (ResourceAddress × NonFungibleLocalId)

/-- Modelled from the spec: `Bech32Coder` is not among the sources. Its decoder for network-aware
    addresses is the bech32 decoder of the coder's network, and tags what it decodes with the
    coder's network id, as `from_ast_value` does by hand for a non-fungible global id. -/
def Bech32Coder.decodeToNetworkAwarePackageAddress (c : Bech32Coder) (addressString : String) :
    Except Error NetworkAwarePackageAddress :=
  (fun address => ⟨c.networkId, address⟩) <$> c.decodePackageAddress addressString

/-- The component-address decoder, tagging with the coder's network id. -/
def Bech32Coder.decodeToNetworkAwareComponentAddress (c : Bech32Coder) (addressString : String) :
    Except Error NetworkAwareComponentAddress :=
  (fun address => ⟨c.networkId, address⟩) <$> c.decodeComponentAddress addressString

/-- The resource-address decoder, tagging with the coder's network id. -/
def Bech32Coder.decodeToNetworkAwareResourceAddress (c : Bech32Coder) (addressString : String) :
    Except Error NetworkAwareResourceAddress :=
  (fun address => ⟨c.networkId, address⟩) <$> c.decodeResourceAddress addressString

/-- What the text round trips need of the literal codecs: each parser reads back what its printer
    writes, hex decoding undoes hex encoding, and the printed hash of a blob decodes to the blob. -/
structure Literals.Lawful (lits : Literals) : Prop where
  decimal : lits.decimal.Lawful
  preciseDecimal : lits.preciseDecimal.Lawful
  hash : lits.hash.Lawful
  ecdsaSecp256k1PublicKey : lits.ecdsaSecp256k1PublicKey.Lawful
  ecdsaSecp256k1Signature : lits.ecdsaSecp256k1Signature.Lawful
  eddsaEd25519PublicKey : lits.eddsaEd25519PublicKey.Lawful
  eddsaEd25519Signature : lits.eddsaEd25519Signature.Lawful
  nonFungibleLocalId : lits.nonFungibleLocalId.Lawful
  hex : ∀ bytes, lits.hexDecode (lits.hexEncode bytes) = .ok bytes
  blob : ∀ h, (lits.hexDecode (lits.hash.display h) >>= lits.blobTryFrom) = .ok ⟨h⟩

/-- What the text round trips need of a coder: each decoder reads back what its encoder writes,
    and a global id printed as `to_ast_value` prints it (resource address, a colon, local id)
    parses back. -/
structure Bech32Coder.Lawful (c : Bech32Coder) (lits : Literals) : Prop where
  packageAddress : ∀ a, c.decodePackageAddress (c.encodePackageAddress a) = .ok a
  componentAddress : ∀ a, c.decodeComponentAddress (c.encodeComponentAddress a) = .ok a
  resourceAddress : ∀ a, c.decodeResourceAddress (c.encodeResourceAddress a) = .ok a
  nonFungibleGlobalId : ∀ r id, c.nonFungibleGlobalIdFromCanonicalString
    (c.encodeResourceAddress r ++ ":" ++ lits.nonFungibleLocalId.display id) = .ok (r, id)

/-! ## A lawful codec -/

/-- Bytes as the characters `U+0100 + b`, none of which is the colon of a canonical global id. -/
def ByteString.encode (bytes : List UInt8) : String :=
  String.mk (bytes.map fun b => Char.ofNat (b.toNat + 256))

/-- The inverse of `ByteString.encode`. -/
def ByteString.decode (s : String) : List UInt8 :=
  s.toList.map fun ch => UInt8.ofNat (ch.toNat - 256)

theorem ByteString.toNat_encode_char (b : UInt8) :
    (Char.ofNat (b.toNat + 256)).toNat = b.toNat + 256 := by
  have : b.toNat + 256 < 0xd800 := by have : b.toNat < 256 := b.val.isLt; omega
  simp [Char.ofNat, Char.ofNatAux, Nat.isValidChar, this, Char.toNat, UInt32.toNat]

@[simp]
theorem ByteString.decode_encode (bytes : List UInt8) :
    ByteString.decode (ByteString.encode bytes) = bytes := by
  have hb (b : UInt8) : UInt8.ofNat b.toNat = b :=
    UInt8.eq_of_val_eq (by simp [UInt8.val, UInt8.toNat, UInt8.ofNat])
  simp [ByteString.decode, ByteString.encode, String.toList, Function.comp_def,
    ByteString.toNat_encode_char, hb]

theorem ByteString.span_encode (bytes : List UInt8) (rest : List Char) :
    ((ByteString.encode bytes).toList ++ ':' :: rest).span (· != ':') =
      ((ByteString.encode bytes).toList, ':' :: rest) := by
  have hne (b : UInt8) : Char.ofNat (b.toNat + 256) ≠ ':' := fun h => by
    have := congrArg Char.toNat h
    rw [ByteString.toNat_encode_char, show (':' : Char).toNat = 58 from rfl] at this
    omega
  rw [List.span_eq_take_drop, List.takeWhile_append_of_pos, List.dropWhile_append_of_pos]
  · simp [List.takeWhile_cons, List.dropWhile_cons]
  all_goals simp [ByteString.encode, String.toList, hne]

/-- Integers by their sign and, in unary, their magnitude. -/
def IntString.encode : Int → String
  | .ofNat n => String.mk ('+' :: List.replicate n '1')
  | .negSucc n => String.mk ('-' :: List.replicate n '1')

/-- The inverse of `IntString.encode`; every string reads as some integer. -/
def IntString.decode (s : String) : Int :=
  match s.toList with
  | '-' :: digits => .negSucc digits.length
  | _ :: digits => .ofNat digits.length
  | [] => 0

@[simp]
theorem IntString.decode_encode (i : Int) : IntString.decode (IntString.encode i) = i := by
  cases i <;> simp [IntString.decode, IntString.encode, String.toList]

/-- A codec for a type held as bytes, through `ByteString`. -/
def LiteralCodec.bytewise {α : Type} (toBytes : α → List UInt8) (ofBytes : List UInt8 → α) :
    LiteralCodec α :=
  ⟨fun x => ByteString.encode (toBytes x), fun s => .ok (ofBytes (ByteString.decode s))⟩

theorem LiteralCodec.bytewise_lawful {α : Type} {toBytes : α → List UInt8}
    {ofBytes : List UInt8 → α} (h : ∀ x, ofBytes (toBytes x) = x) :
    (LiteralCodec.bytewise toBytes ofBytes).Lawful := by
  simp [LiteralCodec.Lawful, LiteralCodec.bytewise, h]

/-- Literal codecs whose parsers never fail. -/
def Literals.bytewise : Literals where
  decimal := ⟨fun d => IntString.encode d.raw, fun s => .ok ⟨IntString.decode s⟩⟩
  preciseDecimal := ⟨fun d => IntString.encode d.raw, fun s => .ok ⟨IntString.decode s⟩⟩
  hash := .bytewise Hash.bytes Hash.mk
  ecdsaSecp256k1PublicKey := .bytewise EcdsaSecp256k1PublicKey.bytes EcdsaSecp256k1PublicKey.mk
  ecdsaSecp256k1Signature := .bytewise EcdsaSecp256k1Signature.bytes EcdsaSecp256k1Signature.mk
  eddsaEd25519PublicKey := .bytewise EddsaEd25519PublicKey.bytes EddsaEd25519PublicKey.mk
  eddsaEd25519Signature := .bytewise EddsaEd25519Signature.bytes EddsaEd25519Signature.mk
  nonFungibleLocalId := .bytewise NonFungibleLocalId.bytes NonFungibleLocalId.mk
  hexEncode := ByteString.encode
  hexDecode s := .ok (ByteString.decode s)
  blobTryFrom bytes := .ok ⟨⟨bytes⟩⟩
  ownDebug own := ByteString.encode own.bytes

theorem Literals.bytewise_lawful : Literals.bytewise.Lawful where
  decimal _ := by simp [Literals.bytewise]
  preciseDecimal _ := by simp [Literals.bytewise]
  hash := LiteralCodec.bytewise_lawful fun _ => rfl
  ecdsaSecp256k1PublicKey := LiteralCodec.bytewise_lawful fun _ => rfl
  ecdsaSecp256k1Signature := LiteralCodec.bytewise_lawful fun _ => rfl
  eddsaEd25519PublicKey := LiteralCodec.bytewise_lawful fun _ => rfl
  eddsaEd25519Signature := LiteralCodec.bytewise_lawful fun _ => rfl
  nonFungibleLocalId := LiteralCodec.bytewise_lawful fun _ => rfl
  hex _ := by simp [Literals.bytewise]
  blob _ := by simp [Literals.bytewise, LiteralCodec.bytewise, bind, Except.bind]

/-- A coder for network `networkId` whose decoders never fail: an address is its bytes, and a
    canonical global id is split at its first colon. -/
def Bech32Coder.bytewise (networkId : UInt8) : Bech32Coder where
  networkId := networkId
  encodePackageAddress a := ByteString.encode a.bytes
  encodeComponentAddress a := ByteString.encode a.bytes
  encodeResourceAddress a := ByteString.encode a.bytes
  decodePackageAddress s := .ok ⟨ByteString.decode s⟩
  decodeComponentAddress s := .ok ⟨ByteString.decode s⟩
  decodeResourceAddress s := .ok ⟨ByteString.decode s⟩
  nonFungibleGlobalIdFromCanonicalString s :=
    let (resourceAddress, localId) := s.toList.span (· != ':')
    .ok (⟨ByteString.decode (String.mk resourceAddress)⟩,
      ⟨ByteString.decode (String.mk (localId.drop 1))⟩)

theorem Bech32Coder.bytewise_lawful (networkId : UInt8) :
    (Bech32Coder.bytewise networkId).Lawful Literals.bytewise where
  packageAddress _ := by simp [Bech32Coder.bytewise]
  componentAddress _ := by simp [Bech32Coder.bytewise]
  resourceAddress _ := by simp [Bech32Coder.bytewise]
  nonFungibleGlobalId r id := by
    have hs : (ByteString.encode r.bytes ++ ":" ++ ByteString.encode id.bytes).toList =
        (ByteString.encode r.bytes).toList ++ ':' :: (ByteString.encode id.bytes).toList := by
      simp [String.toList]
    have he (bytes : List UInt8) : String.mk (ByteString.encode bytes).data =
        ByteString.encode bytes := rfl
    simp only [Bech32Coder.bytewise, Literals.bytewise, LiteralCodec.bytewise, hs,
      ByteString.span_encode]
    simp [String.toList, he]
