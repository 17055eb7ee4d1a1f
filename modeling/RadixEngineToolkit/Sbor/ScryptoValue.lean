import RadixEngineToolkit.Model.Scrypto

set_option autoImplicit false

/-! # Scrypto's SBOR values

The wire form of a toolkit value is Scrypto's `ScryptoValue`: the SBOR value tree over Scrypto's
custom kinds, which the external codec turns into bytes. Its sixteen custom leaves are the
Scrypto types of `Model/Scrypto.lean`; the wire has no kinds of its own for options, results,
byte strings or non-fungible global ids. Every node has a value kind, `ScryptoValue.valueKind`,
and arrays and maps declare the kinds of their elements; `ScryptoValue.WellKinded` says that the
declarations hold at every depth. The traversal and the induction principle follow
`Model/Value.lean`. -/

/-- Scrypto's `ScryptoCustomValueKind`. -/
inductive ScryptoCustomValueKind where
  | packageAddress | componentAddress | resourceAddress
  | own
  | bucket | proof
  | expression | blob
  | hash
  | ecdsaSecp256k1PublicKey | ecdsaSecp256k1Signature
  | eddsaEd25519PublicKey | eddsaEd25519Signature
  | decimal | preciseDecimal
  | nonFungibleLocalId
  deriving DecidableEq, Repr

/-- Scrypto's `ScryptoValueKind`, SBOR's value kinds over the custom kinds. -/
inductive ScryptoValueKind where
  | bool
  | i8 | i16 | i32 | i64 | i128
  | u8 | u16 | u32 | u64 | u128
  | string
  | enum | array | tuple | map
  | custom (kind : ScryptoCustomValueKind)
  deriving DecidableEq, Repr

/-- Scrypto's `ScryptoCustomValue`. -/
inductive ScryptoCustomValue where
  | packageAddress (address : PackageAddress)
  | componentAddress (address : ComponentAddress)
  | resourceAddress (address : ResourceAddress)
  | own (value : Own)
  | bucket (identifier : ManifestBucket)
  | proof (identifier : ManifestProof)
  | expression (value : ManifestExpression)
  | blob (value : ManifestBlobRef)
  | hash (value : Hash)
  | ecdsaSecp256k1PublicKey (value : EcdsaSecp256k1PublicKey)
  | ecdsaSecp256k1Signature (value : EcdsaSecp256k1Signature)
  | eddsaEd25519PublicKey (value : EddsaEd25519PublicKey)
  | eddsaEd25519Signature (value : EddsaEd25519Signature)
  | decimal (value : Decimal)
  | preciseDecimal (value : PreciseDecimal)
  | nonFungibleLocalId (value : NonFungibleLocalId)
  deriving DecidableEq, Repr

/-- Scrypto's `ScryptoValue`, an SBOR value tree. -/
inductive ScryptoValue where
  | bool (value : Bool)
  | i8 (value : BitVec 8)
  | i16 (value : BitVec 16)
  | i32 (value : BitVec 32)
  | i64 (value : BitVec 64)
  | i128 (value : BitVec 128)
  | u8 (value : UInt8)
  | u16 (value : UInt16)
  | u32 (value : UInt32)
  | u64 (value : UInt64)
  | u128 (value : BitVec 128)
  | string (value : String)
  | enum (discriminator : UInt8) (fields : List ScryptoValue)
  | array (elementValueKind : ScryptoValueKind) (elements : List ScryptoValue)
  | tuple (fields : List ScryptoValue)
  | map (keyValueKind valueValueKind : ScryptoValueKind)
      (entries : List (ScryptoValue × ScryptoValue))
  | custom (value : ScryptoCustomValue)
  deriving Repr

/-- The custom kind of a custom value. -/
def ScryptoCustomValue.valueKind : ScryptoCustomValue → ScryptoCustomValueKind
  | .packageAddress _ => .packageAddress
  | .componentAddress _ => .componentAddress
  | .resourceAddress _ => .resourceAddress
  | .own _ => .own
  | .bucket _ => .bucket
  | .proof _ => .proof
  | .expression _ => .expression
  | .blob _ => .blob
  | .hash _ => .hash
  | .ecdsaSecp256k1PublicKey _ => .ecdsaSecp256k1PublicKey
  | .ecdsaSecp256k1Signature _ => .ecdsaSecp256k1Signature
  | .eddsaEd25519PublicKey _ => .eddsaEd25519PublicKey
  | .eddsaEd25519Signature _ => .eddsaEd25519Signature
  | .decimal _ => .decimal
  | .preciseDecimal _ => .preciseDecimal
  | .nonFungibleLocalId _ => .nonFungibleLocalId

/-- The SBOR value kind of a node: the kind of its constructor. -/
def ScryptoValue.valueKind : ScryptoValue → ScryptoValueKind
  | .bool _ => .bool
  | .i8 _ => .i8
  | .i16 _ => .i16
  | .i32 _ => .i32
  | .i64 _ => .i64
  | .i128 _ => .i128
  | .u8 _ => .u8
  | .u16 _ => .u16
  | .u32 _ => .u32
  | .u64 _ => .u64
  | .u128 _ => .u128
  | .string _ => .string
  | .enum _ _ => .enum
  | .array _ _ => .array
  | .tuple _ => .tuple
  | .map _ _ _ => .map
  | .custom value => .custom value.valueKind

/-- Whether a node may hold child values. -/
def ScryptoValue.isContainer : ScryptoValue → Bool
  | .enum _ _ | .array _ _ | .tuple _ | .map _ _ _ => true
  | _ => false

/-! ## Traversal -/

mutual
/-- Every node of an SBOR value, the value itself first. -/
def ScryptoValue.nodes : ScryptoValue → List ScryptoValue
  | s@(.enum _ fields) => s :: ScryptoValue.nodesOfList fields
  | s@(.array _ elements) => s :: ScryptoValue.nodesOfList elements
  | s@(.tuple fields) => s :: ScryptoValue.nodesOfList fields
  | s@(.map _ _ entries) => s :: ScryptoValue.nodesOfEntries entries
  | s => [s]
/-- The nodes of a list of SBOR values. -/
def ScryptoValue.nodesOfList : List ScryptoValue → List ScryptoValue
  | [] => []
  | s :: ss => s.nodes ++ ScryptoValue.nodesOfList ss
/-- The nodes of a list of SBOR map entries. -/
def ScryptoValue.nodesOfEntries : List (ScryptoValue × ScryptoValue) → List ScryptoValue
  | [] => []
  | (k, v) :: es => k.nodes ++ v.nodes ++ ScryptoValue.nodesOfEntries es
end

section Induction

variable {motive : ScryptoValue → Prop}
  (henum : ∀ discriminator fields, (∀ f ∈ fields, motive f) →
    motive (.enum discriminator fields))
  (harray : ∀ kind elements, (∀ e ∈ elements, motive e) → motive (.array kind elements))
  (htuple : ∀ fields, (∀ f ∈ fields, motive f) → motive (.tuple fields))
  (hmap : ∀ keyKind valueKind entries, (∀ e ∈ entries, motive e.1 ∧ motive e.2) →
    motive (.map keyKind valueKind entries))
  (hleaf : ∀ s, s.isContainer = false → motive s)

include henum harray htuple hmap hleaf

set_option linter.unusedSectionVars false in
mutual
/-- Induction over SBOR value trees: one case per container, one for all leaves. -/
theorem ScryptoValue.induction (s : ScryptoValue) : motive s := by
  cases s with
  | enum discriminator fields => exact henum _ fields (ScryptoValue.induction_list fields)
  | array kind elements => exact harray kind elements (ScryptoValue.induction_list elements)
  | tuple fields => exact htuple fields (ScryptoValue.induction_list fields)
  | map keyKind valueKind entries =>
    exact hmap keyKind valueKind entries (ScryptoValue.induction_entries entries)
  | _ => exact hleaf _ rfl
theorem ScryptoValue.induction_list : ∀ l : List ScryptoValue, ∀ s ∈ l, motive s
  | [] => by simp
  | s :: ss => by
    simp only [List.mem_cons, forall_eq_or_imp]
    exact ⟨ScryptoValue.induction s, ScryptoValue.induction_list ss⟩
theorem ScryptoValue.induction_entries :
    ∀ l : List (ScryptoValue × ScryptoValue), ∀ e ∈ l, motive e.1 ∧ motive e.2
  | [] => by simp
  | (k, v) :: es => by
    simp only [List.mem_cons, forall_eq_or_imp]
    exact ⟨⟨ScryptoValue.induction k, ScryptoValue.induction v⟩,
      ScryptoValue.induction_entries es⟩
end

end Induction

/-- The children of a node, left to right; a map's entries are read key, value, key, ... -/
def ScryptoValue.children : ScryptoValue → List ScryptoValue
  | .enum _ fields | .tuple fields => fields
  | .array _ elements => elements
  | .map _ _ entries => entries.flatMap fun e => [e.1, e.2]
  | _ => []

@[simp]
theorem ScryptoValue.mem_nodesOfList {w : ScryptoValue} {l : List ScryptoValue} :
    w ∈ ScryptoValue.nodesOfList l ↔ ∃ s ∈ l, w ∈ s.nodes := by
  induction l with
  | nil => simp only [ScryptoValue.nodesOfList, List.not_mem_nil, false_and, exists_false]
  | cons s ss ih =>
    simp only [ScryptoValue.nodesOfList, List.mem_append, ih, List.mem_cons, exists_eq_or_imp]

theorem ScryptoValue.nodesOfEntries_eq (l : List (ScryptoValue × ScryptoValue)) :
    ScryptoValue.nodesOfEntries l = ScryptoValue.nodesOfList (l.flatMap fun e => [e.1, e.2]) := by
  induction l with
  | nil => rfl
  | cons e es ih =>
    simp only [ScryptoValue.nodesOfEntries, ih, List.flatMap_cons, List.append_assoc]
    rfl

theorem ScryptoValue.nodes_eq (s : ScryptoValue) :
    s.nodes = s :: ScryptoValue.nodesOfList s.children := by
  cases s with
  | map keyKind valueKind entries =>
    exact congrArg _ (ScryptoValue.nodesOfEntries_eq entries)
  | _ => rfl

theorem ScryptoValue.children_eq_nil {s : ScryptoValue} (hs : s.isContainer = false) :
    s.children = [] := by
  cases s with
  | enum | array | tuple | map => cases hs
  | _ => rfl

/-- A property holds at every node of an SBOR value. -/
def ScryptoValue.Every (p : ScryptoValue → Prop) (s : ScryptoValue) : Prop :=
  ∀ w ∈ s.nodes, p w

section Every

variable {p : ScryptoValue → Prop}

theorem ScryptoValue.every_iff (s : ScryptoValue) :
    s.Every p ↔ p s ∧ ∀ c ∈ s.children, c.Every p := by
  simp only [ScryptoValue.Every, ScryptoValue.nodes_eq s, List.mem_cons, forall_eq_or_imp,
    ScryptoValue.mem_nodesOfList]
  exact and_congr_right fun _ =>
    ⟨fun h c hc w hw => h w ⟨c, hc, hw⟩, fun h w ⟨c, hc, hw⟩ => h c hc w hw⟩

@[simp]
theorem ScryptoValue.every_enum {discriminator : UInt8} {fields : List ScryptoValue} :
    (ScryptoValue.enum discriminator fields).Every p ↔
      p (.enum discriminator fields) ∧ ∀ f ∈ fields, f.Every p :=
  ScryptoValue.every_iff _

@[simp]
theorem ScryptoValue.every_array {kind : ScryptoValueKind} {elements : List ScryptoValue} :
    (ScryptoValue.array kind elements).Every p ↔
      p (.array kind elements) ∧ ∀ e ∈ elements, e.Every p :=
  ScryptoValue.every_iff _

@[simp]
theorem ScryptoValue.every_tuple {fields : List ScryptoValue} :
    (ScryptoValue.tuple fields).Every p ↔ p (.tuple fields) ∧ ∀ f ∈ fields, f.Every p :=
  ScryptoValue.every_iff _

@[simp]
theorem ScryptoValue.every_map {keyKind valueKind : ScryptoValueKind}
    {entries : List (ScryptoValue × ScryptoValue)} :
    (ScryptoValue.map keyKind valueKind entries).Every p ↔
      p (.map keyKind valueKind entries) ∧ ∀ e ∈ entries, e.1.Every p ∧ e.2.Every p := by
  refine (ScryptoValue.every_iff _).trans (and_congr_right fun _ => ?_)
  show (∀ c ∈ entries.flatMap fun e => [e.1, e.2], c.Every p) ↔ _
  simp only [List.mem_flatMap, List.mem_cons, List.mem_singleton, List.not_mem_nil, or_false]
  constructor
  · exact fun hc e he => ⟨hc _ ⟨e, he, .inl rfl⟩, hc _ ⟨e, he, .inr rfl⟩⟩
  · rintro he c ⟨e, hmem, rfl | rfl⟩
    · exact (he e hmem).1
    · exact (he e hmem).2

theorem ScryptoValue.every_of_leaf {s : ScryptoValue} (hs : s.isContainer = false) :
    s.Every p ↔ p s := by
  simp [ScryptoValue.every_iff s, ScryptoValue.children_eq_nil hs]

end Every

/-- The node-local half of SBOR well-kindedness: an array's elements and a map's keys and values
    have the declared value kinds. -/
def ScryptoValue.KindsAgree : ScryptoValue → Prop
  | .array elementValueKind elements => ∀ e ∈ elements, e.valueKind = elementValueKind
  | .map keyValueKind valueValueKind entries =>
    ∀ e ∈ entries, e.1.valueKind = keyValueKind ∧ e.2.valueKind = valueValueKind
  | _ => True

/-- At every depth, each array element has the array's `element_value_kind` and each map
    key/value the map's declared key/value kind. -/
def ScryptoValue.WellKinded (s : ScryptoValue) : Prop :=
  s.Every ScryptoValue.KindsAgree

theorem ScryptoValue.wellKinded_of_leaf {s : ScryptoValue} (hs : s.isContainer = false) :
    s.WellKinded :=
  (ScryptoValue.every_of_leaf hs).2 (by cases s <;> trivial)
