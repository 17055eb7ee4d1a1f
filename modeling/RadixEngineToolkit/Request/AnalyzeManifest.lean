import RadixEngineToolkit.Model.Scrypto
import Mathlib.Data.Finset.Basic

set_option autoImplicit false

/-! # The components a manifest analysis encounters

`AnalyzeManifestWithPreviewContextHandler` (`analyze_manifest_with_preview_context.rs`) reports
the component addresses a manifest mentions in seven sets, one per kind of component: user
applications, accounts, identities, clocks, epoch managers, validators and access controllers.
`From<BTreeSet<NetworkAwareComponentAddress>> for EncounteredComponents` sorts them in one loop
over the set, with an accumulator per kind, choosing the accumulator by the variant of Scrypto's
`ComponentAddress`: the three account variants all go to `accounts` and the three identity
variants to `identities`.

Scrypto's `ComponentAddress` of this version is an enum with one variant per entity type; the
model's address keeps only its bytes, so the variant is a parameter. The loop's input is the
set's elements in iteration order, and an accumulator, which only receives insertions, is a
`Finset`. One step lemma says what an insertion does to each set; by induction over the loop,
the seven sets partition the input: each holds exactly the input's addresses of its kind, and
every address is in exactly one of them (`EncounteredComponents.ofComponentAddresses_partition`).
-/

/-! ## Variants and kinds -/

/-- The variants of Scrypto's `ComponentAddress` that the conversion matches on. -/
inductive ComponentAddressVariant where
  | normal
  | account
  | ecdsaSecp256k1VirtualAccount
  | eddsaEd25519VirtualAccount
  | identity
  | ecdsaSecp256k1VirtualIdentity
  | eddsaEd25519VirtualIdentity
  | clock
  | epochManager
  | validator
  | accessController
  deriving DecidableEq, Repr

/-- The seven sets of `EncounteredComponents`, named after their fields. -/
inductive ComponentKind where
  | userApplications
  | accounts
  | identities
  | clocks
  | epochManagers
  | validators
  | accessController
  deriving DecidableEq, Repr

/-- The set an address of each variant belongs in. -/
def ComponentAddressVariant.kind : ComponentAddressVariant → ComponentKind
  | .normal => .userApplications
  | .account | .ecdsaSecp256k1VirtualAccount | .eddsaEd25519VirtualAccount => .accounts
  | .identity | .ecdsaSecp256k1VirtualIdentity | .eddsaEd25519VirtualIdentity => .identities
  | .clock => .clocks
  | .epochManager => .epochManagers
  | .validator => .validators
  | .accessController => .accessController

/-! ## The conversion -/

/-- `EncounteredComponents`. -/
structure EncounteredComponents where
  userApplications : Finset NetworkAwareComponentAddress
  accounts : Finset NetworkAwareComponentAddress
  identities : Finset NetworkAwareComponentAddress
  clocks : Finset NetworkAwareComponentAddress
  epochManagers : Finset NetworkAwareComponentAddress
  validators : Finset NetworkAwareComponentAddress
  accessController : Finset NetworkAwareComponentAddress

/-- The seven `BTreeSet::new()`s the conversion starts from. -/
def EncounteredComponents.empty : EncounteredComponents := ⟨∅, ∅, ∅, ∅, ∅, ∅, ∅⟩

/-- The set of one kind. -/
def EncounteredComponents.get (components : EncounteredComponents) :
    ComponentKind → Finset NetworkAwareComponentAddress
  | .userApplications => components.userApplications
  | .accounts => components.accounts
  | .identities => components.identities
  | .clocks => components.clocks
  | .epochManagers => components.epochManagers
  | .validators => components.validators
  | .accessController => components.accessController

section Conversion

variable (variant : ComponentAddress → ComponentAddressVariant)

/-- The loop's body: the `match` on the address's variant and the insertion it makes. -/
def EncounteredComponents.insertAddress (components : EncounteredComponents)
    (address : NetworkAwareComponentAddress) : EncounteredComponents :=
  match variant address.address with
  | .normal => { components with userApplications := insert address components.userApplications }
  | .account | .ecdsaSecp256k1VirtualAccount | .eddsaEd25519VirtualAccount =>
    { components with accounts := insert address components.accounts }
  | .identity | .ecdsaSecp256k1VirtualIdentity | .eddsaEd25519VirtualIdentity =>
    { components with identities := insert address components.identities }
  | .clock => { components with clocks := insert address components.clocks }
  | .epochManager => { components with epochManagers := insert address components.epochManagers }
  | .validator => { components with validators := insert address components.validators }
  | .accessController =>
    { components with accessController := insert address components.accessController }

/-- `From<BTreeSet<NetworkAwareComponentAddress>> for EncounteredComponents`, over the set's
    elements in iteration order. -/
def EncounteredComponents.ofComponentAddresses (value : List NetworkAwareComponentAddress) :
    EncounteredComponents :=
  value.foldl (EncounteredComponents.insertAddress variant) .empty

end Conversion

/-! ## The partition -/

section Partition

variable {variant : ComponentAddress → ComponentAddressVariant}

/-- One insertion adds the address to the set of its variant's kind and changes no other set. -/
theorem EncounteredComponents.get_insertAddress (components : EncounteredComponents)
    (address : NetworkAwareComponentAddress) (kind : ComponentKind) :
    (components.insertAddress variant address).get kind =
      if (variant address.address).kind = kind then insert address (components.get kind)
      else components.get kind := by
  unfold EncounteredComponents.insertAddress
  cases variant address.address <;> cases kind <;> rfl

/-- The loop adds to each set the addresses of its kind, and nothing else. -/
theorem EncounteredComponents.get_foldl_insertAddress
    (value : List NetworkAwareComponentAddress) :
    ∀ (components : EncounteredComponents) kind,
      (value.foldl (EncounteredComponents.insertAddress variant) components).get kind =
        components.get kind ∪
          (value.filter fun a => (variant a.address).kind = kind).toFinset := by
  induction value with
  | nil => exact fun _ _ => (Finset.union_empty _).symm
  | cons address value ih =>
    intro components kind
    rw [List.foldl_cons, ih, EncounteredComponents.get_insertAddress, List.filter_cons]
    by_cases h : (variant address.address).kind = kind
    · simp only [h, ↓reduceIte, decide_True, List.toFinset_cons, Finset.insert_union,
        Finset.union_insert]
    · simp only [h, ↓reduceIte, decide_False, Bool.false_eq_true]

/-- Each set holds the input's addresses of its kind. -/
theorem EncounteredComponents.get_ofComponentAddresses (value : List NetworkAwareComponentAddress)
    (kind : ComponentKind) :
    (EncounteredComponents.ofComponentAddresses variant value).get kind =
      (value.filter fun a => (variant a.address).kind = kind).toFinset := by
  rw [EncounteredComponents.ofComponentAddresses, EncounteredComponents.get_foldl_insertAddress]
  cases kind <;> exact Finset.empty_union _

/-- **The encountered components partition the input.** Each of the seven sets holds exactly the
    input's addresses of its kind, so every address of the input is in exactly one set, the one
    its variant selects, and no set holds an address the input does not; inputs with the same
    addresses, in whatever order and however repeated, give the same sets. -/
theorem EncounteredComponents.ofComponentAddresses_partition
    (value : List NetworkAwareComponentAddress) :
    (∀ kind address,
      address ∈ (EncounteredComponents.ofComponentAddresses variant value).get kind ↔
        address ∈ value ∧ (variant address.address).kind = kind) ∧
    (∀ address ∈ value, ∃! kind,
      address ∈ (EncounteredComponents.ofComponentAddresses variant value).get kind) ∧
    ∀ value' : List NetworkAwareComponentAddress,
      (∀ address, address ∈ value ↔ address ∈ value') → ∀ kind,
        (EncounteredComponents.ofComponentAddresses variant value).get kind =
          (EncounteredComponents.ofComponentAddresses variant value').get kind := by
  have hmem : ∀ (value : List NetworkAwareComponentAddress) kind address,
      address ∈ (EncounteredComponents.ofComponentAddresses variant value).get kind ↔
        address ∈ value ∧ (variant address.address).kind = kind := fun value kind address => by
    simp only [EncounteredComponents.get_ofComponentAddresses, List.mem_toFinset,
      List.mem_filter, decide_eq_true_eq]
  refine ⟨hmem value, fun address ha => ⟨(variant address.address).kind,
    (hmem _ _ _).2 ⟨ha, rfl⟩, fun kind hk => ((hmem _ _ _).1 hk).2.symm⟩,
    fun value' hsame kind => Finset.ext fun address => ?_⟩
  rw [hmem, hmem, hsame]

end Partition
