import RadixEngineToolkit.Model.Scrypto
import Mathlib.Data.List.Forall2

set_option autoImplicit false

/-! # The toolkit's value model

`Value` is the tagged union of `value.rs` through which the toolkit accepts and returns every
value, and `ValueKind` the parallel enumeration of its tags. A value is a tree: enums, options,
results, arrays, maps and tuples hold child values. The module gives the tree its traversal
`Value.nodes` (every node, the root first) and an induction principle `Value.induction` with one
case per container and one for all leaves, so that a property of whole trees is proved once per
kind of node. The properties the conversions are checked against are predicates on single nodes
lifted to trees by `Value.Every`:

* `Value.WellKinded`: each array element and map key/value has the declared kind (the invariant
  the doc comments of `Value::Array` and `Value::Map` announce);
* `Value.OnNetwork`: every address carries a given network id;
* `Value.OwnFree`: no `Own` node.

The conversions that can fail return `Except`; `from_ast_value`, which can also panic, and the
visitors return an `Outcome`, which keeps a panic apart from an error. Both get the bind lemmas
that let later proofs peel a `do` block without unfolding it. -/

/-! ## Lists related elementwise -/

@[simp]
theorem exists_exists_and_eq_self {α β : Type} {p : α → Prop} {f : α → β} :
    (∃ b, ∃ a, p a ∧ f a = b) ↔ ∃ a, p a :=
  ⟨fun ⟨_, a, h, _⟩ => ⟨a, h⟩, fun ⟨a, h⟩ => ⟨f a, a, h, rfl⟩⟩

theorem List.exists_forall₂_iff {α β : Type} {R : α → β → Prop} {l : List α} :
    (∃ l', List.Forall₂ R l l') ↔ ∀ a ∈ l, ∃ b, R a b := by
  induction l with
  | nil => exact ⟨fun _ => List.forall_mem_nil _, fun _ => ⟨[], .nil⟩⟩
  | cons a as ih =>
    simp only [List.mem_cons, forall_eq_or_imp, ← ih]
    constructor
    · rintro ⟨_ | ⟨b, bs⟩, h⟩
      · cases h
      · cases h with
        | cons hab hs => exact ⟨⟨b, hab⟩, ⟨bs, hs⟩⟩
    · rintro ⟨⟨b, hab⟩, ⟨bs, hs⟩⟩
      exact ⟨b :: bs, .cons hab hs⟩

theorem List.Forall₂.exists_mem_left {α β : Type} {R : α → β → Prop} {l : List α} {l' : List β}
    (h : List.Forall₂ R l l') {b : β} (hb : b ∈ l') : ∃ a ∈ l, R a b := by
  induction h with
  | nil => cases hb
  | cons hab _ ih =>
    rcases List.mem_cons.1 hb with rfl | hb
    · exact ⟨_, List.mem_cons_self _ _, hab⟩
    · obtain ⟨a, ha, hr⟩ := ih hb
      exact ⟨a, List.mem_cons_of_mem _ ha, hr⟩

theorem List.Forall₂.forall_right {α β : Type} {R : α → β → Prop} {Q : β → Prop} {l : List α}
    {l' : List β} (h : List.Forall₂ R l l') (hQ : ∀ a ∈ l, ∀ b, R a b → Q b) : ∀ b ∈ l', Q b :=
  fun _ hb => let ⟨a, ha, hr⟩ := h.exists_mem_left hb; hQ a ha _ hr

/-- Related images exist for a list of pairs exactly when they exist for each key and value. -/
theorem List.exists_forall₂_pair_iff {α β γ δ : Type} (R : α → γ → Prop) (S : β → δ → Prop)
    {l : List (α × β)} :
    (∃ l' : List (γ × δ), List.Forall₂ (fun e p => R e.1 p.1 ∧ S e.2 p.2) l l') ↔
      ∀ e ∈ l, (∃ c, R e.1 c) ∧ ∃ d, S e.2 d := by
  rw [List.exists_forall₂_iff]
  exact forall₂_congr fun _ _ =>
    ⟨fun ⟨_, h1, h2⟩ => ⟨⟨_, h1⟩, ⟨_, h2⟩⟩, fun ⟨⟨c, h1⟩, ⟨d, h2⟩⟩ => ⟨(c, d), h1, h2⟩⟩

/-- A relation carried along `Forall₂` backwards, changing it at the members of the left list. -/
theorem List.Forall₂.swap_of_mem {α β : Type} {R : α → β → Prop} {S : β → α → Prop} {l : List α}
    {l' : List β} (h : List.Forall₂ R l l') (hRS : ∀ a ∈ l, ∀ b, R a b → S b a) :
    List.Forall₂ S l' l := by
  induction h with
  | nil => exact .nil
  | cons hab _ ih =>
    simp only [List.mem_cons, forall_eq_or_imp] at hRS
    exact .cons (hRS.1 _ hab) (ih hRS.2)

theorem List.Forall₂.map_eq_left {α β : Type} {R : α → β → Prop} (g : β → α) {l : List α}
    {l' : List β} (h : List.Forall₂ R l l') (hg : ∀ a ∈ l, ∀ b, R a b → g b = a) :
    l'.map g = l := by
  induction h with
  | nil => rfl
  | cons hab _ ih =>
    simp only [List.map_cons, List.mem_cons, forall_eq_or_imp] at hg ⊢
    rw [hg.1 _ hab, ih hg.2]

/-! ## `Except` -/

@[simp]
theorem Except.bind_eq_ok_iff {ε α β : Type} {x : Except ε α} {f : α → Except ε β} {b : β} :
    x >>= f = .ok b ↔ ∃ a, x = .ok a ∧ f a = .ok b := by
  cases x <;> simp only [bind, Except.bind, reduceCtorEq, false_and, exists_false, Except.ok.injEq,
    exists_eq_left']

@[simp]
theorem Except.map_eq_ok_iff {ε α β : Type} {f : α → β} {x : Except ε α} {b : β} :
    f <$> x = .ok b ↔ ∃ a, x = .ok a ∧ f a = b := by
  cases x <;> simp only [Functor.map, Except.map, reduceCtorEq, false_and, exists_false,
    Except.ok.injEq, exists_eq_left']

@[simp]
theorem Except.pure_eq_ok_iff {ε α : Type} {a b : α} : (pure a : Except ε α) = .ok b ↔ a = b := by
  simp only [pure, Except.pure, Except.ok.injEq]

theorem Except.mapError_eq_ok_iff {ε ε' α : Type} {f : ε → ε'} {x : Except ε α} {a : α} :
    x.mapError f = .ok a ↔ x = .ok a := by
  cases x <;> simp [Except.mapError]

theorem Except.mapError_eq_error_iff {ε ε' α : Type} {f : ε → ε'} {x : Except ε α} {e : ε'} :
    x.mapError f = .error e ↔ ∃ e₀, x = .error e₀ ∧ f e₀ = e := by
  cases x <;> simp [Except.mapError]

theorem Except.bind_eq_error_iff {ε α β : Type} {x : Except ε α} {f : α → Except ε β} {e : ε} :
    x >>= f = .error e ↔ x = .error e ∨ ∃ a, x = .ok a ∧ f a = .error e := by
  cases x <;> simp [bind, Except.bind]

theorem Except.exists_ok_iff_not_error {ε α : Type} {x : Except ε α} :
    (∃ a, x = .ok a) ↔ ¬∃ e, x = .error e := by
  cases x <;> simp only [reduceCtorEq, exists_false, Except.error.injEq, exists_eq',
    not_true_eq_false, Except.ok.injEq, not_false_eq_true]

/-! ## Outcomes -/

/-- What a Rust function that may panic does: return `Ok`, return `Err`, or panic (at a
    `todo!()`, an index out of range or a `new_or_panic`). -/
inductive Outcome (ε α : Type) where
  | ok (value : α)
  | err (error : ε)
  | panic
  deriving Repr

/-- Rust's `?` on a result, which a panic ends as well. -/
def Outcome.bind {ε α β : Type} : Outcome ε α → (α → Outcome ε β) → Outcome ε β
  | .ok a, f => f a
  | .err e, _ => .err e
  | .panic, _ => .panic

instance {ε : Type} : Monad (Outcome ε) where
  pure := .ok
  bind := Outcome.bind

/-- A `Result` as an outcome. -/
def Outcome.ofExcept {ε α : Type} : Except ε α → Outcome ε α
  | .ok a => .ok a
  | .error e => .err e

section Outcome

variable {ε α β : Type}

@[simp]
theorem Outcome.ok_bind (a : α) (f : α → Outcome ε β) : Outcome.ok a >>= f = f a := rfl

@[simp]
theorem Outcome.err_bind (e : ε) (f : α → Outcome ε β) : Outcome.err e >>= f = .err e := rfl

@[simp]
theorem Outcome.panic_bind (f : α → Outcome ε β) : Outcome.panic >>= f = .panic := rfl

@[simp]
theorem Outcome.map_eq_bind (f : α → β) (x : Outcome ε α) : f <$> x = x >>= fun a => .ok (f a) :=
  rfl

@[simp]
theorem Outcome.pure_eq_ok (a : α) : (pure a : Outcome ε α) = .ok a := rfl

@[simp]
theorem Outcome.bind_eq_ok_iff {x : Outcome ε α} {f : α → Outcome ε β} {b : β} :
    x >>= f = .ok b ↔ ∃ a, x = .ok a ∧ f a = .ok b := by
  cases x <;> simp only [Outcome.ok_bind, Outcome.err_bind, Outcome.panic_bind, reduceCtorEq,
    Outcome.ok.injEq, exists_eq_left', false_and, exists_false]

@[simp]
theorem Outcome.ofExcept_ok (a : α) : Outcome.ofExcept (.ok a : Except ε α) = .ok a :=
  rfl

@[simp]
theorem Outcome.ofExcept_eq_ok_iff {x : Except ε α} {a : α} :
    Outcome.ofExcept x = .ok a ↔ x = .ok a := by
  cases x <;> simp only [Outcome.ofExcept, reduceCtorEq, Outcome.ok.injEq, Except.ok.injEq]

@[simp]
theorem Outcome.ofExcept_ne_panic (x : Except ε α) : Outcome.ofExcept x ≠ .panic := by
  cases x <;> nofun

theorem Outcome.bind_ne_panic {x : Outcome ε α} {f : α → Outcome ε β} (hx : x ≠ .panic)
    (hf : ∀ a, f a ≠ .panic) : x >>= f ≠ .panic := by
  cases x with
  | ok a => exact hf a
  | err e => nofun
  | panic => exact absurd rfl hx

@[simp]
theorem Outcome.bind_eq_panic_iff {x : Outcome ε α} {f : α → Outcome ε β} :
    x >>= f = .panic ↔ x = .panic ∨ ∃ a, x = .ok a ∧ f a = .panic := by
  cases x <;> simp only [Outcome.ok_bind, Outcome.err_bind, Outcome.panic_bind, reduceCtorEq,
    Outcome.ok.injEq, exists_eq_left', false_or, false_and, exists_false, or_self, or_false]

end Outcome

/-! ## Kinds and errors -/

/-- The kinds of values the toolkit supports, `ValueKind` of `value.rs`. -/
inductive ValueKind where
  | bool
  | u8 | u16 | u32 | u64 | u128
  | i8 | i16 | i32 | i64 | i128
  | string
  | enum
  | some | none | ok | err
  | map | array | tuple
  | decimal | preciseDecimal
  | own
  | componentAddress | resourceAddress | packageAddress
  | hash
  | ecdsaSecp256k1PublicKey | ecdsaSecp256k1Signature
  | eddsaEd25519PublicKey | eddsaEd25519Signature
  | bucket | proof
  | nonFungibleLocalId | nonFungibleGlobalId
  | expression | blob | bytes
  deriving DecidableEq, Repr

/-- The manifest generator's errors; the toolkit wraps them with `Error::from`. -/
inductive GeneratorError where
  | oddNumberOfElements
  deriving DecidableEq, Repr

/-- The variants of the toolkit's `Error` that the conversions of `value.rs` construct.
    Errors of external codecs come from the codecs, which are parameters of the model. -/
inductive Error where
  | generatorError (error : GeneratorError)
  | unexpectedAstContents (parsing : ValueKind) (expected : List ValueKind) (found : ValueKind)
  | invalidExpressionString (found : String) (excepted : List String)
  | invalidEnumDiscriminator (discriminator : String)
  deriving DecidableEq, Repr

/-- Modelled from the spec: `resolve_discriminator` of `enum_discriminator.rs` is not among the
    sources. A numeric variant is its own number; a named one is looked up among the well-known
    discriminators. -/
def EnumDiscriminator.resolveDiscriminator (known : KnownEnumDiscriminators) :
    EnumDiscriminator → Except Error UInt8
  | .u8 discriminator => .ok discriminator
  | .string discriminator =>
    match known.get discriminator with
    | .some d => .ok d
    | .none => .error (.invalidEnumDiscriminator discriminator)

@[simp]
theorem EnumDiscriminator.resolveDiscriminator_u8 (known : KnownEnumDiscriminators) (d : UInt8) :
    (EnumDiscriminator.u8 d).resolveDiscriminator known = .ok d := rfl

/-! ## Values -/

/-- The toolkit's `Value` (`value.rs`), constructor for constructor. Signed integers are kept as
    their two's-complement bits. -/
inductive Value where
  | bool (value : Bool)
  | u8 (value : UInt8)
  | u16 (value : UInt16)
  | u32 (value : UInt32)
  | u64 (value : UInt64)
  | u128 (value : BitVec 128)
  | i8 (value : BitVec 8)
  | i16 (value : BitVec 16)
  | i32 (value : BitVec 32)
  | i64 (value : BitVec 64)
  | i128 (value : BitVec 128)
  | string (value : String)
  | enum (variant : EnumDiscriminator) (fields : Option (List Value))
  | some (value : Value)
  | none
  | ok (value : Value)
  | err (value : Value)
  | array (elementKind : ValueKind) (elements : List Value)
  | map (keyValueKind valueValueKind : ValueKind) (entries : List (Value × Value))
  | tuple (elements : List Value)
  | decimal (value : Decimal)
  | preciseDecimal (value : PreciseDecimal)
  | own (value : Own)
  | componentAddress (address : NetworkAwareComponentAddress)
  | resourceAddress (address : NetworkAwareResourceAddress)
  | packageAddress (address : NetworkAwarePackageAddress)
  | hash (value : Hash)
  | ecdsaSecp256k1PublicKey (publicKey : EcdsaSecp256k1PublicKey)
  | ecdsaSecp256k1Signature (signature : EcdsaSecp256k1Signature)
  | eddsaEd25519PublicKey (publicKey : EddsaEd25519PublicKey)
  | eddsaEd25519Signature (signature : EddsaEd25519Signature)
  | bucket (identifier : BucketId)
  | proof (identifier : ProofId)
  | nonFungibleLocalId (value : NonFungibleLocalId)
  | nonFungibleGlobalId (address : NonFungibleGlobalId)
  | expression (value : ManifestExpression)
  | blob (hash : ManifestBlobRef)
  | bytes (value : List UInt8)
  deriving Repr

/-- `Value::kind`: the tag of a value, read off its constructor alone. -/
def Value.kind : Value → ValueKind
  | .bool _ => .bool
  | .i8 _ => .i8
  | .i16 _ => .i16
  | .i32 _ => .i32
  | .i64 _ => .i64
  | .i128 _ => .i128
  | .u8 _ => .u8
  | .u16 _ => .u16
  | .u32 _ => .u32
  | .u64 _ => .u64
  | .u128 _ => .u128
  | .string _ => .string
  | .enum _ _ => .enum
  | .some _ => .some
  | .none => .none
  | .ok _ => .ok
  | .err _ => .err
  | .map _ _ _ => .map
  | .array _ _ => .array
  | .tuple _ => .tuple
  | .decimal _ => .decimal
  | .preciseDecimal _ => .preciseDecimal
  | .packageAddress _ => .packageAddress
  | .componentAddress _ => .componentAddress
  | .resourceAddress _ => .resourceAddress
  | .hash _ => .hash
  | .bucket _ => .bucket
  | .proof _ => .proof
  | .nonFungibleLocalId _ => .nonFungibleLocalId
  | .nonFungibleGlobalId _ => .nonFungibleGlobalId
  | .ecdsaSecp256k1PublicKey _ => .ecdsaSecp256k1PublicKey
  | .ecdsaSecp256k1Signature _ => .ecdsaSecp256k1Signature
  | .eddsaEd25519PublicKey _ => .eddsaEd25519PublicKey
  | .eddsaEd25519Signature _ => .eddsaEd25519Signature
  | .blob _ => .blob
  | .expression _ => .expression
  | .bytes _ => .bytes
  | .own _ => .own

/-- Whether a node may hold child values: an enum, an option or result with a payload, or one of
    the three containers. Every other constructor is a leaf. -/
def Value.isContainer : Value → Bool
  | .enum _ _ | .some _ | .ok _ | .err _ | .array _ _ | .map _ _ _ | .tuple _ => true
  | _ => false

/-! ## Traversal -/

mutual
/-- Every node of a value: the value itself, then the nodes of its children from left to right
    (for a map, each key before its value). -/
def Value.nodes : Value → List Value
  | v@(.enum _ (.some fields)) => v :: Value.nodesOfList fields
  | v@(.some value) => v :: value.nodes
  | v@(.ok value) => v :: value.nodes
  | v@(.err value) => v :: value.nodes
  | v@(.array _ elements) => v :: Value.nodesOfList elements
  | v@(.map _ _ entries) => v :: Value.nodesOfEntries entries
  | v@(.tuple elements) => v :: Value.nodesOfList elements
  | v => [v]
/-- The nodes of a list of values. -/
def Value.nodesOfList : List Value → List Value
  | [] => []
  | v :: vs => v.nodes ++ Value.nodesOfList vs
/-- The nodes of a list of map entries. -/
def Value.nodesOfEntries : List (Value × Value) → List Value
  | [] => []
  | (k, v) :: es => k.nodes ++ v.nodes ++ Value.nodesOfEntries es
end

section Induction

variable {motive : Value → Prop}
  (henum : ∀ variant fields, (∀ f ∈ fields.getD [], motive f) → motive (.enum variant fields))
  (hsome : ∀ value, motive value → motive (.some value))
  (hok : ∀ value, motive value → motive (.ok value))
  (herr : ∀ value, motive value → motive (.err value))
  (harray : ∀ kind elements, (∀ e ∈ elements, motive e) → motive (.array kind elements))
  (hmap : ∀ keyKind valueKind entries, (∀ e ∈ entries, motive e.1 ∧ motive e.2) →
    motive (.map keyKind valueKind entries))
  (htuple : ∀ elements, (∀ e ∈ elements, motive e) → motive (.tuple elements))
  (hleaf : ∀ v, v.isContainer = false → motive v)

include henum hsome hok herr harray hmap htuple hleaf

set_option linter.unusedSectionVars false in
mutual
/-- Induction over value trees: one case for each kind of node with children, whose hypothesis
    covers every child, and one case for all leaves. -/
theorem Value.induction (v : Value) : motive v := by
  cases v with
  | enum variant fields =>
    cases fields with
    | none => exact henum _ _ (by simp)
    | some fields => exact henum _ _ (Value.induction_list fields)
  | some value => exact hsome value (Value.induction value)
  | ok value => exact hok value (Value.induction value)
  | err value => exact herr value (Value.induction value)
  | array kind elements => exact harray kind elements (Value.induction_list elements)
  | map keyKind valueKind entries =>
    exact hmap keyKind valueKind entries (Value.induction_entries entries)
  | tuple elements => exact htuple elements (Value.induction_list elements)
  | _ => exact hleaf _ rfl
theorem Value.induction_list : ∀ l : List Value, ∀ v ∈ l, motive v
  | [] => by simp
  | v :: vs => by
    simp only [List.mem_cons, forall_eq_or_imp]
    exact ⟨Value.induction v, Value.induction_list vs⟩
theorem Value.induction_entries : ∀ l : List (Value × Value), ∀ e ∈ l, motive e.1 ∧ motive e.2
  | [] => by simp
  | (k, v) :: es => by
    simp only [List.mem_cons, forall_eq_or_imp]
    exact ⟨⟨Value.induction k, Value.induction v⟩, Value.induction_entries es⟩
end

end Induction

/-- The children of a node, left to right; a map's entries are read key, value, key, ... -/
def Value.children : Value → List Value
  | .enum _ fields => fields.getD []
  | .some value | .ok value | .err value => [value]
  | .array _ elements | .tuple elements => elements
  | .map _ _ entries => entries.flatMap fun e => [e.1, e.2]
  | _ => []

@[simp]
theorem Value.mem_nodesOfList {w : Value} {l : List Value} :
    w ∈ Value.nodesOfList l ↔ ∃ v ∈ l, w ∈ v.nodes := by
  induction l with
  | nil => simp only [Value.nodesOfList, List.not_mem_nil, false_and, exists_false]
  | cons v vs ih =>
    simp only [Value.nodesOfList, List.mem_append, ih, List.mem_cons, exists_eq_or_imp]

theorem Value.nodesOfEntries_eq (l : List (Value × Value)) :
    Value.nodesOfEntries l = Value.nodesOfList (l.flatMap fun e => [e.1, e.2]) := by
  induction l with
  | nil => rfl
  | cons e es ih =>
    obtain ⟨k, v⟩ := e
    simp only [Value.nodesOfEntries, ih, List.flatMap_cons, List.append_assoc]
    rfl

theorem Value.nodes_eq (v : Value) : v.nodes = v :: Value.nodesOfList v.children := by
  cases v with
  | enum variant fields => cases fields <;> rfl
  | some value | ok value | err value => exact congrArg _ (List.append_nil _).symm
  | map keyKind valueKind entries => exact congrArg _ (Value.nodesOfEntries_eq entries)
  | _ => rfl

theorem Value.children_eq_nil {v : Value} (hv : v.isContainer = false) : v.children = [] := by
  cases v with
  | enum | some | ok | err | array | map | tuple => cases hv
  | _ => rfl

/-! ## Node predicates -/

/-- A property holds at every node of a value. -/
def Value.Every (p : Value → Prop) (v : Value) : Prop :=
  ∀ w ∈ v.nodes, p w

section Every

variable {p : Value → Prop}

theorem Value.every_iff (v : Value) : v.Every p ↔ p v ∧ ∀ c ∈ v.children, c.Every p := by
  simp only [Value.Every, Value.nodes_eq v, List.mem_cons, forall_eq_or_imp, Value.mem_nodesOfList]
  exact and_congr_right fun _ =>
    ⟨fun h c hc w hw => h w ⟨c, hc, hw⟩, fun h w ⟨c, hc, hw⟩ => h c hc w hw⟩

theorem Value.Every.self {v : Value} (h : v.Every p) : p v :=
  ((Value.every_iff v).1 h).1

@[simp]
theorem Value.every_enum {variant : EnumDiscriminator} {fields : Option (List Value)} :
    (Value.enum variant fields).Every p ↔
      p (.enum variant fields) ∧ ∀ f ∈ fields.getD [], f.Every p :=
  Value.every_iff _

@[simp]
theorem Value.every_some {value : Value} :
    (Value.some value).Every p ↔ p (.some value) ∧ value.Every p :=
  (Value.every_iff _).trans (and_congr_right fun _ => List.forall_mem_singleton)

@[simp]
theorem Value.every_ok {value : Value} :
    (Value.ok value).Every p ↔ p (.ok value) ∧ value.Every p :=
  (Value.every_iff _).trans (and_congr_right fun _ => List.forall_mem_singleton)

@[simp]
theorem Value.every_err {value : Value} :
    (Value.err value).Every p ↔ p (.err value) ∧ value.Every p :=
  (Value.every_iff _).trans (and_congr_right fun _ => List.forall_mem_singleton)

@[simp]
theorem Value.every_array {kind : ValueKind} {elements : List Value} :
    (Value.array kind elements).Every p ↔
      p (.array kind elements) ∧ ∀ e ∈ elements, e.Every p :=
  Value.every_iff _

@[simp]
theorem Value.every_map {keyKind valueKind : ValueKind} {entries : List (Value × Value)} :
    (Value.map keyKind valueKind entries).Every p ↔
      p (.map keyKind valueKind entries) ∧ ∀ e ∈ entries, e.1.Every p ∧ e.2.Every p := by
  refine (Value.every_iff _).trans (and_congr_right fun _ => ?_)
  show (∀ c ∈ entries.flatMap fun e => [e.1, e.2], c.Every p) ↔ _
  simp only [List.mem_flatMap, List.mem_cons, List.mem_singleton, List.not_mem_nil, or_false]
  constructor
  · exact fun hc e he => ⟨hc _ ⟨e, he, .inl rfl⟩, hc _ ⟨e, he, .inr rfl⟩⟩
  · rintro he c ⟨e, hmem, rfl | rfl⟩
    · exact (he e hmem).1
    · exact (he e hmem).2

@[simp]
theorem Value.every_tuple {elements : List Value} :
    (Value.tuple elements).Every p ↔ p (.tuple elements) ∧ ∀ e ∈ elements, e.Every p :=
  Value.every_iff _

theorem Value.Every.mono {q : Value → Prop} {v : Value} (h : v.Every p) (hpq : ∀ w, p w → q w) :
    v.Every q :=
  fun w hw => hpq w (h w hw)

theorem Value.every_of_leaf {v : Value} (hv : v.isContainer = false) : v.Every p ↔ p v := by
  simp [Value.every_iff v, Value.children_eq_nil hv]

end Every

/-- The node-local half of well-kindedness: an array's elements and a map's keys and values have
    the declared kinds, after projecting kinds through `f`. With `f = id` this is the invariant
    of `Value::Array` and `Value::Map`; a coarser `f` states agreement up to the kinds the
    projection identifies. -/
def Value.KindsAgree {α : Type} (f : ValueKind → α) : Value → Prop
  | .array elementKind elements => ∀ e ∈ elements, f e.kind = f elementKind
  | .map keyValueKind valueValueKind entries =>
    ∀ e ∈ entries, f e.1.kind = f keyValueKind ∧ f e.2.kind = f valueValueKind
  | _ => True

/-- At every depth, each array element's `kind()` is the array's `element_kind` and each map
    key/value's is the map's `key_value_kind`/`value_value_kind`. -/
def Value.WellKinded (v : Value) : Prop :=
  v.Every (Value.KindsAgree id)

theorem Value.kindsAgree_of_leaf {α : Type} {f : ValueKind → α} {v : Value}
    (hv : v.isContainer = false) : v.KindsAgree f := by
  cases v <;> trivial

/-- The network ids of the addresses a node carries: the three address kinds and the resource
    address inside a non-fungible global id. -/
def Value.networkIds : Value → List UInt8
  | .componentAddress address => [address.networkId]
  | .resourceAddress address => [address.networkId]
  | .packageAddress address => [address.networkId]
  | .nonFungibleGlobalId address => [address.resourceAddress.networkId]
  | _ => []

/-- Every address node of a value carries network id `n`. -/
def Value.OnNetwork (n : UInt8) (v : Value) : Prop :=
  v.Every fun w => ∀ m ∈ w.networkIds, m = n

/-- A value has no `Own` node. -/
def Value.OwnFree (v : Value) : Prop :=
  v.Every fun w => w.kind ≠ .own

/-! ## Network ids -/

mutual
/-- The value with every address node moved to network `n`; nothing else changes. Two values
    that differ only in the network ids of their addresses have the same `withNetwork n`. -/
def Value.withNetwork (n : UInt8) : Value → Value
  | .enum variant (.some fields) => .enum variant (.some (Value.withNetworkList n fields))
  | .some value => .some (value.withNetwork n)
  | .ok value => .ok (value.withNetwork n)
  | .err value => .err (value.withNetwork n)
  | .array kind elements => .array kind (Value.withNetworkList n elements)
  | .map keyKind valueKind entries => .map keyKind valueKind (Value.withNetworkEntries n entries)
  | .tuple elements => .tuple (Value.withNetworkList n elements)
  | .componentAddress address => .componentAddress { address with networkId := n }
  | .resourceAddress address => .resourceAddress { address with networkId := n }
  | .packageAddress address => .packageAddress { address with networkId := n }
  | .nonFungibleGlobalId address =>
    .nonFungibleGlobalId
      { address with resourceAddress := { address.resourceAddress with networkId := n } }
  | v => v
/-- `withNetwork` on every element. -/
def Value.withNetworkList (n : UInt8) : List Value → List Value
  | [] => []
  | v :: vs => v.withNetwork n :: Value.withNetworkList n vs
/-- `withNetwork` on every key and value. -/
def Value.withNetworkEntries (n : UInt8) : List (Value × Value) → List (Value × Value)
  | [] => []
  | (k, v) :: es => (k.withNetwork n, v.withNetwork n) :: Value.withNetworkEntries n es
end

@[simp]
theorem Value.withNetworkList_eq (n : UInt8) (l : List Value) :
    Value.withNetworkList n l = l.map (Value.withNetwork n) := by
  induction l with
  | nil => rfl
  | cons v vs ih => simp [Value.withNetworkList, ih]

@[simp]
theorem Value.withNetworkEntries_eq (n : UInt8) (l : List (Value × Value)) :
    Value.withNetworkEntries n l = l.map fun e => (e.1.withNetwork n, e.2.withNetwork n) := by
  induction l with
  | nil => rfl
  | cons e es ih => simp [Value.withNetworkEntries, ih]

section WithNetwork

/-! The container arms of `withNetwork`, so that proofs rewrite with them and never unfold its
catch-all arm. -/

variable {n : UInt8}

@[simp]
theorem Value.withNetwork_enum {variant : EnumDiscriminator} {fields : List Value} :
    (Value.enum variant (.some fields)).withNetwork n =
      .enum variant (.some (Value.withNetworkList n fields)) := rfl

@[simp]
theorem Value.withNetwork_some {value : Value} :
    (Value.some value).withNetwork n = .some (value.withNetwork n) := rfl

@[simp]
theorem Value.withNetwork_ok {value : Value} :
    (Value.ok value).withNetwork n = .ok (value.withNetwork n) := rfl

@[simp]
theorem Value.withNetwork_err {value : Value} :
    (Value.err value).withNetwork n = .err (value.withNetwork n) := rfl

@[simp]
theorem Value.withNetwork_array {kind : ValueKind} {elements : List Value} :
    (Value.array kind elements).withNetwork n = .array kind (Value.withNetworkList n elements) :=
  rfl

@[simp]
theorem Value.withNetwork_map {keyKind valueKind : ValueKind} {entries : List (Value × Value)} :
    (Value.map keyKind valueKind entries).withNetwork n =
      .map keyKind valueKind (Value.withNetworkEntries n entries) := rfl

@[simp]
theorem Value.withNetwork_tuple {elements : List Value} :
    (Value.tuple elements).withNetwork n = .tuple (Value.withNetworkList n elements) := rfl

end WithNetwork

/-- `v` and `v'` differ at most in the network ids of their addresses. -/
def Value.SameUpToNetworks (v v' : Value) : Prop :=
  v.withNetwork 0 = v'.withNetwork 0

/-! ## Failing nodes -/

/-- An enum node whose variant does not resolve to a discriminator. -/
def Value.HasUnresolvableVariant (known : KnownEnumDiscriminators) : Value → Prop
  | .enum variant _ => ∃ e, variant.resolveDiscriminator known = .error e
  | _ => False
