import Mathlib.Algebra.Group.Nat.Basic

set_option autoImplicit false

/-! # Schema type ids in their serializable form

`local_type_id.rs` converts sbor's `LocalTypeId`, the id of a well-known type or an index into a
schema's own types held as a `usize`, to `SerializableLocalTypeId`, which holds the well-known id
as a `u8` and the index as a `u64`, and back. Every conversion of a number there is Rust's `as`,
which truncates or zero-extends to the target's width: `BitVec.setWidth`. A `usize` is as wide
as the target's pointers, 64 bits on the toolkit's native targets and 32 on `wasm32`, and at
least 16 bits on any target Rust supports; the width is a parameter `w`.

Every `LocalTypeId` comes back from its serializable form on a target whose `usize` has at most
64 bits, and a serializable index comes back from the native form exactly when it is below
`2 ^ w`: on a 32-bit target an index of `2 ^ 32` or more is silently truncated
(`SerializableLocalTypeId.roundTrip`). -/

/-- sbor's `WellKnownTypeId`, modelled from its use here: `of` makes one from a `u8`, and
    `as_index` gives it back as a `usize`. -/
structure WellKnownTypeId where
  id : BitVec 8
  deriving DecidableEq, Repr

/-- `WellKnownTypeId::of`. -/
def WellKnownTypeId.of (x : BitVec 8) : WellKnownTypeId := ⟨x⟩

/-- `WellKnownTypeId::as_index`: the id as a `usize` of width `w`. -/
def WellKnownTypeId.asIndex (w : Nat) (typeId : WellKnownTypeId) : BitVec w :=
  typeId.id.setWidth w

/-- sbor's `LocalTypeId`, over the width of `usize`. -/
inductive LocalTypeId (w : Nat) where
  | wellKnown (value : WellKnownTypeId)
  | schemaLocalIndex (value : BitVec w)
  deriving DecidableEq, Repr

/-- `SerializableLocalTypeId`; its `SerializableU8` and `SerializableU64` wrap a `u8` and a
    `u64`. -/
inductive SerializableLocalTypeId where
  | wellKnown (value : BitVec 8)
  | schemaLocalIndex (value : BitVec 64)
  deriving DecidableEq, Repr

/-- `From<LocalTypeId> for SerializableLocalTypeId`: `value as u64` and
    `value.as_index() as u8`. -/
def SerializableLocalTypeId.ofLocalTypeId {w : Nat} : LocalTypeId w → SerializableLocalTypeId
  | .schemaLocalIndex value => .schemaLocalIndex (value.setWidth 64)
  | .wellKnown value => .wellKnown ((value.asIndex w).setWidth 8)

/-- `From<SerializableLocalTypeId> for LocalTypeId`: `*value as usize` and
    `WellKnownTypeId::of(*value)`. -/
def LocalTypeId.ofSerializableLocalTypeId (w : Nat) : SerializableLocalTypeId → LocalTypeId w
  | .schemaLocalIndex value => .schemaLocalIndex (value.setWidth w)
  | .wellKnown value => .wellKnown (WellKnownTypeId.of value)

/-- A serializable id whose index, if it holds one, is below `2 ^ w`. -/
def SerializableLocalTypeId.FitsUsize (w : Nat) : SerializableLocalTypeId → Prop
  | .schemaLocalIndex value => value.toNat < 2 ^ w
  | .wellKnown _ => True

instance (w : Nat) : DecidablePred (SerializableLocalTypeId.FitsUsize w) := fun s =>
  match s with
  | .schemaLocalIndex value => inferInstanceAs (Decidable (value.toNat < 2 ^ w))
  | .wellKnown _ => instDecidableTrue

/-- Truncating a 64-bit number to `w` bits and extending it back gives the number exactly when
    it is below `2 ^ w`. -/
theorem BitVec.setWidth_setWidth_eq_iff {w : Nat} (x : BitVec 64) :
    (x.setWidth w).setWidth 64 = x ↔ x.toNat < 2 ^ w := by
  rw [BitVec.toNat_eq, BitVec.toNat_setWidth, BitVec.toNat_setWidth]
  constructor
  · intro h
    calc x.toNat = x.toNat % 2 ^ w % 2 ^ 64 := h.symm
      _ ≤ x.toNat % 2 ^ w := Nat.mod_le _ _
      _ < 2 ^ w := Nat.mod_lt _ (Nat.two_pow_pos w)
  · intro h
    rw [Nat.mod_eq_of_lt h, Nat.mod_eq_of_lt x.isLt]

/-- **Schema type ids round trip, up to the width of `usize`.** On a target whose `usize` has at
    least 16 bits, every `LocalTypeId` comes back from its serializable form when `usize` has at
    most 64 bits, and a serializable id comes back from the native form exactly when its index,
    if it holds one, is below `2 ^ w`. -/
theorem SerializableLocalTypeId.roundTrip {w : Nat} (hmin : 16 ≤ w) :
    (w ≤ 64 → ∀ typeId : LocalTypeId w,
      LocalTypeId.ofSerializableLocalTypeId w (.ofLocalTypeId typeId) = typeId) ∧
    ∀ s, SerializableLocalTypeId.ofLocalTypeId (LocalTypeId.ofSerializableLocalTypeId w s) = s ↔
      s.FitsUsize w := by
  have hwellKnown : ∀ x : BitVec 8, (x.setWidth w).setWidth 8 = x := fun x => by
    rw [BitVec.setWidth_setWidth_of_le x (by omega), BitVec.setWidth_eq]
  refine ⟨fun hmax typeId => ?_, fun s => ?_⟩
  · cases typeId with
    | wellKnown value =>
      exact congrArg (fun x => LocalTypeId.wellKnown ⟨x⟩) (hwellKnown value.id)
    | schemaLocalIndex value =>
      exact congrArg LocalTypeId.schemaLocalIndex
        ((BitVec.setWidth_setWidth_of_le value hmax).trans (BitVec.setWidth_eq value))
  · cases s with
    | wellKnown value =>
      exact iff_of_true (congrArg SerializableLocalTypeId.wellKnown (hwellKnown value)) trivial
    | schemaLocalIndex value =>
      exact (iff_of_eq (SerializableLocalTypeId.schemaLocalIndex.injEq _ _)).trans
        (BitVec.setWidth_setWidth_eq_iff value)

/-- On `wasm32`, the schema index `2 ^ 32` comes back as a different index. -/
theorem SerializableLocalTypeId.roundTrip_wasm32 :
    16 ≤ 32 ∧ SerializableLocalTypeId.ofLocalTypeId
      (LocalTypeId.ofSerializableLocalTypeId 32 (.schemaLocalIndex 4294967296#64)) ≠
        .schemaLocalIndex 4294967296#64 :=
  ⟨by decide, fun h => absurd (((@SerializableLocalTypeId.roundTrip 32 (by decide)).2
    (.schemaLocalIndex 4294967296#64)).1 h) (by decide)⟩
