import RadixEngineToolkit.Sbor.RoundTrip

set_option autoImplicit false

/-! # A value's SBOR payload

`Value::encode` (`value.rs`) writes a value as an SBOR payload: `to_scrypto_value`, then
Scrypto's `scrypto_encode`. `Value::decode` reads a payload back on a network: `scrypto_decode`,
then `from_scrypto_value`. Both turn the codec's errors into the toolkit's `Error` with its
`From` impls.

The codec is not among the sources; it is a parameter (`ScryptoCodec`), and the two laws a codec
may have are hypotheses of the results that need them. With a decoder that reads back what the
encoder writes, a value's payload decodes to the value exactly when the value is in the wire's
normal form; with an encoder that, in turn, writes back the payload the decoder read, every
payload that decodes encodes again to the same bytes (`Value.payload_roundTrip`). -/

/-! ## The codec -/

/-- Scrypto's `scrypto_encode` and `scrypto_decode` of a `ScryptoValue`, with their errors. -/
structure ScryptoCodec (ε δ : Type) where
  encode : ScryptoValue → Except ε (List UInt8)
  decode : List UInt8 → Except δ ScryptoValue

/-- The decoder reads back what the encoder writes. -/
def ScryptoCodec.Lawful {ε δ : Type} (codec : ScryptoCodec ε δ) : Prop :=
  ∀ s bytes, codec.encode s = .ok bytes → codec.decode bytes = .ok s

/-- The encoder writes back the payload the decoder read: a value has one payload. -/
def ScryptoCodec.Canonical {ε δ : Type} (codec : ScryptoCodec ε δ) : Prop :=
  ∀ bytes s, codec.decode bytes = .ok s → codec.encode s = .ok bytes

/-- A codec of booleans alone, one byte each. -/
def ScryptoCodec.booleans : ScryptoCodec Unit Unit where
  encode
    | .bool value => .ok [if value then 1 else 0]
    | _ => .error ()
  decode bytes :=
    if bytes = [1] then .ok (.bool true) else if bytes = [0] then .ok (.bool false) else .error ()

theorem ScryptoCodec.booleans_lawful : ScryptoCodec.booleans.Lawful := by
  intro s bytes h
  cases s with
  | bool value => cases value <;> cases h <;> rfl
  | _ => cases h

theorem ScryptoCodec.booleans_canonical : ScryptoCodec.booleans.Canonical := by
  intro bytes s h
  simp only [ScryptoCodec.booleans] at h
  split at h
  · cases h
    subst bytes
    rfl
  · split at h
    · cases h
      subst bytes
      rfl
    · cases h

/-- The toolkit's `Error` as `encode` and `decode` return it: an error of the conversion, or one
    the codec returned, which `Error::from` wraps. -/
inductive PayloadError (ε δ : Type) where
  | value (error : Error)
  | sborEncodeError (error : ε)
  | sborDecodeError (error : δ)
  deriving Repr

/-! ## Encoding and decoding -/

section Payload

variable {ε δ : Type} (known : KnownEnumDiscriminators) (ids : IdentifierConversions)
  (codec : ScryptoCodec ε δ)

/-- `Value::encode`. -/
def Value.encode (v : Value) : Except (PayloadError ε δ) (List UInt8) := do
  let scryptoValue ← (v.toScryptoValue known ids).mapError .value
  (codec.encode scryptoValue).mapError .sborEncodeError

/-- `Value::decode`. -/
def Value.decode (bytes : List UInt8) (networkId : UInt8) : Except (PayloadError ε δ) Value :=
  ((Value.fromScryptoValue · networkId) <$> codec.decode bytes).mapError .sborDecodeError

end Payload

section RoundTrip

variable {ε δ : Type} {known : KnownEnumDiscriminators} {ids : IdentifierConversions}
  {codec : ScryptoCodec ε δ}

theorem Value.encode_eq_ok_iff {v : Value} {bytes : List UInt8} :
    v.encode known ids codec = .ok bytes ↔
      ∃ s, v.toScryptoValue known ids = .ok s ∧ codec.encode s = .ok bytes := by
  simp only [Value.encode, Except.bind_eq_ok_iff, Except.mapError_eq_ok_iff]

theorem Value.decode_eq_ok_iff {bytes : List UInt8} {n : UInt8} {v : Value} :
    Value.decode codec bytes n = .ok v ↔
      ∃ s, codec.decode bytes = .ok s ∧ Value.fromScryptoValue s n = v := by
  simp only [Value.decode, Except.mapError_eq_ok_iff, Except.map_eq_ok_iff]

/-- **Payload round trips.** With numbered identifiers and a decoder that reads back what the
    encoder writes, the payload of a value decodes on network `n` to the value exactly when the
    value is in the wire's normal form for `n`; if the encoder also writes back the payload the
    decoder read, every payload that decodes encodes again to the same bytes. -/
theorem Value.payload_roundTrip (hids : ids.Numeric) (hcodec : codec.Lawful) (n : UInt8) :
    (∀ v bytes, v.encode known ids codec = .ok bytes →
      (Value.decode codec bytes n = .ok v ↔ v.WireCanonical n)) ∧
    (codec.Canonical → ∀ bytes v, Value.decode codec bytes n = .ok v →
      v.encode known ids codec = .ok bytes) := by
  refine ⟨fun v bytes h => ?_, fun hcanonical bytes v h => ?_⟩
  · obtain ⟨s, hs, hbytes⟩ := Value.encode_eq_ok_iff.1 h
    rw [Value.decode_eq_ok_iff]
    constructor
    · rintro ⟨s', hs', rfl⟩
      exact Value.wireCanonical_fromScryptoValue n s'
    · exact fun hv => ⟨s, hcodec s bytes hbytes,
        Value.fromScryptoValue_toScryptoValue_of_wireCanonical hids n v s hv hs⟩
  · obtain ⟨s, hs, rfl⟩ := Value.decode_eq_ok_iff.1 h
    exact Value.encode_eq_ok_iff.2
      ⟨s, Value.toScryptoValue_fromScryptoValue hids n s, hcanonical bytes s hs⟩

theorem Value.payload_roundTrip_booleans :
    IdentifierConversions.numbered.Numeric ∧ ScryptoCodec.booleans.Lawful ∧
      ScryptoCodec.booleans.Canonical ∧
      (Value.decode ScryptoCodec.booleans [1] 0 = .ok (.bool true) ↔
        (Value.bool true).WireCanonical 0) ∧
      (Value.bool false).encode .optionAndResult .numbered ScryptoCodec.booleans = .ok [0] :=
  have h := @Value.payload_roundTrip Unit Unit .optionAndResult .numbered ScryptoCodec.booleans
    IdentifierConversions.numbered_numeric ScryptoCodec.booleans_lawful 0
  ⟨IdentifierConversions.numbered_numeric, ScryptoCodec.booleans_lawful,
    ScryptoCodec.booleans_canonical, h.1 (.bool true) [1] rfl,
    h.2 ScryptoCodec.booleans_canonical [0] (.bool false) rfl⟩

end RoundTrip
