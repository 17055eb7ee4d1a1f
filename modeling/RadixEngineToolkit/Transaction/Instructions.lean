import RadixEngineToolkit.Model.Value

set_option autoImplicit false

/-! # A manifest's instructions in the JSON library

`instructions.rs` of the native JSON library carries a manifest's instructions in one of two
forms: the manifest's text (`String`) or the list of its instructions in their serializable form
(`Parsed`). `to_instructions` reads either form into the engine's instructions, the text through
the manifest compiler and the list through `to_native_instructions`; that reading is what a value
of the type means. `convert_serializable_instructions_kind` rewrites a value in place into the
requested form, decompiling or compiling on the way, and writes `self` only after every `?` has
passed, so a failed conversion leaves the value as it was.

The compiler and decompiler of the manifest crate, the two instruction conversions and the
`Debug` texts of their errors are not among the sources: they are parameters (`ManifestTools`).
When the compiler reads back what the decompiler writes and `to_native_instructions` undoes
`to_serializable_instructions` (`ManifestTools.Lawful`), every conversion keeps the value's
meaning, and so does every sequence of conversions
(`SerializableInstructions.toInstructions_convertAll`). The source's `From<DecompileError>` builds
a `CompilationError`, as `From<CompileError>` does, so a decompiler failure is reported as a
compilation error and the `DecompilationError` variant is never built
(`SerializableInstructions.converted_decompile_error`). -/

/-! ## The two forms -/

/-- `SerializableInstructions`, over the type of a serializable instruction. -/
inductive SerializableInstructions (σ : Type) where
  | string (value : String)
  | parsed (value : List σ)
  deriving DecidableEq, Repr

/-- `SerializableInstructionsKind`, the form a conversion is asked for. -/
inductive SerializableInstructionsKind where
  | string
  | parsed
  deriving DecidableEq, Repr

/-- The form a value is in. -/
def SerializableInstructions.kind {σ : Type} : SerializableInstructions σ →
    SerializableInstructionsKind
  | .string _ => .string
  | .parsed _ => .parsed

/-- `SerializableInstructionsError`, over the error type of the instruction conversions
    (`LocatedInstructionConversionError`). -/
inductive SerializableInstructionsError (ε : Type) where
  | compilationError (value : String)
  | decompilationError (value : String)
  | locatedInstructionConversionError (value : ε)
  deriving DecidableEq, Repr

/-- The functions `instructions.rs` calls that are not among the sources, over the engine's
    instruction type `ι`, the serializable one `σ`, and the errors of the compiler (`γ`), the
    decompiler (`δ`) and the instruction conversions (`ε`): `transaction::manifest::compile` run
    with the network definition of the id and a `MockBlobProvider`, keeping the compiled
    manifest's instructions; `decompile`; `to_native_instructions` and
    `to_serializable_instructions`; and the text `format!("{value:?}")` writes for a compiler or
    decompiler error. -/
structure ManifestTools (ι σ γ δ ε : Type) where
  compile : String → UInt8 → Except γ (List ι)
  decompile : List ι → UInt8 → Except δ String
  toNativeInstructions : List σ → Except ε (List ι)
  toSerializableInstructions : List ι → Except ε (List σ)
  debugCompileError : γ → String
  debugDecompileError : δ → String

/-- The compiler reads back on a network what the decompiler wrote for it, and
    `to_native_instructions` undoes `to_serializable_instructions`. -/
structure ManifestTools.Lawful {ι σ γ δ ε : Type} (tools : ManifestTools ι σ γ δ ε) :
    Prop where
  compile_decompile : ∀ instructions networkId string,
    tools.decompile instructions networkId = .ok string →
      tools.compile string networkId = .ok instructions
  toNative_toSerializable : ∀ instructions parsed,
    tools.toSerializableInstructions instructions = .ok parsed →
      tools.toNativeInstructions parsed = .ok instructions

/-- Tools over instructions that are their own text, one instruction to a manifest. -/
def ManifestTools.verbatim : ManifestTools String String Unit Unit Unit where
  compile string _ := .ok [string]
  decompile instructions _ := match instructions with
    | [instruction] => .ok instruction
    | _ => .error ()
  toNativeInstructions := .ok
  toSerializableInstructions := .ok
  debugCompileError _ := "CompileError"
  debugDecompileError _ := "DecompileError"

theorem ManifestTools.verbatim_lawful : ManifestTools.verbatim.Lawful where
  compile_decompile instructions _ _ h := by
    match instructions, h with
    | [_], rfl => rfl
  toNative_toSerializable _ _ h := by cases h; rfl

/-! ## Reading and converting -/

section Conversions

variable {ι σ γ δ ε : Type} (tools : ManifestTools ι σ γ δ ε)

/-- `From<CompileError> for SerializableInstructionsError`. -/
def SerializableInstructionsError.ofCompileError (value : γ) : SerializableInstructionsError ε :=
  .compilationError (tools.debugCompileError value)

/-- `From<DecompileError> for SerializableInstructionsError`, which builds a `CompilationError`
    as well. -/
def SerializableInstructionsError.ofDecompileError (value : δ) :
    SerializableInstructionsError ε :=
  .compilationError (tools.debugDecompileError value)

/-- `SerializableInstructions::to_instructions`. -/
def SerializableInstructions.toInstructions (self : SerializableInstructions σ)
    (networkId : UInt8) : Except (SerializableInstructionsError ε) (List ι) :=
  match self with
  | .string text =>
    (tools.compile text networkId).mapError (SerializableInstructionsError.ofCompileError tools)
  | .parsed list =>
    (tools.toNativeInstructions list).mapError .locatedInstructionConversionError

/-- The body of `convert_serializable_instructions_kind` up to its assignment: the value it
    writes into `self`, or the error of the first `?` that fails. Asked for the form it is in, the
    value stays. -/
def SerializableInstructions.converted : SerializableInstructions σ →
    SerializableInstructionsKind → UInt8 →
      Except (SerializableInstructionsError ε) (SerializableInstructions σ)
  | .string text, .string, _ => .ok (.string text)
  | .parsed list, .parsed, _ => .ok (.parsed list)
  | .parsed list, .string, networkId => do
    let instructions ← (tools.toNativeInstructions list).mapError
      .locatedInstructionConversionError
    let text ← (tools.decompile instructions networkId).mapError
      (SerializableInstructionsError.ofDecompileError tools)
    return .string text
  | .string text, .parsed, networkId => do
    let instructions ← (tools.compile text networkId).mapError
      (SerializableInstructionsError.ofCompileError tools)
    let instructions ← (tools.toSerializableInstructions instructions).mapError
      .locatedInstructionConversionError
    return .parsed instructions

/-- `SerializableInstructions::convert_serializable_instructions_kind`, with `&mut self` passed
    in and given back: the result, and the value `self` holds afterwards. -/
def SerializableInstructions.convertSerializableInstructionsKind
    (self : SerializableInstructions σ) (toType : SerializableInstructionsKind)
    (networkId : UInt8) :
    Except (SerializableInstructionsError ε) Unit × SerializableInstructions σ :=
  match self.converted tools toType networkId with
  | .ok converted => (.ok (), converted)
  | .error error => (.error error, self)

/-- Conversions asked of one value in turn, each of the value the one before left. -/
def SerializableInstructions.convertAll (networkId : UInt8) (self : SerializableInstructions σ)
    (toTypes : List SerializableInstructionsKind) : SerializableInstructions σ :=
  toTypes.foldl
    (fun self toType => (self.convertSerializableInstructionsKind tools toType networkId).2) self

end Conversions

/-! ## What a conversion does -/

section Steps

variable {ι σ γ δ ε : Type} {tools : ManifestTools ι σ γ δ ε}

/-- The value a conversion writes is in the form it was asked for. -/
theorem SerializableInstructions.kind_converted {self self' : SerializableInstructions σ}
    {toType : SerializableInstructionsKind} {networkId : UInt8}
    (h : self.converted tools toType networkId = .ok self') : self'.kind = toType := by
  cases self <;> cases toType <;>
    simp only [SerializableInstructions.converted, Except.bind_eq_ok_iff,
      Except.pure_eq_ok_iff] at h
  · cases h; rfl
  · obtain ⟨_, -, _, -, rfl⟩ := h; rfl
  · obtain ⟨_, -, _, -, rfl⟩ := h; rfl
  · cases h; rfl

/-- With lawful tools, the value a conversion writes reads as the value it replaces. -/
theorem SerializableInstructions.toInstructions_converted (htools : tools.Lawful)
    {self self' : SerializableInstructions σ} {toType : SerializableInstructionsKind}
    {networkId : UInt8} (h : self.converted tools toType networkId = .ok self') :
    self'.toInstructions tools networkId = self.toInstructions tools networkId := by
  cases self <;> cases toType <;>
    simp only [SerializableInstructions.converted, Except.bind_eq_ok_iff,
      Except.mapError_eq_ok_iff, Except.pure_eq_ok_iff] at h
  · cases h; rfl
  · obtain ⟨instructions, hcompile, parsed, hparsed, rfl⟩ := h
    simp only [SerializableInstructions.toInstructions, hcompile,
      htools.toNative_toSerializable _ _ hparsed]
    rfl
  · obtain ⟨instructions, hnative, string, hstring, rfl⟩ := h
    simp only [SerializableInstructions.toInstructions, hnative,
      htools.compile_decompile _ _ _ hstring]
    rfl
  · cases h; rfl

/-- A conversion that fails leaves the value as it was; one that succeeds leaves it in the form
    asked for. -/
theorem SerializableInstructions.convertSerializableInstructionsKind_spec
    (self : SerializableInstructions σ) (toType : SerializableInstructionsKind)
    (networkId : UInt8) :
    (∃ error, self.converted tools toType networkId = .error error ∧
      self.convertSerializableInstructionsKind tools toType networkId = (.error error, self)) ∨
    (∃ self', self.converted tools toType networkId = .ok self' ∧
      self.convertSerializableInstructionsKind tools toType networkId = (.ok (), self')) := by
  unfold SerializableInstructions.convertSerializableInstructionsKind
  cases self.converted tools toType networkId with
  | error error => exact .inl ⟨error, rfl, rfl⟩
  | ok self' => exact .inr ⟨self', rfl, rfl⟩

/-- With lawful tools, the value a conversion leaves, whether it fails or not, reads as the value
    before it. -/
theorem SerializableInstructions.toInstructions_convertSerializableInstructionsKind
    (htools : tools.Lawful) (self : SerializableInstructions σ)
    (toType : SerializableInstructionsKind) (networkId : UInt8) :
    (self.convertSerializableInstructionsKind tools toType networkId).2.toInstructions tools
      networkId = self.toInstructions tools networkId := by
  rcases self.convertSerializableInstructionsKind_spec toType networkId with
    ⟨_, -, h⟩ | ⟨self', hconv, h⟩
  · rw [h]
  · rw [h]
    exact SerializableInstructions.toInstructions_converted htools hconv

theorem SerializableInstructions.toInstructions_convertAll (htools : tools.Lawful)
    (networkId : UInt8) (toTypes : List SerializableInstructionsKind) :
    ∀ self : SerializableInstructions σ,
      (self.convertAll tools networkId toTypes).toInstructions tools networkId =
        self.toInstructions tools networkId := by
  induction toTypes with
  | nil => exact fun _ => rfl
  | cons toType toTypes ih =>
    intro self
    exact (ih _).trans
      (self.toInstructions_convertSerializableInstructionsKind htools toType networkId)

/-- **Conversions keep a manifest's meaning.** A conversion that fails leaves the value as it
    was and one that succeeds leaves it in the form asked for; with lawful tools, the value left
    reads, on the network of the conversion, as the instructions the value read as before, and so
    does the value after any sequence of conversions. -/
theorem SerializableInstructions.convert_keeps_meaning (htools : tools.Lawful)
    (networkId : UInt8) :
    (∀ (self : SerializableInstructions σ) toType,
      (∃ error, self.convertSerializableInstructionsKind tools toType networkId =
        (.error error, self)) ∨
      (self.convertSerializableInstructionsKind tools toType networkId).1 = .ok () ∧
        (self.convertSerializableInstructionsKind tools toType networkId).2.kind = toType) ∧
    (∀ (self : SerializableInstructions σ) toType,
      (self.convertSerializableInstructionsKind tools toType networkId).2.toInstructions tools
        networkId = self.toInstructions tools networkId) ∧
    (∀ (self : SerializableInstructions σ) toTypes,
      (self.convertAll tools networkId toTypes).toInstructions tools networkId =
        self.toInstructions tools networkId) := by
  refine ⟨fun self toType => ?_,
    fun self toType => self.toInstructions_convertSerializableInstructionsKind htools toType
      networkId,
    fun self toTypes => SerializableInstructions.toInstructions_convertAll htools networkId
      toTypes self⟩
  rcases self.convertSerializableInstructionsKind_spec toType networkId with
    ⟨error, -, h⟩ | ⟨self', hconv, h⟩
  · exact .inl ⟨error, h⟩
  · rw [h]
    exact .inr ⟨rfl, SerializableInstructions.kind_converted hconv⟩

theorem SerializableInstructions.convert_keeps_meaning_verbatim :
    ManifestTools.verbatim.Lawful ∧
      ((SerializableInstructions.parsed ["CLEAR_AUTH_ZONE"]).convertAll ManifestTools.verbatim 1
          [.string, .parsed, .string]).toInstructions ManifestTools.verbatim 1 =
        (SerializableInstructions.parsed ["CLEAR_AUTH_ZONE"]).toInstructions
          ManifestTools.verbatim 1 :=
  ⟨ManifestTools.verbatim_lawful,
    (SerializableInstructions.convert_keeps_meaning ManifestTools.verbatim_lawful 1).2.2 _ _⟩

end Steps

/-! ## The errors a conversion reports -/

section Errors

variable {ι σ γ δ ε : Type} {tools : ManifestTools ι σ γ δ ε}

/-- A decompiler error is reported as a `CompilationError` with the error's `Debug` text. -/
theorem SerializableInstructions.converted_decompile_error {parsed : List σ} {networkId : UInt8}
    {instructions : List ι} {error : δ}
    (hnative : tools.toNativeInstructions parsed = .ok instructions)
    (hdecompile : tools.decompile instructions networkId = .error error) :
    (SerializableInstructions.parsed parsed).converted tools .string networkId =
      .error (.compilationError (tools.debugDecompileError error)) := by
  simp only [SerializableInstructions.converted, hnative, Except.mapError, bind, Except.bind,
    hdecompile]
  rfl

/-- Every error of a conversion is a `CompilationError` or a
    `LocatedInstructionConversionError`. -/
theorem SerializableInstructions.converted_error {self : SerializableInstructions σ}
    {toType : SerializableInstructionsKind} {networkId : UInt8}
    {error : SerializableInstructionsError ε}
    (h : self.converted tools toType networkId = .error error) :
    (∃ text, error = .compilationError text) ∨
      ∃ e, error = .locatedInstructionConversionError e := by
  cases self <;> cases toType <;>
    simp only [SerializableInstructions.converted, Except.bind_eq_error_iff,
      Except.bind_eq_ok_iff, Except.mapError_eq_error_iff, Except.mapError_eq_ok_iff,
      reduceCtorEq] at h
  · rcases h with ⟨e, -, rfl⟩ | ⟨_, -, (⟨e, -, rfl⟩ | ⟨_, -, h⟩)⟩
    · exact .inl ⟨_, rfl⟩
    · exact .inr ⟨e, rfl⟩
    · cases h
  · rcases h with ⟨e, -, rfl⟩ | ⟨_, -, (⟨e, -, rfl⟩ | ⟨_, -, h⟩)⟩
    · exact .inr ⟨e, rfl⟩
    · exact .inl ⟨_, rfl⟩
    · cases h

end Errors
