import RadixEngineToolkit.Manifest.Convert

set_option autoImplicit false

/-! # Receivers and their manifest text

`receiver.rs` of the toolkit's older crate translates a method call's receiver, an owned or
borrowed node of the engine, to the manifest's `ast::Receiver` and back. Each of the twelve node
kinds boxes one manifest value: a bucket or proof its identifier, a string or a number; the auth
zone stack a number; the worktop nothing; a global node its address text; and the seven kinds
named by a `NodeId` the id's `Display` text, which the way back reads with `NodeId`'s `FromStr`.
The way back checks that each box holds what its kind prints, and otherwise fails with
`UnexpectedReNodeContents`, naming the kind, the value kinds it accepts and the kind it found.

With a `NodeId` codec whose printer and parser are mutual inverses (`NodeIdCodec.Lawful`), the
conversion is a bijection between receivers and the manifest receivers it accepts
(`receiverFromAstReceiver_astReceiverFromReceiver`). The crate's `Identifier`, `NodeId` and
`Error` and the manifest crate are not among the sources: `Identifier` and the manifest's
`RENode` and `Receiver` are modelled from their use here, `NodeId` and its two conversions are
parameters, and the manifest value and its kinds are those of `Manifest/Ast.lean`. -/

/-! ## The engine's receivers -/

/-- `RENodeKind`, the kind an `UnexpectedReNodeContents` error names. -/
inductive RENodeKind where
  | bucket
  | proof
  | authZoneStack
  | worktop
  | global
  | keyValueStore
  | nonFungibleStore
  | component
  | system
  | vault
  | resourceManager
  | package
  deriving DecidableEq, Repr

/-- Modelled from its use in `receiver.rs`: the crate's `Identifier` of a bucket or proof, a
    string or a number. -/
inductive Identifier where
  | string (value : String)
  | u32 (value : UInt32)
  deriving DecidableEq, Repr

/-- `RENode`, over the crate's `NodeId`. -/
inductive RENode (NodeId : Type) where
  | bucket (identifier : Identifier)
  | proof (identifier : Identifier)
  | authZoneStack (authZoneId : UInt32)
  | worktop
  | global (identifier : String)
  | keyValueStore (identifier : NodeId)
  | nonFungibleStore (identifier : NodeId)
  | component (identifier : NodeId)
  | system (identifier : NodeId)
  | vault (identifier : NodeId)
  | resourceManager (identifier : NodeId)
  | package (identifier : NodeId)
  deriving Repr

/-- `Receiver`: a node the call owns or one it borrows. -/
inductive Receiver (NodeId : Type) where
  | owned (reNode : RENode NodeId)
  | ref (reNode : RENode NodeId)
  deriving Repr

/-! ## The manifest's receivers -/

/-- Modelled from its use in `receiver.rs`: the manifest's `ast::RENode`, one boxed value per
    kind and none for the worktop. -/
inductive Ast.RENode where
  | bucket (value : Ast.Value)
  | proof (value : Ast.Value)
  | authZoneStack (value : Ast.Value)
  | worktop
  | global (value : Ast.Value)
  | keyValueStore (value : Ast.Value)
  | nonFungibleStore (value : Ast.Value)
  | component (value : Ast.Value)
  | system (value : Ast.Value)
  | vault (value : Ast.Value)
  | resourceManager (value : Ast.Value)
  | package (value : Ast.Value)
  deriving Repr

/-- Modelled from its use in `receiver.rs`: the manifest's `ast::Receiver`. -/
inductive Ast.Receiver where
  | owned (reNode : Ast.RENode)
  | ref (reNode : Ast.RENode)
  deriving Repr

/-- The kind of a manifest node, the one `re_node_from_ast_re_node` names when its box is
    wrong. -/
def Ast.RENode.kind : Ast.RENode → RENodeKind
  | .bucket _ => .bucket
  | .proof _ => .proof
  | .authZoneStack _ => .authZoneStack
  | .worktop => .worktop
  | .global _ => .global
  | .keyValueStore _ => .keyValueStore
  | .nonFungibleStore _ => .nonFungibleStore
  | .component _ => .component
  | .system _ => .system
  | .vault _ => .vault
  | .resourceManager _ => .resourceManager
  | .package _ => .package

/-! ## Errors and the `NodeId` codec -/

/-- Modelled from its use in `receiver.rs`: the errors of the crate's `Error` that the receiver
    conversion returns, the contents error it builds and the error of `NodeId::from_str`, which
    `?` converts. -/
inductive ReceiverError (ε : Type) where
  | unexpectedReNodeContents (kindBeingParsed : RENodeKind) (allowedChildrenKinds : List ValueKind)
      (foundChildKind : ValueKind)
  | nodeIdParse (error : ε)
  deriving DecidableEq, Repr

/-- `NodeId`'s `Display` and `FromStr`, with the error type of the parser. -/
structure NodeIdCodec (NodeId ε : Type) where
  display : NodeId → String
  parse : String → Except ε NodeId

/-- `Display` and `FromStr` are mutual inverses: the parser reads back what the printer writes,
    and the printer writes back what the parser read. -/
structure NodeIdCodec.Lawful {NodeId ε : Type} (codec : NodeIdCodec NodeId ε) : Prop where
  parse_display : ∀ n, codec.parse (codec.display n) = .ok n
  display_parse : ∀ s n, codec.parse s = .ok n → codec.display n = s

/-- Ids that are their own text. -/
def NodeIdCodec.verbatim : NodeIdCodec String Empty where
  display := id
  parse := .ok

theorem NodeIdCodec.verbatim_lawful : NodeIdCodec.verbatim.Lawful where
  parse_display _ := rfl
  display_parse _ _ h := (Except.ok.inj h).symm

/-! ## Conversions -/

section Conversions

variable {NodeId ε : Type} (codec : NodeIdCodec NodeId ε)

/-- The `match identifier` that the Bucket and the Proof arm of `ast_re_node_from_re_node`
    both write out. -/
def Identifier.toAstValue : Identifier → Ast.Value
  | .string value => .string value
  | .u32 number => .u32 number

/-- `ast_re_node_from_re_node`. -/
def astReNodeFromReNode : RENode NodeId → Ast.RENode
  | .bucket identifier => .bucket identifier.toAstValue
  | .proof identifier => .proof identifier.toAstValue
  | .authZoneStack authZoneId => .authZoneStack (.u32 authZoneId)
  | .worktop => .worktop
  | .global identifier => .global (.string identifier)
  | .keyValueStore identifier => .keyValueStore (.string (codec.display identifier))
  | .nonFungibleStore identifier => .nonFungibleStore (.string (codec.display identifier))
  | .component identifier => .component (.string (codec.display identifier))
  | .system identifier => .system (.string (codec.display identifier))
  | .vault identifier => .vault (.string (codec.display identifier))
  | .resourceManager identifier => .resourceManager (.string (codec.display identifier))
  | .package identifier => .package (.string (codec.display identifier))

/-- `ast_receiver_from_receiver`. -/
def astReceiverFromReceiver : Receiver NodeId → Ast.Receiver
  | .owned reNode => .owned (astReNodeFromReNode codec reNode)
  | .ref reNode => .ref (astReNodeFromReNode codec reNode)

/-- The box check of the Bucket and Proof arms of `re_node_from_ast_re_node`: a number, else a
    string, else the contents error. -/
def reNodeIdentifierContents (kindBeingParsed : RENodeKind) :
    Ast.Value → Except (ReceiverError ε) Identifier
  | .u32 identifier => .ok (.u32 identifier)
  | .string identifier => .ok (.string identifier)
  | identifier => .error (.unexpectedReNodeContents kindBeingParsed [.u32, .string]
      (.ofAstType identifier.valueKind))

/-- The box check of the AuthZoneStack arm: a number. -/
def reNodeU32Contents (kindBeingParsed : RENodeKind) : Ast.Value → Except (ReceiverError ε) UInt32
  | .u32 identifier => .ok identifier
  | identifier => .error (.unexpectedReNodeContents kindBeingParsed [.u32]
      (.ofAstType identifier.valueKind))

/-- The box check of the Global arm and of the seven `NodeId` arms: a string. -/
def reNodeStringContents (kindBeingParsed : RENodeKind) :
    Ast.Value → Except (ReceiverError ε) String
  | .string identifier => .ok identifier
  | identifier => .error (.unexpectedReNodeContents kindBeingParsed [.string]
      (.ofAstType identifier.valueKind))

/-- A `NodeId` arm: the string check, then `identifier.parse()?`. -/
def reNodeNodeIdContents (kindBeingParsed : RENodeKind) (identifier : Ast.Value) :
    Except (ReceiverError ε) NodeId := do
  let identifier ← reNodeStringContents kindBeingParsed identifier
  (codec.parse identifier).mapError .nodeIdParse

/-- `re_node_from_ast_re_node`. -/
def reNodeFromAstReNode : Ast.RENode → Except (ReceiverError ε) (RENode NodeId)
  | .bucket identifier => do return .bucket (← reNodeIdentifierContents .bucket identifier)
  | .proof identifier => do return .proof (← reNodeIdentifierContents .proof identifier)
  | .authZoneStack identifier => do
    return .authZoneStack (← reNodeU32Contents .authZoneStack identifier)
  | .worktop => .ok .worktop
  | .global identifier => do return .global (← reNodeStringContents .global identifier)
  | .keyValueStore identifier => do
    return .keyValueStore (← reNodeNodeIdContents codec .keyValueStore identifier)
  | .nonFungibleStore identifier => do
    return .nonFungibleStore (← reNodeNodeIdContents codec .nonFungibleStore identifier)
  | .component identifier => do
    return .component (← reNodeNodeIdContents codec .component identifier)
  | .system identifier => do return .system (← reNodeNodeIdContents codec .system identifier)
  | .vault identifier => do return .vault (← reNodeNodeIdContents codec .vault identifier)
  | .resourceManager identifier => do
    return .resourceManager (← reNodeNodeIdContents codec .resourceManager identifier)
  | .package identifier => do return .package (← reNodeNodeIdContents codec .package identifier)

/-- `receiver_from_ast_receiver`. -/
def receiverFromAstReceiver : Ast.Receiver → Except (ReceiverError ε) (Receiver NodeId)
  | .owned reNode => do return .owned (← reNodeFromAstReNode codec reNode)
  | .ref reNode => do return .ref (← reNodeFromAstReNode codec reNode)

end Conversions

/-! ## The box checks -/

section Contents

variable {NodeId ε : Type} {codec : NodeIdCodec NodeId ε} {kindBeingParsed : RENodeKind}

theorem reNodeIdentifierContents_eq_ok {identifier : Ast.Value} {i : Identifier} :
    (reNodeIdentifierContents kindBeingParsed identifier : Except (ReceiverError ε) _) = .ok i ↔
      identifier = i.toAstValue := by
  constructor
  · intro h
    cases identifier <;> cases h <;> rfl
  · rintro rfl
    cases i <;> rfl

theorem reNodeU32Contents_eq_ok {identifier : Ast.Value} {n : UInt32} :
    (reNodeU32Contents kindBeingParsed identifier : Except (ReceiverError ε) _) = .ok n ↔
      identifier = .u32 n := by
  constructor
  · intro h
    cases identifier <;> cases h
    rfl
  · rintro rfl
    rfl

theorem reNodeStringContents_eq_ok {identifier : Ast.Value} {s : String} :
    (reNodeStringContents kindBeingParsed identifier : Except (ReceiverError ε) _) = .ok s ↔
      identifier = .string s := by
  constructor
  · intro h
    cases identifier <;> cases h
    rfl
  · rintro rfl
    rfl

theorem reNodeNodeIdContents_eq_ok {identifier : Ast.Value} {n : NodeId} :
    reNodeNodeIdContents codec kindBeingParsed identifier = .ok n ↔
      ∃ s, identifier = .string s ∧ codec.parse s = .ok n := by
  simp only [reNodeNodeIdContents, Except.bind_eq_ok_iff, reNodeStringContents_eq_ok,
    Except.mapError_eq_ok_iff]

theorem ValueKind.not_mem_of_elem_eq_false {k : ValueKind} {l : List ValueKind}
    (h : l.elem k = false) : k ∉ l :=
  fun hm => by rw [List.elem_eq_true_of_mem hm] at h; cases h

/-- A box check that fails names the kind it was given and a found kind outside the kinds it
    lists as allowed. -/
theorem reNodeIdentifierContents_eq_error {identifier : Ast.Value} {e : ReceiverError ε}
    (h : reNodeIdentifierContents kindBeingParsed identifier = .error e) :
    ∃ foundChildKind, foundChildKind ∉ [ValueKind.u32, .string] ∧
      e = .unexpectedReNodeContents kindBeingParsed [.u32, .string] foundChildKind := by
  cases identifier <;> cases h <;> refine ⟨_, ?_, rfl⟩ <;>
    exact ValueKind.not_mem_of_elem_eq_false rfl

theorem reNodeU32Contents_eq_error {identifier : Ast.Value} {e : ReceiverError ε}
    (h : reNodeU32Contents kindBeingParsed identifier = .error e) :
    ∃ foundChildKind, foundChildKind ∉ [ValueKind.u32] ∧
      e = .unexpectedReNodeContents kindBeingParsed [.u32] foundChildKind := by
  cases identifier <;> cases h <;> refine ⟨_, ?_, rfl⟩ <;>
    exact ValueKind.not_mem_of_elem_eq_false rfl

theorem reNodeStringContents_eq_error {identifier : Ast.Value} {e : ReceiverError ε}
    (h : reNodeStringContents kindBeingParsed identifier = .error e) :
    ∃ foundChildKind, foundChildKind ∉ [ValueKind.string] ∧
      e = .unexpectedReNodeContents kindBeingParsed [.string] foundChildKind := by
  cases identifier <;> cases h <;> refine ⟨_, ?_, rfl⟩ <;>
    exact ValueKind.not_mem_of_elem_eq_false rfl

/-- A `NodeId` arm fails at its string check or in the `NodeId` parser. -/
theorem reNodeNodeIdContents_eq_error {identifier : Ast.Value} {e : ReceiverError ε}
    (h : reNodeNodeIdContents codec kindBeingParsed identifier = .error e) :
    (∃ foundChildKind, foundChildKind ∉ [ValueKind.string] ∧
      e = .unexpectedReNodeContents kindBeingParsed [.string] foundChildKind) ∨
    ∃ error, e = .nodeIdParse error := by
  simp only [reNodeNodeIdContents] at h
  cases hs : (reNodeStringContents kindBeingParsed identifier : Except (ReceiverError ε) _) with
  | error e' =>
    rw [hs] at h
    cases h
    exact .inl (reNodeStringContents_eq_error hs)
  | ok s =>
    rw [hs] at h
    change (codec.parse s).mapError _ = _ at h
    cases hparse : codec.parse s with
    | error error =>
      rw [hparse] at h
      cases h
      exact .inr ⟨error, rfl⟩
    | ok n =>
      rw [hparse] at h
      cases h

end Contents

/-! ## The round trip -/

section RoundTrip

variable {NodeId ε : Type} {codec : NodeIdCodec NodeId ε}

/-- Printing a node and reading it back returns it. -/
theorem reNodeFromAstReNode_astReNodeFromReNode (hcodec : codec.Lawful) (reNode : RENode NodeId) :
    reNodeFromAstReNode codec (astReNodeFromReNode codec reNode) = .ok reNode := by
  cases reNode with
  | bucket identifier | proof identifier =>
    simp only [astReNodeFromReNode, reNodeFromAstReNode,
      reNodeIdentifierContents_eq_ok.2 rfl]
    rfl
  | authZoneStack | worktop | global => rfl
  | keyValueStore identifier | nonFungibleStore identifier | component identifier
  | system identifier | vault identifier | resourceManager identifier | package identifier =>
    simp only [astReNodeFromReNode, reNodeFromAstReNode,
      reNodeNodeIdContents_eq_ok.2 ⟨_, rfl, hcodec.parse_display identifier⟩]
    rfl

/-- A node that reads prints back as the text it was read from. -/
theorem astReNodeFromReNode_of_reNodeFromAstReNode (hcodec : codec.Lawful) {reNode : Ast.RENode}
    {reNode' : RENode NodeId} (h : reNodeFromAstReNode codec reNode = .ok reNode') :
    astReNodeFromReNode codec reNode' = reNode := by
  cases reNode with
  | bucket identifier | proof identifier =>
    simp only [reNodeFromAstReNode, Except.bind_eq_ok_iff, Except.pure_eq_ok_iff] at h
    obtain ⟨i, hi, rfl⟩ := h
    rw [reNodeIdentifierContents_eq_ok.1 hi]
    rfl
  | authZoneStack identifier =>
    simp only [reNodeFromAstReNode, Except.bind_eq_ok_iff, Except.pure_eq_ok_iff] at h
    obtain ⟨n, hn, rfl⟩ := h
    rw [reNodeU32Contents_eq_ok.1 hn]
    rfl
  | worktop =>
    cases h
    rfl
  | global identifier =>
    simp only [reNodeFromAstReNode, Except.bind_eq_ok_iff, Except.pure_eq_ok_iff] at h
    obtain ⟨s, hs, rfl⟩ := h
    rw [reNodeStringContents_eq_ok.1 hs]
    rfl
  | keyValueStore identifier | nonFungibleStore identifier | component identifier
  | system identifier | vault identifier | resourceManager identifier | package identifier =>
    simp only [reNodeFromAstReNode, Except.bind_eq_ok_iff, Except.pure_eq_ok_iff] at h
    obtain ⟨n, hn, rfl⟩ := h
    obtain ⟨s, rfl, hs⟩ := reNodeNodeIdContents_eq_ok.1 hn
    rw [astReNodeFromReNode, hcodec.display_parse s n hs]

/-- **The receiver conversion is a bijection onto what it accepts.** With a lawful `NodeId`
    codec, every receiver, owned or borrowed, of every node kind and payload, prints as manifest
    text that reads back as itself; and every manifest receiver that reads prints back as
    itself. -/
theorem receiverFromAstReceiver_astReceiverFromReceiver (hcodec : codec.Lawful) :
    (∀ receiver : Receiver NodeId,
      receiverFromAstReceiver codec (astReceiverFromReceiver codec receiver) = .ok receiver) ∧
    (∀ (receiver : Ast.Receiver) (receiver' : Receiver NodeId),
      receiverFromAstReceiver codec receiver = .ok receiver' →
        astReceiverFromReceiver codec receiver' = receiver) := by
  constructor
  · intro receiver
    cases receiver <;>
      simp only [astReceiverFromReceiver, receiverFromAstReceiver,
        reNodeFromAstReNode_astReNodeFromReNode hcodec] <;> rfl
  · intro receiver receiver' h
    cases receiver <;>
      simp only [receiverFromAstReceiver, Except.bind_eq_ok_iff, Except.pure_eq_ok_iff] at h <;>
      obtain ⟨reNode, hreNode, rfl⟩ := h <;>
      rw [astReceiverFromReceiver, astReNodeFromReNode_of_reNodeFromAstReNode hcodec hreNode]

theorem receiverFromAstReceiver_astReceiverFromReceiver_verbatim :
    NodeIdCodec.verbatim.Lawful ∧
      (∀ receiver : Receiver String,
        receiverFromAstReceiver .verbatim (astReceiverFromReceiver .verbatim receiver) =
          .ok receiver) ∧
      (∀ (receiver : Ast.Receiver) (receiver' : Receiver String),
        receiverFromAstReceiver .verbatim receiver = .ok receiver' →
          astReceiverFromReceiver .verbatim receiver' = receiver) :=
  ⟨NodeIdCodec.verbatim_lawful,
    receiverFromAstReceiver_astReceiverFromReceiver NodeIdCodec.verbatim_lawful⟩

end RoundTrip

/-! ## Errors -/

section Errors

variable {NodeId ε : Type} {codec : NodeIdCodec NodeId ε}

theorem Except.bind_pure_eq_error_iff {α β : Type} {x : Except ε α} {f : α → β} {e : ε} :
    (x >>= fun a => pure (f a)) = .error e ↔ x = .error e := by
  cases x <;> simp [bind, Except.bind, pure, Except.pure]

/-- Every error of `re_node_from_ast_re_node` is the contents error of the node's own kind,
    reporting a found kind outside the kinds it lists as allowed, or an error of the `NodeId`
    parser. The worktop never fails. -/
theorem reNodeFromAstReNode_eq_error {reNode : Ast.RENode} {e : ReceiverError ε}
    (h : reNodeFromAstReNode codec reNode = .error e) :
    (∃ allowedChildrenKinds foundChildKind, foundChildKind ∉ allowedChildrenKinds ∧
      e = .unexpectedReNodeContents reNode.kind allowedChildrenKinds foundChildKind) ∨
    ∃ error, e = .nodeIdParse error := by
  cases reNode with
  | bucket identifier | proof identifier =>
    obtain ⟨found, hfound, rfl⟩ :=
      reNodeIdentifierContents_eq_error (Except.bind_pure_eq_error_iff.1 h)
    exact .inl ⟨_, found, hfound, rfl⟩
  | authZoneStack identifier =>
    obtain ⟨found, hfound, rfl⟩ := reNodeU32Contents_eq_error (Except.bind_pure_eq_error_iff.1 h)
    exact .inl ⟨_, found, hfound, rfl⟩
  | worktop => cases h
  | global identifier =>
    obtain ⟨found, hfound, rfl⟩ :=
      reNodeStringContents_eq_error (Except.bind_pure_eq_error_iff.1 h)
    exact .inl ⟨_, found, hfound, rfl⟩
  | keyValueStore identifier | nonFungibleStore identifier | component identifier
  | system identifier | vault identifier | resourceManager identifier | package identifier =>
    rcases reNodeNodeIdContents_eq_error (Except.bind_pure_eq_error_iff.1 h) with
      ⟨found, hfound, rfl⟩ | ⟨error, rfl⟩
    · exact .inl ⟨_, found, hfound, rfl⟩
    · exact .inr ⟨error, rfl⟩

example : reNodeFromAstReNode NodeIdCodec.verbatim (.proof (.bool true)) =
    .error (.unexpectedReNodeContents .proof [.u32, .string] .bool) := rfl

end Errors
