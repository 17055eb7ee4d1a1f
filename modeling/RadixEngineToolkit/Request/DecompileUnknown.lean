set_option autoImplicit false

/-! # Decompiling an intent of unknown kind

`DecompileUnknownTransactionIntentRequest` (`decompile_unknown_transaction_intent_request.rs`)
decompiles a compiled payload that may be a transaction intent, a signed intent or a notarized
intent. Its handler hands the payload and the requested instruction format to the three
decompile requests in that order, answers with the response of the first that succeeds, tagged
with the kind it decoded, and fails with `UnrecognizedCompiledIntentFormat` when none does.

The three requests' `fulfill_request`s and the crate's `Error` are not among the sources: they
are parameters (`IntentDecompilers`). Whatever they do, every answer is a decoding by the
request of its kind, and the handler fails exactly when no request accepts the payload; when
no payload decodes as two kinds, the order of the tries does not matter: every decoding there
is is the answer (`DecompileUnknownTransactionIntentRequest.handleRequest_spec`). -/

/-! ## Requests and responses -/

/-- `DecompileUnknownTransactionIntentRequest`, over the type of the instruction format. -/
structure DecompileUnknownTransactionIntentRequest (κ : Type) where
  manifestInstructionsOutputFormat : κ
  compiledUnknownIntent : List UInt8

/-- The fields the three decompile requests share: `DecompileTransactionIntentRequest` names the
    payload `compiled_intent`, the signed one `compiled_signed_intent` and the notarized one
    `compiled_notarized_intent`. -/
structure DecompileIntentRequest (κ : Type) where
  compiledIntent : List UInt8
  manifestInstructionsOutputFormat : κ

/-- The body of the three `From<DecompileUnknownTransactionIntentRequest>` impls: the payload and
    the format copied over. -/
def DecompileUnknownTransactionIntentRequest.toDecompileIntentRequest {κ : Type}
    (request : DecompileUnknownTransactionIntentRequest κ) : DecompileIntentRequest κ where
  compiledIntent := request.compiledUnknownIntent
  manifestInstructionsOutputFormat := request.manifestInstructionsOutputFormat

/-- `DecompileUnknownTransactionIntentResponse`, over the three responses. -/
inductive DecompileUnknownTransactionIntentResponse (α β γ : Type) where
  | transactionIntent (response : α)
  | signedTransactionIntent (response : β)
  | notarizedTransactionIntent (response : γ)
  deriving DecidableEq, Repr

/-- The `fulfill_request`s of the three decompile requests, with the responses `α`, `β`, `γ`
    and the crate's error type `ε`, and that type's `UnrecognizedCompiledIntentFormat`. -/
structure IntentDecompilers (κ α β γ ε : Type) where
  transactionIntent : DecompileIntentRequest κ → Except ε α
  signedTransactionIntent : DecompileIntentRequest κ → Except ε β
  notarizedTransactionIntent : DecompileIntentRequest κ → Except ε γ
  unrecognizedCompiledIntentFormat : ε

section Handler

variable {κ α β γ ε : Type} (decompilers : IntentDecompilers κ α β γ ε)

/-- `From<DecompileUnknownTransactionIntentRequest> for DecompileTransactionIntentRequest`. -/
def DecompileUnknownTransactionIntentRequest.toTransactionIntentRequest
    (request : DecompileUnknownTransactionIntentRequest κ) : DecompileIntentRequest κ :=
  request.toDecompileIntentRequest

/-- `From<DecompileUnknownTransactionIntentRequest> for DecompileSignedTransactionIntentRequest`. -/
def DecompileUnknownTransactionIntentRequest.toSignedTransactionIntentRequest
    (request : DecompileUnknownTransactionIntentRequest κ) : DecompileIntentRequest κ :=
  request.toDecompileIntentRequest

/-- `From<DecompileUnknownTransactionIntentRequest> for
    DecompileNotarizedTransactionIntentRequest`. -/
def DecompileUnknownTransactionIntentRequest.toNotarizedTransactionIntentRequest
    (request : DecompileUnknownTransactionIntentRequest κ) : DecompileIntentRequest κ :=
  request.toDecompileIntentRequest

/-- `handle_request`: the three requests tried in order, the first response that is `Ok` taken. -/
def DecompileUnknownTransactionIntentRequest.handleRequest
    (request : DecompileUnknownTransactionIntentRequest κ) :
    Except ε (DecompileUnknownTransactionIntentResponse α β γ) :=
  match decompilers.transactionIntent request.toTransactionIntentRequest with
  | .ok response => .ok (.transactionIntent response)
  | .error _ =>
    match decompilers.signedTransactionIntent request.toSignedTransactionIntentRequest with
    | .ok response => .ok (.signedTransactionIntent response)
    | .error _ =>
      match decompilers.notarizedTransactionIntent request.toNotarizedTransactionIntentRequest with
      | .ok response => .ok (.notarizedTransactionIntent response)
      | .error _ => .error decompilers.unrecognizedCompiledIntentFormat

end Handler

/-! ## What the handler answers -/

section Spec

variable {κ α β γ ε : Type} (decompilers : IntentDecompilers κ α β γ ε)

/-- A response is a decoding of the payload by the request of its kind. -/
def DecompileUnknownTransactionIntentResponse.Decodes (request : DecompileIntentRequest κ) :
    DecompileUnknownTransactionIntentResponse α β γ → Prop
  | .transactionIntent response => decompilers.transactionIntent request = .ok response
  | .signedTransactionIntent response => decompilers.signedTransactionIntent request = .ok response
  | .notarizedTransactionIntent response =>
    decompilers.notarizedTransactionIntent request = .ok response

/-- The requests of the kinds tried before a response's kind fail on the payload. -/
def DecompileUnknownTransactionIntentResponse.EarlierFail (request : DecompileIntentRequest κ) :
    DecompileUnknownTransactionIntentResponse α β γ → Prop
  | .transactionIntent _ => True
  | .signedTransactionIntent _ => (decompilers.transactionIntent request).toBool = false
  | .notarizedTransactionIntent _ => (decompilers.transactionIntent request).toBool = false ∧
    (decompilers.signedTransactionIntent request).toBool = false

/-- At most one of the three requests reads the payload. -/
def IntentDecompilers.Exclusive (request : DecompileIntentRequest κ) : Prop :=
  [(decompilers.transactionIntent request).toBool,
    (decompilers.signedTransactionIntent request).toBool,
    (decompilers.notarizedTransactionIntent request).toBool].count true ≤ 1

variable {decompilers}

/-- The handler answers a response exactly when the response decodes the payload and the kinds
    tried before it fail. -/
theorem DecompileUnknownTransactionIntentRequest.handleRequest_eq_ok_iff
    (request : DecompileUnknownTransactionIntentRequest κ)
    (response : DecompileUnknownTransactionIntentResponse α β γ) :
    request.handleRequest decompilers = .ok response ↔
      response.Decodes decompilers request.toDecompileIntentRequest ∧
        response.EarlierFail decompilers request.toDecompileIntentRequest := by
  simp only [DecompileUnknownTransactionIntentRequest.handleRequest,
    DecompileUnknownTransactionIntentRequest.toTransactionIntentRequest,
    DecompileUnknownTransactionIntentRequest.toSignedTransactionIntentRequest,
    DecompileUnknownTransactionIntentRequest.toNotarizedTransactionIntentRequest]
  cases response <;>
    simp only [DecompileUnknownTransactionIntentResponse.Decodes,
      DecompileUnknownTransactionIntentResponse.EarlierFail, and_true] <;>
    cases decompilers.transactionIntent request.toDecompileIntentRequest <;>
    cases decompilers.signedTransactionIntent request.toDecompileIntentRequest <;>
    cases decompilers.notarizedTransactionIntent request.toDecompileIntentRequest <;>
    simp [Except.toBool]

/-- The handler fails exactly when none of the three requests reads the payload, and then with
    `UnrecognizedCompiledIntentFormat`. -/
theorem DecompileUnknownTransactionIntentRequest.handleRequest_eq_error_iff
    (request : DecompileUnknownTransactionIntentRequest κ) (error : ε) :
    request.handleRequest decompilers = .error error ↔
      error = decompilers.unrecognizedCompiledIntentFormat ∧
        (decompilers.transactionIntent request.toDecompileIntentRequest).toBool = false ∧
        (decompilers.signedTransactionIntent request.toDecompileIntentRequest).toBool = false ∧
        (decompilers.notarizedTransactionIntent request.toDecompileIntentRequest).toBool =
          false := by
  simp only [DecompileUnknownTransactionIntentRequest.handleRequest,
    DecompileUnknownTransactionIntentRequest.toTransactionIntentRequest,
    DecompileUnknownTransactionIntentRequest.toSignedTransactionIntentRequest,
    DecompileUnknownTransactionIntentRequest.toNotarizedTransactionIntentRequest]
  cases decompilers.transactionIntent request.toDecompileIntentRequest <;>
    cases decompilers.signedTransactionIntent request.toDecompileIntentRequest <;>
    cases decompilers.notarizedTransactionIntent request.toDecompileIntentRequest <;>
    simp [Except.toBool, eq_comm]

/-- Where at most one request reads the payload, the kinds before a decoding's kind fail. -/
theorem DecompileUnknownTransactionIntentResponse.earlierFail_of_exclusive
    {request : DecompileIntentRequest κ} (hexclusive : decompilers.Exclusive request)
    {response : DecompileUnknownTransactionIntentResponse α β γ}
    (hdecodes : response.Decodes decompilers request) :
    response.EarlierFail decompilers request := by
  unfold IntentDecompilers.Exclusive at hexclusive
  cases response with
  | transactionIntent _ => trivial
  | signedTransactionIntent _ =>
    show (decompilers.transactionIntent request).toBool = false
    rw [show (decompilers.signedTransactionIntent request).toBool = true by rw [hdecodes]; rfl]
      at hexclusive
    revert hexclusive
    cases (decompilers.transactionIntent request).toBool <;>
      cases (decompilers.notarizedTransactionIntent request).toBool <;> decide
  | notarizedTransactionIntent _ =>
    show (decompilers.transactionIntent request).toBool = false ∧
      (decompilers.signedTransactionIntent request).toBool = false
    rw [show (decompilers.notarizedTransactionIntent request).toBool = true by rw [hdecodes]; rfl]
      at hexclusive
    revert hexclusive
    cases (decompilers.transactionIntent request).toBool <;>
      cases (decompilers.signedTransactionIntent request).toBool <;> decide

theorem Except.toBool_eq_false_iff {ε α : Type} {x : Except ε α} :
    x.toBool = false ↔ ∀ a, x ≠ .ok a := by
  cases x <;> simp [Except.toBool]

/-- No response decodes the payload exactly when each of the three requests fails on it. -/
theorem DecompileUnknownTransactionIntentResponse.forall_not_decodes_iff
    {request : DecompileIntentRequest κ} :
    (∀ response : DecompileUnknownTransactionIntentResponse α β γ,
        ¬response.Decodes decompilers request) ↔
      (decompilers.transactionIntent request).toBool = false ∧
        (decompilers.signedTransactionIntent request).toBool = false ∧
        (decompilers.notarizedTransactionIntent request).toBool = false := by
  simp only [Except.toBool_eq_false_iff]
  exact ⟨fun h => ⟨fun a => h (.transactionIntent a), fun b => h (.signedTransactionIntent b),
      fun c => h (.notarizedTransactionIntent c)⟩,
    fun ⟨ht, hs, hn⟩ response => by
      cases response with
      | transactionIntent a => exact ht a
      | signedTransactionIntent b => exact hs b
      | notarizedTransactionIntent c => exact hn c⟩

/-- **The unknown-intent handler.** Every answer decodes the payload by the request of its kind;
    the handler fails, with `UnrecognizedCompiledIntentFormat`, exactly when no request reads the
    payload; and where at most one request reads it, every decoding there is is the answer, so
    the order in which the handler tries the kinds does not matter. -/
theorem DecompileUnknownTransactionIntentRequest.handleRequest_spec
    (request : DecompileUnknownTransactionIntentRequest κ) :
    (∀ response, request.handleRequest decompilers = .ok response →
      response.Decodes decompilers request.toDecompileIntentRequest) ∧
    (∀ error, request.handleRequest decompilers = .error error ↔
      error = decompilers.unrecognizedCompiledIntentFormat ∧
        ∀ response : DecompileUnknownTransactionIntentResponse α β γ,
          ¬response.Decodes decompilers request.toDecompileIntentRequest) ∧
    (decompilers.Exclusive request.toDecompileIntentRequest →
      ∀ response, response.Decodes decompilers request.toDecompileIntentRequest →
        request.handleRequest decompilers = .ok response) :=
  ⟨fun response h => ((request.handleRequest_eq_ok_iff response).1 h).1,
    fun error => (request.handleRequest_eq_error_iff error).trans
      (and_congr_right fun _ =>
        DecompileUnknownTransactionIntentResponse.forall_not_decodes_iff.symm),
    fun hexclusive response hdecodes => (request.handleRequest_eq_ok_iff response).2
      ⟨hdecodes, DecompileUnknownTransactionIntentResponse.earlierFail_of_exclusive hexclusive
        hdecodes⟩⟩

end Spec
