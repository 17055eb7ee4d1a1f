import RadixEngineToolkit.Model.Value
import Mathlib.Data.Finset.Basic

set_option autoImplicit false

/-! # The identity interactions visitor

`IdentityInteractionsVisitor` (`identity_interactions_visitor.rs`) collects the identities whose
auth a manifest needs. The instruction traversal tells it of every method call through one of
four `visit_call_*_method`s, one per module the method belongs to (the component's main module,
role assignment, metadata, royalty), and the visitor records the called component when the
address is a static identity address and the method is one of that module's methods that require
auth. The four functions differ only in the method list they consult, so they are one function
with the list as a parameter (`visitCallMethodRequiringAuth`), each kept under its own name.

What the visitor reads but the sources do not hold is a parameter: the entity-type tests behind
`utils::is_identity` and `ComponentAddress::new_or_panic` (`EntityTypes`), and the four method
lists of `statics.rs` (`MethodsRequiringAuth`). A run is a list of calls from the default
visitor. One step lemma says what a call does to the recorded set; by induction over the calls,
no call of any run returns an error or panics, and the output is exactly the set of components
that some call qualifies for (`IdentityInteractionsVisitor.run_output`). -/

/-! ## Addresses, methods and entity types -/

/-- Scrypto's `GlobalAddress`, by its node id. -/
structure GlobalAddress where
  nodeId : List UInt8
  deriving DecidableEq, Repr

/-- The manifest's `DynamicGlobalAddress`: an address written out, or a name bound to an address
    earlier in the manifest. -/
inductive DynamicGlobalAddress where
  | static (address : GlobalAddress)
  | named (name : UInt32)
  deriving DecidableEq, Repr

/-- Scrypto's `MethodKey`. -/
structure MethodKey where
  ident : String
  deriving DecidableEq, Repr

/-- Modelled from the spec: `utils::is_identity` and the entity-type check of
    `ComponentAddress::new_or_panic` are not among the sources. Which addresses are identities,
    and which node ids are those of components; the node id of every static identity address is,
    which is what the source's comment "This never panics" relies on. -/
structure EntityTypes where
  isIdentity : DynamicGlobalAddress → Bool
  isComponent : List UInt8 → Bool
  identityIsComponent : ∀ address, isIdentity (.static address) = true →
    isComponent address.nodeId = true

/-- The method lists of `statics.rs` (not among the sources) that the visitor consults:
    `IDENTITY_`, `ROLE_ASSIGNMENT_`, `METADATA_` and `ROYALTY_METHODS_THAT_REQUIRE_AUTH`. -/
structure MethodsRequiringAuth where
  identity : List MethodKey
  roleAssignment : List MethodKey
  metadata : List MethodKey
  royalty : List MethodKey

/-- `ComponentAddress::new_or_panic`: the component address of a node id, or a panic. -/
def ComponentAddress.newOrPanic {ε : Type} (types : EntityTypes) (nodeId : List UInt8) :
    Outcome ε ComponentAddress :=
  if types.isComponent nodeId then .ok ⟨nodeId⟩ else .panic

/-! ## The visitor -/

/-- `IdentityInteractionsVisitor`: the set of identity components recorded so far. -/
structure IdentityInteractionsVisitor where
  components : Finset ComponentAddress

/-- The derived `Default`: nothing recorded. -/
instance : Inhabited IdentityInteractionsVisitor := ⟨⟨∅⟩⟩

/-- `IdentityInteractionsVisitor::output`. -/
def IdentityInteractionsVisitor.output (visitor : IdentityInteractionsVisitor) :
    Finset ComponentAddress :=
  visitor.components

section Visit

variable {ε : Type} (types : EntityTypes)

/-- The body of the four `visit_call_*_method`s, given the method list each consults. The call's
    arguments are not read. -/
def IdentityInteractionsVisitor.visitCallMethodRequiringAuth (methods : List MethodKey)
    (visitor : IdentityInteractionsVisitor) (address : DynamicGlobalAddress)
    (methodName : String) : Outcome ε IdentityInteractionsVisitor :=
  if types.isIdentity address then
    match address with
    | .static address => do
      let componentAddress ← ComponentAddress.newOrPanic types address.nodeId
      if methods.any fun key => key.ident == methodName then
        return ⟨insert componentAddress visitor.components⟩
      else
        return visitor
    | .named _ => .ok visitor
  else
    .ok visitor

/-- `visit_call_method`: a method of the component's main module. -/
def IdentityInteractionsVisitor.visitCallMethod (methods : MethodsRequiringAuth)
    (visitor : IdentityInteractionsVisitor) (address : DynamicGlobalAddress)
    (methodName : String) : Outcome ε IdentityInteractionsVisitor :=
  visitor.visitCallMethodRequiringAuth types methods.identity address methodName

/-- `visit_call_role_assignment_method`. -/
def IdentityInteractionsVisitor.visitCallRoleAssignmentMethod (methods : MethodsRequiringAuth)
    (visitor : IdentityInteractionsVisitor) (address : DynamicGlobalAddress)
    (methodName : String) : Outcome ε IdentityInteractionsVisitor :=
  visitor.visitCallMethodRequiringAuth types methods.roleAssignment address methodName

/-- `visit_call_metadata_method`. -/
def IdentityInteractionsVisitor.visitCallMetadataMethod (methods : MethodsRequiringAuth)
    (visitor : IdentityInteractionsVisitor) (address : DynamicGlobalAddress)
    (methodName : String) : Outcome ε IdentityInteractionsVisitor :=
  visitor.visitCallMethodRequiringAuth types methods.metadata address methodName

/-- `visit_call_royalty_method`. -/
def IdentityInteractionsVisitor.visitCallRoyaltyMethod (methods : MethodsRequiringAuth)
    (visitor : IdentityInteractionsVisitor) (address : DynamicGlobalAddress)
    (methodName : String) : Outcome ε IdentityInteractionsVisitor :=
  visitor.visitCallMethodRequiringAuth types methods.royalty address methodName

/-- Scrypto's `ModuleId`: the module of a component a called method belongs to. -/
inductive ModuleId where
  | main
  | roleAssignment
  | metadata
  | royalty
  deriving DecidableEq, Repr

/-- A method call of a manifest, as the traversal reports it to a visitor. -/
structure MethodCall where
  module : ModuleId
  address : DynamicGlobalAddress
  methodName : String

/-- The list a call to a method of `module` is checked against. -/
def MethodsRequiringAuth.forModule (methods : MethodsRequiringAuth) : ModuleId → List MethodKey
  | .main => methods.identity
  | .roleAssignment => methods.roleAssignment
  | .metadata => methods.metadata
  | .royalty => methods.royalty

/-- Modelled from the spec: the instruction traversal is not among the sources. A call is
    reported to the `visit_call_*_method` of its module. -/
def IdentityInteractionsVisitor.visit (methods : MethodsRequiringAuth)
    (visitor : IdentityInteractionsVisitor) (call : MethodCall) :
    Outcome ε IdentityInteractionsVisitor :=
  match call.module with
  | .main => visitor.visitCallMethod types methods call.address call.methodName
  | .roleAssignment =>
    visitor.visitCallRoleAssignmentMethod types methods call.address call.methodName
  | .metadata => visitor.visitCallMetadataMethod types methods call.address call.methodName
  | .royalty => visitor.visitCallRoyaltyMethod types methods call.address call.methodName

/-- The visitor told of a sequence of calls in order, stopping at the first that does not return
    `Ok`. -/
def IdentityInteractionsVisitor.run (methods : MethodsRequiringAuth) :
    IdentityInteractionsVisitor → List MethodCall → Outcome ε IdentityInteractionsVisitor
  | visitor, [] => .ok visitor
  | visitor, call :: calls => do
    let visitor ← visitor.visit types methods call
    IdentityInteractionsVisitor.run methods visitor calls

end Visit

/-! ## What a run records -/

/-- A call makes the visitor record the component `a`: it targets the static address of an
    identity whose node id is `a`'s, with a method on its module's list. -/
def MethodCall.RecordsIdentity (types : EntityTypes) (methods : MethodsRequiringAuth)
    (call : MethodCall) (a : ComponentAddress) : Prop :=
  ∃ address, call.address = .static address ∧ types.isIdentity call.address = true ∧
    call.methodName ∈ (methods.forModule call.module).map MethodKey.ident ∧ a = ⟨address.nodeId⟩

section Runs

variable (ε : Type) (types : EntityTypes) (methods : MethodsRequiringAuth)

theorem IdentityInteractionsVisitor.visit_eq (visitor : IdentityInteractionsVisitor)
    (call : MethodCall) :
    (visitor.visit types methods call : Outcome ε IdentityInteractionsVisitor) =
      visitor.visitCallMethodRequiringAuth types (methods.forModule call.module) call.address
        call.methodName := by
  obtain ⟨module, _, _⟩ := call
  cases module <;> rfl

/-- One call returns `Ok` and records its component exactly when the address is a static
    identity address and the method is on the list. -/
theorem IdentityInteractionsVisitor.visitCallMethodRequiringAuth_ok (keys : List MethodKey)
    (visitor : IdentityInteractionsVisitor) (address : DynamicGlobalAddress) (methodName : String) :
    ∃ visitor', visitor.visitCallMethodRequiringAuth types keys address methodName =
        (.ok visitor' : Outcome ε IdentityInteractionsVisitor) ∧
      ∀ a, a ∈ visitor'.components ↔ a ∈ visitor.components ∨
        ∃ g, address = .static g ∧ types.isIdentity address = true ∧
          methodName ∈ keys.map MethodKey.ident ∧ a = ⟨g.nodeId⟩ := by
  unfold IdentityInteractionsVisitor.visitCallMethodRequiringAuth
  cases hid : types.isIdentity address with
  | false =>
    exact ⟨visitor, rfl, by simp only [Bool.false_eq_true, false_and, and_false, exists_false,
      or_false, implies_true]⟩
  | true =>
    cases address with
    | named _ =>
      exact ⟨visitor, rfl, by simp only [reduceCtorEq, false_and, exists_false, or_false,
        implies_true]⟩
    | static g =>
      have hnew : (ComponentAddress.newOrPanic types g.nodeId : Outcome ε ComponentAddress) =
          .ok ⟨g.nodeId⟩ := by
        simp only [ComponentAddress.newOrPanic, types.identityIsComponent g hid, ↓reduceIte]
      by_cases hkey : methodName ∈ keys.map MethodKey.ident
      · have hany : (keys.any fun key => key.ident == methodName) = true := by
          simpa only [List.any_eq_true, beq_iff_eq, List.mem_map] using hkey
        refine ⟨⟨insert ⟨g.nodeId⟩ visitor.components⟩,
          by simp only [↓reduceIte, hnew, hany, Outcome.pure_eq_ok, Outcome.ok_bind], fun a => ?_⟩
        simp only [Finset.mem_insert, DynamicGlobalAddress.static.injEq, hkey, true_and,
          exists_eq_left', or_comm]
      · have hany : (keys.any fun key => key.ident == methodName) = false := by
          simpa only [List.any_eq_false, beq_iff_eq, List.mem_map, not_exists, not_and] using hkey
        exact ⟨visitor, by simp only [↓reduceIte, hnew, hany, Bool.false_eq_true,
          Outcome.pure_eq_ok, Outcome.ok_bind], by simp only [DynamicGlobalAddress.static.injEq,
          hkey, false_and, and_false, exists_false, or_false, implies_true]⟩

/-- Every run returns `Ok`, and records exactly what the visitor held and the components its
    calls qualify for. -/
theorem IdentityInteractionsVisitor.run_ok (calls : List MethodCall) :
    ∀ visitor : IdentityInteractionsVisitor, ∃ visitor',
      visitor.run types methods calls = (.ok visitor' : Outcome ε IdentityInteractionsVisitor) ∧
      ∀ a, a ∈ visitor'.components ↔ a ∈ visitor.components ∨
        ∃ call ∈ calls, call.RecordsIdentity types methods a := by
  induction calls with
  | nil => exact fun visitor => ⟨visitor, rfl, by
    simp only [List.not_mem_nil, false_and, exists_false, or_false, implies_true]⟩
  | cons call calls ih =>
    intro visitor
    obtain ⟨step, hstep, hmem⟩ := IdentityInteractionsVisitor.visitCallMethodRequiringAuth_ok ε
      types (methods.forModule call.module) visitor call.address call.methodName
    obtain ⟨final, hrun, hfinal⟩ := ih step
    refine ⟨final, ?_, fun a => ?_⟩
    · simp only [IdentityInteractionsVisitor.run, IdentityInteractionsVisitor.visit_eq, hstep,
        Outcome.ok_bind, hrun]
    · simp only [hfinal, hmem, List.mem_cons, exists_eq_or_imp, MethodCall.RecordsIdentity,
        or_assoc]

/-- **The identity visitor.** Every call returns `Ok` from any visitor, and a run of any calls
    from the default visitor outputs exactly the components of the calls that target a static
    identity address with a method on their module's list. -/
theorem IdentityInteractionsVisitor.run_output (calls : List MethodCall) :
    (∀ (visitor : IdentityInteractionsVisitor) (call : MethodCall),
      ∃ visitor', visitor.visit types methods call = (.ok visitor' : Outcome ε _)) ∧
    ∃ visitor, (default : IdentityInteractionsVisitor).run types methods calls =
        (.ok visitor : Outcome ε _) ∧
      ∀ a, a ∈ visitor.output ↔ ∃ call ∈ calls, call.RecordsIdentity types methods a := by
  refine ⟨fun visitor call => ?_, ?_⟩
  · obtain ⟨visitor', h, -⟩ := IdentityInteractionsVisitor.visitCallMethodRequiringAuth_ok ε
      types (methods.forModule call.module) visitor call.address call.methodName
    exact ⟨visitor', (IdentityInteractionsVisitor.visit_eq ε types methods visitor call).trans h⟩
  · obtain ⟨visitor, h, hmem⟩ := IdentityInteractionsVisitor.run_ok ε types methods calls default
    exact ⟨visitor, h, fun a => by
      simpa only [IdentityInteractionsVisitor.output, default, Finset.not_mem_empty, false_or]
        using hmem a⟩

end Runs

/-! ## Order and repetition -/

section Order

variable {ε : Type} {types : EntityTypes} {methods : MethodsRequiringAuth}

/-- **Calls in any order.** Two runs from the default visitor over the same calls, in whatever
    order and however often each is repeated, both return `Ok` with the same output. -/
theorem IdentityInteractionsVisitor.run_output_of_same_calls {calls calls' : List MethodCall}
    (hsame : ∀ call, call ∈ calls ↔ call ∈ calls') :
    ∃ visitor visitor',
      (default : IdentityInteractionsVisitor).run types methods calls =
        (.ok visitor : Outcome ε _) ∧
      (default : IdentityInteractionsVisitor).run types methods calls' =
        (.ok visitor' : Outcome ε _) ∧
      visitor.output = visitor'.output := by
  obtain ⟨visitor, h, hmem⟩ := IdentityInteractionsVisitor.run_ok ε types methods calls default
  obtain ⟨visitor', h', hmem'⟩ := IdentityInteractionsVisitor.run_ok ε types methods calls' default
  refine ⟨visitor, visitor', h, h', Finset.ext fun a => ?_⟩
  simp only [IdentityInteractionsVisitor.output, hmem, hmem', hsame]

end Order

/-- Entity types under which every static address is an identity's. -/
def EntityTypes.staticIdentities : EntityTypes where
  isIdentity
    | .static _ => true
    | .named _ => false
  isComponent _ := true
  identityIsComponent _ _ := rfl

theorem IdentityInteractionsVisitor.run_output_of_same_calls_swapped :
    (∀ call : MethodCall,
      call ∈ [⟨.main, .static ⟨[1]⟩, "lock_fee"⟩, ⟨.metadata, .static ⟨[2]⟩, "set"⟩] ↔
        call ∈ [⟨.metadata, .static ⟨[2]⟩, "set"⟩, ⟨.main, .static ⟨[1]⟩, "lock_fee"⟩]) ∧
    ∃ visitor visitor',
      (default : IdentityInteractionsVisitor).run .staticIdentities
          ⟨[⟨"lock_fee"⟩], [], [⟨"set"⟩], []⟩
          [⟨.main, .static ⟨[1]⟩, "lock_fee"⟩, ⟨.metadata, .static ⟨[2]⟩, "set"⟩] =
        (.ok visitor : Outcome Empty _) ∧
      (default : IdentityInteractionsVisitor).run .staticIdentities
          ⟨[⟨"lock_fee"⟩], [], [⟨"set"⟩], []⟩
          [⟨.metadata, .static ⟨[2]⟩, "set"⟩, ⟨.main, .static ⟨[1]⟩, "lock_fee"⟩] =
        (.ok visitor' : Outcome Empty _) ∧
      visitor.output = visitor'.output :=
  have hsame : ∀ call : MethodCall,
      call ∈ [⟨.main, .static ⟨[1]⟩, "lock_fee"⟩, ⟨.metadata, .static ⟨[2]⟩, "set"⟩] ↔
        call ∈ [⟨.metadata, .static ⟨[2]⟩, "set"⟩, ⟨.main, .static ⟨[1]⟩, "lock_fee"⟩] :=
    fun _ => (List.Perm.swap _ _ []).mem_iff
  ⟨hsame, IdentityInteractionsVisitor.run_output_of_same_calls hsame⟩
