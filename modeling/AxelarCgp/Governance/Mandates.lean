import AxelarCgp.Core.Projection
import AxelarCgp.Gateway.Authority
import AxelarCgp.Governance.TimeLock

/-!
# The mandate of a proposal

The governance contract beside the gateway that it asks.  Anybody may call either of them, in any
order.  Whatever the contract executes was submitted with a message of the gateway, so a quorum of
the signers in office signed it, for this contract, and it was submitted once.
-/

namespace AxelarCgp.Governance

open Machine NestedCodec

/-! ## The contract and its gateway -/

structure Realm where
  gatewayOwner : Address
  gateway : Gateway.State
  system : System

/-- A call of the gateway, or of the governance contract.  The gateway of the realm answers an
`execute`, whatever answer the input comes with. -/
inductive RealmInput where
  | gateway (ctx : CallContext) (call : Gateway.Call)
  | governance (input : Input)

abbrev GatewayEntry := Entry (CallContext × Gateway.Call) Gateway.Reply

/-- What the contract answers, and the call of the gateway that it made. -/
inductive RealmOutput where
  | gateway (reply : Gateway.Reply)
  | governance (output : Output) (asked : List GatewayEntry)

abbrev RealmHistory := List (Entry RealmInput RealmOutput)

namespace Realm

/-- The contract calls the gateway itself. -/
def nested (ctx : CallContext) (realm : Realm) : CallContext where
  caller := ctx.scAddress
  scAddress := realm.system.contract.gateway
  ownerAddress := realm.gatewayOwner
  blockTimestamp := ctx.blockTimestamp
  callValue := .none
  gasLeft := ctx.gasLeft

variable (builtinTransfers : BuiltinTransfers) (crypto : Crypto)

def gatewayValidateMessage (ctx : CallContext) (realm : Realm)
    (sourceChain messageId sourceAddress : ManagedBuffer) (payloadHash : Hash) :
    Outcome (Gateway.State × Gateway.Reply) :=
  Gateway.perform crypto (nested ctx realm)
    (.validateMessage sourceChain messageId sourceAddress payloadHash) realm.gateway

def perform (input : Input) (realm : Realm) : Outcome (Realm × RealmOutput) :=
  match input with
  | .execute ctx _ sourceChain messageId sourceAddress payload => do
      let validate := gatewayValidateMessage crypto ctx realm
      let input := Input.execute ctx (fun sourceChain messageId sourceAddress payloadHash =>
        (fun answer => answer.2.valid) <$>
          validate sourceChain messageId sourceAddress payloadHash)
        sourceChain messageId sourceAddress payload
      let (system, output) ← input.perform builtinTransfers crypto realm.system
      -- The one call that the contract makes, which a failure would have undone.
      let payloadHash := crypto.keccak256 payload.1
      let (gateway, reply) ← validate sourceChain messageId sourceAddress payloadHash
      return ({ realm with gateway, system }, .governance output [⟨(nested ctx realm,
        .validateMessage sourceChain messageId sourceAddress payloadHash), .ok reply⟩])
  | input => do
      let (system, output) ← input.perform builtinTransfers crypto realm.system
      return ({ realm with system }, .governance output [])

/-- Calls of either contract by anybody, and answers of calls in flight, in any order. -/
def machine : Machine Realm RealmInput RealmOutput where
  step realm input :=
    match input with
    | .gateway ctx call => do
        let (gateway, reply) ← Gateway.perform crypto ctx call realm.gateway
        return ({ realm with gateway }, .gateway reply)
    | .governance input => perform builtinTransfers crypto input realm

end Realm

/-- The input, where the gateway says yes. -/
def Input.validated : Input → Input
  | execute ctx _ sourceChain messageId sourceAddress payload =>
      execute ctx (fun _ _ _ _ => .ok true) sourceChain messageId sourceAddress payload
  | input => input

/-- What an entry shows of the gateway. -/
def gatewayView (entry : Entry RealmInput RealmOutput) : Gateway.History :=
  match entry.input, entry.result with
  | .gateway ctx call, .ok (.gateway reply) => [⟨(ctx, call), .ok reply⟩]
  | .governance _, .ok (.governance _ asked) => asked
  | _, _ => []

/-- What an entry shows of the governance contract. -/
def governanceView (entry : Entry RealmInput RealmOutput) : History :=
  match entry.input, entry.result with
  | .governance input, .ok (.governance output _) => [⟨input.validated, .ok output⟩]
  | _, _ => []

/-! ## One step -/

section Step

variable {builtinTransfers : BuiltinTransfers} {crypto : Crypto} {realm next : Realm}
variable {output : RealmOutput}

/-- A call that completes for the contract completes when the gateway says yes. -/
theorem perform_validated {input : Input} {system after : System} {result : Output}
    (hok : input.perform builtinTransfers crypto system = .ok (after, result)) :
    input.validated.perform builtinTransfers crypto system = .ok (after, result) := by
  cases input with
  | execute ctx validateMessage chain id address payload =>
      simp only [Input.perform, execute, Outcome.bind_eq_ok, Outcome.exists_unit,
        Prod.exists, Input.validated] at hok ⊢
      obtain ⟨hpayable, contract, effects, ⟨hsource, approved, hvalid, happroved, hcommand⟩,
        hsettle⟩ := hok
      rw [Outcome.require_eq_ok] at happroved
      exact ⟨hpayable, contract, effects, ⟨hsource, true, rfl, rfl, hcommand⟩, hsettle⟩
  | _ => exact hok

/-- What the contract does is a step of its own, and what it asks one of the gateway. -/
theorem Realm.perform_eq_ok {input : Input}
    (hok : Realm.perform builtinTransfers crypto input realm = .ok (next, output)) :
    ∃ result asked, output = .governance result asked ∧
      input.validated.perform builtinTransfers crypto realm.system = .ok (next.system, result) ∧
      (Gateway.machine crypto).Run realm.gateway asked next.gateway := by
  cases input with
  | execute ctx validateMessage chain id address payload =>
      simp only [Realm.perform, Outcome.bind_eq_ok, Outcome.pure_eq_ok, Prod.exists,
        Prod.mk.injEq] at hok
      obtain ⟨system, result, hperform, gateway, reply, hasked, rfl, rfl⟩ := hok
      have hvalidated := perform_validated hperform
      exact ⟨result, _, rfl, hvalidated, Run.start.completed hasked⟩
  | _ =>
      simp only [Realm.perform, Outcome.bind_eq_ok, Outcome.pure_eq_ok, Prod.exists,
        Prod.mk.injEq] at hok
      obtain ⟨system, result, hperform, rfl, rfl⟩ := hok
      exact ⟨result, [], rfl, hperform, .start⟩

theorem machine_gateway_eq_ok {ctx : CallContext} {call : Gateway.Call}
    (hok : (Realm.machine builtinTransfers crypto).step realm (.gateway ctx call) =
      .ok (next, output)) :
    ∃ reply, output = .gateway reply ∧ next.system = realm.system ∧
      Gateway.perform crypto ctx call realm.gateway = .ok (next.gateway, reply) := by
  simp only [Realm.machine, Outcome.bind_eq_ok, Outcome.pure_eq_ok, Prod.exists,
    Prod.mk.injEq] at hok
  obtain ⟨gateway, reply, hperform, rfl, rfl⟩ := hok
  exact ⟨reply, rfl, rfl, hperform⟩

end Step

/-! ## Two runs in one -/

section Runs

variable {builtinTransfers : BuiltinTransfers} {crypto : Crypto} {start realm : Realm}
variable {history : RealmHistory}

/-- What happens to the gateway is a run of it. -/
theorem gateway_run (hrun : (Realm.machine builtinTransfers crypto).Run start history realm) :
    (Gateway.machine crypto).Run start.gateway (history.flatMap gatewayView) realm.gateway := by
  apply hrun.project Realm.gateway gatewayView
  · intro before reached input output next _ hok
    cases input with
    | gateway ctx call =>
        obtain ⟨reply, rfl, _, hperform⟩ := machine_gateway_eq_ok hok
        exact Run.start.completed hperform
    | governance input =>
        obtain ⟨result, asked, rfl, _, hasked⟩ := Realm.perform_eq_ok hok
        exact hasked
  · intro before reached input message _ _
    cases input <;> exact .start

/-- What happens to the contract is a run of it, in which the gateway says yes to whatever the
contract goes on with. -/
theorem governance_run
    (hrun : (Realm.machine builtinTransfers crypto).Run start history realm) :
    (machine builtinTransfers crypto).Run start.system (history.flatMap governanceView)
      realm.system := by
  apply hrun.project Realm.system governanceView
  · intro before reached input output next _ hok
    cases input with
    | gateway ctx call =>
        obtain ⟨reply, rfl, hsystem, _⟩ := machine_gateway_eq_ok hok
        rw [hsystem]
        exact .start
    | governance input =>
        obtain ⟨result, asked, rfl, hperform, _⟩ := Realm.perform_eq_ok hok
        exact Run.start.completed hperform
  · intro before reached input message _ _
    cases input <;> exact .start

end Runs

/-! ## Whom the contract obeys -/

/-- The chain and the address that commands must come from. -/
def State.source (state : State) : ManagedBuffer × ManagedBuffer :=
  (state.governanceChain, state.governanceAddress)

section Source

variable {builtinTransfers : BuiltinTransfers} {crypto : Crypto} {ctx : CallContext}
variable {state contract : State} {effects : Effects}

theorem handleCallbackFailure_source (caller : Address) (payments : EgldOrMultiEsdtPayment)
    (state : State) : (handleCallbackFailure caller payments state).source = state.source := by
  cases payments with
  | egld value => rfl
  | multiEsdt esdts =>
      simp only [handleCallbackFailure]
      induction esdts generalizing state with
      | nil => rfl
      | cons esdt esdts ih => exact ih _

theorem processCommand_source {executePayload : ExecutePayload}
    (h : processCommand crypto ctx executePayload state = .ok (contract, effects)) :
    contract.source = state.source := by
  obtain ⟨command, target, callData, nativeValue, eta⟩ := executePayload
  cases command
  all_goals
    simp only [processCommand, scheduleTimeLock, approveOperatorProposal, Outcome.bind_eq_ok,
      Outcome.exists_unit, Outcome.pure_eq_ok, Prod.exists, Prod.mk.injEq] at h
  case scheduleTimeLockProposal =>
      obtain ⟨_, _, _, ⟨_, _, rfl, _⟩, rfl, _⟩ := h
      rfl
  case approveOperatorProposal =>
      obtain ⟨_, _, ⟨_, _, rfl⟩, rfl, _⟩ := h
      rfl
  case cancelTimeLockProposal | cancelOperatorApproval =>
      obtain ⟨_, rfl, _⟩ := h
      rfl

/-- Nobody changes whom the contract obeys. -/
theorem perform_source {input : Input} {system next : System} {output : Output}
    (hok : input.perform builtinTransfers crypto system = .ok (next, output)) :
    next.contract.source = system.contract.source := by
  cases input with
  | executeProposal ctx target callData nativeValue =>
      simp only [Input.perform, executeProposal, Outcome.bind_eq_ok, Outcome.exists_unit,
        Outcome.pure_eq_ok, Prod.exists, Prod.mk.injEq] at hok
      obtain ⟨contract, effects, ⟨_, _, _, _, _, _, rfl, rfl⟩, hsettle⟩ := hok
      rw [(settle_eq_ok hsettle).1]
      rfl
  | executeOperatorProposal ctx target callData nativeValue =>
      simp only [Input.perform, executeOperatorProposal, Outcome.bind_eq_ok,
        Outcome.exists_unit, Outcome.pure_eq_ok, Prod.exists, Prod.mk.injEq] at hok
      obtain ⟨contract, effects, ⟨_, _, _, _, _, _, _, rfl, rfl⟩, hsettle⟩ := hok
      rw [(settle_eq_ok hsettle).1]
      rfl
  | withdraw ctx recipient amount =>
      simp only [Input.perform, withdraw, Outcome.bind_eq_ok, Outcome.exists_unit,
        Outcome.pure_eq_ok, Prod.exists, Prod.mk.injEq] at hok
      obtain ⟨_, contract, effects, ⟨_, rfl, rfl⟩, hsettle⟩ := hok
      rw [(settle_eq_ok hsettle).1]
  | transferOperatorship ctx newOperator =>
      simp only [Input.perform, transferOperatorship, Outcome.bind_eq_ok, Outcome.exists_unit,
        Outcome.pure_eq_ok, Prod.exists, Prod.mk.injEq] at hok
      obtain ⟨_, contract, effects, ⟨_, _, rfl, rfl⟩, hsettle⟩ := hok
      rw [(settle_eq_ok hsettle).1]
      rfl
  | execute ctx validateMessage chain messageId address payload =>
      simp only [Input.perform, Outcome.bind_eq_ok, Outcome.exists_unit, Prod.exists] at hok
      obtain ⟨_, contract, effects, hexecute, hsettle⟩ := hok
      obtain ⟨_, executePayload, _, hcommand⟩ := execute_eq_ok hexecute
      rw [(settle_eq_ok hsettle).1]
      exact processCommand_source hcommand
  | withdrawRefundToken ctx token =>
      simp only [Input.perform, Outcome.bind_eq_ok, Outcome.exists_unit] at hok
      rw [(settle_eq_ok hok.2).1]
      rfl
  | callback index result =>
      obtain ⟨promise, _, _, _, _, hcontract, _⟩ := answer_eq_ok hok
      rw [hcontract]
      cases promise.callback.kind <;> cases result with
      | ok results => rfl
      | err errCode errMsg => exact handleCallbackFailure_source ..

theorem run_source {start system : System} {history : History}
    (hrun : (machine builtinTransfers crypto).Run start history system) :
    system.contract.source = start.contract.source :=
  hrun.invariant (P := fun system => system.contract.source = start.contract.source) rfl
    fun _ _ _ _ hbefore hok => (perform_source hok).trans hbefore

end Source

/-! ## Mandates -/

/-- A command that reaches the contract through its gateway. -/
structure Received where
  ctx : CallContext
  messageId : ManagedBuffer
  payload : ManagedBuffer

/-- What the signers must have approved, for the contract itself. -/
def Received.message (crypto : Crypto) (contract : State) (received : Received) :
    Gateway.Message where
  sourceChain := contract.governanceChain
  messageId := received.messageId
  sourceAddress := contract.governanceAddress
  contractAddress := received.ctx.scAddress
  payloadHash := crypto.keccak256 received.payload.1

/-- The entry is the execution of the command. -/
def Received.RecordedAs (contract : State) (received : Received)
    (entry : Entry RealmInput RealmOutput) : Prop :=
  ∃ validateMessage output asked,
    entry = ⟨.governance (.execute received.ctx validateMessage contract.governanceChain
      received.messageId contract.governanceAddress received.payload),
      .ok (.governance output asked)⟩

/-- A command submitted a proposal, which was neither taken back nor executed since, and the
signers in office had signed the command for the contract. -/
structure Mandated (crypto : Crypto) (contract : State) (gateway : Gateway.State)
    (events : List Gateway.Event) (kind : Kind) (target : Address) (callData : ManagedBuffer)
    (nativeValue : BigUint) (history : RealmHistory) (received : Received)
    (earlier later : RealmHistory) : Prop where
  recorded : ∃ entry, received.RecordedAs contract entry ∧ history = earlier ++ entry :: later
  submits : ∃ eta, topDecode received.payload.1 =
    some (⟨kind.submitCommand, target, callData, nativeValue, eta⟩ : ExecutePayload)
  stands : ∀ entry ∈ later.flatMap governanceView,
    ¬ Ended crypto kind target callData nativeValue entry
  authorised : Gateway.Authorised crypto gateway events (earlier.flatMap gatewayView)
    (received.message crypto contract)

section Mandates

variable {builtinTransfers : BuiltinTransfers} {crypto : Crypto} {start realm reached next : Realm}
variable {history before after : RealmHistory}

/-- A command that the contract executed was consumed at the gateway. -/
theorem perform_execute_eq_ok {ctx : CallContext}
    {validateMessage : ManagedBuffer → ManagedBuffer → ManagedBuffer → Hash → Outcome Bool}
    {chain messageId address payload : ManagedBuffer} {output : RealmOutput}
    (hok : Realm.perform builtinTransfers crypto
      (.execute ctx validateMessage chain messageId address payload) reached =
        .ok (next, output)) :
    (chain, address) = reached.system.contract.source ∧
      ∃ result reply, reply.valid = true ∧
        output = .governance result [⟨(Realm.nested ctx reached, .validateMessage chain messageId
          address (crypto.keccak256 payload.1)), .ok reply⟩] := by
  simp only [Realm.perform, Input.perform, execute, Outcome.bind_eq_ok, Outcome.exists_unit,
    Outcome.require_eq_ok, Outcome.pure_eq_ok, Prod.exists, Prod.mk.injEq] at hok
  obtain ⟨system, result, ⟨_, _, _, ⟨⟨hchain, haddress⟩, approved, hasked, happroved, _⟩, _⟩,
    gateway, reply, hvalidate, _, rfl⟩ := hok
  rw [hvalidate] at hasked
  obtain rfl : reply.valid = approved := Except.ok.inj hasked
  exact ⟨by rw [State.source, hchain, haddress], result, reply, happroved, rfl⟩

/-- Before the contract executed a command, the signers had approved it for the contract, and it
had not been consumed. -/
theorem authorised_of_executed {deployed ctx : CallContext} {retention : ℕ}
    {domainSeparator : Hash} {gatewayDelay : UInt64} {gatewayOperator : Address}
    {signers : List Gateway.WeightedSigners} {events : List Gateway.Event}
    {validateMessage : ManagedBuffer → ManagedBuffer → ManagedBuffer → Hash → Outcome Bool}
    {chain messageId address payload : ManagedBuffer} {output : RealmOutput}
    (hgateway : Gateway.init crypto deployed retention domainSeparator gatewayDelay
      gatewayOperator signers = .ok (start.gateway, events))
    (hrun : (Realm.machine builtinTransfers crypto).Run start history realm)
    (hkeccak : Set.InjOn crypto.keccak256
      (Gateway.messagePreimages (history.flatMap gatewayView) ∪
        Gateway.signersHashed events (history.flatMap gatewayView)))
    (hhistory : history = before ++ ⟨.governance (.execute ctx validateMessage chain messageId
      address payload), .ok output⟩ :: after) :
    (chain, address) = start.system.contract.source ∧
      Gateway.Authorised crypto start.gateway events (before.flatMap gatewayView)
        ⟨chain, messageId, address, ctx.scAddress, crypto.keccak256 payload.1⟩ := by
  subst hhistory
  obtain ⟨reached, next, hbefore, hok, _⟩ := hrun.step_at
  have hexecuted : Realm.perform builtinTransfers crypto (.execute ctx validateMessage chain
    messageId address payload) reached = .ok (next, output) := hok
  obtain ⟨hsource, result, reply, hvalid, rfl⟩ := perform_execute_eq_ok hexecuted
  refine ⟨hsource.trans (run_source (governance_run hbefore)), ?_⟩
  have hwhole := gateway_run hrun
  rw [List.flatMap_append, List.flatMap_cons] at hwhole hkeccak
  obtain ⟨hfirst, hnone⟩ := Gateway.firstAccepted_of_consumed (Gateway.Tracks.init hgateway)
    hwhole (hkeccak.mono Set.subset_union_left) rfl hvalid
  have hsigners : Set.InjOn crypto.keccak256
      (Gateway.signersHashed events (before.flatMap gatewayView)) :=
    hkeccak.mono (Gateway.signersHashed_subset.trans Set.subset_union_right)
  exact ⟨Gateway.approves_of_first hgateway (gateway_run hbefore) hsigners hfirst, hnone⟩

/-- The answer of the gateway has no part in an execution. -/
theorem eq_execution_of_validated {kind : Kind} {input : Input} {ctx : CallContext}
    {target : Address} {callData : ManagedBuffer} {nativeValue : BigUint}
    (h : input.validated = kind.execution ctx target callData nativeValue) :
    input = kind.execution ctx target callData nativeValue := by
  cases input with
  | execute => cases kind <;> simp [Input.validated, Kind.execution] at h
  | _ => exact h

/-- Only a call of the contract that completed shows of it. -/
theorem mem_governanceView {entry : Entry RealmInput RealmOutput} {part : Entry Input Output}
    (h : part ∈ governanceView entry) :
    ∃ input output asked, entry = ⟨.governance input, .ok (.governance output asked)⟩ ∧
      part = ⟨input.validated, .ok output⟩ := by
  obtain ⟨input, result⟩ := entry
  unfold governanceView at h
  split at h
  · rename_i input output asked hinput hresult
    simp only at hinput hresult
    subst hinput
    subst hresult
    exact ⟨_, _, _, rfl, List.mem_singleton.mp h⟩
  · simp at h

/-- Whatever the contract executes has a mandate: the signers in office signed the command that
submitted it, and it stands. -/
theorem executions_mandated {deployed : CallContext} {retention : ℕ} {domainSeparator : Hash}
    {gatewayDelay delay : UInt64} {owner gatewayOperator gatewayAddress operator : Address}
    {signers : List Gateway.WeightedSigners} {events : List Gateway.Event}
    {gateway : Gateway.State} {governanceChain governanceAddress : ManagedBuffer}
    {contract : State} {input : Input} {output : Output} {asked : List GatewayEntry}
    {promise : Promise}
    (hgateway : Gateway.init crypto deployed retention domainSeparator gatewayDelay
      gatewayOperator signers = .ok (gateway, events))
    (hinit : init gatewayAddress governanceChain governanceAddress delay operator = .ok contract)
    (hrun : (Realm.machine builtinTransfers crypto).Run ⟨owner, gateway, .deploy contract⟩ history
      realm)
    (hproposals : Set.InjOn crypto.keccak256 (proposalPreimages (history.flatMap governanceView)))
    (hkeccak : Set.InjOn crypto.keccak256
      (Gateway.messagePreimages (history.flatMap gatewayView) ∪
        Gateway.signersHashed events (history.flatMap gatewayView)))
    (hhistory : history = before ++ ⟨.governance input, .ok (.governance output asked)⟩ :: after)
    (hpromise : output.effects.promise = some promise) :
    ∃ ctx target callData nativeValue received earlier later,
      input = promise.callback.kind.execution ctx target callData nativeValue ∧
      Dispatches promise.callback.kind (getProposalHash crypto target callData nativeValue) ctx
        target callData nativeValue promise ∧
      Mandated crypto contract gateway events promise.callback.kind target callData nativeValue
        before received earlier later := by
  subst hhistory
  obtain ⟨reached, next, hbefore, hok, _⟩ := hrun.step_at
  obtain ⟨result, _, hresult, hperform, _⟩ := Realm.perform_eq_ok hok
  obtain ⟨rfl, rfl⟩ := RealmOutput.governance.inj hresult
  obtain ⟨ctx, target, callData, nativeValue, hinput, hdispatches⟩ :=
    promise_origin hperform hpromise
  obtain rfl := eq_execution_of_validated hinput
  refine ⟨ctx, target, callData, nativeValue, ?_⟩
  have hview : governanceView ⟨.governance (promise.callback.kind.execution ctx target callData
      nativeValue), .ok (.governance output asked)⟩ =
      [⟨promise.callback.kind.execution ctx target callData nativeValue, .ok output⟩] :=
    congrArg (fun input => [(⟨input, .ok output⟩ : Entry Input Output)]) hinput
  have hwhole := governance_run hrun
  rw [List.flatMap_append, List.flatMap_cons, hview, List.singleton_append]
    at hwhole hproposals
  obtain ⟨_, _, _, _, hsince⟩ := executed_since hinit hwhole hproposals
  obtain ⟨earlier, entry, later, rfl, ⟨part, hpart, time, eta, hcommanded, _⟩, hstands⟩ :=
    hsince.of_flatMap
  obtain ⟨command, _, asked, rfl, rfl⟩ := mem_governanceView hpart
  obtain ⟨_, _, _, _, _, _, _, hentry, _, hdecode, _⟩ := hcommanded
  obtain ⟨hcommand, _⟩ := Entry.mk.inj hentry
  cases command with
  | execute ctx validateMessage chain messageId address payload =>
      obtain ⟨hsource, hauthorised⟩ := authorised_of_executed hgateway hrun hkeccak
        (List.append_assoc ..)
      obtain ⟨rfl, _, rfl, rfl, rfl, rfl⟩ := Input.execute.inj hcommand
      obtain ⟨rfl, rfl⟩ := Prod.mk.inj hsource
      exact ⟨⟨_, _, _⟩, earlier, later, rfl, hdispatches, ⟨_, ⟨_, _, _, rfl⟩, rfl⟩, ⟨eta, hdecode⟩,
        hstands, hauthorised⟩
  | _ => simp [Input.validated] at hcommand

end Mandates

/-! ## A proposal that the signers sent -/

/-- The command to schedule the sample proposal. -/
def sampleMandate : Gateway.Message where
  sourceChain := sampleBuffer (Bytes.ascii ['c'])
  messageId := sampleBuffer (Bytes.ascii ['a'])
  sourceAddress := sampleBuffer (Bytes.ascii ['g'])
  contractAddress := (sampleContext 100 0).scAddress
  payloadHash := writeNat 32
    0xa7930fd7bd378ac70a532ec743979d2bc01df734d7418a37c582432bf9ac1110

def sampleMandateBatch : ManagedBuffer := sampleBuffer (depEncode sampleMandate)

def sampleMandateDataHash : Hash := writeNat 32
  0x401d8906acdc977fff755882a3defdd65e3b148a08f84dcdff56e0b409b3502d

def sampleMandateHashToSign : Hash := writeNat 32
  0x94e2f026964a3633b3ade3770a94103d921293c63f7add703f2045314df15ce6

def sampleMandateSignature : FixedBytes 64 :=
  ⟨(writeNat 32 0x3fcf3c2e6a7292f6237f63eeadaaf5cfec57471a9d3a82b2b5931875ffcd3f30).1 ++
    (writeNat 32 0xcd7e91a183cecad4986f11d36be9042196e4962cbc75c91de27eb4dc07e8ea05).1,
    by simp [writeNat]⟩

def sampleRealmCrypto : Crypto :=
  let signersHash : Hash := writeNat 32
    0xbdf4457dd6e79dd86b3c4a66d882684429f4d02790f30c57e5368994791f1fca
  Crypto.tabulated
    [(proposalPreimage sampleTarget (sampleCallData 'a') sampleValue, writeNat 32
        0x6f2ecae99cc4983d647ddae71aeae8b585b278952b6c521b9662ec9a65ed7a95),
      ((samplePayload .scheduleTimeLockProposal 'a').1, sampleMandate.payloadHash),
      (Gateway.signersHashPreimage (Gateway.sampleSigners 0), signersHash),
      (0 :: sampleMandateBatch.1, sampleMandateDataHash),
      (Gateway.multiversxSignedMessagePrefix ++ Address.zero.1 ++ signersHash.1 ++
        sampleMandateDataHash.1, sampleMandateHashToSign),
      (sampleMandate.preimage, writeNat 32
        0x1e745902c3f4a199f82c2771ee2b4417509262aeb92e2c38119c9c2b57589f1a)]
    [(Gateway.sampleKey.1, sampleMandateHashToSign.1, sampleMandateSignature.1)]

def sampleGateway : Outcome (Gateway.State × List Gateway.Event) :=
  Gateway.init sampleRealmCrypto Gateway.sampleContext 0 Address.zero 0 Address.zero
    [Gateway.sampleSigners 0]

/-- The signers approve the command, it is executed, and then the proposal is. -/
def sampleRealmInputs : List RealmInput :=
  [.gateway Gateway.sampleContext (.approveMessages sampleMandateBatch
      ⟨Gateway.sampleSigners 0, ⟨[some sampleMandateSignature], by decide⟩⟩),
    .governance (sampleCommand .scheduleTimeLockProposal 'a'),
    .governance (.executeProposal (sampleContext 110 10) sampleTarget (sampleCallData 'a')
      sampleValue)]

def sampleRealmHistory (gateway : Gateway.State) (contract : State) : RealmHistory :=
  ((Realm.machine noTransfers sampleRealmCrypto).replay ⟨Address.zero, gateway, .deploy contract⟩
    sampleRealmInputs).1

/-- The entry is a call of the contract that sends a call off. -/
def dispatches (entry : Entry RealmInput RealmOutput) : Bool :=
  match entry.input, entry.result with
  | .governance _, .ok (.governance output _) => output.effects.promise.isSome
  | _, _ => false

theorem dispatches_eq_true {entry : Entry RealmInput RealmOutput} (h : dispatches entry = true) :
    ∃ input output asked promise, entry = ⟨.governance input, .ok (.governance output asked)⟩ ∧
      output.effects.promise = some promise := by
  obtain ⟨input, result⟩ := entry
  unfold dispatches at h
  split at h
  · rename_i input output asked hinput hresult
    simp only at hinput hresult
    subst hinput
    subst hresult
    obtain ⟨promise, hpromise⟩ := Option.isSome_iff_exists.mp h
    exact ⟨_, _, _, promise, rfl, hpromise⟩
  · simp at h

theorem sampleRealm_replay : (do
    let (gateway, events) ← sampleGateway
    let contract ← sampleInit
    let history := sampleRealmHistory gateway contract
    return (history.any dispatches,
      onlyAbout 'a' ((history.flatMap governanceView).map Entry.input),
      Gateway.hashesApart sampleRealmCrypto events (history.flatMap gatewayView))) =
    .ok (true, true, true) := by
  decide +kernel

theorem sample_executions_mandated : ∃ contract gateway events kind target callData nativeValue,
    sampleInit = .ok contract ∧ sampleGateway = .ok (gateway, events) ∧
    ∃ history received earlier later, Mandated sampleRealmCrypto contract gateway events kind
      target callData nativeValue history received earlier later := by
  have hreplay := sampleRealm_replay
  simp only [Outcome.bind_eq_ok, Outcome.pure_eq_ok, Prod.exists, Prod.mk.injEq] at hreplay
  obtain ⟨gateway, events, hgateway, contract, hinit, hany, habout, hapart⟩ := hreplay
  have hrun := (Realm.machine noTransfers sampleRealmCrypto).run_replay
    ⟨Address.zero, gateway, .deploy contract⟩ sampleRealmInputs
  obtain ⟨entry, hentry, hdispatches⟩ := List.any_eq_true.mp hany
  obtain ⟨input, output, asked, promise, rfl, hpromise⟩ := dispatches_eq_true hdispatches
  obtain ⟨before, after, hhistory⟩ := List.append_of_mem hentry
  obtain ⟨_, target, callData, nativeValue, received, earlier, later, _, _, hmandated⟩ :=
    executions_mandated hgateway hinit hrun (injOn_of_onlyAbout habout)
      (Gateway.injOn_of_hashesApart hapart) hhistory hpromise
  exact ⟨contract, gateway, events, _, target, callData, nativeValue, hinit, hgateway, before,
    received, earlier, later, hmandated⟩

end AxelarCgp.Governance
