import AxelarCgp.Gateway.LifeCycle
import AxelarCgp.Its.Managers

/-!
# Messages from the hub

The service consumes a message at the gateway and does what the message wraps, except that
one kind of message is first only looked at.  Besides this nothing but the transactions
with the gateway itself changes where a message stands.
-/

namespace AxelarCgp.Its

open Transaction

section Messages

variable {crypto : Crypto} {env : Environment} {ctx : CallContext} {world last : World}
variable {trace : List Action} {sourceChain messageId sourceAddress payload : ManagedBuffer}
variable {payloadHash : Hash}

theorem HubMessage.unique {messageType otherType : ℕ} {chain inner otherChain otherInner :
      ManagedBuffer} (h : HubMessage payload messageType chain inner)
    (hother : HubMessage payload otherType otherChain otherInner) :
    otherType = messageType ∧ otherChain = chain ∧ otherInner = inner := by
  obtain ⟨_, htype, data, hdata, rfl, rfl⟩ := h
  obtain ⟨_, hotherType, otherData, hotherData, rfl, rfl⟩ := hother
  obtain rfl := Except.ok.inj (hdata.symm.trans hotherData)
  exact ⟨Except.ok.inj (hotherType.symm.trans htype), rfl, rfl⟩

/-! ## At the gateway -/

/-- The message is approved for a contract, with a payload of this hash. -/
def World.Approved (crypto : Crypto) (sourceChain messageId sourceAddress : ManagedBuffer)
    (contractAddress : Address) (payloadHash : Hash) (world : World) : Prop :=
  world.gateway.messagesGet ⟨sourceChain, messageId⟩ = .ok (.approved (Gateway.messageHash crypto
    ⟨sourceChain, messageId⟩ sourceAddress contractAddress payloadHash))

/-- The world once a message is consumed. -/
def World.consume (sourceChain messageId : ManagedBuffer) (world : World) : World :=
  { world with gateway := world.gateway.messagesSet ⟨sourceChain, messageId⟩ .executed }

/-- The entry of the trace for a message that the service consumes. -/
def consumption (env : Environment) (ctx : CallContext) (world : World)
    (sourceChain messageId sourceAddress : ManagedBuffer) (payloadHash : Hash) : Action :=
  .gateway (nested env ctx world.its.gateway .none)
    (.validateMessage sourceChain messageId sourceAddress payloadHash)
    ⟨true, [.messageExecuted sourceChain messageId]⟩

/-- Messages are consumed when they are approved for the service. -/
theorem gatewayValidateMessage_eq_ok :
    gatewayValidateMessage crypto env ctx sourceChain messageId sourceAddress payloadHash world =
        .ok ⟨true, last, trace⟩ ↔
      world.Approved crypto sourceChain messageId sourceAddress ctx.scAddress payloadHash ∧
      last = world.consume sourceChain messageId ∧
      trace = [consumption env ctx world sourceChain messageId sourceAddress payloadHash] := by
  simp only [gatewayValidateMessage, Transaction.bind_eq_ok, reads_eq_ok, callGateway_eq_ok,
    Transaction.pure_eq_ok]
  constructor
  · rintro ⟨_, _, _, _, ⟨rfl, rfl, rfl⟩, ⟨⟨_, events⟩, _, _, _, ⟨gateway, hperform, rfl, rfl⟩,
      ⟨rfl, rfl, rfl⟩, rfl⟩, rfl⟩
    rcases Gateway.validateMessage_eq_ok (Gateway.perform_eq_ok hperform) with
      ⟨_, hget, rfl, rfl⟩ | ⟨hinvalid, _⟩
    · exact ⟨hget, rfl, rfl⟩
    · simp at hinvalid
  · rintro ⟨happroved, rfl, rfl⟩
    refine ⟨_, _, _, _, ⟨rfl, rfl, rfl⟩, ⟨⟨true, [.messageExecuted sourceChain messageId]⟩, _, _, _,
      ⟨_, ?_, rfl, rfl⟩, ⟨rfl, rfl, rfl⟩, rfl⟩, rfl⟩
    have hget : world.gateway.messagesGet ⟨sourceChain, messageId⟩ =
        .ok (.approved (Gateway.messageHash crypto ⟨sourceChain, messageId⟩ sourceAddress
          (nested env ctx world.its.gateway .none).caller payloadHash)) := happroved
    simp [Gateway.perform, Gateway.validateMessage, requireNotPayable, nested,
      Environment.context, EgldOrMultiEsdtPayment.none, require, hget]

theorem gatewayIsMessageApproved_eq_ok :
    gatewayIsMessageApproved crypto ctx sourceChain messageId sourceAddress payloadHash world =
        .ok ⟨true, last, trace⟩ ↔
      world.Approved crypto sourceChain messageId sourceAddress ctx.scAddress payloadHash ∧
      last = world ∧ trace = [] := by
  simp only [gatewayIsMessageApproved, Gateway.isMessageApproved, Transaction.bind_eq_ok,
    reads_eq_ok, lift_eq_ok, Outcome.bind_eq_ok, Outcome.pure_eq_ok, decide_eq_true_eq]
  constructor
  · rintro ⟨_, _, _, _, ⟨rfl, rfl, rfl⟩, ⟨⟨_, hget, rfl⟩, rfl, rfl⟩, rfl⟩
    exact ⟨hget, rfl, rfl⟩
  · rintro ⟨happroved, rfl, rfl⟩
    exact ⟨_, _, _, _, ⟨rfl, rfl, rfl⟩, ⟨⟨_, happroved, rfl⟩, rfl, rfl⟩, rfl⟩

/-! ## What messages do -/

/-- Deploying a token takes two messages, or rather one message twice: it is looked at when
its token has no manager, and is consumed when there is one. -/
inductive DeploysRemote (crypto : Crypto) (env : Environment) (ctx : CallContext)
    (sourceChain messageId sourceAddress : ManagedBuffer) (payloadHash : Hash)
    (data : DeployInterchainTokenPayload) (world : World) : List Action → World → Prop
  | manager {address : Address} {trace : List Action} {last : World} :
      world.its.tokenManagerAddress data.tokenId = none → egldValue ctx = .ok 0 →
      world.Approved crypto sourceChain messageId sourceAddress ctx.scAddress payloadHash →
      deployTokenManagerRaw env ctx data.tokenId .nativeInterchainToken none data.minter world =
        .ok ⟨address, last, trace⟩ →
      DeploysRemote crypto env ctx sourceChain messageId sourceAddress payloadHash data world
        trace last
  | token {minter : Option Address} {rest : List Action} {last : World} :
      world.its.tokenManagerAddress data.tokenId ≠ none →
      world.Approved crypto sourceChain messageId sourceAddress ctx.scAddress payloadHash →
      toOptionalAddress data.minter = .ok minter →
      tokenManagerDeployInterchainToken env ctx data.tokenId minter data.name data.symbol
        data.decimals ctx.caller (world.consume sourceChain messageId) = .ok ⟨(), last, rest⟩ →
      DeploysRemote crypto env ctx sourceChain messageId sourceAddress payloadHash data world
        (consumption env ctx world sourceChain messageId sourceAddress payloadHash :: rest) last

theorem processDeployInterchainTokenPayload_eq_ok
    (h : processDeployInterchainTokenPayload crypto env ctx sourceChain messageId sourceAddress
      payloadHash payload world = .ok ⟨(), last, trace⟩) :
    ∃ data, abiDecode payload = .ok data ∧ DeploysRemote crypto env ctx sourceChain messageId
      sourceAddress payloadHash data world trace last := by
  simp only [processDeployInterchainTokenPayload, Transaction.bind_eq_ok, lift_eq_ok,
    reads_eq_ok] at h
  obtain ⟨data, _, _, _, ⟨hdata, rfl, rfl⟩, ⟨_, _, _, _, ⟨rfl, rfl, rfl⟩, h, rfl⟩, rfl⟩ := h
  refine ⟨data, hdata, ?_⟩
  simp only [List.nil_append]
  split at h
  · rename_i hnone
    simp only [requireNoEgld, Transaction.bind_eq_ok, Outcome.exists_unit, lift_eq_ok,
      Outcome.require_eq_ok, Transaction.pure_eq_ok] at h
    obtain ⟨_, _, _, _, ⟨hvalue, rfl, rfl⟩, ⟨_, _, _, ⟨rfl, rfl, rfl⟩, ⟨valid, _, _, _, happroved,
      ⟨_, _, _, ⟨rfl, rfl, rfl⟩, ⟨address, _, _, _, hdeploy, ⟨_, rfl, rfl⟩, rfl⟩, rfl⟩, rfl⟩, rfl⟩,
        rfl⟩ := h
    obtain ⟨hstands, rfl, rfl⟩ := gatewayIsMessageApproved_eq_ok.mp happroved
    simpa using DeploysRemote.manager hnone hvalue hstands hdeploy
  · rename_i hmanager
    simp only [Transaction.bind_eq_ok, Outcome.exists_unit, lift_eq_ok,
      Outcome.require_eq_ok] at h
    obtain ⟨valid, _, _, _, hvalidate, ⟨_, _, _, ⟨rfl, rfl, rfl⟩, ⟨minter, _, _, _,
      ⟨hminter, rfl, rfl⟩, hissue, rfl⟩, rfl⟩, rfl⟩ := h
    obtain ⟨happroved, rfl, rfl⟩ := gatewayValidateMessage_eq_ok.mp hvalidate
    exact .token hmanager happroved hminter hissue

/-- What the service does with a message depends on what it wraps. -/
inductive Takes (crypto : Crypto) (env : Environment) (ctx : CallContext)
    (sourceChain messageId sourceAddress payload : ManagedBuffer) (world : World) :
    List Action → World → Prop
  | transfer {chain inner : ManagedBuffer} {rest : List Action} {last : World} :
      HubMessage payload MESSAGE_TYPE_INTERCHAIN_TRANSFER chain inner → egldValue ctx = .ok 0 →
      world.Approved crypto sourceChain messageId sourceAddress ctx.scAddress
        (crypto.keccak256 payload.1) →
      processInterchainTransferPayload crypto env ctx chain messageId inner
        (world.consume sourceChain messageId) = .ok ⟨(), last, rest⟩ →
      Takes crypto env ctx sourceChain messageId sourceAddress payload world
        (consumption env ctx world sourceChain messageId sourceAddress
          (crypto.keccak256 payload.1) :: rest) last
  | deploy {chain inner : ManagedBuffer} {data : DeployInterchainTokenPayload}
      {trace : List Action} {last : World} :
      HubMessage payload MESSAGE_TYPE_DEPLOY_INTERCHAIN_TOKEN chain inner →
      abiDecode inner = .ok data →
      DeploysRemote crypto env ctx sourceChain messageId sourceAddress
        (crypto.keccak256 payload.1) data world trace last →
      Takes crypto env ctx sourceChain messageId sourceAddress payload world trace last
  | link {chain inner : ManagedBuffer} {rest : List Action} {last : World} :
      HubMessage payload MESSAGE_TYPE_LINK_TOKEN chain inner → egldValue ctx = .ok 0 →
      world.Approved crypto sourceChain messageId sourceAddress ctx.scAddress
        (crypto.keccak256 payload.1) →
      processLinkTokenPayload env ctx inner (world.consume sourceChain messageId) =
        .ok ⟨(), last, rest⟩ →
      Takes crypto env ctx sourceChain messageId sourceAddress payload world
        (consumption env ctx world sourceChain messageId sourceAddress
          (crypto.keccak256 payload.1) :: rest) last

theorem DeploysRemote.approved {data : DeployInterchainTokenPayload}
    (h : DeploysRemote crypto env ctx sourceChain messageId sourceAddress payloadHash data world
      trace last) :
    world.Approved crypto sourceChain messageId sourceAddress ctx.scAddress payloadHash := by
  cases h with
  | manager _ _ happroved => exact happroved
  | token _ happroved => exact happroved

/-- Whatever a message makes the service do, the message is approved. -/
theorem Takes.approved
    (h : Takes crypto env ctx sourceChain messageId sourceAddress payload world trace last) :
    world.Approved crypto sourceChain messageId sourceAddress ctx.scAddress
      (crypto.keccak256 payload.1) := by
  cases h with
  | transfer _ _ happroved => exact happroved
  | deploy _ _ hdeploys => exact hdeploys.approved
  | link _ _ happroved => exact happroved

/-- The service takes messages of the hub, from chains that it trusts, when it is not
paused. -/
structure Executes (crypto : Crypto) (env : Environment) (ctx : CallContext)
    (sourceChain messageId sourceAddress payload : ManagedBuffer) (world : World)
    (trace : List Action) (last : World) : Prop where
  running : world.its.paused = false
  hub : sourceChain = ITS_HUB_CHAIN_NAME ∧ world.its.itsHubAddress = sourceAddress
  trusted : ∀ messageType chain inner, HubMessage payload messageType chain inner →
    world.its.trustedChains chain = true
  takes : Takes crypto env ctx sourceChain messageId sourceAddress payload world trace last

theorem execute_eq_ok
    (h : execute crypto env ctx sourceChain messageId sourceAddress payload world =
      .ok ⟨(), last, trace⟩) :
    Executes crypto env ctx sourceChain messageId sourceAddress payload world trace last := by
  simp only [execute, requireNotPaused, onlyItsHub, Transaction.bind_eq_ok, Outcome.exists_unit,
    reads_eq_ok, lift_eq_ok, Outcome.require_eq_ok, Bool.not_eq_true] at h
  obtain ⟨_, _, _, ⟨_, _, _, _, ⟨rfl, rfl, rfl⟩, ⟨hrunning, rfl, rfl⟩, rfl⟩, ⟨_, _, _,
    ⟨_, _, _, _, ⟨rfl, rfl, rfl⟩, ⟨hhub, rfl, rfl⟩, rfl⟩, ⟨⟨messageType, chain, inner⟩, _, _, _,
      hparams, h, rfl⟩, rfl⟩, rfl⟩ := h
  obtain ⟨hmessage, htrusted⟩ := getExecuteParams_eq_ok hparams
  obtain ⟨rfl, rfl⟩ := inspects_getExecuteParams _ _ _ _ _ hparams
  have htrust : ∀ otherType otherChain otherInner,
      HubMessage payload otherType otherChain otherInner →
      world.its.trustedChains otherChain = true := by
    intro otherType otherChain otherInner hother
    rw [(hmessage.unique hother).2.1]
    exact htrusted
  refine ⟨hrunning, hhub, htrust, ?_⟩
  simp only [List.nil_append]
  split at h
  · rename_i htype
    obtain rfl : messageType = _ := htype
    simp only [requireNoEgld, Transaction.bind_eq_ok, Outcome.exists_unit, lift_eq_ok,
      Outcome.require_eq_ok] at h
    obtain ⟨_, _, _, _, ⟨hvalue, rfl, rfl⟩, ⟨_, _, _, ⟨rfl, rfl, rfl⟩, ⟨valid, _, _, _, hvalidate,
      ⟨_, _, _, ⟨rfl, rfl, rfl⟩, hprocess, rfl⟩, rfl⟩, rfl⟩, rfl⟩ := h
    obtain ⟨happroved, rfl, rfl⟩ := gatewayValidateMessage_eq_ok.mp hvalidate
    exact .transfer hmessage hvalue happroved hprocess
  · split at h
    · rename_i htype
      obtain rfl : messageType = _ := htype
      obtain ⟨data, hdata, hdeploys⟩ := processDeployInterchainTokenPayload_eq_ok h
      exact .deploy hmessage hdata hdeploys
    · split at h
      · rename_i htype
        obtain rfl : messageType = _ := htype
        simp only [requireNoEgld, Transaction.bind_eq_ok, Outcome.exists_unit, lift_eq_ok,
          Outcome.require_eq_ok] at h
        obtain ⟨_, _, _, _, ⟨hvalue, rfl, rfl⟩, ⟨_, _, _, ⟨rfl, rfl, rfl⟩, ⟨valid, _, _, _,
          hvalidate, ⟨_, _, _, ⟨rfl, rfl, rfl⟩, hprocess, rfl⟩, rfl⟩, rfl⟩, rfl⟩ := h
        obtain ⟨happroved, rfl, rfl⟩ := gatewayValidateMessage_eq_ok.mp hvalidate
        exact .link hmessage hvalue happroved hprocess
      · exact absurd (lift_eq_ok.mp h).1 (by simp)

end Messages

/-! ## Steps that consume nothing -/

/-- The action consumes a message. -/
def Action.consumes (id : Gateway.CrossChainId) : Action → Bool
  | .gateway ctx call reply => Gateway.validates id ⟨(ctx, call), .ok reply⟩
  | _ => false

/-- How often a message is consumed. -/
def consumptions (id : Gateway.CrossChainId) (trace : List Action) : ℕ :=
  trace.countP (Action.consumes id)

theorem consumptions_append (id : Gateway.CrossChainId) (first second : List Action) :
    consumptions id (first ++ second) = consumptions id first + consumptions id second :=
  List.countP_append

theorem consumptions_cons (id : Gateway.CrossChainId) (action : Action) (trace : List Action) :
    consumptions id (action :: trace) =
      consumptions id trace + if action.consumes id then 1 else 0 :=
  List.countP_cons

/-- The gateway is as it was, and no message was consumed. -/
structure KeepsGateway (before : World) (trace : List Action) (after : World) : Prop where
  gateway : after.gateway = before.gateway
  unconsumed : ∀ id, consumptions id trace = 0

namespace KeepsGateway

theorem composes : Composes fun _ : ℕ => KeepsGateway where
  nil _ := ⟨rfl, fun _ => rfl⟩
  append first second := {
    gateway := second.gateway.trans first.gateway
    unconsumed := fun id => by
      rw [consumptions_append, first.unconsumed, second.unconsumed] }
  mono _ h := h

theorem callManager {env : Environment} {ctx : CallContext} (call : TokenManager.Call) :
    Satisfies KeepsGateway (callManager env ctx call) := by
  intro before reply after trace h
  obtain ⟨_, _, actions, _, _, _, _, rfl, rfl⟩ := callManager_manager h
  exact ⟨rfl, fun _ => rfl⟩

theorem quietRules {crypto : Crypto} {service : Address} :
    QuietRules crypto service AnyEffect KeepsGateway where
  composes := composes
  ledger _ _ := ⟨rfl, fun _ => rfl⟩
  pending _ _ := ⟨rfl, fun _ => rfl⟩
  note world action hnote := by
    refine ⟨rfl, fun id => ?_⟩
    cases action with
    | gateway => simp [Action.isNote] at hnote
    | _ => rfl
  storage _ _ _ := ⟨rfl, fun _ => rfl⟩
  roles _ _ _ := ⟨rfl, fun _ => rfl⟩
  status _ _ _ := .modifies fun _ => ⟨rfl, fun _ => rfl⟩
  approval _ _ _ := .modifies fun _ => ⟨rfl, fun _ => rfl⟩
  deploy env ctx tokenId managerType tokenIdentifier operator _ _ := by
    intro before address after trace h
    obtain ⟨_, _, _, _, _, _, _, _, rfl, rfl⟩ := deployTokenManagerRaw_eq_ok h
    exact ⟨rfl, fun _ => rfl⟩
  command _ _ _ call _ _ := callManager call
  transfers _ _ call _ := callManager call
  callback env manager ctx user result := by
    rintro before ⟨_, actions⟩ after trace h
    obtain ⟨_, _, _, _, _, _, rfl, rfl⟩ := runManager_manager h
    exact ⟨rfl, fun _ => rfl⟩
  announces ctx chain address payload := by
    intro before reply after trace h
    obtain ⟨gateway, hperform, rfl, rfl⟩ := callGateway_eq_ok.mp h
    exact ⟨(Prod.mk.inj (Gateway.perform_eq_ok hperform)).1.symm, fun _ => rfl⟩

end KeepsGateway

/-! ## Steps -/

section Steps

variable {crypto : Crypto} {env : Environment} {ctx : CallContext} {world next last : World}
variable {trace : List Action} {sourceChain messageId sourceAddress payload : ManagedBuffer}

/-- The service consumes at most the message that it is given. -/
theorem gateway_execute
    (h : execute crypto env ctx sourceChain messageId sourceAddress payload world =
      .ok ⟨(), last, trace⟩) :
    KeepsGateway world trace last ∨
    world.Approved crypto sourceChain messageId sourceAddress ctx.scAddress
        (crypto.keccak256 payload.1) ∧
      ∃ rest, trace = consumption env ctx world sourceChain messageId sourceAddress
          (crypto.keccak256 payload.1) :: rest ∧
        KeepsGateway (world.consume sourceChain messageId) rest last := by
  have hrules : QuietRules crypto ctx.scAddress AnyEffect KeepsGateway := KeepsGateway.quietRules
  have heffects : EffectRules crypto env ctx AnyEffect fun _ => KeepsGateway :=
    hrules.effectRules rfl
  cases (execute_eq_ok h).takes with
  | transfer _ _ happroved hprocess =>
    have hrest := heffects.processInterchainTransferPayload
      (fun _ _ _ => hrules.transfers _ _ _ rfl) hrules.executeWithInterchainToken _ _ _ _ _ _ _
      hprocess
    exact .inr ⟨happroved, _, rfl, hrest⟩
  | deploy _ _ hdeploys =>
    cases hdeploys with
    | manager _ _ _ hdeploy =>
      exact .inl (hrules.deploy _ _ _ _ _ _ rfl trivial _ _ _ _ hdeploy)
    | token _ happroved _ hissue =>
      have hrest := heffects.tokenManagerDeployInterchainToken _ _ _ _ _ _
        (fun _ _ => trivial) _ _ _ _ hissue
      exact .inr ⟨happroved, _, rfl, hrest⟩
  | link _ _ happroved hprocess =>
    have hrest := heffects.processLinkTokenPayload _ (fun _ _ _ => trivial) _ _ _ _ hprocess
    exact .inr ⟨happroved, _, rfl, hrest⟩

/-- What a step does at the gateway: nothing, one call that somebody else makes, or the
consumption of one message that is given to the service. -/
inductive GatewayStep (crypto : Crypto) (input : Input) (before : World) (trace : List Action)
    (after : World) : Prop
  | quiet : KeepsGateway before trace after → GatewayStep crypto input before trace after
  | calls {caller : Address} {call : Gateway.Call} {reply : Gateway.Reply} :
      input.operation = .gateway caller call → caller ≠ before.itsAddress →
      Gateway.perform crypto (input.env.context caller before.its.gateway .none) call
        before.gateway = .ok (after.gateway, reply) →
      trace = [.gateway (input.env.context caller before.its.gateway .none) call reply] →
      GatewayStep crypto input before trace after
  | takes {caller : Address} {payment : EgldOrMultiEsdtPayment}
      {sourceChain messageId sourceAddress payload : ManagedBuffer} {rest : List Action} :
      input.operation = .its caller payment (.execute sourceChain messageId sourceAddress payload) →
      before.Approved crypto sourceChain messageId sourceAddress before.itsAddress
        (crypto.keccak256 payload.1) →
      trace = consumption input.env (input.env.context caller before.itsAddress payment) before
        sourceChain messageId sourceAddress (crypto.keccak256 payload.1) :: rest →
      KeepsGateway (before.consume sourceChain messageId) rest after →
      GatewayStep crypto input before trace after

theorem perform_execute :
    perform crypto env ctx (.execute sourceChain messageId sourceAddress payload) world =
        .ok ⟨(), last, trace⟩ ↔
      (∃ value, egldValue ctx = .ok value) ∧
      execute crypto env ctx sourceChain messageId sourceAddress payload world =
        .ok ⟨(), last, trace⟩ := by
  simp only [perform, payableInEgld, Transaction.bind_eq_ok, Outcome.exists_unit, lift_eq_ok,
    Transaction.pure_eq_ok]
  constructor
  · rintro ⟨value, _, _, _, ⟨hvalue, rfl, rfl⟩, ⟨_, _, _, hexecute, ⟨_, rfl, rfl⟩, rfl⟩, rfl⟩
    exact ⟨⟨value, hvalue⟩, by simpa using hexecute⟩
  · rintro ⟨⟨value, hvalue⟩, hexecute⟩
    exact ⟨value, _, _, _, ⟨hvalue, rfl, rfl⟩, ⟨_, _, _, hexecute, ⟨trivial, rfl, rfl⟩, rfl⟩,
      by simp⟩

theorem gatewayStep {input : Input} (hnameless : world.its.trustedChains .new = false)
    (hok : (machine crypto).step world input = .ok (next, trace)) :
    GatewayStep crypto input world trace next := by
  by_cases hexecute : ∃ caller payment sourceChain messageId sourceAddress payload,
      input.operation = .its caller payment (.execute sourceChain messageId sourceAddress payload)
  · obtain ⟨env, operation⟩ := input
    obtain ⟨caller, payment, sourceChain, messageId, sourceAddress, payload, hcall⟩ := hexecute
    obtain rfl : operation = _ := hcall
    obtain ⟨_, paid, hpay, hperform⟩ := run_its_eq_ok.mp ((step_eq_ok crypto).mp hok)
    obtain ⟨⟨ledger, pending, rfl⟩, _⟩ := ledgerOnly_pay _ _ _ _ hpay
    obtain ⟨_, hexecute⟩ := perform_execute.mp hperform
    rcases gateway_execute hexecute with hkeeps | ⟨happroved, rest, rfl, hkeeps⟩
    · exact .quiet ⟨hkeeps.gateway, hkeeps.unconsumed⟩
    · exact .takes rfl happroved rfl ⟨hkeeps.gateway, hkeeps.unconsumed⟩
  · by_cases hgateway : ∃ caller call, input.operation = .gateway caller call
    · obtain ⟨env, operation⟩ := input
      obtain ⟨caller, call, hcall⟩ := hgateway
      obtain rfl : operation = _ := hcall
      obtain ⟨⟨hexternal, _⟩, reply, hcall⟩ := run_gateway_eq_ok.mp ((step_eq_ok crypto).mp hok)
      obtain ⟨gateway, hperform, rfl, rfl⟩ := callGateway_eq_ok.mp hcall
      have hcaller : caller ≠ world.itsAddress := by
        rintro rfl
        simp [World.isSystemContract] at hexternal
      exact .calls rfl hcaller hperform rfl
    · apply GatewayStep.quiet
      apply KeepsGateway.quietRules.step rfl hnameless _ _ _ _ hok
      · intros
        trivial
      · intro _ _ _ call _ _
        exact KeepsGateway.callManager call
      · intro caller payment sourceChain messageId sourceAddress payload hcall
        exact absurd ⟨_, _, _, _, _, _, hcall⟩ hexecute
      · intro caller call hcall
        exact absurd ⟨_, _, hcall⟩ hgateway

end Steps

end AxelarCgp.Its
