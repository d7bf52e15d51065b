import AxelarCgp.Core.Projection
import AxelarCgp.Gateway.Authority
import AxelarCgp.Its.RemoteTokens
import AxelarCgp.Its.Transfers

/-!
# Transfers from other chains

What the service makes token managers give, it gives for messages of the hub: one message for
each time, which signers of the gateway had approved for the service, and which is consumed
by it.  What the service does with the gateway in a run is a run of the gateway.
-/

namespace AxelarCgp.Its

open Transaction

/-! ## The gateway of a run -/

/-- The calls of the gateway in a trace. -/
def gatewayHistory (trace : List Action) : Gateway.History :=
  trace.filterMap fun
    | .gateway ctx call reply => some ⟨(ctx, call), .ok reply⟩
    | _ => none

@[simp]
theorem gatewayHistory_append (first second : List Action) :
    gatewayHistory (first ++ second) = gatewayHistory first ++ gatewayHistory second :=
  List.filterMap_append

/-- What was done to the gateway is a run of the gateway. -/
def RunsGateway (crypto : Crypto) (before : World) (trace : List Action) (after : World) : Prop :=
  (Gateway.machine crypto).Run before.gateway (gatewayHistory trace) after.gateway

namespace RunsGateway

variable {crypto : Crypto} {before after : World} {trace : List Action}

theorem composes : Composes fun _ : ℕ => RunsGateway crypto where
  nil _ := .start
  append first second := by
    rw [RunsGateway, gatewayHistory_append]
    exact first.trans second
  mono _ h := h

/-- Nothing was done to the gateway. -/
theorem of_unchanged (hgateway : after.gateway = before.gateway)
    (htrace : gatewayHistory trace = []) : RunsGateway crypto before trace after := by
  rw [RunsGateway, hgateway, htrace]
  exact .start

theorem callManager {env : Environment} {ctx : CallContext} (call : TokenManager.Call) :
    Satisfies (RunsGateway crypto) (callManager env ctx call) := by
  intro before reply after trace h
  obtain ⟨_, _, actions, _, _, _, _, rfl, rfl⟩ := callManager_manager h
  exact of_unchanged rfl rfl

theorem callGateway {ctx : CallContext} (call : Gateway.Call) :
    Satisfies (RunsGateway crypto) (callGateway crypto ctx call) := by
  intro before reply after trace h
  obtain ⟨gateway, hperform, rfl, rfl⟩ := callGateway_eq_ok.mp h
  have hstep : (Gateway.machine crypto).step before.gateway (ctx, call) =
      .ok (gateway, reply) := hperform
  exact Machine.Run.start.completed hstep

theorem stepRules {service : Address} :
    StepRules crypto service AnyEffect (RunsGateway crypto) where
  composes := composes
  ledger _ _ := of_unchanged rfl rfl
  pending _ _ := of_unchanged rfl rfl
  note world action hnote := by
    cases action with
    | gateway => simp [Action.isNote] at hnote
    | _ => exact of_unchanged rfl rfl
  storage _ _ _ := of_unchanged rfl rfl
  roles _ _ _ := of_unchanged rfl rfl
  status _ _ _ := .modifies fun _ => of_unchanged rfl rfl
  approval _ _ _ := .modifies fun _ => of_unchanged rfl rfl
  deploy env ctx tokenId managerType tokenIdentifier operator _ _ := by
    intro before address after trace h
    obtain ⟨_, _, _, _, _, _, _, _, rfl, rfl⟩ := deployTokenManagerRaw_eq_ok h
    exact of_unchanged rfl rfl
  command _ _ _ call _ _ := callManager call
  transfers _ _ call _ := callManager call
  callback env manager ctx user result := by
    rintro before ⟨_, actions⟩ after trace h
    obtain ⟨_, _, _, _, _, _, rfl, rfl⟩ := runManager_manager h
    exact of_unchanged rfl rfl
  gateway _ call := callGateway call

end RunsGateway

section Gateway

variable {crypto : Crypto} {start world next : World} {history : History} {input : Input}
variable {trace : List Action}

theorem runsGateway_step (hregistered : Registered world)
    (hok : (machine crypto).step world input = .ok (next, trace)) :
    RunsGateway crypto world trace next :=
  RunsGateway.stepRules.step rfl hregistered.nameless (fun _ _ _ _ _ _ => trivial)
    (fun _ _ _ call _ _ => RunsGateway.callManager call) hok

/-- What one entry of a history did at the gateway. -/
def gatewayView (entry : Entry Input (List Action)) : Gateway.History :=
  gatewayHistory (performed [entry])

theorem gatewayView_completed : gatewayView ⟨input, .ok trace⟩ = gatewayHistory trace := by
  simp [gatewayView, performed]

/-- A run of the service and all around it is a run of the gateway. -/
theorem gateway_run (hregistered : Registered start)
    (hrun : (machine crypto).Run start history world) :
    (Gateway.machine crypto).Run start.gateway (history.flatMap gatewayView) world.gateway := by
  apply Machine.Run.project World.gateway gatewayView _ _ hrun
  · intro before reached input trace next hbefore hok
    rw [gatewayView_completed]
    exact runsGateway_step (keepsRegistry_run hregistered hbefore).registered hok
  · intro before reached input message _ _
    exact .start

end Gateway

/-! ## Gifts -/

/-- Tokens that a manager is made to give. -/
structure Gift where
  manager : Address
  receiver : Address
  amount : ℕ
  deriving DecidableEq

/-- What the service makes managers give in a trace. -/
def gifts (service : Address) (trace : List Action) : List Gift :=
  trace.filterMap fun
    | .manager ctx (.giveToken receiver amount) _ _ =>
        if ctx.caller = service then some ⟨ctx.scAddress, receiver, amount⟩ else none
    | _ => none

@[simp]
theorem gifts_append (service : Address) (first second : List Action) :
    gifts service (first ++ second) = gifts service first ++ gifts service second :=
  List.filterMap_append

def GivesNothing (service : Address) (_ : World) (trace : List Action) (_ : World) : Prop :=
  gifts service trace = []

namespace GivesNothing

variable {crypto : Crypto} {service : Address} {env : Environment} {ctx : CallContext}

theorem callManager {call : TokenManager.Call}
    (hcall : ctx.caller ≠ service ∨ ∀ receiver amount, call ≠ .giveToken receiver amount) :
    Satisfies (GivesNothing service) (callManager env ctx call) := by
  intro before reply after trace h
  obtain ⟨_, _, actions, _, _, _, _, rfl, rfl⟩ := callManager_manager h
  cases call with
  | giveToken receiver amount =>
    rcases hcall with hcaller | hother
    · simp [GivesNothing, gifts, hcaller]
    · exact absurd rfl (hother receiver amount)
  | _ => rfl

theorem commandRules : CommandRules crypto service AnyEffect (GivesNothing service) where
  composes := {
    nil := fun _ => rfl
    append := fun first second => by
      rw [GivesNothing] at first second ⊢
      rw [gifts_append, first, second]
      rfl
    mono := fun _ h => h }
  ledger _ _ := rfl
  pending _ _ := rfl
  note world action hnote := by
    cases action with
    | manager => simp [Action.isNote] at hnote
    | _ => rfl
  storage _ _ _ := rfl
  roles _ _ _ := rfl
  status _ _ _ := .modifies fun _ => rfl
  approval _ _ _ := .modifies fun _ => rfl
  deploy env ctx tokenId managerType tokenIdentifier operator _ _ := by
    intro before address after trace h
    obtain ⟨_, _, _, _, _, _, _, _, rfl, rfl⟩ := deployTokenManagerRaw_eq_ok h
    rfl
  command _ _ _ call hcommand _ := callManager <| .inr fun receiver amount hcall => by
    simp [hcall, TokenManager.Call.isCommand] at hcommand
  callback env manager ctx user result := by
    rintro before ⟨_, actions⟩ after trace h
    obtain ⟨_, _, _, _, _, _, rfl, rfl⟩ := runManager_manager h
    rfl
  announces ctx chain address payload := by
    intro before reply after trace h
    obtain ⟨_, _, rfl, rfl⟩ := callGateway_eq_ok.mp h
    rfl

end GivesNothing

/-! ## Tokens that are passed on -/

/-- The calls in a trace by which the service passes tokens on, with data. -/
def passed (trace : List Action) : List Action :=
  trace.filter fun
    | .executeWithInterchainToken .. => true
    | _ => false

@[simp]
theorem passed_append (first second : List Action) :
    passed (first ++ second) = passed first ++ passed second :=
  List.filter_append ..

def PassesNothing (_ : World) (trace : List Action) (_ : World) : Prop :=
  passed trace = []

namespace PassesNothing

variable {crypto : Crypto} {env : Environment} {ctx : CallContext} {world next : World}
variable {trace : List Action}

theorem composes : Composes fun _ : ℕ => PassesNothing where
  nil _ := rfl
  append first second := by
    rw [PassesNothing] at first second ⊢
    rw [passed_append, first, second]
    rfl
  mono _ h := h

theorem callManager (call : TokenManager.Call) :
    Satisfies PassesNothing (callManager env ctx call) := by
  intro before reply after trace h
  obtain ⟨_, _, actions, _, _, _, _, rfl, rfl⟩ := callManager_manager h
  rfl

theorem callGateway (call : Gateway.Call) :
    Satisfies PassesNothing (callGateway crypto ctx call) := by
  intro before reply after trace h
  obtain ⟨_, _, rfl, rfl⟩ := callGateway_eq_ok.mp h
  rfl

theorem callContractItsHub (payload : ManagedBuffer) (gasValue : ℕ) :
    Satisfies PassesNothing (callContractItsHub crypto env ctx payload gasValue) := by
  intro before value after trace h
  obtain ⟨_, rfl⟩ := callContractItsHub_eq_ok.mp h
  rw [PassesNothing, hubTrace]
  split <;> rfl

theorem rules : Rules crypto env ctx fun _ => PassesNothing where
  toComposes := composes
  event _ _ := rfl
  storage _ _ _ := rfl
  deploy _ _ _ _ := by
    intro before address after trace h
    obtain ⟨_, _, _, _, _, _, _, _, rfl, rfl⟩ := deployTokenManagerRaw_eq_ok h
    rfl
  command _ _ call _ := callManager call
  message payload gasValue _ := callContractItsHub payload gasValue
  send _ _ := by
    intro before value after trace h
    obtain ⟨_, rfl⟩ := send_eq_ok.mp h
    rfl

/-- An endpoint that executes no message passes nothing on. -/
theorem perform {call : Call}
    (hcall : ∀ sourceChain messageId sourceAddress payload,
      call ≠ .execute sourceChain messageId sourceAddress payload) :
    Satisfies PassesNothing (perform crypto env ctx call) := by
  have heffects : EffectRules crypto env ctx AnyEffect fun _ => PassesNothing :=
    rules.effectRules
  apply heffects.perform (fun _ _ _ => rfl) call (fun _ _ => trivial)
  · intro tokenId destinationChain destinationAddress data gasValue _
    exact heffects.interchainTransfer (fun _ _ _ => callManager _) callContractItsHub _ _ _ _ _
  · intro sourceChain messageId sourceAddress payload hexecute
    exact absurd hexecute (hcall _ _ _ _)

/-- A step that executes no message passes nothing on. -/
theorem step {input : Input}
    (hinput : ∀ caller payment sourceChain messageId sourceAddress payload, input.operation ≠
      .its caller payment (.execute sourceChain messageId sourceAddress payload))
    (hok : (machine crypto).step world input = .ok (next, trace)) : passed trace = [] := by
  obtain ⟨env, operation⟩ := input
  have hrun := (step_eq_ok crypto).mp hok
  cases operation with
  | its caller payment call =>
    obtain ⟨_, paid, _, hperform⟩ := run_its_eq_ok.mp hrun
    apply perform _ _ _ _ _ hperform
    rintro sourceChain messageId sourceAddress payload rfl
    exact hinput _ _ _ _ _ _ rfl
  | gateway caller call =>
    obtain ⟨_, reply, hcall⟩ := run_gateway_eq_ok.mp hrun
    exact callGateway call _ _ _ _ hcall
  | manager caller address payment call =>
    obtain ⟨_, reply, hcall⟩ := run_manager_eq_ok.mp hrun
    exact callManager call _ _ _ _ hcall
  | transfer sender receiver asset amount =>
    obtain ⟨_, htransfer⟩ := run_transfer_eq_ok.mp hrun
    obtain ⟨_, _, _, rfl⟩ := transfer_eq_ok.mp htransfer
    rfl
  | answer index result =>
    rcases answer_eq_ok.mp hrun with ⟨request, completed, inner, _, hattempt, rfl⟩ |
      ⟨manager, user, cost, completed, back, _, _, hattempt, rfl⟩
    · have hcallback : Satisfies PassesNothing (attempt (request.callbackCode crypto env
          (env.context ESDTSystemSCAddress world.itsAddress .none) result)) :=
        satisfies_attempt (fun _ => rfl) (rules.effectRules.callbackCode rfl result request
          (fun _ _ _ _ _ _ => trivial) fun _ _ _ _ _ _ _ _ _ _ _ => trivial)
      have hinner : passed inner = [] := hcallback _ _ _ _ hattempt
      rw [passed_append, hinner]
      rfl
    · rfl

end PassesNothing

/-! ## Deliveries -/

/-- A message of the hub that transfers tokens. -/
structure TransferMessage where
  sourceChain : ManagedBuffer
  messageId : ManagedBuffer
  sourceAddress : ManagedBuffer
  payload : ManagedBuffer
  originalSourceChain : ManagedBuffer
  inner : ManagedBuffer
  data : InterchainTransferPayload
  receiver : Address
  wraps : HubMessage payload MESSAGE_TYPE_INTERCHAIN_TRANSFER originalSourceChain inner
  reads : ReadsTransfer inner data receiver

namespace TransferMessage

variable (message : TransferMessage)

def crossChainId : Gateway.CrossChainId := ⟨message.sourceChain, message.messageId⟩

/-- The call that executes the message. -/
def call : Call :=
  .execute message.sourceChain message.messageId message.sourceAddress message.payload

/-- The message as the gateway knows it. -/
def approval (crypto : Crypto) (service : Address) : Gateway.Message where
  sourceChain := message.sourceChain
  messageId := message.messageId
  sourceAddress := message.sourceAddress
  contractAddress := service
  payloadHash := crypto.keccak256 message.payload.1

/-- With data the tokens come to the service first. -/
def firstReceiver (service : Address) : Address :=
  if message.data.data.isEmpty then message.receiver else service

/-- The call by which the service passes the tokens on. -/
def passesOn (token : EgldOrEsdtTokenIdentifier) : Action :=
  .executeWithInterchainToken message.receiver message.originalSourceChain message.messageId
    message.data.sourceAddress message.data.data message.data.tokenId token
    message.data.amount.1

end TransferMessage

/-- The manager gives the amount, out of what it has or mints, to the receiver, or to the
service, which passes exactly that on together with the data, and nothing else. -/
inductive Moved (env : Environment) (message : TransferMessage) (manager : Address)
    (before : World) (trace : List Action) (after : World) : Prop
  | direct {state : TokenManager.State} {provided : Ledger Address Asset} :
      message.data.data.isEmpty = true → before.managers manager = some state →
      Provides env manager state.tokenIdentifierGet message.data.amount.1 before.ledger
        state.implementationType provided →
      provided.transfer manager message.receiver (state.tokenIdentifierGet.asset 0)
        message.data.amount.1 = .ok after.ledger →
      passed trace = [] →
      Moved env message manager before trace after
  | withData {state : TokenManager.State} {provided given : Ledger Address Asset} :
      message.data.data.isEmpty = false → before.managers manager = some state →
      Provides env manager state.tokenIdentifierGet message.data.amount.1 before.ledger
        state.implementationType provided →
      provided.transfer manager before.itsAddress (state.tokenIdentifierGet.asset 0)
        message.data.amount.1 = .ok given →
      given.transfer before.itsAddress message.receiver (state.tokenIdentifierGet.asset 0)
        message.data.amount.1 = .ok after.ledger →
      passed trace = [message.passesOn state.tokenIdentifierGet] →
      Moved env message manager before trace after

/-- The step executes the message: a message of the hub from a chain that is trusted now,
approved for the service, consumed by it, and the manager of the token it names gives
exactly the amount it says, to whom it says. -/
structure Delivers (crypto : Crypto) (input : Input) (before : World) (trace : List Action)
    (after : World) (message : TransferMessage) (manager : Address) : Prop where
  call : ∃ caller, input.operation = .its caller .none message.call
  running : before.its.paused = false
  hub : message.sourceChain = ITS_HUB_CHAIN_NAME ∧
    message.sourceAddress = before.its.itsHubAddress
  trusted : before.its.trustedChains message.originalSourceChain = true
  approved : before.Approved crypto message.sourceChain message.messageId message.sourceAddress
    before.itsAddress (crypto.keccak256 message.payload.1)
  consumes : ∃ ctx reply rest, gatewayHistory trace = ⟨(ctx, .validateMessage message.sourceChain
      message.messageId message.sourceAddress (crypto.keccak256 message.payload.1)),
      .ok reply⟩ :: rest ∧ ctx.caller = before.itsAddress ∧ reply.valid = true
  registered : before.its.tokenManagerAddress message.data.tokenId = some manager
  gives : gifts before.itsAddress trace =
    [⟨manager, message.firstReceiver before.itsAddress, message.data.amount.1⟩]
  moved : Moved input.env message manager before trace after

section Steps

variable {crypto : Crypto} {env : Environment} {ctx : CallContext} {world next last : World}
variable {trace : List Action} {sourceChain messageId sourceAddress payload : ManagedBuffer}

/-- A transfer out of a manager is no transfer into the world. -/
theorem interchainTransfer_givesNothing {service : Address} (hself : ctx.scAddress = service)
    (tokenId : TokenId) (destinationChain destinationAddress data : ManagedBuffer)
    (gasValue : ℕ) :
    Satisfies (GivesNothing service) (interchainTransfer crypto env ctx tokenId destinationChain
      destinationAddress data gasValue) := by
  have hrules : CommandRules crypto service AnyEffect (GivesNothing service) :=
    GivesNothing.commandRules
  have heffects : EffectRules crypto env ctx AnyEffect fun _ => GivesNothing service :=
    hrules.effectRules hself
  apply heffects.interchainTransfer
  · intro address token amount
    exact GivesNothing.callManager (.inr fun _ _ => by simp)
  · exact hrules.callContractItsHub

/-- A message wraps a transfer, or the service gives nothing for it. -/
theorem Executes.transfers
    (h : Executes crypto env ctx sourceChain messageId sourceAddress payload world trace last) :
    (∃ chain inner rest, HubMessage payload MESSAGE_TYPE_INTERCHAIN_TRANSFER chain inner ∧
      egldValue ctx = .ok 0 ∧
      world.Approved crypto sourceChain messageId sourceAddress ctx.scAddress
        (crypto.keccak256 payload.1) ∧
      processInterchainTransferPayload crypto env ctx chain messageId inner
        (world.consume sourceChain messageId) = .ok ⟨(), last, rest⟩ ∧
      trace = consumption env ctx world sourceChain messageId sourceAddress
        (crypto.keccak256 payload.1) :: rest) ∨
    gifts ctx.scAddress trace = [] ∧ passed trace = [] ∧
      ∀ chain inner, ¬ HubMessage payload MESSAGE_TYPE_INTERCHAIN_TRANSFER chain inner := by
  have hrules : CommandRules crypto ctx.scAddress AnyEffect (GivesNothing ctx.scAddress) :=
    GivesNothing.commandRules
  have heffects : EffectRules crypto env ctx AnyEffect fun _ => GivesNothing ctx.scAddress :=
    hrules.effectRules rfl
  have hpasses : EffectRules crypto env ctx AnyEffect fun _ => PassesNothing :=
    PassesNothing.rules.effectRules
  cases h.takes with
  | transfer hmessage hvalue happroved hprocess =>
    exact .inl ⟨_, _, _, hmessage, hvalue, happroved, hprocess, rfl⟩
  | deploy hmessage _ hdeploys =>
    refine .inr ⟨?_, ?_, fun chain inner hother => ?_⟩
    · cases hdeploys with
      | manager _ _ _ hdeploy => exact hrules.deploy _ _ _ _ _ _ rfl trivial _ _ _ _ hdeploy
      | token _ _ _ hissue =>
        have hrest : gifts ctx.scAddress _ = [] := heffects.tokenManagerDeployInterchainToken
          _ _ _ _ _ _ (fun _ _ => trivial) _ _ _ _ hissue
        exact hrest
    · cases hdeploys with
      | manager _ _ _ hdeploy => exact hpasses.deploy _ _ _ _ trivial _ _ _ _ hdeploy
      | token _ _ _ hissue =>
        have hrest : passed _ = [] := hpasses.tokenManagerDeployInterchainToken
          _ _ _ _ _ _ (fun _ _ => trivial) _ _ _ _ hissue
        exact hrest
    · have htype := (hmessage.unique hother).1
      contradiction
  | link hmessage _ _ hprocess =>
    refine .inr ⟨?_, ?_, fun chain inner hother => ?_⟩
    · have hrest : gifts ctx.scAddress _ = [] :=
        heffects.processLinkTokenPayload _ (fun _ _ _ => trivial) _ _ _ _ hprocess
      exact hrest
    · have hrest : passed _ = [] :=
        hpasses.processLinkTokenPayload _ (fun _ _ _ => trivial) _ _ _ _ hprocess
      exact hrest
    · have htype := (hmessage.unique hother).1
      contradiction

/-- A transfer that a message wraps moves the tokens and gives them once. -/
theorem processInterchainTransferPayload_moved {message : TransferMessage}
    (h : processInterchainTransferPayload crypto env ctx message.originalSourceChain
      message.messageId message.inner world = .ok ⟨(), last, trace⟩)
    (hself : ctx.scAddress = world.itsAddress) :
    ∃ manager, world.its.tokenManagerAddress message.data.tokenId = some manager ∧
      gifts world.itsAddress trace =
        [⟨manager, message.firstReceiver world.itsAddress, message.data.amount.1⟩] ∧
      Moved env message manager world trace last := by
  obtain ⟨transfer, receiver, manager, hreads, hmanager, hcases⟩ :=
    processInterchainTransferPayload_eq_ok h
  obtain rfl : message.data = transfer :=
    Except.ok.inj (message.reads.decoded.symm.trans hreads.decoded)
  obtain rfl : message.receiver = receiver :=
    Except.ok.inj (message.reads.addressed.symm.trans hreads.addressed)
  refine ⟨manager, hmanager, ?_⟩
  rcases hcases with ⟨hempty, token, given, rest, hgive, rfl⟩ |
    ⟨hdata, token, given, middle, rest, hgive, hexecute, rfl⟩
  · obtain ⟨state, next, provided, ledger, actions, hstate, _, _, hreply, hprovides, htransfer,
      rfl, rfl⟩ := callManager_giveToken rfl hgive
    refine ⟨?_, .direct hempty hstate hprovides htransfer rfl⟩
    simp [gifts, nested, Environment.context, hself, TransferMessage.firstReceiver, hempty]
  · obtain ⟨state, next, provided, ledger, actions, hstate, _, _, hreply, hprovides, htransfer,
      rfl, rfl⟩ := callManager_giveToken rfl hgive
    obtain ⟨rfl, rfl⟩ := TokenManager.Reply.given.inj hreply
    obtain ⟨_, hpay, _⟩ := executeWithInterchainToken_eq_ok.mp hexecute
    obtain ⟨passed, hpassed, rfl, _⟩ :=
      transfer_eq_ok.mp ((pay_eq_transfer (singlePayment_amounts _ _)).mp hpay)
    rw [hself] at htransfer
    have hpass : ledger.transfer world.itsAddress message.receiver
        (state.tokenIdentifierGet.asset 0) message.data.amount.1 = .ok passed := by
      rw [← hself]
      exact hpassed
    refine ⟨?_, .withData hdata hstate hprovides htransfer hpass ?_⟩
    · simp [gifts, nested, Environment.context, hself, TransferMessage.firstReceiver, hdata]
    · rfl

/-- The input is a call with a message that wraps a transfer. -/
def Input.ExecutesTransfer (input : Input) : Prop :=
  ∃ caller payment sourceChain messageId sourceAddress payload chain inner,
    input.operation = .its caller payment (.execute sourceChain messageId sourceAddress payload) ∧
    HubMessage payload MESSAGE_TYPE_INTERCHAIN_TRANSFER chain inner

/-- The service neither makes managers give nor passes anything on. -/
def MovesNothing (service : Address) (trace : List Action) : Prop :=
  gifts service trace = [] ∧ passed trace = []

/-- What the service makes managers give in a step, it delivers for one message, and a message
that wraps a transfer is delivered. -/
theorem delivers_step {input : Input} (hnameless : world.its.trustedChains .new = false)
    (hok : (machine crypto).step world input = .ok (next, trace)) :
    MovesNothing world.itsAddress trace ∧ ¬ input.ExecutesTransfer ∨
      ∃ message manager, Delivers crypto input world trace next message manager := by
  by_cases hexecute : ∃ caller payment sourceChain messageId sourceAddress payload,
      input.operation = .its caller payment (.execute sourceChain messageId sourceAddress payload)
  · obtain ⟨env, operation⟩ := input
    obtain ⟨caller, payment, sourceChain, messageId, sourceAddress, payload, hcall⟩ := hexecute
    obtain rfl : operation = _ := hcall
    obtain ⟨_, paid, hpay, hperform⟩ := run_its_eq_ok.mp ((step_eq_ok crypto).mp hok)
    have hexecutes := execute_eq_ok (perform_execute.mp hperform).2
    rcases hexecutes.transfers with
      ⟨chain, inner, rest, hmessage, hvalue, happroved, hprocess, rfl⟩ |
      ⟨hnone, hpassed, hother⟩
    swap
    · refine .inl ⟨⟨hnone, hpassed⟩, ?_⟩
      rintro ⟨_, _, _, _, _, _, chain, inner, hsame, hmessage⟩
      injection hsame with _ _ hsame
      injection hsame with _ _ _ hpayload
      exact hother chain inner (hpayload ▸ hmessage)
    have hunpaid : payment = .none := TokenManager.egldValue_eq_ok.mp hvalue
    subst hunpaid
    have hfree : pay (env.context caller world.itsAddress .none) world = .ok ⟨(), world, []⟩ :=
      pay_none rfl
    obtain ⟨_, rfl, _⟩ := Completed.mk.inj (Except.ok.inj (hfree.symm.trans hpay))
    obtain ⟨data, receiver, _, hreads, _⟩ := processInterchainTransferPayload_eq_ok hprocess
    let message : TransferMessage :=
      ⟨sourceChain, messageId, sourceAddress, payload, chain, inner, data, receiver, hmessage,
        hreads⟩
    obtain ⟨manager, hmanager, hgiven, hmoved⟩ :=
      @processInterchainTransferPayload_moved _ _ _ _ _ _ message hprocess rfl
    refine .inr ⟨message, manager, {
      call := ⟨caller, rfl⟩
      running := hexecutes.running
      hub := ⟨hexecutes.hub.1, hexecutes.hub.2.symm⟩
      trusted := hexecutes.trusted _ _ _ hmessage
      approved := happroved
      consumes := ⟨_, _, gatewayHistory rest, rfl, rfl, rfl⟩
      registered := hmanager
      gives := hgiven
      moved := ?_ }⟩
    cases hmoved with
    | direct hempty hstate hprovides htransfer hpassed =>
      exact .direct hempty hstate hprovides htransfer hpassed
    | withData hdata hstate hprovides htransfer hpass hpassed =>
      exact .withData hdata hstate hprovides htransfer hpass hpassed
  · have hother : ∀ caller payment sourceChain messageId sourceAddress payload, input.operation ≠
        .its caller payment (.execute sourceChain messageId sourceAddress payload) :=
      fun _ _ _ _ _ _ hcall => hexecute ⟨_, _, _, _, _, _, hcall⟩
    refine .inl ⟨⟨?_, PassesNothing.step hother hok⟩,
      fun ⟨_, _, _, _, _, _, _, _, hcall, _⟩ => hother _ _ _ _ _ _ hcall⟩
    apply GivesNothing.commandRules.step rfl hnameless (fun _ _ _ _ _ _ => trivial) _ _ _ _ hok
    · intro caller address payment call _ hcaller
      exact GivesNothing.callManager (.inl hcaller)
    · intro caller payment tokenId destinationChain destinationAddress data gasValue _
      exact interchainTransfer_givesNothing rfl _ _ _ _ _
    · intro caller payment sourceChain messageId sourceAddress payload hcall
      exact absurd hcall (hother _ _ _ _ _ _)
    · intro caller call _ ctx before reply after trace h
      obtain ⟨_, _, rfl, rfl⟩ := callGateway_eq_ok.mp h
      rfl

end Steps

/-! ## Runs -/

/-- A message that was delivered, and the manager that gave for it. -/
structure Delivery where
  message : TransferMessage
  manager : Address

namespace Delivery

def id (delivery : Delivery) : Gateway.CrossChainId := delivery.message.crossChainId

def gift (service : Address) (delivery : Delivery) : Gift :=
  ⟨delivery.manager, delivery.message.firstReceiver service, delivery.message.data.amount.1⟩

/-- A step of the history was the delivery. -/
def TakenIn (crypto : Crypto) (start : World) (history before : History) (delivery : Delivery) :
    Prop :=
  ∃ reached input trace next, (machine crypto).Took start history before reached input trace next ∧
    Delivers crypto input reached trace next delivery.message delivery.manager

end Delivery

section Runs

variable {crypto : Crypto} {start world next : World} {history : History} {input : Input}
variable {trace : List Action}

theorem consumptions_eq_countP (id : Gateway.CrossChainId) (trace : List Action) :
    consumptions id trace = (gatewayHistory trace).countP (Gateway.validates id) := by
  rw [gatewayHistory, List.countP_filterMap, consumptions]
  apply List.countP_congr
  intro action _
  cases action <;> simp [Action.consumes]

theorem Delivers.consumptions_pos {message : TransferMessage} {manager : Address}
    (h : Delivers crypto input world trace next message manager) :
    0 < consumptions message.crossChainId trace := by
  obtain ⟨ctx, reply, rest, htrace, _, hvalid⟩ := h.consumes
  rw [consumptions_eq_countP, htrace, List.countP_cons_of_pos]
  · exact Nat.succ_pos _
  · simp [Gateway.validates, hvalid, TransferMessage.crossChainId]

/-- No message is counted twice where each is counted no more than it is consumed. -/
theorem nodup_of_count_le (hregistered : Registered start)
    (hrun : (machine crypto).Run start history world) {ids : List Gateway.CrossChainId}
    (h : ∀ id, ids.count id ≤ consumptions id (performed history)) : ids.Nodup := by
  apply List.nodup_iff_count_le_one.mpr
  intro id
  apply (h id).trans
  rcases consumed_once hregistered hrun id with hnone | ⟨hone, _⟩ <;> omega

/-- When a step shows either nothing, or one thing for a message that it consumes, a run shows
things of its steps, no more for a message than it is consumed. -/
theorem exists_items {Seen Item : Type} (seen : List Action → List Seen) (made : Item → Seen)
    (id : Item → Gateway.CrossChainId) (Takes : Item → Input → World → List Action → World → Prop)
    (hnil : seen [] = [])
    (happend : ∀ first second, seen (first ++ second) = seen first ++ seen second)
    (hconsumes : ∀ item input world trace next, Takes item input world trace next →
      0 < consumptions (id item) trace)
    (hstep : ∀ input world trace next, KeepsRegistry start world →
      (machine crypto).step world input = .ok (next, trace) →
      seen trace = [] ∨ ∃ item, seen trace = [made item] ∧ Takes item input world trace next)
    (hregistered : Registered start) (hrun : (machine crypto).Run start history world) :
    ∃ items : List Item,
      seen (performed history) = items.map made ∧
      (∀ other, (items.map id).count other ≤ consumptions other (performed history)) ∧
      ∀ item ∈ items, ∃ before reached input trace next,
        (machine crypto).Took start history before reached input trace next ∧
        Takes item input reached trace next := by
  induction hrun with
  | start => exact ⟨[], hnil, fun _ => Nat.zero_le _, by simp⟩
  | stopped _ _ ih =>
    obtain ⟨items, hseen, hcount, htaken⟩ := ih
    rw [performed_stopped]
    refine ⟨items, hseen, hcount, fun item hmem => ?_⟩
    obtain ⟨before, reached, input, trace, next, htook, htakes⟩ := htaken item hmem
    exact ⟨before, reached, input, trace, next, htook.snoc _, htakes⟩
  | @completed history reached last input trace hbefore hok ih =>
    obtain ⟨items, hseen, hcount, htaken⟩ := ih
    rw [performed_completed, happend, hseen]
    have hlater : ∀ item ∈ items, ∃ before earlier input' trace' next,
        (machine crypto).Took start (history ++ [⟨input, .ok trace⟩]) before earlier input' trace'
          next ∧ Takes item input' earlier trace' next := by
      intro item hmem
      obtain ⟨before, earlier, _, _, next, htook, htakes⟩ := htaken item hmem
      exact ⟨before, earlier, _, _, next, htook.snoc _, htakes⟩
    rcases hstep _ _ _ _ (keepsRegistry_run hregistered hbefore) hok with hnone |
      ⟨item, hone, htakes⟩
    · refine ⟨items, by rw [hnone, List.append_nil], fun other => ?_, hlater⟩
      rw [consumptions_append]
      exact Nat.le_add_right_of_le (hcount other)
    · refine ⟨items ++ [item], by rw [hone, List.map_append]; rfl, fun other => ?_, ?_⟩
      · rw [consumptions_append, List.map_append, List.count_append]
        apply Nat.add_le_add (hcount other)
        by_cases hid : id item = other
        · subst hid
          exact (List.count_le_length ..).trans (hconsumes _ _ _ _ _ htakes)
        · have hother : [id item].count other = 0 :=
            List.count_eq_zero.mpr (by simpa [eq_comm] using hid)
          exact hother.trans_le (Nat.zero_le _)
      · intro other hmem
        rcases List.mem_append.mp hmem with hmem | hmem
        · exact hlater other hmem
        · rw [List.mem_singleton.mp hmem]
          exact ⟨history, reached, input, trace, last, ⟨⟨[], rfl⟩, hbefore, hok⟩, htakes⟩

/-- What the service makes managers give in a run, it delivers in its steps, one message for
each time. -/
theorem exists_deliveries (hregistered : Registered start)
    (hrun : (machine crypto).Run start history world) :
    ∃ deliveries : List Delivery,
      gifts start.itsAddress (performed history) =
        deliveries.map (Delivery.gift start.itsAddress) ∧
      (∀ id, (deliveries.map Delivery.id).count id ≤ consumptions id (performed history)) ∧
      ∀ delivery ∈ deliveries, ∃ before, delivery.TakenIn crypto start history before := by
  apply exists_items (gifts start.itsAddress) (Delivery.gift start.itsAddress) Delivery.id
    (fun delivery input world trace next =>
      Delivers crypto input world trace next delivery.message delivery.manager)
    rfl (gifts_append _) _ _ hregistered hrun
  · intro delivery input world trace next hdelivers
    exact hdelivers.consumptions_pos
  · intro input world trace next hkeeps hok
    rcases delivers_step hkeeps.registered.nameless hok with ⟨⟨hnone, _⟩, _⟩ |
      ⟨message, manager, hdelivers⟩
    · exact .inl (hkeeps.itsAddress ▸ hnone)
    · exact .inr ⟨⟨message, manager⟩, hkeeps.itsAddress ▸ hdelivers.gives, hdelivers⟩

/-- The message of a delivery was signed, in every field and for the service, by a quorum of
signers whom the gateway had in office, and was consumed then for the first time. -/
def Authentic (crypto : Crypto) (deployed : Gateway.State) (events : List Gateway.Event)
    (earlier : Gateway.History) (start : World) (history : History) (delivery : Delivery) :
    Prop :=
  ∃ before, delivery.TakenIn crypto start history before ∧
    Gateway.Authorised crypto deployed events (earlier ++ before.flatMap gatewayView)
      (delivery.message.approval crypto start.itsAddress)

/-- What was delivered is the first message that the gateway accepted under its id, and was
not consumed before. -/
theorem Delivery.TakenIn.firstAccepted {deployed : Gateway.State} {events : List Gateway.Event}
    {earlier : Gateway.History} {before : History} {delivery : Delivery}
    {ctx : CallContext} {retention : ℕ} {domainSeparator : Hash} {delay : UInt64}
    {operator : Address} {signers : List Gateway.WeightedSigners}
    (h : delivery.TakenIn crypto start history before) (hregistered : Registered start)
    (hrun : (machine crypto).Run start history world)
    (hinit : Gateway.init crypto ctx retention domainSeparator delay operator signers =
      .ok (deployed, events))
    (hearlier : (Gateway.machine crypto).Run deployed earlier start.gateway)
    (hkeccak : Set.InjOn crypto.keccak256
      (Gateway.messagePreimages (earlier ++ history.flatMap gatewayView))) :
    (∃ after, earlier ++ history.flatMap gatewayView =
      earlier ++ before.flatMap gatewayView ++ after) ∧
    Gateway.firstAccepted (earlier ++ before.flatMap gatewayView) delivery.id =
      some (delivery.message.approval crypto start.itsAddress) ∧
    (earlier ++ before.flatMap gatewayView).countP (Gateway.validates delivery.id) = 0 := by
  obtain ⟨reached, input, trace, next, ⟨⟨after, hhistory⟩, hbefore, hok⟩, hdelivers⟩ := h
  have hself := (keepsRegistry_run hregistered hbefore).itsAddress
  obtain ⟨gatewayCtx, reply, rest, hgateway, hcaller, hvalid⟩ := hdelivers.consumes
  have hthrough := hearlier.trans (gateway_run hregistered hrun)
  have hcut : earlier ++ history.flatMap gatewayView = earlier ++ before.flatMap gatewayView ++
      (gatewayHistory trace ++ after.flatMap gatewayView) := by
    rw [hhistory, List.flatMap_append, List.flatMap_cons, gatewayView_completed,
      List.append_assoc]
  refine ⟨⟨_, hcut⟩, ?_⟩
  rw [hgateway, List.cons_append] at hcut
  obtain ⟨hfirst, hnone⟩ := Gateway.firstAccepted_of_consumed (Gateway.Tracks.init hinit)
    hthrough hkeccak hcut hvalid
  rw [hcaller, hself] at hfirst
  exact ⟨hfirst, hnone⟩

/-- The signers in office had signed what was delivered. -/
theorem Delivery.TakenIn.authorised {deployed : Gateway.State} {events : List Gateway.Event}
    {earlier : Gateway.History} {before : History} {delivery : Delivery}
    {ctx : CallContext} {retention : ℕ} {domainSeparator : Hash} {delay : UInt64}
    {operator : Address} {signers : List Gateway.WeightedSigners}
    (h : delivery.TakenIn crypto start history before) (hregistered : Registered start)
    (hrun : (machine crypto).Run start history world)
    (hinit : Gateway.init crypto ctx retention domainSeparator delay operator signers =
      .ok (deployed, events))
    (hearlier : (Gateway.machine crypto).Run deployed earlier start.gateway)
    (hkeccak : Set.InjOn crypto.keccak256
      (Gateway.messagePreimages (earlier ++ history.flatMap gatewayView) ∪
        Gateway.signersHashed events (earlier ++ history.flatMap gatewayView))) :
    Gateway.Authorised crypto deployed events (earlier ++ before.flatMap gatewayView)
      (delivery.message.approval crypto start.itsAddress) := by
  obtain ⟨⟨after, hcut⟩, hfirst, hnone⟩ := h.firstAccepted hregistered hrun hinit hearlier
    (hkeccak.mono Set.subset_union_left)
  have hthrough := hearlier.trans (gateway_run hregistered hrun)
  rw [hcut] at hthrough hkeccak
  obtain ⟨middle, hmiddle, _⟩ := hthrough.split
  have hsigners : Set.InjOn crypto.keccak256
      (Gateway.signersHashed events (earlier ++ before.flatMap gatewayView)) :=
    hkeccak.mono (Gateway.signersHashed_subset.trans Set.subset_union_right)
  exact ⟨Gateway.approves_of_first hinit hmiddle hsigners hfirst, hnone⟩

/-- What the service makes managers give in a run, it gives for messages of the hub, each of
which it was sent by signers in office, and none of which it delivers twice. -/
theorem inbound_authentic {deployed : Gateway.State} {events : List Gateway.Event}
    {earlier : Gateway.History} {ctx : CallContext} {retention : ℕ} {domainSeparator : Hash}
    {delay : UInt64} {operator : Address} {signers : List Gateway.WeightedSigners}
    (hinit : Gateway.init crypto ctx retention domainSeparator delay operator signers =
      .ok (deployed, events))
    (hearlier : (Gateway.machine crypto).Run deployed earlier start.gateway)
    (hlaunched : Launched crypto start) (hrun : (machine crypto).Run start history world)
    (hkeccak : Set.InjOn crypto.keccak256
      (Gateway.messagePreimages (earlier ++ history.flatMap gatewayView) ∪
        Gateway.signersHashed events (earlier ++ history.flatMap gatewayView))) :
    ∃ deliveries : List Delivery,
      gifts start.itsAddress (performed history) =
        deliveries.map (Delivery.gift start.itsAddress) ∧
      (deliveries.map Delivery.id).Nodup ∧
      ∀ delivery ∈ deliveries,
        Authentic crypto deployed events earlier start history delivery := by
  have hregistered := hlaunched.registered
  obtain ⟨deliveries, hgifts, hcount, htaken⟩ := exists_deliveries hregistered hrun
  refine ⟨deliveries, hgifts, nodup_of_count_le hregistered hrun hcount, ?_⟩
  intro delivery hmem
  obtain ⟨before, hbefore⟩ := htaken delivery hmem
  exact ⟨before, hbefore, hbefore.authorised hregistered hrun hinit hearlier hkeccak⟩

end Runs

/-! ## EGLD that comes back -/

/-- What the hub sends when the user gets 4 of EGLD from `s` on chain `c`. -/
def sampleReturnPayload : ManagedBuffer :=
  let payload : Outcome ManagedBuffer := do
    let inner ← abiEncode (⟨.ofByte 0, sampleCanonicalId,
      sampleBuffer (Bytes.ascii ['s']), .ofFixed sampleUser, .ofByte 4, .new⟩ :
      InterchainTransferPayload)
    abiEncode (⟨.ofByte 4, sampleBuffer (Bytes.ascii ['c']), inner⟩ : ReceiveFromHubPayload)
  payload.toOption.getD .new

def sampleReturn : Gateway.Message where
  sourceChain := ITS_HUB_CHAIN_NAME
  messageId := sampleBuffer (Bytes.ascii ['m'])
  sourceAddress := sampleBuffer (Bytes.ascii ['h', 'u', 'b'])
  contractAddress := sampleItsAddress
  payloadHash := NestedCodec.writeNat 32
    0x2b2342625a2d95cd7e60b428874d592b8867693110303d27e58e8a3e2c2b252e

def sampleReturnBatch : ManagedBuffer :=
  sampleBuffer (NestedCodec.depEncode sampleReturn)

def sampleReturnDataHash : Hash := NestedCodec.writeNat 32
  0x24291d67836c377f83a2dc3e1ee058ec06301c91678d319f024165c08f3c930f

def sampleReturnHashToSign : Hash := NestedCodec.writeNat 32
  0xb0fb49264a6ddfcf926985b26e15b5ccc0a58d716a88acd726c93bb46bb1b856

def sampleReturnSignature : FixedBytes 64 :=
  ⟨(NestedCodec.writeNat 32
      0x4af68acfebeaeaa12b6fc99b15e14260904f7fc1b3e513b26f02ac7b054da0d0).1 ++
    (NestedCodec.writeNat 32
      0x80aa1132895e573515b9da16465a133de989906d013b4c58a136c841e2d41e05).1,
    by simp [NestedCodec.writeNat]⟩

def sampleReturnProof : Gateway.Proof where
  signers := Gateway.sampleSigners 0
  signatures := ⟨[some sampleReturnSignature], by decide⟩

def sampleReturnCrypto : Crypto :=
  let signersHash := NestedCodec.writeNat 32
    0xbdf4457dd6e79dd86b3c4a66d882684429f4d02790f30c57e5368994791f1fca
  .tabulated (sampleHashes ++
    [(((sampleHashes.map Prod.snd)[2]?.getD zeroHash).1 ++
        ((sampleHashes.map Prod.snd)[0]?.getD zeroHash).1 ++ EgldOrEsdtTokenIdentifier.egldName,
      sampleCanonicalSalt),
    (((sampleHashes.map Prod.snd)[1]?.getD zeroHash).1 ++ sampleCanonicalSalt.1,
      sampleCanonicalId),
    ((sampleSendToHub.toOption.getD .new).1, NestedCodec.writeNat 32
      0xa98c8872842c51919b044d8f8658996d18e3c83e6af4ddcdd756747aa98bbada),
    (sampleReturnPayload.1, sampleReturn.payloadHash),
    (Gateway.signersHashPreimage (Gateway.sampleSigners 0), signersHash),
    (0 :: sampleReturnBatch.1, sampleReturnDataHash),
    (Gateway.multiversxSignedMessagePrefix ++ Address.zero.1 ++ signersHash.1 ++
      sampleReturnDataHash.1, sampleReturnHashToSign),
    (sampleReturn.preimage, NestedCodec.writeNat 32
      0xda43b7c6bd174c72d439132e8e376324d06d22de2673609833526241c08dd24a)])
    [(Gateway.sampleKey.1, sampleReturnHashToSign.1, sampleReturnSignature.1)]

/-- The user sends 4 of EGLD to chain `c`, and anyone brings them back. -/
def sampleReturnInputs : List Input :=
  [sampleRegister, sampleTransfer,
    ⟨sampleEnvironment, .gateway sampleUser (.approveMessages sampleReturnBatch
      sampleReturnProof)⟩,
    ⟨sampleEnvironment, .its sampleUser .none (.execute sampleReturn.sourceChain
      sampleReturn.messageId sampleReturn.sourceAddress sampleReturnPayload)⟩]

def sampleReturnInit : Outcome (Gateway.State × List Gateway.Event) :=
  Gateway.init sampleReturnCrypto Gateway.sampleContext 0 Address.zero 0 sampleUser
    [Gateway.sampleSigners 0]

theorem sampleReturn_replay : (do
    let (deployed, events) ← sampleReturnInit
    let start ← sampleWorld sampleReturnCrypto
    let (history, _) := (machine sampleReturnCrypto).replay { start with gateway := deployed }
      sampleReturnInputs
    return (gifts start.itsAddress (performed history),
      Gateway.hashesApart sampleReturnCrypto events (history.flatMap gatewayView))) =
      .ok ([⟨sampleAddress 6, sampleUser, 4⟩], true) := by
  decide +kernel

theorem sample_inbound_authentic : ∃ deployed events start history world delivery,
    sampleReturnInit = .ok (deployed, events) ∧
    (machine sampleReturnCrypto).Run start history world ∧
    delivery.gift start.itsAddress = ⟨sampleAddress 6, sampleUser, 4⟩ ∧
    Authentic sampleReturnCrypto deployed events [] start history delivery := by
  have hreplay := sampleReturn_replay
  simp only [Outcome.bind_eq_ok, Outcome.pure_eq_ok, Prod.exists] at hreplay
  obtain ⟨deployed, events, hinit, start, hstart, hview⟩ := hreplay
  obtain ⟨hgifts, hapart⟩ := Prod.mk.inj hview
  have hlaunched : Launched sampleReturnCrypto { start with gateway := deployed } :=
    ⟨(sampleWorld_launched hstart).init, (sampleWorld_launched hstart).managers,
      (sampleWorld_launched hstart).pending⟩
  have hrun := (machine sampleReturnCrypto).run_replay { start with gateway := deployed }
    sampleReturnInputs
  have hinj := Gateway.injOn_of_hashesApart hapart
  obtain ⟨deliveries, hdeliveries, _, hauthentic⟩ :=
    @inbound_authentic _ _ _ _ _ _ [] _ _ _ _ _ _ hinit .start hlaunched hrun hinj
  obtain ⟨delivery, rfl, hgift⟩ := List.map_eq_singleton_iff.mp (hdeliveries.symm.trans hgifts)
  exact ⟨deployed, events, _, _, _, delivery, hinit, hrun, hgift,
    hauthentic delivery (List.mem_singleton_self _)⟩

end AxelarCgp.Its
