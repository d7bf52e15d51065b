import AxelarCgp.Its.Inbound
import AxelarCgp.Its.InitialSupply

/-!
# Tokens deployed from other chains

A message that deploys a token is executed twice.  The first execution registers a token
manager and leaves the message approved, the second one consumes it and issues the token,
and it is the registry that tells them apart.
-/

namespace AxelarCgp.Its

open Transaction

/-! ## Messages -/

/-- A message of the hub that deploys a token. -/
structure DeployMessage where
  sourceChain : ManagedBuffer
  messageId : ManagedBuffer
  sourceAddress : ManagedBuffer
  payload : ManagedBuffer
  originalSourceChain : ManagedBuffer
  inner : ManagedBuffer
  data : DeployInterchainTokenPayload
  wraps : HubMessage payload MESSAGE_TYPE_DEPLOY_INTERCHAIN_TOKEN originalSourceChain inner
  decodes : abiDecode inner = .ok data

namespace DeployMessage

variable (message : DeployMessage)

def crossChainId : Gateway.CrossChainId := ⟨message.sourceChain, message.messageId⟩

/-- The call that executes the message. -/
def call : Call :=
  .execute message.sourceChain message.messageId message.sourceAddress message.payload

def Approved (crypto : Crypto) (service : Address) (world : World) : Prop :=
  world.Approved crypto message.sourceChain message.messageId message.sourceAddress service
    (crypto.keccak256 message.payload.1)

end DeployMessage

/-! ## One execution -/

section Execution

variable {crypto : Crypto} {env : Environment} {ctx : CallContext} {world next last : World}
variable {trace : List Action} {message : DeployMessage} {caller : Address}
variable {payment : EgldOrMultiEsdtPayment}

/-- What an execution of the message is: a payment and one of the two phases. -/
theorem DeployMessage.step_eq_ok
    (hok : (machine crypto).step world ⟨env, .its caller payment message.call⟩ =
      .ok (next, trace)) :
    ∃ paid, pay (env.context caller world.itsAddress payment) world = .ok ⟨(), paid, []⟩ ∧
      DeploysRemote crypto env (env.context caller world.itsAddress payment) message.sourceChain
        message.messageId message.sourceAddress (crypto.keccak256 message.payload.1) message.data
        paid trace next := by
  obtain ⟨_, paid, hpay, hperform⟩ := run_its_eq_ok.mp ((Its.step_eq_ok crypto).mp hok)
  obtain ⟨_, hexecute⟩ := perform_execute.mp hperform
  refine ⟨paid, hpay, ?_⟩
  cases (execute_eq_ok hexecute).takes with
  | transfer hmessage =>
    have htype := (message.wraps.unique hmessage).1
    simp [MESSAGE_TYPE_INTERCHAIN_TRANSFER, MESSAGE_TYPE_DEPLOY_INTERCHAIN_TOKEN] at htype
  | link hmessage =>
    have htype := (message.wraps.unique hmessage).1
    simp [MESSAGE_TYPE_LINK_TOKEN, MESSAGE_TYPE_DEPLOY_INTERCHAIN_TOKEN] at htype
  | deploy hmessage hdata hdeploys =>
    rw [(message.wraps.unique hmessage).2.2, message.decodes] at hdata
    rw [Except.ok.inj hdata]
    exact hdeploys

/-- The first execution takes nothing, registers one manager for native tokens with the
minter of the message as its operator, or else the zero address, and leaves the message
approved. -/
structure DeploysManager (crypto : Crypto) (message : DeployMessage)
    (payment : EgldOrMultiEsdtPayment) (before : World) (trace : List Action) (after : World) :
    Prop where
  unpaid : payment = .none
  ledger : after.ledger = before.ledger
  registered : ∃ address operator state,
    toOptionalAddress message.data.minter = .ok operator ∧
    TokenManager.Initialised before.itsAddress .nativeInterchainToken message.data.tokenId
      ⟨operator, none⟩ state ∧
    state.roles.hasRole (operator.getD .zero) .OPERATOR ∧
    trace = [.managerDeployed address before.itsAddress .nativeInterchainToken
        message.data.tokenId ⟨operator, none⟩,
      .event (.tokenManagerDeployed message.data.tokenId address .nativeInterchainToken
        ⟨operator, none⟩)] ∧
    before.managers address = none ∧
    after.managers = Function.update before.managers address (some state) ∧
    after.its.tokenManagerAddress =
      Function.update before.its.tokenManagerAddress message.data.tokenId (some address)
  approved : message.Approved crypto before.itsAddress before
  gateway : after.gateway = before.gateway

theorem DeployMessage.deploysManager
    (hnone : world.its.tokenManagerAddress message.data.tokenId = none)
    (hok : (machine crypto).step world ⟨env, .its caller payment message.call⟩ =
      .ok (next, trace)) : DeploysManager crypto message payment world trace next := by
  obtain ⟨paid, hpay, hdeploys⟩ := DeployMessage.step_eq_ok hok
  obtain ⟨⟨ledger, pending, hpaid⟩, _⟩ := ledgerOnly_pay _ _ _ _ hpay
  cases hdeploys with
  | token hmanager =>
    rw [hpaid] at hmanager
    exact absurd hnone hmanager
  | @manager address _ _ _ hvalue happroved hdeploy =>
    have hunpaid : payment = .none := TokenManager.egldValue_eq_ok.mp hvalue
    subst hunpaid
    have hfree : pay (env.context caller world.itsAddress .none) world = .ok ⟨(), world, []⟩ :=
      pay_none rfl
    rw [hfree] at hpay
    obtain ⟨_, rfl, _⟩ := Completed.mk.inj (Except.ok.inj hpay)
    obtain ⟨state, actions, params, _, hunused, hinit, hoperator, htoken, rfl, rfl⟩ :=
      deployTokenManagerRaw_eq_ok hdeploy
    obtain ⟨operator, tokenIdentifier⟩ := params
    obtain rfl : tokenIdentifier = none := htoken
    have hinitialised := TokenManager.init_initialised hinit
    have hunmanaged : world.managers address = none := by
      simp only [World.isSystemContract, Bool.or_eq_false_iff, Option.isSome_eq_false_iff,
        Option.isNone_iff_eq_none] at hunused
      exact hunused.2
    exact ⟨rfl, rfl, ⟨address, operator, state, hoperator, hinitialised, hinitialised.operator,
      rfl, hunmanaged, rfl, rfl⟩, happroved, rfl⟩

theorem managerAction_issue_eq_ok {manager user : Address} {cost : ℕ} {name symbol : Bytes}
    {decimals : UInt8} :
    managerAction env manager (.issue cost name symbol decimals user) world =
        .ok ⟨(), last, trace⟩ ↔
      ∃ ledger, world.ledger.transfer manager ESDTSystemSCAddress .egld cost = .ok ledger ∧
        last = { world with ledger, pending := world.pending ++ [.issue manager user cost] } ∧
        trace = [] := by
  simp only [managerAction, register, Transaction.bind_eq_ok, Outcome.exists_unit, transfer_eq_ok,
    modifies_eq_ok]
  constructor
  · rintro ⟨_, _, _, ⟨ledger, hledger, rfl, rfl⟩, ⟨rfl, rfl⟩, rfl⟩
    exact ⟨ledger, hledger, rfl, rfl⟩
  · rintro ⟨ledger, hledger, rfl, rfl⟩
    exact ⟨_, _, _, ⟨ledger, hledger, rfl, rfl⟩, ⟨rfl, rfl⟩, rfl⟩

/-- A manager that issues its token hands the cost on to the system contract. -/
theorem callManager_deployInterchainToken {minter : Option Address} {name symbol : ManagedBuffer}
    {decimals : UInt8} {initialCaller : Option Address} {value : ℕ} {reply : TokenManager.Reply}
    (hvalue : ctx.callValue = .egld value)
    (h : callManager env ctx (.deployInterchainToken minter name symbol decimals initialCaller)
      world = .ok ⟨reply, last, trace⟩) :
    ∃ state next actions first second, world.managers ctx.scAddress = some state ∧
      TokenManager.DeploysToken ctx minter name symbol decimals initialCaller state next actions ∧
      world.ledger.transfer ctx.caller ctx.scAddress .egld value = .ok first ∧
      first.transfer ctx.scAddress ESDTSystemSCAddress .egld value = .ok second ∧
      last = { world.setManager ctx.scAddress next with
        ledger := second
        pending := world.pending ++ [.issue ctx.scAddress (initialCaller.getD ctx.caller) value] } ∧
      trace = [.manager ctx (.deployInterchainToken minter name symbol decimals initialCaller) reply
        actions] := by
  obtain ⟨paid, actions, hpay, hrun, rfl⟩ := callManager_eq_ok.mp h
  have hamounts : ctx.callValue.amounts = [(.egld, value)] := by rw [hvalue]; rfl
  obtain ⟨first, hfirst, rfl, _⟩ := transfer_eq_ok.mp ((pay_eq_transfer hamounts).mp hpay)
  obtain ⟨state, next, hstate, hperform, hactions⟩ := runManager_eq_ok.mp hrun
  have hdeploys := TokenManager.deployInterchainToken_eq_ok hperform
  have hcost : value = DEFAULT_ESDT_ISSUE_COST := by
    have hpaid := hdeploys.paid
    rw [hvalue] at hpaid
    exact EgldOrMultiEsdtPayment.egld.inj hpaid
  obtain ⟨added, hadded, hissued⟩ := hdeploys.issued
  have htransfers : ∃ second, first.transfer ctx.scAddress ESDTSystemSCAddress .egld value =
        .ok second ∧
      last = { world.setManager ctx.scAddress next with
        ledger := second
        pending :=
          world.pending ++ [.issue ctx.scAddress (initialCaller.getD ctx.caller) value] } := by
    rw [hissued, ← hcost] at hactions
    cases hadded with
    | first =>
      have hroles : ∀ event, managerAction env ctx.scAddress (.roles event) = pure () :=
        fun _ => rfl
      simp only [List.cons_append, List.nil_append, forEach, hroles, Transaction.bind_eq_ok,
        Outcome.exists_unit, Transaction.pure_eq_ok, managerAction_issue_eq_ok] at hactions
      obtain ⟨_, _, _, ⟨_, rfl, _⟩, ⟨_, _, _, ⟨second, hsecond, rfl, _⟩, ⟨_, rfl, _⟩, _⟩, _⟩ :=
        hactions
      exact ⟨second, hsecond, rfl⟩
    | again =>
      simp only [List.nil_append, forEach, Transaction.bind_eq_ok, Outcome.exists_unit,
        Transaction.pure_eq_ok, managerAction_issue_eq_ok] at hactions
      obtain ⟨_, _, _, ⟨second, hsecond, rfl, _⟩, ⟨_, rfl, _⟩, _⟩ := hactions
      exact ⟨second, hsecond, rfl⟩
  obtain ⟨second, hsecond, hlast⟩ := htransfers
  exact ⟨state, next, actions, first, second, hstate, hdeploys, hfirst, hsecond, hlast, rfl⟩

/-- The second execution consumes the message, and hands all the EGLD that came with it and
what the message says of the token to the manager, which issues the token. -/
structure IssuesToken (crypto : Crypto) (env : Environment) (message : DeployMessage)
    (caller : Address) (payment : EgldOrMultiEsdtPayment) (manager : Address) (before : World)
    (trace : List Action) (after : World) : Prop where
  approved : message.Approved crypto before.itsAddress before
  gateway : after.gateway = before.gateway.messagesSet message.crossChainId .executed
  its : after.its = before.its
  forwards : ∃ value minter reply actions,
    payment = .egld value ∧ toOptionalAddress message.data.minter = .ok minter ∧
    trace = [consumption env (env.context caller before.itsAddress payment) before
        message.sourceChain message.messageId message.sourceAddress
        (crypto.keccak256 message.payload.1),
      .manager (env.context before.itsAddress manager (.egld value))
        (.deployInterchainToken minter message.data.name message.data.symbol
          message.data.decimals (some caller)) reply actions] ∧
    ∃ first second,
      before.ledger.transfer caller before.itsAddress .egld value = .ok first ∧
      first.transfer before.itsAddress manager .egld value = .ok second ∧
      second.transfer manager ESDTSystemSCAddress .egld value = .ok after.ledger

theorem DeployMessage.issuesToken {manager : Address}
    (hset : world.its.tokenManagerAddress message.data.tokenId = some manager)
    (hok : (machine crypto).step world ⟨env, .its caller payment message.call⟩ =
      .ok (next, trace)) :
    IssuesToken crypto env message caller payment manager world trace next := by
  obtain ⟨paid, hpay, hdeploys⟩ := DeployMessage.step_eq_ok hok
  obtain ⟨⟨_, _, hpaid⟩, _⟩ := ledgerOnly_pay _ _ _ _ hpay
  cases hdeploys with
  | manager hnone =>
    rw [hpaid] at hnone
    exact absurd (hset.symm.trans hnone) (by simp)
  | @token minter rest _ _ happroved hminter hissue =>
    simp only [tokenManagerDeployInterchainToken, Transaction.bind_eq_ok,
      deployedTokenManager_eq_ok, lift_eq_ok, TokenManager.egldValue_eq_ok,
      Transaction.pure_eq_ok] at hissue
    obtain ⟨address, _, _, _, ⟨haddress, rfl, rfl⟩, ⟨value, _, _, _, ⟨hvalue, rfl, rfl⟩,
      ⟨reply, _, _, _, hcall, ⟨_, rfl, rfl⟩, rfl⟩, rfl⟩, rfl⟩ := hissue
    have hpayment : payment = .egld value := hvalue
    subst hpayment
    obtain ⟨ledger, hledger, rfl, _⟩ := transfer_eq_ok.mp ((pay_eq_transfer rfl).mp hpay)
    obtain rfl : manager = address := Option.some.inj (hset.symm.trans haddress)
    obtain ⟨state, managed, actions, first, second, _, _, hfirst, hsecond, rfl, rfl⟩ :=
      callManager_deployInterchainToken rfl hcall
    exact {
      approved := happroved
      gateway := rfl
      its := rfl
      forwards := ⟨value, minter, reply, actions, rfl, hminter, rfl, ledger, first, hledger,
        hfirst, hsecond⟩ }

end Execution

/-! ## Runs -/

section Runs

variable {crypto : Crypto} {start world next : World} {history : History} {input : Input}
variable {trace : List Action} {message : DeployMessage} {id : Gateway.CrossChainId}

theorem consumptions_gateway (id : Gateway.CrossChainId) (ctx : CallContext) (call : Gateway.Call)
    (reply : Gateway.Reply) : consumptions id [.gateway ctx call reply] =
      if Gateway.validates id ⟨(ctx, call), .ok reply⟩ then 1 else 0 := by
  rw [consumptions_cons, Nat.add_comm]
  rfl

/-- A step consumes a message once and only when it is approved, or else leaves it where it
stood if it is known. -/
theorem GatewayStep.stands (hstep : GatewayStep crypto input world trace next)
    (id : Gateway.CrossChainId) :
    consumptions id trace = 0 ∧ (∀ current, world.gateway.messagesGet id = .ok current →
      current ≠ .nonExistent → next.gateway.messagesGet id = .ok current) ∨
    consumptions id trace = 1 ∧ (∃ hash, world.gateway.messagesGet id = .ok (.approved hash)) ∧
      next.gateway.messagesGet id = .ok .executed := by
  cases hstep with
  | quiet hkeeps =>
    refine .inl ⟨hkeeps.unconsumed id, fun current hcurrent _ => ?_⟩
    rw [hkeeps.gateway, hcurrent]
  | @calls caller call reply _ _ hperform htrace =>
    rw [htrace, consumptions_gateway]
    by_cases hvalidates : Gateway.validates id
        ⟨(input.env.context caller world.its.gateway .none, call), .ok reply⟩ = true
    · obtain ⟨_, _, _, hget, hexecuted⟩ := Gateway.perform_validates hvalidates hperform
      exact .inr ⟨if_pos hvalidates, ⟨_, hget⟩, hexecuted⟩
    · refine .inl ⟨if_neg hvalidates, fun current hcurrent hknown => ?_⟩
      exact Gateway.perform_stands hcurrent hknown (Bool.not_eq_true _ ▸ hvalidates) hperform
  | @takes caller payment chain messageId address payload rest _ happroved htrace hkeeps =>
    have hvalidates : (consumption input.env (input.env.context caller world.itsAddress payment)
        world chain messageId address (crypto.keccak256 payload.1)).consumes id =
          decide ((⟨chain, messageId⟩ : Gateway.CrossChainId) = id) := by
      simp [consumption, Action.consumes, Gateway.validates]
    rw [htrace, consumptions_cons, hkeeps.unconsumed, hvalidates, hkeeps.gateway]
    by_cases hid : (⟨chain, messageId⟩ : Gateway.CrossChainId) = id
    · subst hid
      exact .inr ⟨by simp, ⟨_, happroved⟩, Gateway.State.messagesGet_messagesSet_self _ _ _⟩
    · refine .inl ⟨by simp [hid], fun current hcurrent _ => ?_⟩
      have hother := Gateway.State.messagesGet_messagesSet_of_ne world.gateway (Ne.symm hid)
        Gateway.MessageState.executed
      exact hother.trans hcurrent

/-! ## Which step consumes the message -/

/-- The strings that are hashed to compare what an operation says of a message with what is
approved. -/
def Operation.hashes (crypto : Crypto) (service : Address) : Operation → Set Bytes
  | .its _ _ (.execute sourceChain messageId sourceAddress payload) =>
      {payload.1, Gateway.messageHashPreimage ⟨sourceChain, messageId⟩ sourceAddress service
        (crypto.keccak256 payload.1)}
  | .gateway caller (.validateMessage sourceChain messageId sourceAddress payloadHash) =>
      {Gateway.messageHashPreimage ⟨sourceChain, messageId⟩ sourceAddress caller payloadHash}
  | _ => ∅

/-- The strings that are hashed for a message and throughout a history. -/
def DeployMessage.hashes (crypto : Crypto) (service : Address) (message : DeployMessage)
    (history : History) : Set Bytes :=
  {bytes | bytes ∈ Operation.hashes crypto service (.its .zero .none message.call) ∨
    ∃ entry ∈ history, bytes ∈ Operation.hashes crypto service entry.input.operation}

/-- Only an execution of the message by the service consumes it, and only when its token
has a manager. -/
theorem GatewayStep.consumed_by
    (hinj : Set.InjOn crypto.keccak256
      (message.hashes crypto world.itsAddress [⟨input, .ok trace⟩]))
    (happroved : message.Approved crypto world.itsAddress world)
    (hok : (machine crypto).step world input = .ok (next, trace))
    (hstep : GatewayStep crypto input world trace next)
    (hconsumed : consumptions message.crossChainId trace ≠ 0) :
    (∃ caller payment, input.operation = .its caller payment message.call) ∧
    ∃ manager, world.its.tokenManagerAddress message.data.tokenId = some manager := by
  have hpreimage : Gateway.messageHashPreimage message.crossChainId message.sourceAddress
      world.itsAddress (crypto.keccak256 message.payload.1) ∈
        message.hashes crypto world.itsAddress [⟨input, .ok trace⟩] :=
    .inl (.inr rfl)
  have hget : world.gateway.messagesGet message.crossChainId = .ok (.approved _) := happroved
  cases hstep with
  | quiet hkeeps => exact absurd (hkeeps.unconsumed _) hconsumed
  | @calls caller call reply hcall hcaller hperform htrace =>
    rw [htrace, consumptions_gateway] at hconsumed
    have hvalidates : Gateway.validates message.crossChainId
        ⟨(input.env.context caller world.its.gateway .none, call), .ok reply⟩ = true := by
      by_contra hnot
      exact hconsumed (if_neg hnot)
    obtain ⟨address, payloadHash, hvalidate, hother, _⟩ :=
      Gateway.perform_validates hvalidates hperform
    have hhash := Gateway.MessageState.approved.inj (Except.ok.inj (hget.symm.trans hother))
    have hmem : Gateway.messageHashPreimage message.crossChainId address caller payloadHash ∈
        message.hashes crypto world.itsAddress [⟨input, .ok trace⟩] := by
      refine .inr ⟨_, List.mem_singleton_self _, ?_⟩
      rw [hcall, hvalidate]
      rfl
    have hsame := Gateway.messageHashPreimage_injective (hinj hpreimage hmem hhash)
    exact absurd hsame.2.2.1.symm hcaller
  | @takes caller payment chain messageId address payload rest hcall hother htrace hkeeps =>
    have hid : (⟨chain, messageId⟩ : Gateway.CrossChainId) = message.crossChainId := by
      by_contra hne
      rw [htrace, consumptions_cons, hkeeps.unconsumed] at hconsumed
      simp [consumption, Action.consumes, Gateway.validates, hne] at hconsumed
    obtain ⟨rfl, rfl⟩ := Gateway.CrossChainId.mk.inj hid
    have hhash := Gateway.MessageState.approved.inj (Except.ok.inj (hget.symm.trans hother))
    have hmem : ∀ bytes, bytes ∈ Operation.hashes crypto world.itsAddress input.operation →
        bytes ∈ message.hashes crypto world.itsAddress [⟨input, .ok trace⟩] :=
      fun _ h => .inr ⟨_, List.mem_singleton_self _, h⟩
    have hsame := Gateway.messageHashPreimage_injective (hinj hpreimage (hmem _ (by
      rw [hcall]
      exact .inr rfl)) hhash)
    have hpayload := hinj (.inl (.inl rfl)) (hmem payload.1 (by
      rw [hcall]
      exact .inl rfl)) hsame.2.2.2
    obtain rfl : message.sourceAddress = address := hsame.2.1
    obtain rfl : message.payload = payload := Subtype.ext hpayload
    refine ⟨⟨caller, payment, hcall⟩, ?_⟩
    cases hmanager : world.its.tokenManagerAddress message.data.tokenId with
    | some manager => exact ⟨manager, rfl⟩
    | none =>
      obtain ⟨env, operation⟩ := input
      obtain rfl : operation = .its caller payment message.call := hcall
      have hdeploys := DeployMessage.deploysManager hmanager hok
      obtain ⟨_, _, _, _, _, _, hdeployed, _⟩ := hdeploys.registered
      rw [htrace] at hdeployed
      simp [consumption] at hdeployed

theorem consumed_once (hregistered : Registered start)
    (hrun : (machine crypto).Run start history world) (id : Gateway.CrossChainId) :
    consumptions id (performed history) = 0 ∨
    consumptions id (performed history) = 1 ∧ world.gateway.messagesGet id = .ok .executed := by
  induction hrun with
  | start => exact .inl rfl
  | stopped _ _ ih => rwa [performed_stopped]
  | completed hbefore hok ih =>
    have hnameless := (keepsRegistry_run hregistered hbefore).registered.nameless
    rw [performed_completed, consumptions_append]
    rcases (gatewayStep hnameless hok).stands id with ⟨hquiet, hstands⟩ |
      ⟨honce, ⟨hash, happroved⟩, hexecuted⟩
    · rw [hquiet, Nat.add_zero]
      rcases ih with hnone | ⟨hone, hexecuted⟩
      · exact .inl hnone
      · exact .inr ⟨hone, hstands _ hexecuted (by simp)⟩
    · rcases ih with hnone | ⟨_, hexecuted⟩
      · exact .inr ⟨by rw [hnone, honce], hexecuted⟩
      · rw [hexecuted] at happroved
        simp at happroved

/-- A message stays approved until it is consumed. -/
theorem approved_run (hregistered : Registered start)
    (happroved : message.Approved crypto start.itsAddress start)
    (hrun : (machine crypto).Run start history world)
    (hquiet : consumptions message.crossChainId (performed history) = 0) :
    message.Approved crypto start.itsAddress world := by
  induction hrun with
  | start => exact happroved
  | stopped _ _ ih => exact ih (by rwa [performed_stopped] at hquiet)
  | completed hbefore hok ih =>
    have hnameless := (keepsRegistry_run hregistered hbefore).registered.nameless
    rw [performed_completed, consumptions_append, Nat.add_eq_zero_iff] at hquiet
    rcases (gatewayStep hnameless hok).stands message.crossChainId with ⟨_, hstands⟩ |
      ⟨honce, _, _⟩
    · exact hstands _ (ih hquiet.1) (by simp)
    · exact absurd hquiet.2 (by rw [honce]; exact Nat.one_ne_zero)

/-- The two phases of a message that deploys a token, in a run that reaches `world`. -/
structure TwoPhases (crypto : Crypto) (message : DeployMessage) (start : World)
    (history : History) (world : World) : Prop where
  /-- Without a manager, an execution deploys one and leaves the message approved. -/
  manager : world.its.tokenManagerAddress message.data.tokenId = none →
    ∀ env caller payment next trace,
      (machine crypto).step world ⟨env, .its caller payment message.call⟩ = .ok (next, trace) →
      DeploysManager crypto message payment world trace next ∧
      message.Approved crypto start.itsAddress next
  /-- With one, an execution consumes the message and issues the token. -/
  token : ∀ manager, world.its.tokenManagerAddress message.data.tokenId = some manager →
    ∀ env caller payment next trace,
      (machine crypto).step world ⟨env, .its caller payment message.call⟩ = .ok (next, trace) →
      IssuesToken crypto env message caller payment manager world trace next
  once : consumptions message.crossChainId (performed history) ≤ 1
  /-- Once approved, the message stays so until it is consumed. -/
  stands : ∀ before after reached, history = before ++ after →
    (machine crypto).Run start before reached → message.Approved crypto start.itsAddress reached →
    consumptions message.crossChainId (performed after) = 0 →
    message.Approved crypto start.itsAddress world
  /-- Only the second phase consumes it. -/
  consumed : ∀ before input trace after reached, history = before ++ ⟨input, .ok trace⟩ :: after →
    (machine crypto).Run start before reached → message.Approved crypto start.itsAddress reached →
    consumptions message.crossChainId trace ≠ 0 →
    (∃ caller payment, input.operation = .its caller payment message.call) ∧
    ∃ manager, reached.its.tokenManagerAddress message.data.tokenId = some manager
  failing : ∀ before input text after reached next,
    history = before ++ ⟨input, .error text⟩ :: after → (machine crypto).Run start before reached →
    (machine crypto).Run start (before ++ [⟨input, .error text⟩]) next → next = reached

theorem twoPhases (hlaunched : Launched crypto start)
    (hrun : (machine crypto).Run start history world)
    (hinj : Set.InjOn crypto.keccak256 (message.hashes crypto start.itsAddress history)) :
    TwoPhases crypto message start history world := by
  have hregistered := hlaunched.registered
  have hself := (keepsRegistry_run hregistered hrun).itsAddress
  refine ⟨?manager, ?token, ?once, ?stands, ?consumed, ?failing⟩
  case manager =>
    intro hnone env caller payment next trace hok
    have hdeploys := DeployMessage.deploysManager hnone hok
    refine ⟨hdeploys, ?_⟩
    have happroved := hdeploys.approved
    rw [hself] at happroved
    rwa [DeployMessage.Approved, World.Approved, hdeploys.gateway]
  case token =>
    intro manager hset env caller payment next trace hok
    exact DeployMessage.issuesToken hset hok
  case once =>
    rcases consumed_once hregistered hrun message.crossChainId with hnone | ⟨hone, _⟩
    · omega
    · omega
  case stands =>
    rintro before after reached rfl hreached happroved hquiet
    obtain ⟨middle, hmiddle, hafter⟩ := hrun.split
    obtain rfl := hmiddle.unique hreached
    have hkeeps := keepsRegistry_run hregistered hreached
    rw [← hkeeps.itsAddress] at happroved ⊢
    exact approved_run hkeeps.registered happroved hafter hquiet
  case consumed =>
    rintro before input trace after reached rfl hreached happroved hconsumed
    obtain ⟨middle, next, hmiddle, hok, _⟩ := hrun.step_at
    obtain rfl := hmiddle.unique hreached
    have hkeeps := keepsRegistry_run hregistered hreached
    rw [← hkeeps.itsAddress] at happroved hinj
    have hhere : Set.InjOn crypto.keccak256
        (message.hashes crypto middle.itsAddress [⟨input, .ok trace⟩]) := by
      apply hinj.mono
      rintro bytes (hmessage | ⟨entry, hentry, hbytes⟩)
      · exact .inl hmessage
      · rw [List.mem_singleton.mp hentry] at hbytes
        exact .inr ⟨_, by simp, hbytes⟩
    exact GatewayStep.consumed_by hhere happroved hok
      (gatewayStep hkeeps.registered.nameless hok) hconsumed
  case failing =>
    rintro before input text after reached next rfl hreached hnext
    exact hnext.stopped_inv.1.unique hreached

end Runs

/-! ## A token from chain `c` -/

def sampleRemoteData : DeployInterchainTokenPayload :=
  ⟨.ofByte 1, sampleNativeId, sampleBuffer (Bytes.ascii ['T', 'o', 'k', 'e', 'n']),
    sampleBuffer (Bytes.ascii ['T', 'K', 'N']), 18, .new⟩

def sampleRemoteInner : ManagedBuffer :=
  (abiEncode sampleRemoteData).toOption.getD .new

def sampleRemotePayload : ReceiveFromHubPayload :=
  ⟨.ofByte 4, sampleBuffer (Bytes.ascii ['c']), sampleRemoteInner⟩

def sampleRemoteMessage : DeployMessage where
  sourceChain := ITS_HUB_CHAIN_NAME
  messageId := sampleBuffer (Bytes.ascii ['m'])
  sourceAddress := sampleBuffer (Bytes.ascii ['h', 'u', 'b'])
  payload := (abiEncode sampleRemotePayload).toOption.getD .new
  originalSourceChain := sampleRemotePayload.originalSourceChain
  inner := sampleRemotePayload.payload
  data := sampleRemoteData
  wraps := ⟨by decide +kernel, by decide +kernel, sampleRemotePayload,
    abiDecode_abiEncode (by decide +kernel), rfl, rfl⟩
  decodes := abiDecode_abiEncode (by decide +kernel)

def sampleRemoteHash : Hash := NestedCodec.writeNat 32
  0xcfd1c6c7060a11fad1df5ae4730071060cb86b3c770ba96dfaf009359e45bcac

def sampleRemotePreimage : Bytes :=
  Gateway.messageHashPreimage sampleRemoteMessage.crossChainId sampleRemoteMessage.sourceAddress
    sampleItsAddress sampleRemoteHash

def sampleRemoteCrypto : Crypto :=
  .tabulated (sampleHashes ++ [(sampleRemoteMessage.payload.1, sampleRemoteHash),
    (sampleRemotePreimage, NestedCodec.writeNat 32
      0x834304d00bd856baac77490a657991472d9afd475cb7dd39a9cf62a29be54cad)]) []

/-- A world with the message approved. -/
def sampleApproved (world : World) : World :=
  { world with
    gateway := world.gateway.messagesSet sampleRemoteMessage.crossChainId
      (.approved (sampleRemoteCrypto.keccak256 sampleRemotePreimage)) }

def sampleExecution (payment : EgldOrMultiEsdtPayment) : Input :=
  ⟨sampleEnvironment, .its sampleUser payment sampleRemoteMessage.call⟩

/-- The user executes the message three times, and pays the second time. -/
def sampleExecutions : List Input :=
  [sampleExecution .none, sampleExecution (.egld DEFAULT_ESDT_ISSUE_COST), sampleExecution .none]

theorem sampleRemote_hashes {service : Address} {history : History}
    (hself : service = sampleItsAddress) (hinputs : history.map Entry.input = sampleExecutions) :
    sampleRemoteMessage.hashes sampleRemoteCrypto service history ⊆
      {sampleRemoteMessage.payload.1, sampleRemotePreimage} := by
  have hhash : sampleRemoteCrypto.keccak256 sampleRemoteMessage.payload.1 = sampleRemoteHash := by
    decide +kernel
  have hcall : ∀ payment, Operation.hashes sampleRemoteCrypto service
      (.its sampleUser payment sampleRemoteMessage.call) ⊆
        {sampleRemoteMessage.payload.1, sampleRemotePreimage} := by
    intro payment bytes hbytes
    rw [hself] at hbytes
    simp only [DeployMessage.call, Operation.hashes, hhash] at hbytes
    exact hbytes
  rintro bytes (hmessage | ⟨entry, hentry, hbytes⟩)
  · exact hcall .none hmessage
  · have hinput : entry.input ∈ sampleExecutions := by
      rw [← hinputs]
      exact List.mem_map_of_mem hentry
    simp only [sampleExecutions, List.mem_cons, List.not_mem_nil, or_false] at hinput
    rcases hinput with hinput | hinput | hinput <;> rw [hinput] at hbytes <;>
      exact hcall _ hbytes

theorem sample_twoPhases : ∃ start history world,
    (machine sampleRemoteCrypto).Run start history world ∧
    history.map Entry.input = sampleExecutions ∧
    history.map (fun entry => entry.result.isOk) = [true, true, false] ∧
    TwoPhases sampleRemoteCrypto sampleRemoteMessage start history world := by
  have hreplay : (do
      let start ← sampleWorld sampleRemoteCrypto
      let replayed := (machine sampleRemoteCrypto).replay (sampleApproved start) sampleExecutions
      return (start.itsAddress,
        replayed.1.map fun (entry : Entry Input (List Action)) => entry.result.isOk)) =
        .ok (sampleItsAddress, [true, true, false]) := by
    decide +kernel
  simp only [Outcome.bind_eq_ok, Outcome.pure_eq_ok] at hreplay
  obtain ⟨start, hstart, hview⟩ := hreplay
  obtain ⟨hself, hresults⟩ := Prod.mk.inj hview
  have hlaunched : Launched sampleRemoteCrypto (sampleApproved start) :=
    ⟨(sampleWorld_launched hstart).init, (sampleWorld_launched hstart).managers,
      (sampleWorld_launched hstart).pending⟩
  have hinputs := (machine sampleRemoteCrypto).replay_inputs (sampleApproved start)
    sampleExecutions
  have hrun := (machine sampleRemoteCrypto).run_replay (sampleApproved start) sampleExecutions
  have hinj : Set.InjOn sampleRemoteCrypto.keccak256
      {sampleRemoteMessage.payload.1, sampleRemotePreimage} := by
    have hne : sampleRemoteCrypto.keccak256 sampleRemoteMessage.payload.1 ≠
        sampleRemoteCrypto.keccak256 sampleRemotePreimage := by
      decide +kernel
    exact Set.injOn_pair.mpr fun heq => absurd heq hne
  exact ⟨_, _, _, hrun, hinputs, hresults,
    twoPhases hlaunched hrun (hinj.mono (sampleRemote_hashes hself hinputs))⟩

end AxelarCgp.Its
