import AxelarCgp.Its.Rules

/-!
# Effects of the calls of other contracts

What a completed call of a token manager, of the gateway or of the gas service
left unchanged, and what it added to the trace.
-/

namespace AxelarCgp.Its

open Transaction

/-- The requests for token properties in flight, oldest first. -/
def World.requests (world : World) : List Request :=
  world.pending.filterMap fun
    | .tokenProperties request => some request
    | .issue _ _ _ => none

theorem World.mem_requests {world : World} {request : Request} :
    request ∈ world.requests ↔ .tokenProperties request ∈ world.pending := by
  rw [requests, List.mem_filterMap]
  constructor
  · rintro ⟨pending, hmem, hrequest⟩
    cases pending with
    | tokenProperties other =>
      obtain rfl := Option.some.inj hrequest
      exact hmem
    | issue => simp at hrequest
  · exact fun hmem => ⟨_, hmem, rfl⟩

theorem World.requests_append (world : World) (request : Request) :
    ({ world with pending := world.pending ++ [.tokenProperties request] } : World).requests =
      world.requests ++ [request] := by
  simp [requests, List.filterMap_append]

theorem World.requests_eraseIdx_subset (world : World) (index : ℕ) :
    ({ world with pending := world.pending.eraseIdx index } : World).requests ⊆
      world.requests := by
  intro request hmem
  rw [mem_requests] at hmem ⊢
  exact List.mem_of_mem_eraseIdx hmem

/-- Tokens were moved, token managers kept their books and asked for tokens to be
issued; the service and the gateway are as they were. -/
structure MovesTokens (before after : World) : Prop where
  itsAddress : after.itsAddress = before.itsAddress
  its : after.its = before.its
  gateway : after.gateway = before.gateway
  requests : after.requests = before.requests
  managers : ∀ address, (after.managers address).isSome = (before.managers address).isSome

theorem MovesTokens.refl (world : World) : MovesTokens world world :=
  ⟨rfl, rfl, rfl, rfl, fun _ => rfl⟩

theorem MovesTokens.trans {first second third : World} (h : MovesTokens first second)
    (hnext : MovesTokens second third) : MovesTokens first third where
  itsAddress := hnext.itsAddress.trans h.itsAddress
  its := hnext.its.trans h.its
  gateway := hnext.gateway.trans h.gateway
  requests := hnext.requests.trans h.requests
  managers address := (hnext.managers address).trans (h.managers address)

/-- Moving tokens leaves no trace of its own. -/
def Silent (_ : ℕ) (before : World) (trace : List Action) (after : World) : Prop :=
  MovesTokens before after ∧ trace = []

theorem composes_silent : Composes Silent where
  nil world := ⟨.refl world, rfl⟩
  append first second := ⟨first.1.trans second.1, by rw [first.2, second.2]; rfl⟩
  mono _ h := h

section Silent

variable (env : Environment)

theorem silent_ledger (change : World → Ledger Address Asset) :
    Satisfies (Silent 0) (modifies fun world => { world with ledger := change world }) :=
  .modifies fun _ => ⟨⟨rfl, rfl, rfl, rfl, fun _ => rfl⟩, rfl⟩

theorem silent_transfer (sender receiver : Address) (asset : Asset) (amount : ℕ) :
    Satisfies (Silent 0) (transfer sender receiver asset amount) :=
  .inspect_bind (.reads _) fun _ => .inspect_bind (.lift _) fun ledger =>
    silent_ledger fun _ => ledger

theorem silent_pay (ctx : CallContext) : Satisfies (Silent 0) (pay ctx) :=
  .forEach composes_silent (fun _ => silent_transfer _ _ _ _) _

theorem silent_register_issue (manager user : Address) (cost : ℕ) :
    Satisfies (Silent 0) (register (.issue manager user cost)) := by
  refine .modifies fun world => ⟨⟨rfl, rfl, rfl, ?_, fun _ => rfl⟩, rfl⟩
  simp [World.requests, List.filterMap_append]

theorem silent_managerAction (manager : Address) (action : TokenManager.Action) :
    Satisfies (Silent 0) (managerAction env manager action) := by
  cases action with
  | localMint token amount =>
    exact .inspect_bind (.lift _) fun _ => silent_ledger _
  | localBurn token amount =>
    exact .inspect_bind (.lift _) fun _ => .inspect_bind (.reads _) fun _ =>
      .inspect_bind (.lift _) fun ledger => silent_ledger fun _ => ledger
  | send receiver token amount => exact silent_transfer _ _ _ _
  | issue cost name ticker decimals user =>
    exact .andThen composes_silent (silent_transfer _ _ _ _) fun _ =>
      silent_register_issue _ _ _
  | _ => exact .pure composes_silent ()

theorem managerAt_eq_ok {address : Address} {world last : World} {trace : List Action}
    {state : TokenManager.State} :
    managerAt address world = .ok ⟨state, last, trace⟩ ↔
      world.managers address = some state ∧ world = last ∧ [] = trace := by
  simp only [managerAt, Transaction.bind_eq_ok, reads_eq_ok, lift_eq_ok, Outcome.orFail_eq_ok]
  constructor
  · rintro ⟨_, _, _, _, ⟨rfl, rfl, rfl⟩, ⟨hmanager, rfl, rfl⟩, rfl⟩
    exact ⟨hmanager, rfl, rfl⟩
  · rintro ⟨hmanager, rfl, rfl⟩
    exact ⟨_, _, _, _, ⟨rfl, rfl, rfl⟩, ⟨hmanager, rfl, rfl⟩, rfl⟩

end Silent

section Calls

variable {env : Environment} {world last : World} {trace : List Action}

/-- Code of a token manager runs on its state, and then the platform carries out
what it did. -/
theorem runManager_eq_ok {A : Type} {address : Address} {code : TokenManager.Tx A} {value : A}
    {actions : List TokenManager.Action} :
    runManager env address code world = .ok ⟨(value, actions), last, trace⟩ ↔
      ∃ state next, world.managers address = some state ∧
        code state = .ok ⟨value, next, actions⟩ ∧
        forEach (managerAction env address) actions (world.setManager address next) =
          .ok ⟨(), last, trace⟩ := by
  simp only [runManager, Transaction.bind_eq_ok, managerAt_eq_ok, lift_eq_ok, modifies_eq_ok,
    Transaction.pure_eq_ok, Prod.mk.injEq]
  constructor
  · rintro ⟨state, _, _, _, ⟨hmanager, rfl, rfl⟩, ⟨⟨value, next, actions⟩, _, _, _,
      ⟨hcode, rfl, rfl⟩, ⟨_, _, _, _, ⟨rfl, rfl⟩, ⟨_, _, _, _, hactions,
        ⟨⟨rfl, rfl⟩, rfl, rfl⟩, rfl⟩, rfl⟩, rfl⟩, rfl⟩
    exact ⟨state, next, hmanager, hcode, by simpa using hactions⟩
  · rintro ⟨state, next, hmanager, hcode, hactions⟩
    exact ⟨state, _, _, _, ⟨hmanager, rfl, rfl⟩, ⟨⟨value, next, actions⟩, _, _, _,
      ⟨hcode, rfl, rfl⟩, ⟨(), _, _, _, ⟨rfl, rfl⟩, ⟨(), _, _, _, hactions,
        ⟨⟨rfl, rfl⟩, rfl, rfl⟩, rfl⟩, rfl⟩, rfl⟩, by simp⟩

theorem movesTokens_setManager {address : Address} {state : TokenManager.State}
    (hmanager : (world.managers address).isSome) :
    MovesTokens world (world.setManager address state) where
  itsAddress := rfl
  its := rfl
  gateway := rfl
  requests := rfl
  managers other := by
    by_cases hother : other = address
    · subst hother
      simp [World.setManager, hmanager]
    · simp [World.setManager, Function.update_of_ne hother]

theorem runManager_silent {A : Type} (address : Address) (code : TokenManager.Tx A) :
    Satisfies (Silent 0) (runManager env address code) := by
  rintro world ⟨value, actions⟩ last trace h
  obtain ⟨state, next, hmanager, _, hactions⟩ := runManager_eq_ok.mp h
  have hset : MovesTokens world (world.setManager address next) :=
    movesTokens_setManager (by rw [hmanager]; rfl)
  obtain ⟨hmoves, htrace⟩ :=
    Satisfies.forEach composes_silent (silent_managerAction env address) actions
      _ _ _ _ hactions
  exact ⟨hset.trans hmoves, htrace⟩

/-- A call of a token manager pays, runs the manager, and says so. -/
theorem callManager_eq_ok {ctx : CallContext} {call : TokenManager.Call}
    {reply : TokenManager.Reply} :
    callManager env ctx call world = .ok ⟨reply, last, trace⟩ ↔
      ∃ paid actions, pay ctx world = .ok ⟨(), paid, []⟩ ∧
        runManager env ctx.scAddress (TokenManager.perform ctx call) paid =
          .ok ⟨(reply, actions), last, []⟩ ∧
        trace = [.manager ctx call reply actions] := by
  simp only [callManager, Transaction.bind_eq_ok, performs_eq_ok, Transaction.pure_eq_ok]
  constructor
  · rintro ⟨_, paid, _, _, hpay, ⟨⟨reply, actions⟩, _, _, _, hrun, ⟨_, _, _, _, ⟨rfl, rfl⟩,
      ⟨rfl, rfl, rfl⟩, rfl⟩, rfl⟩, rfl⟩
    obtain rfl := (silent_pay ctx _ _ _ _ hpay).2
    obtain rfl := (runManager_silent _ _ _ _ _ _ hrun).2
    exact ⟨paid, actions, hpay, hrun, by simp⟩
  · rintro ⟨paid, actions, hpay, hrun, rfl⟩
    exact ⟨(), paid, _, _, hpay, ⟨(reply, actions), _, _, _, hrun, ⟨(), _, _, _, ⟨rfl, rfl⟩,
      ⟨rfl, rfl, rfl⟩, rfl⟩, rfl⟩, by simp⟩

theorem callManager_movesTokens {ctx : CallContext} {call : TokenManager.Call}
    {reply : TokenManager.Reply}
    (h : callManager env ctx call world = .ok ⟨reply, last, trace⟩) :
    MovesTokens world last ∧ ∃ actions, trace = [.manager ctx call reply actions] := by
  obtain ⟨paid, actions, hpay, hrun, rfl⟩ := callManager_eq_ok.mp h
  have hpaid := (silent_pay ctx _ _ _ _ hpay).1
  exact ⟨hpaid.trans (runManager_silent _ _ _ _ _ _ hrun).1, actions, rfl⟩

variable {crypto : Crypto}

theorem callGateway_eq_ok {ctx : CallContext} {call : Gateway.Call} {reply : Gateway.Reply} :
    callGateway crypto ctx call world = .ok ⟨reply, last, trace⟩ ↔
      ∃ gateway, Gateway.perform crypto ctx call world.gateway = .ok (gateway, reply) ∧
        last = { world with gateway } ∧ trace = [.gateway ctx call reply] := by
  simp only [callGateway, Transaction.bind_eq_ok, reads_eq_ok, lift_eq_ok, modifies_eq_ok,
    performs_eq_ok, Transaction.pure_eq_ok]
  constructor
  · rintro ⟨_, _, _, _, ⟨rfl, rfl, rfl⟩, ⟨⟨gateway, reply⟩, _, _, _, ⟨hperform, rfl, rfl⟩,
      ⟨_, _, _, _, ⟨rfl, rfl⟩, ⟨_, _, _, _, ⟨rfl, rfl⟩, ⟨rfl, rfl, rfl⟩, rfl⟩, rfl⟩, rfl⟩, rfl⟩
    exact ⟨gateway, hperform, rfl, by simp⟩
  · rintro ⟨gateway, hperform, rfl, rfl⟩
    exact ⟨_, _, _, _, ⟨rfl, rfl, rfl⟩, ⟨(gateway, reply), _, _, _, ⟨hperform, rfl, rfl⟩,
      ⟨(), _, _, _, ⟨rfl, rfl⟩, ⟨(), _, _, _, ⟨rfl, rfl⟩, ⟨rfl, rfl, rfl⟩, rfl⟩, rfl⟩, rfl⟩,
      by simp⟩

/-- Calling a contract on another chain leaves the gateway as it was. -/
theorem gatewayCallContract_eq_ok {ctx : CallContext}
    {destinationChain destinationAddress payload : ManagedBuffer} :
    gatewayCallContract crypto env ctx destinationChain destinationAddress payload world =
        .ok ⟨(), last, trace⟩ ↔
      last = world ∧ trace = [.gateway (nested env ctx world.its.gateway .none)
        (.callContract destinationChain destinationAddress payload)
        ⟨false, [.contractCall ctx.scAddress destinationChain destinationAddress
          (crypto.keccak256 payload.1) payload]⟩] := by
  simp only [gatewayCallContract, Transaction.bind_eq_ok, reads_eq_ok, callGateway_eq_ok,
    Transaction.pure_eq_ok, Gateway.perform, Gateway.callContract, Gateway.reply,
    requireNotPayable, Outcome.bind_eq_ok, Outcome.require_eq_ok, Outcome.exists_unit,
    Outcome.pure_eq_ok, Prod.mk.injEq]
  constructor
  · rintro ⟨_, _, _, _, ⟨rfl, rfl, rfl⟩, ⟨_, _, _, _, ⟨_, ⟨_, rfl, rfl⟩, rfl, rfl⟩,
      ⟨_, rfl, rfl⟩, rfl⟩, rfl⟩
    exact ⟨rfl, rfl⟩
  · rintro ⟨rfl, rfl⟩
    exact ⟨_, _, _, _, ⟨rfl, rfl, rfl⟩, ⟨_, _, _, _, ⟨_, ⟨rfl, rfl, rfl⟩, rfl, rfl⟩,
      ⟨trivial, rfl, rfl⟩, rfl⟩, rfl⟩

theorem transfer_eq_ok {sender receiver : Address} {asset : Asset} {amount : ℕ} :
    transfer sender receiver asset amount world = .ok ⟨(), last, trace⟩ ↔
      ∃ ledger, world.ledger.transfer sender receiver asset amount = .ok ledger ∧
        last = { world with ledger } ∧ trace = [] :=
  replaces_eq_ok

/-- A payment of one amount is a transfer. -/
theorem pay_eq_transfer {ctx : CallContext} {asset : Asset} {amount : ℕ}
    (h : ctx.callValue.amounts = [(asset, amount)]) :
    pay ctx world = .ok ⟨(), last, trace⟩ ↔
      transfer ctx.caller ctx.scAddress asset amount world = .ok ⟨(), last, trace⟩ := by
  rw [pay, h]
  simp only [forEach, Transaction.bind_eq_ok, Transaction.pure_eq_ok]
  constructor
  · rintro ⟨_, _, _, _, htransfer, ⟨_, rfl, rfl⟩, rfl⟩
    simpa using htransfer
  · intro htransfer
    exact ⟨_, _, _, _, htransfer, ⟨trivial, rfl, rfl⟩, by simp⟩

/-- What the gas service announces of a payment. -/
def gasPaid (crypto : Crypto) (ctx : CallContext) (destinationChain destinationAddress
    payload : ManagedBuffer) (gasValue : ℕ) : GasService.NativeGasPaidForContractCall where
  sender := ctx.scAddress
  destinationChain
  destinationAddress
  hash := crypto.keccak256 payload.1
  value := gasValue
  refundAddress := ctx.caller

theorem gasServicePay_eq_ok {ctx : CallContext}
    {destinationChain destinationAddress payload : ManagedBuffer} {gasValue : ℕ} :
    gasServicePayNativeGasForContractCall crypto env ctx destinationChain destinationAddress
        payload gasValue world = .ok ⟨(), last, trace⟩ ↔
      gasValue > 0 ∧
      transfer ctx.scAddress world.its.gasService .egld gasValue world = .ok ⟨(), last, []⟩ ∧
      trace = [.gasService (gasPaid crypto ctx destinationChain destinationAddress payload
        gasValue)] := by
  have hpay : ∀ paid trace,
      pay (nested env ctx world.its.gasService (.egld gasValue)) world = .ok ⟨(), paid, trace⟩ ↔
        transfer ctx.scAddress world.its.gasService .egld gasValue world =
          .ok ⟨(), paid, trace⟩ :=
    fun paid trace => pay_eq_transfer rfl
  simp only [gasServicePayNativeGasForContractCall, callGasService, Transaction.bind_eq_ok,
    reads_eq_ok, lift_eq_ok, performs_eq_ok, GasService.payNativeGasForContractCall,
    Outcome.bind_eq_ok, Outcome.require_eq_ok, Outcome.exists_unit, Outcome.pure_eq_ok]
  constructor
  · rintro ⟨_, _, _, _, ⟨rfl, rfl, rfl⟩, ⟨paid, _, _, htransfer, ⟨announced, _, _, _,
      ⟨⟨value, hvalue, hpositive, rfl⟩, rfl, rfl⟩, ⟨rfl, rfl⟩, rfl⟩, rfl⟩, rfl⟩
    obtain rfl : gasValue = value := Except.ok.inj hvalue
    rw [hpay] at htransfer
    obtain ⟨ledger, hledger, rfl, rfl⟩ := transfer_eq_ok.mp htransfer
    exact ⟨hpositive, htransfer, rfl⟩
  · rintro ⟨hpositive, htransfer, rfl⟩
    exact ⟨_, _, _, _, ⟨rfl, rfl, rfl⟩, ⟨_, _, _, (hpay _ _).mpr htransfer, ⟨_, _, _, _,
      ⟨⟨gasValue, rfl, hpositive, rfl⟩, rfl, rfl⟩, ⟨rfl, rfl⟩, rfl⟩, rfl⟩, rfl⟩

/-- The trace of a message to the hub, with the payment of its gas. -/
def hubTrace (crypto : Crypto) (env : Environment) (ctx : CallContext) (its : State)
    (payload : ManagedBuffer) (gasValue : ℕ) : List Action :=
  (if gasValue > 0 then
    [.gasService (gasPaid crypto ctx ITS_HUB_CHAIN_NAME its.itsHubAddress payload gasValue)]
  else []) ++
  [.gateway (nested env ctx its.gateway .none)
    (.callContract ITS_HUB_CHAIN_NAME its.itsHubAddress payload)
    ⟨false, [.contractCall ctx.scAddress ITS_HUB_CHAIN_NAME its.itsHubAddress
      (crypto.keccak256 payload.1) payload]⟩]

/-- A transfer of EGLD, where there is any. -/
def Pays (sender receiver : Address) (amount : ℕ) (before after : World) : Prop :=
  if amount > 0 then transfer sender receiver .egld amount before = .ok ⟨(), after, []⟩
  else after = before

theorem Pays.movesTokens {sender receiver : Address} {amount : ℕ} (h : Pays sender receiver
    amount world last) : MovesTokens world last := by
  unfold Pays at h
  split at h
  · exact (silent_transfer _ _ _ _ _ _ _ _ h).1
  · rw [h]
    exact .refl world

theorem exists_pays {sender : Address} {amount : ℕ} (receiver : Address)
    (h : amount ≤ world.ledger.balance sender .egld) :
    ∃ last, Pays sender receiver amount world last := by
  unfold Pays
  split
  · obtain ⟨ledger, hledger⟩ : ∃ ledger, world.ledger.transfer sender receiver .egld amount =
        .ok ledger := Ledger.transfer_isOk h
    exact ⟨_, transfer_eq_ok.mpr ⟨ledger, hledger, rfl, rfl⟩⟩
  · exact ⟨world, rfl⟩

/-- A message to the hub costs its gas value and nothing else. -/
theorem callContractItsHub_eq_ok {ctx : CallContext} {payload : ManagedBuffer}
    {gasValue : ℕ} :
    callContractItsHub crypto env ctx payload gasValue world = .ok ⟨(), last, trace⟩ ↔
      Pays ctx.scAddress world.its.gasService gasValue world last ∧
      trace = hubTrace crypto env ctx world.its payload gasValue := by
  simp only [callContractItsHub, Pays, Transaction.bind_eq_ok, reads_eq_ok]
  split
  · rename_i hpositive
    simp only [Transaction.bind_eq_ok, Outcome.exists_unit, gasServicePay_eq_ok,
      gatewayCallContract_eq_ok]
    constructor
    · rintro ⟨_, _, _, _, ⟨rfl, rfl, rfl⟩, ⟨_, _, _, ⟨_, htransfer, rfl⟩, ⟨rfl, rfl⟩, rfl⟩,
        rfl⟩
      obtain ⟨ledger, hledger, rfl, _⟩ := transfer_eq_ok.mp htransfer
      exact ⟨htransfer, by simp [hubTrace, hpositive]⟩
    · rintro ⟨htransfer, rfl⟩
      obtain ⟨ledger, hledger, rfl, _⟩ := transfer_eq_ok.mp htransfer
      exact ⟨_, _, _, _, ⟨rfl, rfl, rfl⟩, ⟨_, _, _, ⟨hpositive, htransfer, rfl⟩,
        ⟨rfl, rfl⟩, rfl⟩, by simp [hubTrace, hpositive]⟩
  · rename_i hfree
    simp only [gatewayCallContract_eq_ok]
    constructor
    · rintro ⟨_, _, _, _, ⟨rfl, rfl, rfl⟩, ⟨rfl, rfl⟩, rfl⟩
      exact ⟨rfl, by simp [hubTrace, hfree]⟩
    · rintro ⟨rfl, rfl⟩
      exact ⟨_, _, _, _, ⟨rfl, rfl, rfl⟩, ⟨rfl, rfl⟩, by simp [hubTrace, hfree]⟩

/-- A contract that comes into being at a free address has run its `init`. -/
theorem deployFromSource_eq_ok {service : Address} {tokenManagerType : TokenManagerType}
    {tokenId : TokenId} {params : DeployTokenManagerParams} {address : Address} :
    deployFromSource env service tokenManagerType tokenId params world =
        .ok ⟨address, last, trace⟩ ↔
      ∃ (state : TokenManager.State) (actions : List TokenManager.Action),
        world.isSystemContract address = false ∧
        TokenManager.init service tokenManagerType tokenId params .blank =
          .ok ⟨(), state, actions⟩ ∧
        env.newAddress = address ∧ world.setManager address state = last ∧
        [.managerDeployed address service tokenManagerType tokenId params] = trace := by
  rw [deployFromSource, reads_bind, require_bind_eq_ok, lift_bind_eq_ok]
  simp only [modifies_bind, Transaction.bind_eq_ok, performs_eq_ok, Transaction.pure_eq_ok,
    Bool.not_eq_true]
  constructor
  · rintro ⟨hfree, ⟨_, state, actions⟩, hinit, _, _, _, _, ⟨rfl, rfl⟩, ⟨rfl, rfl, rfl⟩, rfl⟩
    exact ⟨state, actions, hfree, hinit, rfl, rfl, rfl⟩
  · rintro ⟨state, actions, hfree, hinit, rfl, rfl, rfl⟩
    exact ⟨hfree, ⟨(), state, actions⟩, hinit, (), _, _, _, ⟨rfl, rfl⟩, ⟨rfl, rfl, rfl⟩, rfl⟩

/-- Deploying a token manager adds it to the managers and under its token id. -/
theorem deployTokenManagerRaw_eq_ok {ctx : CallContext} {tokenId : TokenId}
    {tokenManagerType : TokenManagerType} {tokenIdentifier : Option EgldOrEsdtTokenIdentifier}
    {operator : ManagedBuffer} {address : Address}
    (h : deployTokenManagerRaw env ctx tokenId tokenManagerType tokenIdentifier operator world =
      .ok ⟨address, last, trace⟩) :
    ∃ state actions params, world.its.tokenManagerAddress tokenId = none ∧
      world.isSystemContract address = false ∧
      TokenManager.init ctx.scAddress tokenManagerType tokenId params .blank =
        .ok ⟨(), state, actions⟩ ∧
      toOptionalAddress operator = .ok params.operator ∧
      params.tokenIdentifier = tokenIdentifier ∧
      last = { world.setManager address state with
        its := { world.its with
          tokenManagerAddress :=
            Function.update world.its.tokenManagerAddress tokenId (some address) } } ∧
      trace = [.managerDeployed address ctx.scAddress tokenManagerType tokenId params,
        .event (.tokenManagerDeployed tokenId address tokenManagerType params)] := by
  rw [deployTokenManagerRaw, reads_bind, require_bind_eq_ok, lift_bind_eq_ok] at h
  obtain ⟨hnone, operatorAddress, hoperator, hdeploy⟩ := h
  obtain ⟨_, _, _, _, hsource, hrest, rfl⟩ := Transaction.bind_eq_ok.mp hdeploy
  obtain ⟨state, actions, hfree, hinit, rfl, rfl, rfl⟩ := deployFromSource_eq_ok.mp hsource
  obtain ⟨_, hrecord⟩ := require_bind_eq_ok.mp hrest
  simp only [emits, modifiesIts, modifies_bind, Transaction.bind_eq_ok, performs_eq_ok,
    Transaction.pure_eq_ok] at hrecord
  obtain ⟨_, _, _, _, ⟨rfl, rfl⟩, ⟨rfl, rfl, rfl⟩, rfl⟩ := hrecord
  exact ⟨state, actions, ⟨operatorAddress, tokenIdentifier⟩, hnone, hfree, hinit, hoperator,
    rfl, rfl, rfl⟩

theorem send_eq_ok {sender receiver : Address} {asset : Asset} {amount : ℕ} :
    send sender receiver asset amount world = .ok ⟨(), last, trace⟩ ↔
      transfer sender receiver asset amount world = .ok ⟨(), last, []⟩ ∧
      trace = [.send receiver asset amount] := by
  simp only [send, Transaction.bind_eq_ok, performs_eq_ok]
  constructor
  · rintro ⟨_, _, _, _, htransfer, ⟨rfl, rfl⟩, rfl⟩
    obtain ⟨ledger, hledger, rfl, rfl⟩ := transfer_eq_ok.mp htransfer
    exact ⟨htransfer, rfl⟩
  · rintro ⟨htransfer, rfl⟩
    exact ⟨(), _, _, _, htransfer, ⟨rfl, rfl⟩, rfl⟩

theorem executeWithInterchainToken_eq_ok {ctx : CallContext} {receiver : Address}
    {chain id source data : ManagedBuffer} {tokenId : TokenId}
    {token : EgldOrEsdtTokenIdentifier} {amount : ℕ} :
    executableContractExecuteWithInterchainToken env ctx receiver chain id source data tokenId
        token amount world = .ok ⟨(), last, trace⟩ ↔
      (world.isSystemContract receiver = false ∧ env.accepts receiver) ∧
      pay (nested env ctx receiver (singlePayment token amount)) world = .ok ⟨(), last, []⟩ ∧
      trace = [.executeWithInterchainToken receiver chain id source data tokenId token
        amount] := by
  simp only [executableContractExecuteWithInterchainToken, Transaction.bind_eq_ok,
    Outcome.exists_unit, reads_eq_ok, lift_eq_ok, Outcome.require_eq_ok, performs_eq_ok,
    Bool.not_eq_true]
  constructor
  · rintro ⟨_, _, _, _, ⟨rfl, rfl, rfl⟩, ⟨_, _, _, ⟨hreceiver, rfl, rfl⟩, ⟨_, _, _, hpay,
      ⟨rfl, rfl⟩, rfl⟩, rfl⟩, rfl⟩
    obtain rfl := (silent_pay _ _ _ _ _ hpay).2
    exact ⟨hreceiver, hpay, rfl⟩
  · rintro ⟨hreceiver, hpay, rfl⟩
    exact ⟨_, _, _, _, ⟨rfl, rfl, rfl⟩, ⟨_, _, _, ⟨hreceiver, rfl, rfl⟩, ⟨_, _, _, hpay,
      ⟨rfl, rfl⟩, rfl⟩, rfl⟩, rfl⟩

end Calls

/-! ## Inputs -/

section Inputs

variable {crypto : Crypto} {env : Environment} {world last : World} {trace : List Action}

theorem requireExternal_eq_ok {caller : Address} :
    requireExternal caller world = .ok ⟨(), last, trace⟩ ↔
      (world.isSystemContract caller = false ∧ caller.isZero = false) ∧ last = world ∧
        trace = [] := by
  simp only [requireExternal, Transaction.bind_eq_ok, reads_eq_ok, lift_eq_ok,
    Outcome.require_eq_ok, Bool.not_eq_true]
  constructor
  · rintro ⟨_, _, _, _, ⟨rfl, rfl, rfl⟩, ⟨hcaller, rfl, rfl⟩, rfl⟩
    exact ⟨hcaller, rfl, rfl⟩
  · rintro ⟨hcaller, rfl, rfl⟩
    exact ⟨_, _, _, _, ⟨rfl, rfl, rfl⟩, ⟨hcaller, rfl, rfl⟩, rfl⟩

/-- A transaction with the service: the payment moves, and then the endpoint runs. -/
theorem run_its_eq_ok {caller : Address} {payment : EgldOrMultiEsdtPayment} {call : Call} :
    (Operation.its caller payment call).run crypto env world = .ok ⟨(), last, trace⟩ ↔
      (world.isSystemContract caller = false ∧ caller.isZero = false) ∧
      ∃ paid, pay (env.context caller world.itsAddress payment) world = .ok ⟨(), paid, []⟩ ∧
        perform crypto env (env.context caller world.itsAddress payment) call paid =
          .ok ⟨(), last, trace⟩ := by
  simp only [Operation.run, Transaction.bind_eq_ok, Outcome.exists_unit, reads_eq_ok,
    requireExternal_eq_ok]
  constructor
  · rintro ⟨_, _, _, ⟨hexternal, rfl, rfl⟩, ⟨_, _, _, _, ⟨rfl, rfl, rfl⟩, ⟨_, _, _, hpay,
      hperform, rfl⟩, rfl⟩, rfl⟩
    obtain rfl := (silent_pay _ _ _ _ _ hpay).2
    exact ⟨hexternal, _, hpay, hperform⟩
  · rintro ⟨hexternal, paid, hpay, hperform⟩
    exact ⟨_, _, _, ⟨hexternal, rfl, rfl⟩, ⟨_, _, _, _, ⟨rfl, rfl, rfl⟩, ⟨_, _, _, hpay,
      hperform, rfl⟩, rfl⟩, rfl⟩

theorem run_gateway_eq_ok {caller : Address} {call : Gateway.Call} :
    (Operation.gateway caller call).run crypto env world = .ok ⟨(), last, trace⟩ ↔
      (world.isSystemContract caller = false ∧ caller.isZero = false) ∧
      ∃ reply, callGateway crypto (env.context caller world.its.gateway .none) call world =
        .ok ⟨reply, last, trace⟩ := by
  simp only [Operation.run, Transaction.bind_eq_ok, Outcome.exists_unit, reads_eq_ok,
    requireExternal_eq_ok, Transaction.pure_eq_ok]
  constructor
  · rintro ⟨_, _, _, ⟨hexternal, rfl, rfl⟩, ⟨_, _, _, _, ⟨rfl, rfl, rfl⟩, ⟨reply, _, _, _, hcall,
      ⟨_, rfl, rfl⟩, rfl⟩, rfl⟩, rfl⟩
    exact ⟨hexternal, reply, by simpa using hcall⟩
  · rintro ⟨hexternal, reply, hcall⟩
    exact ⟨_, _, _, ⟨hexternal, rfl, rfl⟩, ⟨_, _, _, _, ⟨rfl, rfl, rfl⟩, ⟨reply, _, _, _, hcall,
      ⟨trivial, rfl, rfl⟩, rfl⟩, rfl⟩, by simp⟩

theorem run_manager_eq_ok {caller address : Address} {payment : EgldOrMultiEsdtPayment}
    {call : TokenManager.Call} :
    (Operation.manager caller address payment call).run crypto env world =
        .ok ⟨(), last, trace⟩ ↔
      (world.isSystemContract caller = false ∧ caller.isZero = false) ∧
      ∃ reply, callManager env (env.context caller address payment) call world =
        .ok ⟨reply, last, trace⟩ := by
  simp only [Operation.run, Transaction.bind_eq_ok, Outcome.exists_unit, requireExternal_eq_ok,
    Transaction.pure_eq_ok]
  constructor
  · rintro ⟨_, _, _, ⟨hexternal, rfl, rfl⟩, ⟨reply, _, _, _, hcall, ⟨_, rfl, rfl⟩, rfl⟩, rfl⟩
    exact ⟨hexternal, reply, by simpa using hcall⟩
  · rintro ⟨hexternal, reply, hcall⟩
    exact ⟨_, _, _, ⟨hexternal, rfl, rfl⟩, ⟨reply, _, _, _, hcall, ⟨trivial, rfl, rfl⟩, rfl⟩,
      by simp⟩

theorem run_transfer_eq_ok {sender receiver : Address} {asset : Asset} {amount : ℕ} :
    (Operation.transfer sender receiver asset amount).run crypto env world =
        .ok ⟨(), last, trace⟩ ↔
      (world.isSystemContract sender = false ∧ sender.isZero = false) ∧
      transfer sender receiver asset amount world = .ok ⟨(), last, trace⟩ := by
  simp only [Operation.run, Transaction.bind_eq_ok, Outcome.exists_unit, requireExternal_eq_ok]
  constructor
  · rintro ⟨_, _, _, ⟨hexternal, rfl, rfl⟩, htransfer, rfl⟩
    exact ⟨hexternal, htransfer⟩
  · rintro ⟨hexternal, htransfer⟩
    exact ⟨_, _, _, ⟨hexternal, rfl, rfl⟩, htransfer, rfl⟩

/-- An attempt completes, or leaves everything as it was. -/
theorem attempt_eq_ok {x : Tx Unit} {completed : Bool} :
    attempt x world = .ok ⟨completed, last, trace⟩ ↔
      (completed = true ∧ x world = .ok ⟨(), last, trace⟩) ∨
      (completed = false ∧ (∃ message, x world = .error message) ∧ last = world ∧ trace = []) := by
  cases hx : x world with
  | ok result =>
    obtain ⟨value, state, actions⟩ := result
    simp [attempt, hx, eq_comm]
  | error message => simp [attempt, hx, eq_comm]

theorem satisfies_attempt {Rel : World → List Action → World → Prop} {x : Tx Unit}
    (hnil : ∀ world, Rel world [] world) (hx : Satisfies Rel x) :
    Satisfies Rel (attempt x) := by
  intro world completed last trace h
  rcases attempt_eq_ok.mp h with ⟨_, hok⟩ | ⟨_, _, rfl, rfl⟩
  · exact hx _ _ _ _ hok
  · exact hnil last

theorem silent_issueCallback (manager user : Address) (cost : ℕ) (result : AsyncResult) :
    Satisfies (Silent 0) (issueCallback env manager user cost result) := by
  cases result with
  | ok values =>
    exact .inspect_bind (.lift _) fun _ => .andThen composes_silent
      (runManager_silent _ _) fun _ => .pure composes_silent ()
  | err errCode errMsg =>
    exact .andThen composes_silent (runManager_silent _ _) fun _ => .pure composes_silent ()

theorem silent_bringBack (manager : Address) (cost : ℕ) (result : AsyncResult) :
    Satisfies (Silent 0) (bringBack manager cost result) := by
  cases result with
  | ok values => exact .pure composes_silent ()
  | err errCode errMsg => exact silent_transfer _ _ _ _

/-- The callback of a call runs once the call is no longer in flight. -/
theorem answer_eq_ok {index : ℕ} {result : AsyncResult} :
    answer crypto env index result world = .ok ⟨(), last, trace⟩ ↔
      (∃ request completed inner,
        world.pending[index]? = some (.tokenProperties request) ∧
        attempt (request.callbackCode crypto env
          (env.context ESDTSystemSCAddress world.itsAddress .none) result)
          { world with pending := world.pending.eraseIdx index } =
            .ok ⟨completed, last, inner⟩ ∧
        trace = inner ++ [.answered (.tokenProperties request) completed]) ∨
      (∃ manager user cost completed back,
        world.pending[index]? = some (.issue manager user cost) ∧
        bringBack manager cost result { world with pending := world.pending.eraseIdx index } =
          .ok ⟨(), back, []⟩ ∧
        attempt (issueCallback env manager user cost result) back =
          .ok ⟨completed, last, []⟩ ∧
        trace = [.answered (.issue manager user cost) completed]) := by
  simp only [answer, Transaction.bind_eq_ok, Outcome.exists_unit, reads_eq_ok, lift_eq_ok,
    modifies_eq_ok, Outcome.orFail_eq_ok]
  constructor
  · rintro ⟨_, _, _, _, ⟨rfl, rfl, rfl⟩, ⟨call, _, _, _, ⟨hcall, rfl, rfl⟩, ⟨_, _, _, ⟨rfl, rfl⟩,
      h, rfl⟩, rfl⟩, rfl⟩
    cases call with
    | tokenProperties request =>
      simp only [Transaction.bind_eq_ok, reads_eq_ok, performs_eq_ok] at h
      obtain ⟨_, _, _, _, ⟨rfl, rfl, rfl⟩, ⟨completed, _, inner, _, hattempt, ⟨rfl, rfl⟩, rfl⟩,
        rfl⟩ := h
      exact .inl ⟨request, completed, inner, hcall, hattempt, rfl⟩
    | issue manager user cost =>
      simp only [Transaction.bind_eq_ok, Outcome.exists_unit, performs_eq_ok] at h
      obtain ⟨back, _, _, hback, ⟨completed, _, _, _, hattempt, ⟨rfl, rfl⟩, rfl⟩, rfl⟩ := h
      obtain rfl := (silent_bringBack _ _ _ _ _ _ _ hback).2
      obtain rfl := (satisfies_attempt (fun world => ⟨MovesTokens.refl world, rfl⟩)
        (silent_issueCallback _ _ _ _) _ _ _ _ hattempt).2
      exact .inr ⟨manager, user, cost, completed, back, hcall, hback, hattempt, rfl⟩
  · rintro (⟨request, completed, inner, hcall, hattempt, rfl⟩ |
      ⟨manager, user, cost, completed, back, hcall, hback, hattempt, rfl⟩)
    · refine ⟨_, _, _, _, ⟨rfl, rfl, rfl⟩, ⟨_, _, _, _, ⟨hcall, rfl, rfl⟩, ⟨_, _, _, ⟨rfl, rfl⟩,
        ?_, rfl⟩, rfl⟩, rfl⟩
      simp only [Transaction.bind_eq_ok, reads_eq_ok, performs_eq_ok]
      exact ⟨_, _, _, _, ⟨rfl, rfl, rfl⟩, ⟨completed, _, inner, _, hattempt, ⟨rfl, rfl⟩, rfl⟩,
        rfl⟩
    · refine ⟨_, _, _, _, ⟨rfl, rfl, rfl⟩, ⟨_, _, _, _, ⟨hcall, rfl, rfl⟩, ⟨_, _, _, ⟨rfl, rfl⟩,
        ?_, rfl⟩, rfl⟩, rfl⟩
      simp only [Transaction.bind_eq_ok, Outcome.exists_unit, performs_eq_ok]
      exact ⟨back, _, _, hback, ⟨completed, _, _, _, hattempt, ⟨rfl, rfl⟩, rfl⟩, rfl⟩

end Inputs

end AxelarCgp.Its
