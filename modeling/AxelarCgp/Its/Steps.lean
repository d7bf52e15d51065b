import AxelarCgp.Its.Effects

/-!
# Steps of the service

Every step of the machine is put together from changes of the ledger and of what
is in flight, notes in the trace, calls of the gateway and of token managers, and
the effects of the endpoint that is called.  A relation that these are in holds of
the step, for whichever effects the endpoint has.
-/

namespace AxelarCgp.Its

open Transaction

/-- An entry of the trace that stands for no call of a gateway or a token manager. -/
def Action.isNote : Action → Bool
  | .gateway _ _ _ | .manager _ _ _ _ | .managerDeployed _ _ _ _ _ => false
  | _ => true

/-- A relation that what the system does is in, apart from effects that are not
allowed, from transfers in and out of the token managers, and from calls of the gateway
other than for a message to another chain.  `service` is the address of the service. -/
structure CommandRules (crypto : Crypto) (service : Address) (Allowed : Effect → Prop)
    (Rel : World → List Action → World → Prop) : Prop where
  composes : Composes fun _ : ℕ => Rel
  ledger : ∀ world ledger, Rel world [] { world with ledger }
  pending : ∀ world pending, Rel world [] { world with pending }
  note : ∀ world action, action.isNote → Rel world [action] world
  storage : ∀ world its, world.its.KeepsTokens its → Rel world [] { world with its }
  roles : ∀ world roles, Allowed .roles →
    Rel world [] { world with its := { world.its with roles } }
  status : ∀ tokenId status, Allowed (.status tokenId status) →
    Satisfies Rel (setInterchainTokenStatus tokenId status)
  approval : ∀ approvalKey destinationMinter, Allowed (.approval approvalKey destinationMinter) →
    Satisfies Rel (setDestinationMinter approvalKey destinationMinter)
  deploy : ∀ env (ctx : CallContext) tokenId tokenManagerType tokenIdentifier operator,
    ctx.scAddress = service →
    Allowed (.deploys tokenId tokenManagerType tokenIdentifier operator) →
    Satisfies Rel
      (deployTokenManagerRaw env ctx tokenId tokenManagerType tokenIdentifier operator)
  command : ∀ env address value (call : TokenManager.Call), call.isCommand →
    Allowed (.commands address value call) →
    Satisfies Rel (callManager env (env.context service address (.egld value)) call)
  callback : ∀ env manager ctx user result,
    Satisfies Rel (runManager env manager (TokenManager.deployTokenCallback ctx user result))
  announces : ∀ ctx destinationChain destinationAddress payload,
    Satisfies Rel (callGateway crypto ctx (.callContract destinationChain destinationAddress
      payload))

/-- A relation that transfers in and out of the token managers are in as well. -/
structure QuietRules (crypto : Crypto) (service : Address) (Allowed : Effect → Prop)
    (Rel : World → List Action → World → Prop) : Prop
    extends CommandRules crypto service Allowed Rel where
  transfers : ∀ env ctx (call : TokenManager.Call), call.isCommand = false →
    Satisfies Rel (callManager env ctx call)

/-- A relation that calls of the gateway are in as well. -/
structure StepRules (crypto : Crypto) (service : Address) (Allowed : Effect → Prop)
    (Rel : World → List Action → World → Prop) : Prop
    extends QuietRules crypto service Allowed Rel where
  gateway : ∀ ctx call, Satisfies Rel (callGateway crypto ctx call)
  announces := fun ctx destinationChain destinationAddress payload =>
    gateway ctx (.callContract destinationChain destinationAddress payload)

theorem isEmpty_iff_new {buffer : ManagedBuffer} : buffer.isEmpty ↔ buffer = .new := by
  rw [ManagedBuffer.isEmpty, List.isEmpty_iff, ManagedBuffer.new, Subtype.ext_iff]

namespace CommandRules

variable {crypto : Crypto} {service : Address} {Allowed : Effect → Prop}
variable {Rel : World → List Action → World → Prop} {env : Environment} {ctx : CallContext}

theorem andThen {A B : Type} (rules : CommandRules crypto service Allowed Rel) {x : Tx A}
    {f : A → Tx B} (hx : Satisfies Rel x) (hf : ∀ a, Satisfies Rel (f a)) :
    Satisfies Rel (x >>= f) :=
  .andThen (n := 0) rules.composes hx hf

theorem pure {A : Type} (rules : CommandRules crypto service Allowed Rel) (a : A) :
    Satisfies Rel (Pure.pure a : Tx A) :=
  Satisfies.pure rules.composes a

theorem transfer (rules : CommandRules crypto service Allowed Rel) (sender receiver : Address)
    (asset : Asset) (amount : ℕ) : Satisfies Rel (transfer sender receiver asset amount) := by
  intro before value after trace h
  obtain ⟨ledger, _, rfl, rfl⟩ := transfer_eq_ok.mp h
  exact rules.ledger before ledger

theorem pay (rules : CommandRules crypto service Allowed Rel) : Satisfies Rel (pay ctx) :=
  .forEach rules.composes (fun _ => rules.transfer _ _ _ _) _

theorem performs (rules : CommandRules crypto service Allowed Rel) {action : Action}
    (hnote : action.isNote) : Satisfies Rel (performs action) :=
  .performs fun world => rules.note world action hnote

theorem callContractItsHub (rules : CommandRules crypto service Allowed Rel)
    (payload : ManagedBuffer) (gasValue : ℕ) :
    Satisfies Rel (callContractItsHub crypto env ctx payload gasValue) := by
  have hgateway : ∀ address, Satisfies Rel (gatewayCallContract crypto env ctx
      ITS_HUB_CHAIN_NAME address payload) := fun _ =>
    .inspect_bind (.reads _) fun _ => rules.andThen (rules.announces _ _ _ _) fun _ =>
      rules.pure ()
  have hgas : ∀ address, Satisfies Rel (gasServicePayNativeGasForContractCall crypto env ctx
      ITS_HUB_CHAIN_NAME address payload gasValue) := fun _ =>
    .inspect_bind (.reads _) fun _ => rules.andThen rules.pay fun _ =>
      .inspect_bind (.lift _) fun _ => rules.performs rfl
  refine .inspect_bind (.reads _) fun address => ?_
  split
  · exact rules.andThen (hgas address) fun _ => hgateway address
  · exact hgateway address

/-- The endpoints of the service are in the relation, up to their effects. -/
theorem effectRules (rules : CommandRules crypto service Allowed Rel)
    (hself : ctx.scAddress = service) :
    EffectRules crypto env ctx Allowed fun _ => Rel where
  toComposes := rules.composes
  event event world := rules.note world (.event event) rfl
  storage := rules.storage
  roles := rules.roles
  status := rules.status
  approval := rules.approval
  deploy := fun _ _ _ _ hallowed => rules.deploy env ctx _ _ _ _ hself hallowed
  command address value call hcommand hallowed := by
    have h := rules.command env address value call hcommand hallowed
    rw [← hself] at h
    exact h
  message payload gasValue _ := rules.callContractItsHub payload gasValue
  send _ _ := rules.andThen (rules.transfer _ _ _ _) fun _ => rules.performs rfl

theorem requestRule (rules : CommandRules crypto service Allowed Rel) :
    RequestRule crypto ctx fun _ => Rel := by
  intro world request _
  have hpending := rules.pending world (world.pending ++ [.tokenProperties request])
  have hnote := rules.note { world with pending := world.pending ++ [.tokenProperties request] }
    (.request request) rfl
  exact rules.composes.append (m := 0) (n := 0) hpending hnote

theorem executeWithInterchainToken (rules : CommandRules crypto service Allowed Rel)
    (receiver : Address) (chain id source data : ManagedBuffer) (tokenId : TokenId)
    (token : EgldOrEsdtTokenIdentifier) (amount : ℕ) :
    Satisfies Rel (executableContractExecuteWithInterchainToken env ctx receiver chain id source
      data tokenId token amount) :=
  .inspect_bind (.reads _) fun _ => .inspect_bind (.lift _) fun _ =>
    rules.andThen rules.pay fun _ => rules.performs rfl

/-- The endpoints of the service but for the two that transfer tokens. -/
theorem perform (rules : CommandRules crypto service Allowed Rel) (hself : ctx.scAddress = service)
    (call : Call) (hallowed : ∀ effect, call.Effects ctx effect → Allowed effect)
    (htransfer : ∀ tokenId destinationChain destinationAddress data gasValue,
      call = .interchainTransfer tokenId destinationChain destinationAddress data gasValue →
      Satisfies Rel (interchainTransfer crypto env ctx tokenId destinationChain
        destinationAddress data gasValue))
    (hexecute : ∀ sourceChain messageId sourceAddress payload,
      call = .execute sourceChain messageId sourceAddress payload →
      Satisfies Rel (Its.execute crypto env ctx sourceChain messageId sourceAddress payload)) :
    Satisfies Rel (perform crypto env ctx call) := by
  have heffects : EffectRules crypto env ctx Allowed fun _ => Rel := rules.effectRules hself
  exact heffects.perform rules.requestRule call hallowed htransfer hexecute

/-! ## Answers -/

/-- The callback of a request deploys nothing, as no chain without a name is trusted. -/
theorem callbackCode (rules : CommandRules crypto service Allowed Rel)
    (hself : ctx.scAddress = service) (hunpaid : ctx.callValue = .none) (result : AsyncResult)
    (request : Request) :
    Satisfies (fun before trace after => before.its.trustedChains .new = false →
      Rel before trace after) (request.callbackCode crypto env ctx result) := by
  have heffects : EffectRules crypto env ctx Allowed fun _ => Rel := rules.effectRules hself
  intro before value after trace h hnameless
  by_cases hlocal : ∃ deploySalt tokenSymbol minter,
      request.callback = .deployRemoteToken deploySalt .new tokenSymbol minter
  · obtain ⟨deploySalt, tokenSymbol, minter, hcallback⟩ := hlocal
    have hrefund : directNonZeroEgld ctx request.caller request.gasValue before =
        .ok ⟨value, after, trace⟩ := by
      rw [Request.callbackCode, hcallback] at h
      cases result with
      | err errCode errMsg => exact h
      | ok values =>
        obtain ⟨_, _, _, _, htrusted, hrest, rfl⟩ := Transaction.bind_eq_ok.mp h
        obtain ⟨rfl, rfl, rfl⟩ := reads_eq_ok.mp htrusted
        rw [hnameless] at hrest
        exact hrest
    exact heffects.directNonZeroEgld _ _ _ _ _ _ hrefund
  · have hnamed : ∀ deploySalt chain tokenSymbol minter,
        request.callback = .deployRemoteToken deploySalt chain tokenSymbol minter →
        ¬ chain.isEmpty := by
      intro deploySalt chain tokenSymbol minter hcallback hempty
      rw [isEmpty_iff_new.mp hempty] at hcallback
      exact hlocal ⟨deploySalt, tokenSymbol, minter, hcallback⟩
    exact heffects.callbackCode hunpaid result request
      (fun _ _ _ _ hcallback hempty => absurd hempty (hnamed _ _ _ _ hcallback))
      (fun _ _ _ _ _ _ _ _ _ hcallback hempty => absurd hempty (hnamed _ _ _ _ hcallback))
      _ _ _ _ h

theorem issueCallback (rules : CommandRules crypto service Allowed Rel) (manager user : Address)
    (cost : ℕ) (result : AsyncResult) :
    Satisfies Rel (issueCallback env manager user cost result) := by
  cases result with
  | ok values =>
    exact .inspect_bind (.lift _) fun _ => rules.andThen (rules.callback _ _ _ _ _) fun _ =>
      rules.pure ()
  | err errCode errMsg =>
    exact rules.andThen (rules.callback _ _ _ _ _) fun _ => rules.pure ()

theorem append (rules : CommandRules crypto service Allowed Rel) {before middle after : World}
    {first second : List Action} (hfirst : Rel before first middle)
    (hsecond : Rel middle second after) : Rel before (first ++ second) after :=
  rules.composes.append (m := 0) (n := 0) hfirst hsecond

/-- Every step of the machine is in the relation when the effects of the endpoint that
it calls are allowed, and what transfers tokens out, what takes messages, a transaction with
the gateway, and a call that somebody else makes of a manager, are in it. -/
theorem step (rules : CommandRules crypto service Allowed Rel) {world next : World}
    {input : Input} {trace : List Action} (hself : world.itsAddress = service)
    (hnameless : world.its.trustedChains .new = false)
    (hallowed : ∀ caller payment call, input.operation = .its caller payment call →
      ∀ effect, call.Effects (input.env.context caller service payment) effect → Allowed effect)
    (hothers : ∀ caller address payment call,
      input.operation = .manager caller address payment call → caller ≠ service →
      Satisfies Rel (callManager input.env (input.env.context caller address payment) call))
    (htransfer : ∀ caller payment tokenId destinationChain destinationAddress data gasValue,
      input.operation = .its caller payment
        (.interchainTransfer tokenId destinationChain destinationAddress data gasValue) →
      Satisfies Rel (interchainTransfer crypto input.env (input.env.context caller service payment)
        tokenId destinationChain destinationAddress data gasValue))
    (hexecute : ∀ caller payment sourceChain messageId sourceAddress payload,
      input.operation =
        .its caller payment (.execute sourceChain messageId sourceAddress payload) →
      Satisfies Rel (Its.execute crypto input.env (input.env.context caller service payment)
        sourceChain messageId sourceAddress payload))
    (hgateway : ∀ caller call, input.operation = .gateway caller call →
      ∀ ctx, Satisfies Rel (callGateway crypto ctx call))
    (hok : (machine crypto).step world input = .ok (next, trace)) : Rel world trace next := by
  obtain ⟨env, operation⟩ := input
  have hrun := (step_eq_ok crypto).mp hok
  have hnil : ∀ world, Rel world [] world := rules.composes.nil
  cases operation with
  | its caller payment call =>
    obtain ⟨_, paid, hpay, hperform⟩ := run_its_eq_ok.mp hrun
    rw [hself] at hpay hperform
    have hcall : Satisfies Rel (Its.perform crypto env (env.context caller service payment) call) :=
      rules.perform rfl call (hallowed caller payment call rfl)
        (fun _ _ _ _ _ hcall => htransfer caller payment _ _ _ _ _ (by rw [hcall]))
        fun _ _ _ _ hcall => hexecute caller payment _ _ _ _ (by rw [hcall])
    exact rules.append (rules.pay _ _ _ _ hpay) (hcall _ _ _ _ hperform)
  | gateway caller call =>
    obtain ⟨_, reply, hcall⟩ := run_gateway_eq_ok.mp hrun
    exact hgateway caller call rfl _ _ _ _ _ hcall
  | manager caller address payment call =>
    obtain ⟨⟨hexternal, _⟩, reply, hcall⟩ := run_manager_eq_ok.mp hrun
    refine hothers caller address payment call rfl ?_ _ _ _ _ hcall
    rintro rfl
    simp [World.isSystemContract, hself] at hexternal
  | transfer sender receiver asset amount =>
    obtain ⟨_, htransfer⟩ := run_transfer_eq_ok.mp hrun
    exact rules.transfer _ _ _ _ _ _ _ _ htransfer
  | answer index result =>
    have herased := rules.pending world (world.pending.eraseIdx index)
    rcases answer_eq_ok.mp hrun with ⟨request, completed, inner, _, hattempt, rfl⟩ |
      ⟨manager, user, cost, completed, back, _, hback, hattempt, rfl⟩
    · have hcallback : Satisfies (fun before trace after =>
          before.its.trustedChains .new = false → Rel before trace after)
          (attempt (request.callbackCode crypto env
            (env.context ESDTSystemSCAddress world.itsAddress .none) result)) :=
        satisfies_attempt (fun world _ => hnil world) (rules.callbackCode hself rfl result request)
      exact rules.append (rules.append herased (hcallback _ _ _ _ hattempt hnameless))
        (rules.note _ _ rfl)
    · have hcallback : Satisfies Rel (attempt (Its.issueCallback env manager user cost result)) :=
        satisfies_attempt hnil (rules.issueCallback _ _ _ _)
      have hreturned : Rel { world with pending := world.pending.eraseIdx index } [] back := by
        cases result with
        | ok values =>
          obtain ⟨_, rfl, _⟩ := Transaction.pure_eq_ok.mp hback
          exact hnil _
        | err errCode errMsg => exact rules.transfer _ _ _ _ _ _ _ _ hback
      have hanswered := rules.append (rules.append herased hreturned) (hcallback _ _ _ _ hattempt)
      exact rules.append hanswered (rules.note _ _ rfl)

end CommandRules

namespace QuietRules

variable {crypto : Crypto} {service : Address} {Allowed : Effect → Prop}
variable {Rel : World → List Action → World → Prop} {env : Environment} {ctx : CallContext}

theorem interchainTransfer (rules : QuietRules crypto service Allowed Rel)
    (hself : ctx.scAddress = service) (tokenId : TokenId)
    (destinationChain destinationAddress data : ManagedBuffer) (gasValue : ℕ) :
    Satisfies Rel (interchainTransfer crypto env ctx tokenId destinationChain destinationAddress
      data gasValue) := by
  have heffects : EffectRules crypto env ctx Allowed fun _ => Rel := rules.effectRules hself
  exact heffects.interchainTransfer (fun _ _ _ => rules.transfers _ _ _ rfl)
    rules.callContractItsHub _ _ _ _ _

/-- Every step of the machine is in the relation when the effects of the endpoint that
it calls are allowed, and what takes messages, a transaction with the gateway, and a call
that somebody else makes of a manager, are in it. -/
theorem step (rules : QuietRules crypto service Allowed Rel) {world next : World} {input : Input}
    {trace : List Action} (hself : world.itsAddress = service)
    (hnameless : world.its.trustedChains .new = false)
    (hallowed : ∀ caller payment call, input.operation = .its caller payment call →
      ∀ effect, call.Effects (input.env.context caller service payment) effect → Allowed effect)
    (hothers : ∀ caller address payment call,
      input.operation = .manager caller address payment call → caller ≠ service →
      Satisfies Rel (callManager input.env (input.env.context caller address payment) call))
    (hexecute : ∀ caller payment sourceChain messageId sourceAddress payload,
      input.operation =
        .its caller payment (.execute sourceChain messageId sourceAddress payload) →
      Satisfies Rel (Its.execute crypto input.env (input.env.context caller service payment)
        sourceChain messageId sourceAddress payload))
    (hgateway : ∀ caller call, input.operation = .gateway caller call →
      ∀ ctx, Satisfies Rel (callGateway crypto ctx call))
    (hok : (machine crypto).step world input = .ok (next, trace)) : Rel world trace next := by
  apply rules.toCommandRules.step hself hnameless hallowed hothers _ hexecute hgateway hok
  intro caller payment tokenId destinationChain destinationAddress data gasValue _
  exact rules.interchainTransfer rfl tokenId destinationChain destinationAddress data gasValue

end QuietRules

namespace StepRules

variable {crypto : Crypto} {service : Address} {Allowed : Effect → Prop}
variable {Rel : World → List Action → World → Prop} {env : Environment} {ctx : CallContext}

theorem validateMessage (rules : StepRules crypto service Allowed Rel)
    (chain id address : ManagedBuffer) (payloadHash : Hash) :
    Satisfies Rel (gatewayValidateMessage crypto env ctx chain id address payloadHash) :=
  .inspect_bind (.reads _) fun _ => rules.andThen (rules.gateway _ _) fun _ =>
    rules.pure _

theorem execute (rules : StepRules crypto service Allowed Rel) (hself : ctx.scAddress = service)
    {sourceChain messageId sourceAddress payload : ManagedBuffer}
    (hallowed : ∀ effect, (Call.execute sourceChain messageId sourceAddress payload).Effects ctx
      effect → Allowed effect) :
    Satisfies Rel (execute crypto env ctx sourceChain messageId sourceAddress payload) := by
  have heffects : EffectRules crypto env ctx Allowed fun _ => Rel := rules.effectRules hself
  exact heffects.execute rules.validateMessage
    (heffects.processInterchainTransferPayload (fun _ _ _ => rules.transfers _ _ _ rfl)
      rules.executeWithInterchainToken) _ _ _ _ hallowed

/-- Every step of the machine is in the relation when the effects of the endpoint that
it calls are allowed, and a call that somebody else makes of a manager is in it. -/
theorem step (rules : StepRules crypto service Allowed Rel) {world next : World} {input : Input}
    {trace : List Action} (hself : world.itsAddress = service)
    (hnameless : world.its.trustedChains .new = false)
    (hallowed : ∀ caller payment call, input.operation = .its caller payment call →
      ∀ effect, call.Effects (input.env.context caller service payment) effect → Allowed effect)
    (hothers : ∀ caller address payment call,
      input.operation = .manager caller address payment call → caller ≠ service →
      Satisfies Rel (callManager input.env (input.env.context caller address payment) call))
    (hok : (machine crypto).step world input = .ok (next, trace)) : Rel world trace next := by
  apply rules.toQuietRules.step hself hnameless hallowed hothers _ _ hok
  · intro caller payment sourceChain messageId sourceAddress payload hcall
    exact rules.execute rfl (hallowed caller payment _ hcall)
  · intro caller call _ ctx
    exact rules.gateway ctx call

end StepRules

end AxelarCgp.Its
