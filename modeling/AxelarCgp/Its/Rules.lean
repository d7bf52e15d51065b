import AxelarCgp.Its.Machine

/-!
# Rules for the service

What the service does in a transaction is put together from a few things: events,
changes of its storage, new token managers, commands to token managers, messages
to the hub, requests for token properties, and EGLD it sends back.  A relation
that these are in, and that composes, holds of every endpoint and callback, up
to the transfers in and out of the token managers, which are left to whoever
uses the rules.
-/

namespace AxelarCgp

/-- A call that neither puts tokens into a token manager nor takes any out. -/
def TokenManager.Call.isCommand : TokenManager.Call → Bool
  | .giveToken _ _ | .takeToken => false
  | _ => true

/-- What the service tells a token manager in a local deployment. -/
def TokenManager.Call.isLocal : TokenManager.Call → Bool
  | .deployInterchainToken _ _ _ _ _ | .mint _ _ | .transferMintership _ | .removeFlowLimiter _
  | .addFlowLimiter _ | .transferOperatorship _ => true
  | _ => false

namespace Its

open Transaction

/-- The fixed values and the token managers are the same, and no chain without a
name has come to be trusted. -/
structure State.Keeps (before after : State) : Prop where
  gateway : after.gateway = before.gateway
  gasService : after.gasService = before.gasService
  chainName : after.chainName = before.chainName
  chainNameHash : after.chainNameHash = before.chainNameHash
  itsHubAddress : after.itsHubAddress = before.itsHubAddress
  tokenManagerAddress : after.tokenManagerAddress = before.tokenManagerAddress
  trustedChains : after.trustedChains .new = before.trustedChains .new

/-- The payloads of messages that move no tokens. -/
inductive Control : ManagedBuffer → Prop where
  | registerTokenMetadata {messageType : BigUint} {tokenIdentifier payload : ManagedBuffer}
      {decimals : UInt8} :
      biguint MESSAGE_TYPE_REGISTER_TOKEN_METADATA = .ok messageType →
      abiEncode (⟨messageType, tokenIdentifier, decimals⟩ : RegisterTokenMetadataPayload) =
        .ok payload →
      Control payload
  | deployInterchainToken {messageType sendToHub : BigUint} {tokenId : TokenId}
      {name symbol minter destinationChain inner payload : ManagedBuffer} {decimals : UInt8} :
      biguint MESSAGE_TYPE_DEPLOY_INTERCHAIN_TOKEN = .ok messageType →
      abiEncode (⟨messageType, tokenId, name, symbol, decimals, minter⟩ :
        DeployInterchainTokenPayload) = .ok inner →
      biguint MESSAGE_TYPE_SEND_TO_HUB = .ok sendToHub →
      abiEncode (⟨sendToHub, destinationChain, inner⟩ : SendToHubPayload) = .ok payload →
      Control payload
  | linkToken {messageType sendToHub : BigUint} {tokenId : TokenId}
      {tokenManagerType : TokenManagerType} {sourceTokenAddress destinationTokenAddress
        linkParams destinationChain inner payload : ManagedBuffer} :
      biguint MESSAGE_TYPE_LINK_TOKEN = .ok messageType →
      abiEncode (⟨messageType, tokenId, tokenManagerType, sourceTokenAddress,
        destinationTokenAddress, linkParams⟩ : LinkTokenPayload) = .ok inner →
      biguint MESSAGE_TYPE_SEND_TO_HUB = .ok sendToHub →
      abiEncode (⟨sendToHub, destinationChain, inner⟩ : SendToHubPayload) = .ok payload →
      Control payload

/-- The requests that an account may start. -/
inductive Request.Sound (crypto : Crypto) (its : State) (caller : Address) : Request → Prop where
  | deployRemoteToken {token : TokenIdentifier} {deploySalt : Hash}
      {destinationChain destinationMinter : ManagedBuffer} {gasValue : ℕ} :
      isValidEsdtIdentifier token →
      (its.tokenManagerAddress (interchainTokenIdRaw crypto deploySalt)).isSome →
      its.chainName ≠ destinationChain →
      its.trustedChains destinationChain →
      Request.Sound crypto its caller ⟨token, .deployRemoteToken deploySalt destinationChain
        (ticker token) destinationMinter, gasValue, caller⟩
  | registerTokenMetadata {token : TokenIdentifier} {gasValue : ℕ} :
      isValidEsdtIdentifier token →
      Request.Sound crypto its caller ⟨token, .registerTokenMetadata token, gasValue, caller⟩

/-- A relation that what the service does is in, of which the grade bounds the
EGLD that is spent. -/
structure Rules (crypto : Crypto) (env : Environment) (ctx : CallContext)
    (Rel : ℕ → World → List Action → World → Prop) : Prop extends Composes Rel where
  event : ∀ event world, Rel 0 world [.event event] world
  storage : ∀ world its, world.its.Keeps its → Rel 0 world [] { world with its }
  deploy : ∀ tokenId tokenManagerType tokenIdentifier operator,
    Satisfies (Rel 0)
      (deployTokenManagerRaw env ctx tokenId tokenManagerType tokenIdentifier operator)
  command : ∀ address value (call : TokenManager.Call), call.isCommand →
    Satisfies (Rel value) (callManager env (nested env ctx address (.egld value)) call)
  message : ∀ payload gasValue, Control payload →
    Satisfies (Rel gasValue) (callContractItsHub crypto env ctx payload gasValue)
  send : ∀ receiver amount, Satisfies (Rel amount) (send ctx.scAddress receiver .egld amount)

/-- The requests of an endpoint are in the relation as well; a callback makes none. -/
def RequestRule (crypto : Crypto) (ctx : CallContext)
    (Rel : ℕ → World → List Action → World → Prop) : Prop :=
  ∀ world (request : Request), request.Sound crypto world.its ctx.caller →
    Rel request.gasValue world [.request request]
      { world with pending := world.pending ++ [.tokenProperties request] }

/-! ## Effects -/

/-- Besides the fixed values, what is kept for tokens is the same. -/
structure State.KeepsTokens (before after : State) : Prop extends before.Keeps after where
  interchainTokenStatus : after.interchainTokenStatus = before.interchainTokenStatus
  approvedDestinationMinters :
    after.approvedDestinationMinters = before.approvedDestinationMinters
  roles : after.roles = before.roles

/-- What a call may do that later calls for a token depend on. -/
inductive Effect where
  | status (tokenId : TokenId) (status : InterchainTokenStatus)
  | approval (approvalKey : Hash) (destinationMinter : Option Hash)
  | deploys (tokenId : TokenId) (tokenManagerType : TokenManagerType)
      (tokenIdentifier : Option EgldOrEsdtTokenIdentifier) (operator : ManagedBuffer)
  | commands (address : Address) (value : ℕ) (call : TokenManager.Call)
  /-- Operators come and go. -/
  | roles

/-- Rules of which those for effects are there for the allowed ones only. -/
structure EffectRules (crypto : Crypto) (env : Environment) (ctx : CallContext)
    (Allowed : Effect → Prop) (Rel : ℕ → World → List Action → World → Prop) : Prop
    extends Composes Rel where
  event : ∀ event world, Rel 0 world [.event event] world
  storage : ∀ world its, world.its.KeepsTokens its → Rel 0 world [] { world with its }
  roles : ∀ world roles, Allowed .roles →
    Rel 0 world [] { world with its := { world.its with roles } }
  status : ∀ tokenId status, Allowed (.status tokenId status) →
    Satisfies (Rel 0) (setInterchainTokenStatus tokenId status)
  approval : ∀ approvalKey destinationMinter, Allowed (.approval approvalKey destinationMinter) →
    Satisfies (Rel 0) (setDestinationMinter approvalKey destinationMinter)
  deploy : ∀ tokenId tokenManagerType tokenIdentifier operator,
    Allowed (.deploys tokenId tokenManagerType tokenIdentifier operator) →
    Satisfies (Rel 0)
      (deployTokenManagerRaw env ctx tokenId tokenManagerType tokenIdentifier operator)
  command : ∀ address value (call : TokenManager.Call), call.isCommand →
    Allowed (.commands address value call) →
    Satisfies (Rel value) (callManager env (nested env ctx address (.egld value)) call)
  message : ∀ payload gasValue, Control payload →
    Satisfies (Rel gasValue) (callContractItsHub crypto env ctx payload gasValue)
  send : ∀ receiver amount, Satisfies (Rel amount) (send ctx.scAddress receiver .egld amount)

/-- Every effect is allowed. -/
def AnyEffect : Effect → Prop := fun _ => True

theorem Rules.effectRules {crypto : Crypto} {env : Environment} {ctx : CallContext}
    {Rel : ℕ → World → List Action → World → Prop} (rules : Rules crypto env ctx Rel) :
    EffectRules crypto env ctx AnyEffect Rel where
  toComposes := rules.toComposes
  event := rules.event
  storage world its hkeeps := rules.storage world its hkeeps.toKeeps
  roles world _ _ := rules.storage world _ ⟨rfl, rfl, rfl, rfl, rfl, rfl, rfl⟩
  status _ _ _ := .modifies fun world =>
    rules.storage world _ ⟨rfl, rfl, rfl, rfl, rfl, rfl, rfl⟩
  approval _ _ _ := .modifies fun world =>
    rules.storage world _ ⟨rfl, rfl, rfl, rfl, rfl, rfl, rfl⟩
  deploy _ _ _ _ _ := rules.deploy _ _ _ _
  command _ _ _ hcommand _ := rules.command _ _ _ hcommand
  message := rules.message
  send := rules.send

/-- A message that the hub passes on from another chain, with the type and the payload
of what it wraps. -/
def HubMessage (payload : ManagedBuffer) (messageType : ℕ)
    (originalSourceChain inner : ManagedBuffer) : Prop :=
  getMessageType payload = .ok MESSAGE_TYPE_RECEIVE_FROM_HUB ∧
  getMessageType inner = .ok messageType ∧
  ∃ data : ReceiveFromHubPayload, abiDecode payload = .ok data ∧
    data.originalSourceChain = originalSourceChain ∧ data.payload = inner

def Call.deploysRemote : Call → Bool
  | .deployRemoteInterchainToken _ _ | .deployRemoteInterchainTokenWithMinter _ _ _ _
  | .deployRemoteCanonicalInterchainToken _ _ => true
  | _ => false

def Call.movesOperator : Call → Bool
  | .transferOperatorship _ | .proposeOperatorship _ | .acceptOperatorship _ => true
  | _ => false

/-- The effects of each endpoint. -/
inductive Call.Effects (ctx : CallContext) : Call → Effect → Prop where
  | operators {call : Call} : call.movesOperator → Effects ctx call .roles
  | setFlowLimits {tokenIds : List TokenId} {flowLimits : List (Option ℕ)} {address : Address}
      {flowLimit : Option ℕ} :
      Effects ctx (.setFlowLimits tokenIds flowLimits)
        (.commands address 0 (.setFlowLimit flowLimit))
  | executeDeploys {sourceChain messageId sourceAddress payload chain inner : ManagedBuffer}
      {data : DeployInterchainTokenPayload} :
      HubMessage payload MESSAGE_TYPE_DEPLOY_INTERCHAIN_TOKEN chain inner →
      abiDecode inner = .ok data →
      Effects ctx (.execute sourceChain messageId sourceAddress payload)
        (.deploys data.tokenId .nativeInterchainToken none data.minter)
  | executeIssues {sourceChain messageId sourceAddress payload chain inner : ManagedBuffer}
      {data : DeployInterchainTokenPayload} {address : Address} {value : ℕ}
      {minter : Option Address} :
      HubMessage payload MESSAGE_TYPE_DEPLOY_INTERCHAIN_TOKEN chain inner →
      abiDecode inner = .ok data →
      Effects ctx (.execute sourceChain messageId sourceAddress payload)
        (.commands address value (.deployInterchainToken minter data.name data.symbol
          data.decimals (some ctx.caller)))
  | executeLinks {sourceChain messageId sourceAddress payload chain inner : ManagedBuffer}
      {data : LinkTokenPayload} :
      HubMessage payload MESSAGE_TYPE_LINK_TOKEN chain inner → abiDecode inner = .ok data →
      data.tokenManagerType ≠ .nativeInterchainToken →
      Effects ctx (.execute sourceChain messageId sourceAddress payload)
        (.deploys data.tokenId data.tokenManagerType
          (some (EgldOrEsdtTokenIdentifier.parse data.destinationTokenAddress)) data.linkParams)
  | localStatus {salt : Hash} {name symbol : ManagedBuffer} {decimals : UInt8}
      {initialSupply : ℕ} {minterOpt : Option Address} {tokenId : TokenId}
      {status : InterchainTokenStatus} :
      Effects ctx (.deployInterchainToken salt name symbol decimals initialSupply minterOpt)
        (.status tokenId status)
  | localDeploys {salt : Hash} {name symbol minter : ManagedBuffer} {decimals : UInt8}
      {initialSupply : ℕ} {minterOpt : Option Address} {tokenId : TokenId} :
      Effects ctx (.deployInterchainToken salt name symbol decimals initialSupply minterOpt)
        (.deploys tokenId .nativeInterchainToken none minter)
  | localCommands {salt : Hash} {name symbol : ManagedBuffer} {decimals : UInt8}
      {initialSupply value : ℕ} {minterOpt : Option Address} {address : Address}
      {call : TokenManager.Call} : call.isLocal →
      Effects ctx (.deployInterchainToken salt name symbol decimals initialSupply minterOpt)
        (.commands address value call)
  | approves {deployer : Address} {salt approvalKey : Hash}
      {destinationChain destinationMinter : ManagedBuffer} {approved : Option Hash} :
      Effects ctx (.approveDeployRemoteInterchainToken deployer salt destinationChain
        destinationMinter) (.approval approvalKey approved)
  | revokes {deployer : Address} {salt approvalKey : Hash} {destinationChain : ManagedBuffer}
      {approved : Option Hash} :
      Effects ctx (.revokeDeployRemoteInterchainToken deployer salt destinationChain)
        (.approval approvalKey approved)
  | uses {salt approvalKey : Hash} {minterOpt : Option Address} {destinationChain : ManagedBuffer}
      {destinationMinter : Option ManagedBuffer} {approved : Option Hash} :
      Effects ctx (.deployRemoteInterchainTokenWithMinter salt minterOpt destinationChain
        destinationMinter) (.approval approvalKey approved)
  | remoteIssues {call : Call} {address : Address} {value : ℕ} {minter : Option Address}
      {name symbol : ManagedBuffer} {decimals : UInt8} {initialCaller : Option Address} :
      call.deploysRemote → Effects ctx call (.commands address value
        (.deployInterchainToken minter name symbol decimals initialCaller))
  | canonical {tokenIdentifier : EgldOrEsdtTokenIdentifier} {tokenId : TokenId} :
      Effects ctx (.registerCanonicalInterchainToken tokenIdentifier)
        (.deploys tokenId .lockUnlock (some tokenIdentifier) .new)
  | custom {salt : Hash} {tokenIdentifier : EgldOrEsdtTokenIdentifier}
      {tokenManagerType : TokenManagerType} {operatorOpt : Option Address} {tokenId : TokenId} :
      tokenManagerType ≠ .nativeInterchainToken →
      Effects ctx (.registerCustomToken salt tokenIdentifier tokenManagerType operatorOpt)
        (.deploys tokenId tokenManagerType (some tokenIdentifier)
          (operatorOpt.elim .new .ofFixed))

/-! ## Payments of transfers -/

/-- The payments that a transfer is made with, and how they are split. -/
inductive Splits (gasAmount : ℕ) : EgldOrMultiEsdtPayment → TransferAndGasTokens → Prop where
  | egld {value : ℕ} : value > gasAmount →
      Splits gasAmount (.egld value) ⟨.egld, value - gasAmount, gasAmount⟩
  | esdt {token : TokenIdentifier} {amount : ℕ} : gasAmount = 0 →
      Splits gasAmount (.multiEsdt [⟨token, 0, amount⟩]) ⟨.esdt token, amount, gasAmount⟩
  | esdtAndGas {token gasToken : TokenIdentifier} {amount : ℕ} :
      gasToken.1 = esdtEgldIdentifier →
      Splits gasAmount (.multiEsdt [⟨token, 0, amount⟩, ⟨gasToken, 0, gasAmount⟩])
        ⟨.esdt token, amount, gasAmount⟩

theorem getTransferAndGasTokens_eq_ok {ctx : CallContext} {gasAmount : ℕ}
    {tokens : TransferAndGasTokens} :
    getTransferAndGasTokens ctx gasAmount = .ok tokens ↔
      Splits gasAmount ctx.callValue tokens := by
  unfold getTransferAndGasTokens
  generalize ctx.callValue = payment
  constructor
  · intro h
    cases payment with
    | egld value =>
      simp only [Outcome.bind_eq_ok, Outcome.exists_unit, Outcome.require_eq_ok,
        Outcome.pure_eq_ok] at h
      obtain ⟨hmore, rfl⟩ := h
      exact .egld hmore
    | multiEsdt esdts =>
      simp only [Outcome.bind_eq_ok, Outcome.exists_unit, Outcome.require_eq_ok,
        Outcome.orFail_eq_ok] at h
      obtain ⟨htwo, ⟨token, nonce, amount⟩, hfirst, hfungible, h⟩ := h
      obtain _ | ⟨payment, _ | ⟨⟨gasToken, gasNonce, gas⟩, _ | ⟨third, others⟩⟩⟩ := esdts
      · contradiction
      · simp only [List.getElem?_cons_succ, List.getElem?_nil, Outcome.bind_eq_ok,
          Outcome.exists_unit, Outcome.require_eq_ok, Outcome.pure_eq_ok] at h
        obtain rfl := Option.some.inj hfirst
        obtain ⟨hfree, rfl⟩ := h
        obtain rfl := hfungible
        exact .esdt hfree
      · simp only [List.getElem?_cons_succ, List.getElem?_cons_zero, Outcome.bind_eq_ok,
          Outcome.exists_unit, Outcome.require_eq_ok, Outcome.pure_eq_ok] at h
        obtain rfl := Option.some.inj hfirst
        obtain ⟨hgasFungible, hgas, hegld, rfl⟩ := h
        obtain rfl := hfungible
        obtain rfl := hgasFungible
        obtain rfl := hgas
        exact .esdtAndGas hegld
      · simp at htwo
  · intro h
    cases h with
    | egld hmore => simp [require, hmore]
    | esdt hfree => simp [require, orFail, hfree]
    | esdtAndGas hegld => simp [require, orFail, hegld]

/-- Nothing of a payment is left over. -/
theorem Splits.total {gasAmount : ℕ} {payment : EgldOrMultiEsdtPayment}
    {tokens : TransferAndGasTokens} (h : Splits gasAmount payment tokens) (asset : Asset) :
    payment.total asset =
      (singlePayment tokens.transferToken tokens.transferAmount).total asset +
        (EgldOrMultiEsdtPayment.egld tokens.gasAmount).total asset := by
  cases h with
  | egld hmore =>
    by_cases hasset : Asset.egld = asset
    · rw [← hasset, EgldOrMultiEsdtPayment.total_egld, EgldOrMultiEsdtPayment.total_egld,
        singlePayment, EgldOrMultiEsdtPayment.total_egld, Nat.sub_add_cancel hmore.le]
    · simp [singlePayment, EgldOrMultiEsdtPayment.total, EgldOrMultiEsdtPayment.amounts, hasset]
  | esdt hfree =>
    simp [singlePayment, EgldOrMultiEsdtPayment.total, EgldOrMultiEsdtPayment.amounts, hfree]
  | esdtAndGas hegld =>
    simp [singlePayment, EgldOrMultiEsdtPayment.total, EgldOrMultiEsdtPayment.amounts,
      EsdtTokenPayment.asset, EgldOrEsdtTokenIdentifier.asset, hegld]

/-! ## What only looks -/

section Inspects

variable (crypto : Crypto) (env : Environment) (ctx : CallContext)

theorem inspects_requireNotPaused : Inspects requireNotPaused :=
  .bind (.reads _) fun _ => .lift _

theorem inspects_isTrustedChain (chain : ManagedBuffer) : Inspects (isTrustedChain chain) :=
  .reads _

theorem inspects_managerAt (address : Address) : Inspects (managerAt address) :=
  .bind (.reads _) fun _ => .lift _

theorem inspects_deployedTokenManager (tokenId : TokenId) :
    Inspects (deployedTokenManager tokenId) :=
  .bind (.reads _) fun _ => .lift _

theorem inspects_registeredTokenIdentifier (tokenId : TokenId) :
    Inspects (registeredTokenIdentifier tokenId) :=
  .bind (inspects_deployedTokenManager tokenId) fun address =>
    .bind (inspects_managerAt address) fun _ => .pure _

theorem inspects_tokenManagerGetOptTokenIdentifier (address : Address) :
    Inspects (tokenManagerGetOptTokenIdentifier address) :=
  .bind (inspects_managerAt address) fun _ => .pure _

theorem inspects_checkTokenMinter (tokenId : TokenId) (minter : Address) :
    Inspects (checkTokenMinter tokenId minter) :=
  .bind (.reads _) fun _ => .bind (.lift _) fun address =>
    .bind (.bind (inspects_managerAt address) fun _ => .pure _) fun _ => .lift _

theorem inspects_onlyItsHub (sourceChain sourceAddress : ManagedBuffer) :
    Inspects (onlyItsHub sourceChain sourceAddress) :=
  .bind (.reads _) fun _ => .lift _

theorem inspects_getExecuteParams (payload : ManagedBuffer) :
    Inspects (getExecuteParams payload) :=
  .bind (.lift _) fun _ => .bind (.lift _) fun _ => .bind (.lift _) fun _ =>
    .bind (inspects_isTrustedChain _) fun _ => .bind (.lift _) fun _ =>
      .bind (.lift _) fun _ => .pure _

theorem getExecuteParams_eq_ok {payload chain inner : ManagedBuffer} {messageType : ℕ}
    {world last : World} {trace : List Action}
    (h : getExecuteParams payload world = .ok ⟨(messageType, chain, inner), last, trace⟩) :
    HubMessage payload messageType chain inner ∧ world.its.trustedChains chain = true := by
  simp only [getExecuteParams, isTrustedChain, Transaction.bind_eq_ok, Outcome.exists_unit,
    lift_eq_ok, reads_eq_ok, Outcome.require_eq_ok, Transaction.pure_eq_ok, Prod.mk.injEq] at h
  obtain ⟨_, _, _, _, ⟨houter, rfl, rfl⟩, ⟨_, _, _, ⟨rfl, rfl, rfl⟩, ⟨data, _, _, _,
    ⟨hdata, rfl, rfl⟩, ⟨_, _, _, _, ⟨rfl, rfl, rfl⟩, ⟨_, _, _, ⟨htrusted, rfl, rfl⟩, ⟨_, _, _, _,
      ⟨hinner, rfl, rfl⟩, ⟨⟨rfl, rfl, rfl⟩, rfl, rfl⟩, rfl⟩, rfl⟩, rfl⟩, rfl⟩, rfl⟩, rfl⟩ := h
  exact ⟨⟨houter, hinner, data, hdata, rfl, rfl⟩, htrusted⟩

theorem inspects_gatewayIsMessageApproved (sourceChain messageId sourceAddress :
      ManagedBuffer) (payloadHash : Hash) :
    Inspects (gatewayIsMessageApproved crypto ctx sourceChain messageId sourceAddress
      payloadHash) :=
  .bind (.reads _) fun _ => .lift _

theorem inspects_withRoles {A : Type} {x : AccountRoles.Tx A} (hx : Inspects x) :
    Inspects (withRoles x) := by
  intro world value last trace h
  obtain ⟨roles, events, hok, rfl, rfl⟩ := within_eq_ok.mp h
  obtain ⟨rfl, rfl⟩ := hx _ _ _ _ hok
  exact ⟨rfl, rfl⟩

theorem inspects_interchainTokenId (deployer : Address) (salt : Hash) :
    Inspects (interchainTokenId crypto deployer salt) :=
  .bind (.reads _) fun _ => .pure _

end Inspects

namespace EffectRules

variable {crypto : Crypto} {env : Environment} {ctx : CallContext} {Allowed : Effect → Prop}
variable {Rel : ℕ → World → List Action → World → Prop}

theorem emits (rules : EffectRules crypto env ctx Allowed Rel) (event : Event) :
    Satisfies (Rel 0) (emits event) :=
  .performs (rules.event event)

theorem modifiesIts (rules : EffectRules crypto env ctx Allowed Rel) {change : State → State}
    (hkeeps : ∀ its : State, its.KeepsTokens (change its)) :
    Satisfies (Rel 0) (modifiesIts change) :=
  .modifies fun world => rules.storage world _ (hkeeps world.its)

theorem events (rules : EffectRules crypto env ctx Allowed Rel) (events : List Event)
    (world : World) : Rel 0 world (events.map .event) world := by
  induction events with
  | nil => exact rules.nil world
  | cons event events ih => simpa using rules.append (rules.event event world) ih

theorem withRoles {A : Type} (rules : EffectRules crypto env ctx Allowed Rel)
    (hallowed : Allowed .roles) (x : AccountRoles.Tx A) :
    Satisfies (Rel 0) (withRoles x) := by
  intro world value last trace h
  obtain ⟨roles, events, _, rfl, rfl⟩ := within_eq_ok.mp h
  have hevents := rules.events (events.map .roles) world
  simpa [Function.comp_def] using rules.append hevents (rules.roles world roles hallowed)

/-! ## Owner, pause, trusted chains -/

theorem setPaused (rules : EffectRules crypto env ctx Allowed Rel) (paused : Bool) :
    Satisfies (Rel 0) (setPaused ctx paused) :=
  .inspect_bind (.lift _) fun _ =>
    rules.modifiesIts fun _ => ⟨⟨rfl, rfl, rfl, rfl, rfl, rfl, rfl⟩, rfl, rfl, rfl⟩

theorem setTrusted (rules : EffectRules crypto env ctx Allowed Rel) {chain : ManagedBuffer}
    (hchain : ¬ chain.isEmpty) (trusted : Bool) :
    Satisfies (Rel 0) (setTrusted chain trusted) := by
  refine rules.modifiesIts fun its => ⟨⟨rfl, rfl, rfl, rfl, rfl, rfl, ?_⟩, rfl, rfl, rfl⟩
  have hne : ManagedBuffer.new ≠ chain := by
    rintro rfl
    exact hchain rfl
  exact Function.update_of_ne hne _ _

theorem setTrustedChain (rules : EffectRules crypto env ctx Allowed Rel) (chain : ManagedBuffer) :
    Satisfies (Rel 0) (setTrustedChain ctx chain) :=
  .inspect_bind (.lift _) fun _ => .lift_bind fun _ hchain =>
    .andThen rules.toComposes (rules.emits _) fun _ =>
      rules.setTrusted (Outcome.require_eq_ok.mp hchain) true

theorem removeTrustedChain (rules : EffectRules crypto env ctx Allowed Rel)
    (sourceChain : ManagedBuffer) :
    Satisfies (Rel 0) (removeTrustedChain ctx sourceChain) :=
  .inspect_bind (.lift _) fun _ => .lift_bind fun _ hchain =>
    .andThen rules.toComposes (rules.emits _) fun _ =>
      rules.setTrusted (Outcome.require_eq_ok.mp hchain) false

/-! ## Commands -/

theorem commandManager (rules : EffectRules crypto env ctx Allowed Rel) (address : Address)
    {call : TokenManager.Call} (hcommand : call.isCommand)
    (hallowed : Allowed (.commands address 0 call)) :
    Satisfies (Rel 0) (commandManager env ctx address call) :=
  .thenFree rules.toComposes (rules.command address 0 call hcommand hallowed) fun _ =>
    .pure rules.toComposes ()

theorem setFlowLimits (rules : EffectRules crypto env ctx Allowed Rel) (tokenIds : List TokenId)
    (flowLimits : List (Option ℕ))
    (hallowed : ∀ address flowLimit, Allowed (.commands address 0 (.setFlowLimit flowLimit))) :
    Satisfies (Rel 0) (setFlowLimits env ctx tokenIds flowLimits) := by
  refine .inspect_bind (inspects_withRoles (AccountRoles.inspects_onlyRole _ _)) fun _ =>
    .inspect_bind (.lift _) fun _ => ?_
  refine .forEach rules.toComposes (fun entry => ?_) _
  exact .inspect_bind (inspects_deployedTokenManager entry.1) fun address =>
    rules.commandManager address rfl (hallowed _ _)

/-- The EGLD that came with a call. -/
theorem egldValue_eq_ok {ctx : CallContext} {value : ℕ} (h : egldValue ctx = .ok value) :
    ctx.callValue.total .egld = value := by
  unfold egldValue at h
  split at h
  · rename_i hvalue
    rw [hvalue, EgldOrMultiEsdtPayment.total_egld, Except.ok.inj h]
  · simp at h

theorem tokenManagerDeployInterchainToken (rules : EffectRules crypto env ctx Allowed Rel)
    (tokenId : TokenId) (minter : Option Address) (name symbol : ManagedBuffer)
    (decimals : UInt8) (initialCaller : Address)
    (hallowed : ∀ address value, Allowed (.commands address value
      (.deployInterchainToken minter name symbol decimals (some initialCaller)))) :
    Satisfies (Rel (ctx.callValue.total .egld)) (tokenManagerDeployInterchainToken env ctx
      tokenId minter name symbol decimals initialCaller) := by
  refine .inspect_bind (inspects_deployedTokenManager tokenId) fun address =>
    .lift_bind fun value hvalue => ?_
  rw [egldValue_eq_ok hvalue]
  exact .thenFree rules.toComposes (rules.command address value _ rfl (hallowed _ _)) fun _ =>
    .pure rules.toComposes ()

/-! ## Messages -/

theorem routeMessageThroughItsHub {destinationChain inner : ManagedBuffer} {gasValue : ℕ}
    (hmessage : ∀ (messageType : BigUint) payload,
      biguint MESSAGE_TYPE_SEND_TO_HUB = .ok messageType →
      abiEncode (⟨messageType, destinationChain, inner⟩ : SendToHubPayload) = .ok payload →
      Satisfies (Rel gasValue) (callContractItsHub crypto env ctx payload gasValue)) :
    Satisfies (Rel gasValue)
      (routeMessageThroughItsHub crypto env ctx destinationChain inner gasValue) :=
  .inspect_bind (.lift _) fun _ => .inspect_bind (inspects_isTrustedChain _) fun _ =>
    .inspect_bind (.lift _) fun _ => .lift_bind fun messageType htype =>
      .lift_bind fun payload hpayload => hmessage messageType payload htype hpayload

theorem registerTokenMetadataRaw (rules : EffectRules crypto env ctx Allowed Rel)
    (tokenIdentifier : EgldOrEsdtTokenIdentifier) (decimals : UInt8) (gasValue : ℕ) :
    Satisfies (Rel gasValue)
      (registerTokenMetadataRaw crypto env ctx tokenIdentifier decimals gasValue) :=
  .andThen rules.toComposes (rules.emits _) fun _ => .lift_bind fun _ htype =>
    .lift_bind fun payload hpayload =>
      rules.message payload gasValue (.registerTokenMetadata htype hpayload)

theorem deployRemoteInterchainTokenBase (rules : EffectRules crypto env ctx Allowed Rel)
    (tokenId : TokenId) (name symbol : ManagedBuffer) (decimals : UInt8)
    (minter destinationChain : ManagedBuffer) (gasValue : ℕ) :
    Satisfies (Rel gasValue) (deployRemoteInterchainTokenBase crypto env ctx tokenId name
      symbol decimals minter destinationChain gasValue) := by
  refine .inspect_bind (.lift _) fun _ => .inspect_bind (.lift _) fun _ =>
    .inspect_bind (inspects_deployedTokenManager tokenId) fun _ => .lift_bind fun _ htype =>
      .lift_bind fun inner hinner => .thenFree rules.toComposes ?_ fun _ => rules.emits _
  exact EffectRules.routeMessageThroughItsHub fun _ payload hsendToHub hpayload =>
    rules.message payload gasValue (.deployInterchainToken htype hinner hsendToHub hpayload)

theorem linkTokenRaw (rules : EffectRules crypto env ctx Allowed Rel) (deploySalt : Hash)
    (destinationChain destinationTokenAddress : ManagedBuffer)
    (tokenManagerType : TokenManagerType) (linkParams : ManagedBuffer) (gasValue : ℕ) :
    Satisfies (Rel gasValue) (linkTokenRaw crypto env ctx deploySalt destinationChain
      destinationTokenAddress tokenManagerType linkParams gasValue) := by
  refine .inspect_bind inspects_requireNotPaused fun _ => .inspect_bind (.lift _) fun _ =>
    .inspect_bind (.lift _) fun _ => .inspect_bind (.lift _) fun _ =>
      .inspect_bind (.reads _) fun _ => .inspect_bind (.lift _) fun _ =>
        .andThen rules.toComposes (rules.emits _) fun _ =>
          .inspect_bind (inspects_registeredTokenIdentifier _) fun _ =>
            .andThen rules.toComposes (rules.emits _) fun _ => .lift_bind fun _ htype =>
              .lift_bind fun inner hinner => .thenFree rules.toComposes ?_ fun _ =>
                .pure rules.toComposes _
  exact EffectRules.routeMessageThroughItsHub fun _ payload hsendToHub hpayload =>
    rules.message payload gasValue (.linkToken htype hinner hsendToHub hpayload)

/-- A payment is split into parts that do not exceed it. -/
theorem getTransferAndGasTokens_total {gasAmount : ℕ} {tokens : TransferAndGasTokens}
    (h : getTransferAndGasTokens ctx gasAmount = .ok tokens) :
    (singlePayment tokens.transferToken tokens.transferAmount).total .egld + tokens.gasAmount ≤
      ctx.callValue.total .egld :=
  (getTransferAndGasTokens_eq_ok.mp h).total .egld ▸ by simp

theorem interchainTransfer (rules : EffectRules crypto env ctx Allowed Rel)
    (htake : ∀ address token amount,
      Satisfies (Rel ((singlePayment token amount).total .egld))
        (callManager env (nested env ctx address (singlePayment token amount)) .takeToken))
    (hmessage : ∀ payload gasValue,
      Satisfies (Rel gasValue) (callContractItsHub crypto env ctx payload gasValue))
    (tokenId : TokenId) (destinationChain destinationAddress data : ManagedBuffer)
    (gasValue : ℕ) :
    Satisfies (Rel (ctx.callValue.total .egld)) (interchainTransfer crypto env ctx tokenId
      destinationChain destinationAddress data gasValue) := by
  refine .inspect_bind inspects_requireNotPaused fun _ => .lift_bind fun tokens htokens =>
    .weaken rules.toComposes (getTransferAndGasTokens_total htokens)
      (.bind rules.toComposes ?_ fun _ => ?_)
  · exact .inspect_bind (inspects_deployedTokenManager tokenId) fun address =>
      .thenFree rules.toComposes (htake address _ _) fun _ => .pure rules.toComposes ()
  · refine .inspect_bind (.lift _) fun _ => .inspect_bind (.lift _) fun _ =>
      .inspect_bind (.lift _) fun _ => .inspect_bind (.lift _) fun _ =>
        .inspect_bind (.lift _) fun inner => .thenFree rules.toComposes ?_ fun _ =>
          rules.emits _
    exact EffectRules.routeMessageThroughItsHub fun _ payload _ _ =>
      hmessage payload tokens.gasAmount

/-! ## Deployments -/

theorem registerCustomTokenRaw (rules : EffectRules crypto env ctx Allowed Rel) (deploySalt : Hash)
    (tokenIdentifier : EgldOrEsdtTokenIdentifier) (tokenManagerType : TokenManagerType)
    (linkParams : ManagedBuffer)
    (hallowed : tokenManagerType ≠ .nativeInterchainToken →
      Allowed (.deploys (interchainTokenIdRaw crypto deploySalt) tokenManagerType
        (some tokenIdentifier) linkParams)) :
    Satisfies (Rel 0) (registerCustomTokenRaw crypto env ctx deploySalt tokenIdentifier
      tokenManagerType linkParams) :=
  .inspect_bind inspects_requireNotPaused fun _ => .lift_bind fun _ htype =>
    .andThen rules.toComposes (rules.emits _) fun _ => .andThen rules.toComposes
      (rules.deploy _ _ _ _ (hallowed (Outcome.require_eq_ok.mp htype))) fun _ =>
        .pure rules.toComposes _

/-- The value of a deployment is what came with the call, or nothing. -/
theorem deployInterchainTokenRaw (rules : EffectRules crypto env ctx Allowed Rel)
    (deploySalt : Hash) (destinationChain name symbol : ManagedBuffer) (decimals : UInt8)
    (minter : ManagedBuffer) {egldValue n : ℕ} (initialCaller : Address)
    (hlocal : destinationChain.isEmpty → ctx.callValue.total .egld ≤ n)
    (hvalue : egldValue ≤ n)
    (hdeploys : destinationChain.isEmpty → Allowed (.deploys
      (interchainTokenIdRaw crypto deploySalt) .nativeInterchainToken none minter))
    (hissues : destinationChain.isEmpty → ∀ address value minter, Allowed (.commands address value
      (.deployInterchainToken minter name symbol decimals (some initialCaller)))) :
    Satisfies (Rel n) (deployInterchainTokenRaw crypto env ctx deploySalt destinationChain
      name symbol decimals minter egldValue initialCaller) := by
  refine .andThen rules.toComposes (rules.emits _) fun _ =>
    .ite (fun hempty => .inspect_bind (.reads _) fun current =>
      .ite (fun _ => ?deploy) fun _ => ?issue) fun _ =>
        .inspect_bind (.reads _) fun _ => .inspect_bind (.lift _) fun _ => ?remote
  case deploy =>
    refine .inspect_bind (.lift _) fun _ => .weaken rules.toComposes (Nat.zero_le n) ?_
    exact .andThen rules.toComposes (rules.deploy _ _ _ _ (hdeploys hempty)) fun _ =>
      .pure rules.toComposes _
  case issue =>
    refine .inspect_bind (.lift _) fun minter => .weaken rules.toComposes (hlocal hempty) ?_
    exact .thenFree rules.toComposes (rules.tokenManagerDeployInterchainToken _ _ _ _ _ _
      fun _ _ => hissues hempty _ _ _) fun _ => .pure rules.toComposes _
  case remote =>
    refine .weaken rules.toComposes hvalue ?_
    exact .thenFree rules.toComposes
      (rules.deployRemoteInterchainTokenBase _ _ _ _ _ _ egldValue) fun _ =>
        .pure rules.toComposes _

/-- No manager is deployed for a token that has one. -/
theorem deployInterchainTokenRaw_again (rules : EffectRules crypto env ctx Allowed Rel)
    {deploySalt : Hash} {destinationChain name symbol : ManagedBuffer} {decimals : UInt8}
    {minter : ManagedBuffer} {egldValue n : ℕ} {initialCaller : Address} {tokenId : TokenId}
    {world last : World} {trace : List Action}
    (hlocal : destinationChain.isEmpty → ctx.callValue.total .egld ≤ n) (hvalue : egldValue ≤ n)
    (hissues : destinationChain.isEmpty → ∀ address value minter, Allowed (.commands address value
      (.deployInterchainToken minter name symbol decimals (some initialCaller))))
    (hmanager : (world.its.tokenManagerAddress (interchainTokenIdRaw crypto deploySalt)).isSome)
    (h : Its.deployInterchainTokenRaw crypto env ctx deploySalt destinationChain name symbol
      decimals minter egldValue initialCaller world = .ok ⟨tokenId, last, trace⟩) :
    Rel n world trace last := by
  by_cases hempty : destinationChain.isEmpty
  · rw [Its.deployInterchainTokenRaw, Transaction.bind_eq_ok] at h
    obtain ⟨_, _, _, _, hclaimed, h, rfl⟩ := h
    obtain ⟨rfl, rfl⟩ := performs_eq_ok.mp hclaimed
    rw [if_pos hempty, Transaction.bind_eq_ok] at h
    obtain ⟨_, _, _, _, hcurrent, h, rfl⟩ := h
    obtain ⟨rfl, rfl, rfl⟩ := reads_eq_ok.mp hcurrent
    rw [if_neg (Option.isSome_iff_ne_none.mp hmanager)] at h
    have hissue : Satisfies (Rel n) (do
        let minter ← liftM (toOptionalAddress minter)
        Its.tokenManagerDeployInterchainToken env ctx (interchainTokenIdRaw crypto deploySalt)
          minter name symbol decimals initialCaller
        return interchainTokenIdRaw crypto deploySalt) :=
      .inspect_bind (.lift _) fun minter => .weaken rules.toComposes (hlocal hempty)
        (.thenFree rules.toComposes (rules.tokenManagerDeployInterchainToken _ _ _ _ _ _
          fun _ _ => hissues hempty _ _ _) fun _ => .pure rules.toComposes _)
    rw [← zero_add n]
    exact rules.append (rules.event _ _) (hissue _ _ _ _ h)
  · exact rules.deployInterchainTokenRaw _ _ _ _ _ _ _ (fun h => absurd h hempty) hvalue
      (fun h => absurd h hempty) (fun h => absurd h hempty) _ _ _ _ h

theorem initialMinter (rules : EffectRules crypto env ctx Allowed Rel) (tokenId : TokenId)
    (initialSupply : ℕ) (minterOpt : Option Address)
    (hallowed : ∀ status, Allowed (.status tokenId status)) :
    Satisfies (Rel 0) (initialMinter ctx tokenId initialSupply minterOpt) := by
  refine .inspect_bind (.reads _) fun status => .ite (fun _ => ?_) fun _ => ?_
  · exact .inspect_bind (.lift _) fun _ =>
      .andThen rules.toComposes (rules.status _ _ (hallowed _)) fun _ =>
        .pure rules.toComposes _
  · exact .inspect_bind (.lift _) fun _ => .inspect_bind (.lift _) fun _ =>
      .inspect_bind (.lift _) fun _ =>
        .andThen rules.toComposes (rules.status _ _ (hallowed _)) fun _ =>
          .pure rules.toComposes _

theorem mintInitialSupply (rules : EffectRules crypto env ctx Allowed Rel) (tokenId : TokenId)
    (tokenManager sender : Address) (initialSupply : ℕ) (minterOpt : Option Address)
    (hcommands : ∀ call : TokenManager.Call, call.isLocal →
      Allowed (.commands tokenManager 0 call))
    (hstatus : Allowed (.status tokenId .alreadyMinted)) :
    Satisfies (Rel 0) (mintInitialSupply env ctx tokenId tokenManager sender initialSupply
      minterOpt) := by
  refine .andThen rules.toComposes (rules.commandManager _ rfl (hcommands _ rfl)) fun _ => ?_
  refine .andThen rules.toComposes (rules.commandManager _ rfl (hcommands _ rfl)) fun _ => ?_
  refine .andThen rules.toComposes (rules.commandManager _ rfl (hcommands _ rfl)) fun _ => ?_
  refine .andThen rules.toComposes (rules.commandManager _ rfl (hcommands _ rfl)) fun _ => ?_
  refine .andThen rules.toComposes (rules.commandManager _ rfl (hcommands _ rfl)) fun _ => ?_
  exact rules.status tokenId .alreadyMinted hstatus

theorem deployInterchainToken (rules : EffectRules crypto env ctx Allowed Rel) (salt : Hash)
    (name symbol : ManagedBuffer) (decimals : UInt8) (initialSupply : ℕ)
    (minterOpt : Option Address)
    (hallowed : ∀ effect, Call.Effects ctx
      (.deployInterchainToken salt name symbol decimals initialSupply minterOpt) effect →
      Allowed effect) :
    Satisfies (Rel (ctx.callValue.total .egld)) (deployInterchainToken crypto env ctx salt
      name symbol decimals initialSupply minterOpt) := by
  refine .inspect_bind inspects_requireNotPaused fun _ => .inspect_bind (.lift _) fun _ =>
    .inspect_bind (.lift _) fun _ => .inspect_bind (.reads _) fun deploySalt =>
      .andThen rules.toComposes (rules.initialMinter _ _ _ fun _ => hallowed _ .localStatus)
        fun minterBytes =>
        .lift_bind fun value hvalue => .inspect_bind (.reads _) fun tokenManager => ?_
  have hle := (egldValue_eq_ok hvalue).ge
  cases tokenManager with
  | none =>
    exact .inspect_bind (.lift _) fun _ => .thenFree rules.toComposes
      (rules.deployInterchainTokenRaw _ _ _ _ _ _ _ (fun _ => le_rfl) (Nat.zero_le _)
        (fun _ => hallowed _ .localDeploys) fun _ _ _ _ => hallowed _ (.localCommands rfl))
      fun _ => .pure rules.toComposes _
  | some tokenManager =>
    refine .inspect_bind (inspects_tokenManagerGetOptTokenIdentifier _) fun _ =>
      .ite (fun _ => ?_) fun _ => .inspect_bind (.lift _) fun _ =>
        .weaken rules.toComposes (Nat.zero_le _) (.ite (fun _ => ?_) fun _ => ?_)
    · exact .thenFree rules.toComposes
        (rules.deployInterchainTokenRaw _ _ _ _ _ _ _ (fun _ => le_rfl) hle
          (fun _ => hallowed _ .localDeploys) fun _ _ _ _ => hallowed _ (.localCommands rfl))
        fun _ => .pure rules.toComposes _
    · exact .andThen rules.toComposes (rules.mintInitialSupply _ _ _ _ _
        (fun _ hlocal => hallowed _ (.localCommands hlocal)) (hallowed _ .localStatus)) fun _ =>
        .pure rules.toComposes _
    · exact .pure rules.toComposes _

/-! ## Approvals -/

theorem useDeployApproval (rules : EffectRules crypto env ctx Allowed Rel)
    (approval : DeployApproval) (destinationMinter : ManagedBuffer)
    (hallowed : Allowed (.approval (deployApprovalKey crypto approval) none)) :
    Satisfies (Rel 0) (useDeployApproval crypto approval destinationMinter) :=
  .inspect_bind (.reads _) fun _ =>
    .andThen rules.toComposes (rules.approval _ _ hallowed) fun _ =>
      .inspect rules.toComposes (.lift _)

theorem approveDeployRemoteInterchainToken (rules : EffectRules crypto env ctx Allowed Rel)
    (deployer : Address) (salt : Hash) (destinationChain destinationMinter : ManagedBuffer)
    (hallowed : ∀ approvalKey approved, Allowed (.approval approvalKey approved)) :
    Satisfies (Rel 0) (approveDeployRemoteInterchainToken crypto ctx deployer salt
      destinationChain destinationMinter) :=
  .inspect_bind (inspects_interchainTokenId crypto _ _) fun _ =>
    .inspect_bind (inspects_checkTokenMinter _ _) fun _ =>
      .inspect_bind (inspects_isTrustedChain _) fun _ => .inspect_bind (.lift _) fun _ =>
        .andThen rules.toComposes (rules.emits _) fun _ =>
          rules.approval _ _ (hallowed _ _)

theorem revokeDeployRemoteInterchainToken (rules : EffectRules crypto env ctx Allowed Rel)
    (deployer : Address) (salt : Hash) (destinationChain : ManagedBuffer)
    (hallowed : ∀ approvalKey approved, Allowed (.approval approvalKey approved)) :
    Satisfies (Rel 0) (revokeDeployRemoteInterchainToken crypto ctx deployer salt
      destinationChain) :=
  .inspect_bind (inspects_interchainTokenId crypto _ _) fun _ =>
    .andThen rules.toComposes (rules.emits _) fun _ =>
          rules.approval _ _ (hallowed _ _)

theorem remoteMinter (rules : EffectRules crypto env ctx Allowed Rel) (deploySalt : Hash)
    (minterOpt : Option Address) (destinationChain : ManagedBuffer)
    (destinationMinter : Option ManagedBuffer)
    (hallowed : ∀ minter approvalKey, minterOpt = some minter →
      Allowed (.approval approvalKey none)) :
    Satisfies (Rel 0) (remoteMinter crypto ctx deploySalt minterOpt destinationChain
      destinationMinter) := by
  cases minterOpt with
  | none => exact .inspect_bind (.lift _) fun _ => .pure rules.toComposes _
  | some minter =>
    refine .inspect_bind (inspects_checkTokenMinter _ _) fun _ =>
      .inspect_bind (.lift _) fun _ => ?_
    cases destinationMinter with
    | none => exact .pure rules.toComposes _
    | some destinationMinter =>
      exact .andThen rules.toComposes (rules.useDeployApproval _ _ (hallowed minter _ rfl)) fun _ =>
        .pure rules.toComposes _

/-! ## Requests -/

theorem esdtGetTokenProperties (hrequest : RequestRule crypto ctx Rel) {request : Request}
    {world last : World} {trace : List Action}
    (hsound : request.Sound crypto world.its ctx.caller)
    (h : esdtGetTokenProperties request world = .ok ⟨(), last, trace⟩) :
    Rel request.gasValue world trace last := by
  simp only [Its.esdtGetTokenProperties, register, Transaction.bind_eq_ok, modifies_eq_ok,
    performs_eq_ok] at h
  obtain ⟨_, _, _, _, ⟨rfl, rfl⟩, ⟨rfl, rfl⟩, rfl⟩ := h
  exact hrequest world request hsound

theorem registerTokenMetadata (rules : EffectRules crypto env ctx Allowed Rel)
    (hrequest : RequestRule crypto ctx Rel) (tokenIdentifier : EgldOrEsdtTokenIdentifier) :
    Satisfies (Rel (ctx.callValue.total .egld))
      (registerTokenMetadata crypto env ctx tokenIdentifier) := by
  refine .lift_bind fun _ hvalid => .lift_bind fun gasValue hvalue => ?_
  rw [egldValue_eq_ok hvalue]
  cases tokenIdentifier with
  | egld => exact rules.registerTokenMetadataRaw .egld EGLD_DECIMALS gasValue
  | esdt identifier =>
    intro world _ last trace h
    exact EffectRules.esdtGetTokenProperties hrequest
      (.registerTokenMetadata (Outcome.require_eq_ok.mp hvalid)) h

theorem deployRemoteInterchainTokenRaw (rules : EffectRules crypto env ctx Allowed Rel)
    (hrequest : RequestRule crypto ctx Rel)
    (hissues : ∀ address value minter name symbol decimals initialCaller,
      Allowed (.commands address value
        (.deployInterchainToken minter name symbol decimals initialCaller)))
    (deploySalt : Hash) (destinationChain destinationMinter : ManagedBuffer) :
    Satisfies (Rel (ctx.callValue.total .egld)) (deployRemoteInterchainTokenRaw crypto env ctx
      deploySalt destinationChain destinationMinter ctx.caller) := by
  intro world value last trace h
  rw [Its.deployRemoteInterchainTokenRaw, Transaction.bind_eq_ok] at h
  obtain ⟨token, _, _, _, hregistered, h, rfl⟩ := h
  have hmanager : (world.its.tokenManagerAddress
      (interchainTokenIdRaw crypto deploySalt)).isSome := by
    simp only [registeredTokenIdentifier, deployedTokenManager, Transaction.bind_eq_ok,
      reads_eq_ok, lift_eq_ok, Outcome.orFail_eq_ok] at hregistered
    grind
  obtain ⟨rfl, rfl⟩ := inspects_registeredTokenIdentifier _ _ _ _ _ hregistered
  rw [Transaction.bind_eq_ok] at h
  obtain ⟨_, _, _, _, hvalid, h, rfl⟩ := h
  rw [lift_eq_ok, Outcome.require_eq_ok] at hvalid
  obtain ⟨hvalid, rfl, rfl⟩ := hvalid
  rw [Transaction.bind_eq_ok] at h
  obtain ⟨gasValue, _, _, _, hvalue, h, rfl⟩ := h
  rw [lift_eq_ok] at hvalue
  obtain ⟨hvalue, rfl, rfl⟩ := hvalue
  simp only [List.nil_append]
  rw [egldValue_eq_ok hvalue]
  cases token with
  | egld =>
    obtain ⟨_, _, _, _, hremote, hdone, rfl⟩ := Transaction.bind_eq_ok.mp h
    obtain ⟨_, rfl, rfl⟩ := Transaction.pure_eq_ok.mp hdone
    rw [List.append_nil]
    exact rules.deployInterchainTokenRaw_again (fun _ => (egldValue_eq_ok hvalue).le) le_rfl
      (fun _ _ _ _ => hissues _ _ _ _ _ _ _) hmanager hremote
  | esdt identifier =>
    simp only [isTrustedChain, Transaction.bind_eq_ok, reads_eq_ok, lift_eq_ok,
      Transaction.pure_eq_ok, Outcome.require_eq_ok, Outcome.exists_unit] at h
    obtain ⟨_, _, _, _, ⟨rfl, rfl, rfl⟩, ⟨_, _, _, ⟨hself, rfl, rfl⟩, ⟨_, _, _, _,
      ⟨rfl, rfl, rfl⟩, ⟨_, _, _, ⟨htrusted, rfl, rfl⟩, ⟨_, _, _, hasked,
        ⟨_, rfl, rfl⟩, rfl⟩, rfl⟩, rfl⟩, rfl⟩, rfl⟩ := h
    simpa using EffectRules.esdtGetTokenProperties hrequest
      (.deployRemoteToken hvalid hmanager hself htrusted) hasked

theorem deployRemoteInterchainTokenWithMinter (rules : EffectRules crypto env ctx Allowed Rel)
    (hrequest : RequestRule crypto ctx Rel)
    (hissues : ∀ address value minter name symbol decimals initialCaller,
      Allowed (.commands address value
        (.deployInterchainToken minter name symbol decimals initialCaller)))
    (salt : Hash) (minterOpt : Option Address) (destinationChain : ManagedBuffer)
    (destinationMinter : Option ManagedBuffer)
    (huses : ∀ minter approvalKey, minterOpt = some minter → Allowed (.approval approvalKey none)) :
    Satisfies (Rel (ctx.callValue.total .egld)) (deployRemoteInterchainTokenWithMinter crypto
      env ctx salt minterOpt destinationChain destinationMinter) :=
  .inspect_bind inspects_requireNotPaused fun _ => .inspect_bind (.reads _) fun _ =>
    .andThen rules.toComposes (rules.remoteMinter _ _ _ _ huses) fun _ =>
      rules.deployRemoteInterchainTokenRaw hrequest hissues _ _ _

theorem deployRemoteCanonicalInterchainToken (rules : EffectRules crypto env ctx Allowed Rel)
    (hrequest : RequestRule crypto ctx Rel)
    (hissues : ∀ address value minter name symbol decimals initialCaller,
      Allowed (.commands address value
        (.deployInterchainToken minter name symbol decimals initialCaller)))
    (tokenIdentifier : EgldOrEsdtTokenIdentifier) (destinationChain : ManagedBuffer) :
    Satisfies (Rel (ctx.callValue.total .egld)) (deployRemoteCanonicalInterchainToken crypto
      env ctx tokenIdentifier destinationChain) :=
  .inspect_bind inspects_requireNotPaused fun _ => .inspect_bind (.lift _) fun _ =>
    .inspect_bind (.reads _) fun _ => rules.deployRemoteInterchainTokenRaw hrequest hissues _ _ _

/-! ## Messages from the hub -/

theorem processDeployInterchainTokenPayload (rules : EffectRules crypto env ctx Allowed Rel)
    (hvalidate : ∀ chain id address hash,
      Satisfies (Rel 0) (gatewayValidateMessage crypto env ctx chain id address hash))
    (sourceChain messageId sourceAddress : ManagedBuffer) (payloadHash : Hash)
    (payload : ManagedBuffer)
    (hdeploys : ∀ data : DeployInterchainTokenPayload, abiDecode payload = .ok data →
      Allowed (.deploys data.tokenId .nativeInterchainToken none data.minter))
    (hissues : ∀ (data : DeployInterchainTokenPayload) address value minter,
      abiDecode payload = .ok data → Allowed (.commands address value
        (.deployInterchainToken minter data.name data.symbol data.decimals (some ctx.caller)))) :
    Satisfies (Rel (ctx.callValue.total .egld)) (processDeployInterchainTokenPayload crypto
      env ctx sourceChain messageId sourceAddress payloadHash payload) := by
  refine .lift_bind fun data hdata => .inspect_bind (.reads _) fun _ =>
    .ite (fun _ => ?deploy) fun _ => ?issue
  case deploy =>
    refine .inspect_bind (.lift _) fun _ => .inspect_bind (.lift _) fun _ =>
      .inspect_bind (inspects_gatewayIsMessageApproved _ _ _ _ _ _) fun _ =>
        .inspect_bind (.lift _) fun _ => .weaken rules.toComposes (Nat.zero_le _) ?_
    exact .andThen rules.toComposes (rules.deploy _ _ _ _ (hdeploys data hdata)) fun _ =>
      .pure rules.toComposes _
  case issue =>
    exact .andThen rules.toComposes (hvalidate _ _ _ _) fun _ => .inspect_bind (.lift _)
      fun _ => .inspect_bind (.lift _) fun _ =>
        rules.tokenManagerDeployInterchainToken _ _ _ _ _ _ fun _ _ => hissues data _ _ _ hdata

theorem processLinkTokenPayload (rules : EffectRules crypto env ctx Allowed Rel)
    (payload : ManagedBuffer)
    (hlinks : ∀ data : LinkTokenPayload, abiDecode payload = .ok data →
      data.tokenManagerType ≠ .nativeInterchainToken →
      Allowed (.deploys data.tokenId data.tokenManagerType
        (some (EgldOrEsdtTokenIdentifier.parse data.destinationTokenAddress)) data.linkParams)) :
    Satisfies (Rel 0) (processLinkTokenPayload env ctx payload) :=
  .lift_bind fun data hdata => .lift_bind fun _ htype =>
    .inspect_bind (.lift _) fun _ => .andThen rules.toComposes (rules.deploy _ _ _ _
      (hlinks data hdata (Outcome.require_eq_ok.mp htype))) fun _ => .pure rules.toComposes _

/-- A transfer gives tokens, and with data it calls their receiver. -/
theorem processInterchainTransferPayload (rules : EffectRules crypto env ctx Allowed Rel)
    (hgive : ∀ address receiver amount,
      Satisfies (Rel 0) (callManager env (nested env ctx address .none)
        (.giveToken receiver amount)))
    (hcall : ∀ receiver chain id source data tokenId token amount,
      Satisfies (Rel 0) (executableContractExecuteWithInterchainToken env ctx receiver chain id
        source data tokenId token amount))
    (originalSourceChain messageId payload : ManagedBuffer) :
    Satisfies (Rel 0) (processInterchainTransferPayload crypto env ctx originalSourceChain
      messageId payload) := by
  have hgiven : ∀ tokenId receiver amount,
      Satisfies (Rel 0) (tokenManagerGiveToken env ctx tokenId receiver amount) := by
    intro tokenId receiver amount
    refine .inspect_bind (inspects_deployedTokenManager tokenId) fun address =>
      .andThen rules.toComposes (hgive address receiver amount) fun reply => ?_
    split
    · exact .pure rules.toComposes _
    · exact .error
  refine .inspect_bind (.lift _) fun transferred => .inspect_bind (.lift _) fun receiver =>
    .andThen rules.toComposes (rules.emits _) fun _ => .ite (fun _ => ?_) fun _ => ?_
  · exact .andThen rules.toComposes (hgiven _ _ _) fun _ => .pure rules.toComposes ()
  · exact .andThen rules.toComposes (hgiven _ _ _) fun _ => hcall _ _ _ _ _ _ _ _

theorem execute (rules : EffectRules crypto env ctx Allowed Rel)
    (hvalidate : ∀ chain id address hash,
      Satisfies (Rel 0) (gatewayValidateMessage crypto env ctx chain id address hash))
    (htransfer : ∀ chain id payload,
      Satisfies (Rel 0)
        (Its.processInterchainTransferPayload crypto env ctx chain id payload))
    (sourceChain messageId sourceAddress payload : ManagedBuffer)
    (hallowed : ∀ effect, Call.Effects ctx
      (.execute sourceChain messageId sourceAddress payload) effect → Allowed effect) :
    Satisfies (Rel (ctx.callValue.total .egld))
      (execute crypto env ctx sourceChain messageId sourceAddress payload) := by
  refine .inspect_bind inspects_requireNotPaused fun _ =>
    .inspect_bind (inspects_onlyItsHub _ _) fun _ =>
      .inspect_bind_of (inspects_getExecuteParams _) fun params hparams => ?_
  obtain ⟨messageType, originalSourceChain, inner⟩ := params
  obtain ⟨world, hparams⟩ := hparams
  have hmessage := (getExecuteParams_eq_ok hparams).1
  refine .ite (fun _ => ?transfer) fun _ => .ite (fun hdeploys => ?deploy) fun _ =>
    .ite (fun hlinks => ?link) fun _ => .error
  case transfer =>
    refine .weaken rules.toComposes (Nat.zero_le _) ?_
    exact .inspect_bind (.lift _) fun _ => .inspect_bind (.lift _) fun _ =>
      .andThen rules.toComposes (hvalidate _ _ _ _) fun _ => .inspect_bind (.lift _)
        fun _ => htransfer _ _ _
  case deploy =>
    subst hdeploys
    exact rules.processDeployInterchainTokenPayload hvalidate _ _ _ _ _
      (fun data hdata => hallowed _ (.executeDeploys hmessage hdata))
      fun data _ _ _ hdata => hallowed _ (.executeIssues hmessage hdata)
  case link =>
    subst hlinks
    refine .weaken rules.toComposes (Nat.zero_le _) ?_
    exact .inspect_bind (.lift _) fun _ => .inspect_bind (.lift _) fun _ =>
      .andThen rules.toComposes (hvalidate _ _ _ _) fun _ => .inspect_bind (.lift _)
        fun _ => rules.processLinkTokenPayload _ fun data hdata htype =>
          hallowed _ (.executeLinks hmessage hdata htype)

/-! ## Endpoints -/

theorem unpaid {A : Type} (rules : EffectRules crypto env ctx Allowed Rel) {x : Tx A} {n : ℕ}
    (hx : Satisfies (Rel 0) x) : Satisfies (Rel n) (unpaid ctx x) :=
  .inspect_bind (.lift _) fun _ => .weaken rules.toComposes (Nat.zero_le n)
    (.thenFree rules.toComposes hx fun _ => .pure rules.toComposes ())

theorem payableInEgld {A : Type} (rules : EffectRules crypto env ctx Allowed Rel) {x : Tx A} {n : ℕ}
    (hx : Satisfies (Rel n) x) : Satisfies (Rel n) (payableInEgld ctx x) :=
  .inspect_bind (.lift _) fun _ =>
    .thenFree rules.toComposes hx fun _ => .pure rules.toComposes ()

/-- Every call spends at most the EGLD that came with it. -/
theorem perform (rules : EffectRules crypto env ctx Allowed Rel)
    (hrequest : RequestRule crypto ctx Rel) (call : Call)
    (hallowed : ∀ effect, call.Effects ctx effect → Allowed effect)
    (htransfer : ∀ tokenId destinationChain destinationAddress data gasValue,
      call = .interchainTransfer tokenId destinationChain destinationAddress data gasValue →
      Satisfies (Rel (ctx.callValue.total .egld)) (Its.interchainTransfer crypto env ctx
        tokenId destinationChain destinationAddress data gasValue))
    (hexecute : ∀ sourceChain messageId sourceAddress payload,
      call = .execute sourceChain messageId sourceAddress payload →
      Satisfies (Rel (ctx.callValue.total .egld))
        (Its.execute crypto env ctx sourceChain messageId sourceAddress payload)) :
    Satisfies (Rel (ctx.callValue.total .egld)) (perform crypto env ctx call) := by
  cases call with
  | setTrustedChain chain => exact rules.unpaid (rules.setTrustedChain chain)
  | removeTrustedChain sourceChain => exact rules.unpaid (rules.removeTrustedChain sourceChain)
  | pause => exact rules.unpaid (rules.setPaused true)
  | unpause => exact rules.unpaid (rules.setPaused false)
  | transferOperatorship operator =>
    exact rules.unpaid (rules.withRoles (hallowed _ (.operators rfl)) _)
  | proposeOperatorship operator =>
    exact rules.unpaid (rules.withRoles (hallowed _ (.operators rfl)) _)
  | acceptOperatorship fromOperator =>
    exact rules.unpaid (rules.withRoles (hallowed _ (.operators rfl)) _)
  | setFlowLimits tokenIds flowLimits =>
    exact rules.unpaid (rules.setFlowLimits tokenIds flowLimits
      fun _ _ => hallowed _ .setFlowLimits)
  | execute sourceChain messageId sourceAddress payload =>
    exact rules.payableInEgld (hexecute _ _ _ _ rfl)
  | registerTokenMetadata tokenIdentifier =>
    exact rules.payableInEgld (rules.registerTokenMetadata hrequest tokenIdentifier)
  | interchainTransfer tokenId destinationChain destinationAddress data gasValue =>
    exact htransfer _ _ _ _ _ rfl
  | deployInterchainToken salt name symbol decimals initialSupply minterOpt =>
    exact rules.payableInEgld (rules.deployInterchainToken _ _ _ _ _ _ hallowed)
  | approveDeployRemoteInterchainToken deployer salt destinationChain destinationMinter =>
    exact rules.unpaid (rules.approveDeployRemoteInterchainToken _ _ _ _
      fun _ _ => hallowed _ .approves)
  | revokeDeployRemoteInterchainToken deployer salt destinationChain =>
    exact rules.unpaid (rules.revokeDeployRemoteInterchainToken _ _ _
      fun _ _ => hallowed _ .revokes)
  | deployRemoteInterchainToken salt destinationChain =>
    exact rules.payableInEgld
      (rules.deployRemoteInterchainTokenWithMinter hrequest
        (fun _ _ _ _ _ _ _ => hallowed _ (.remoteIssues rfl)) _ none _ none (by simp))
  | deployRemoteInterchainTokenWithMinter salt minterOpt destinationChain destinationMinter =>
    exact rules.payableInEgld
      (rules.deployRemoteInterchainTokenWithMinter hrequest
        (fun _ _ _ _ _ _ _ => hallowed _ (.remoteIssues rfl)) _ _ _ _
        fun _ _ _ => hallowed _ .uses)
  | registerCanonicalInterchainToken tokenIdentifier =>
    exact rules.unpaid (.inspect_bind (.lift _) fun _ => .inspect_bind (.reads _) fun _ =>
      rules.registerCustomTokenRaw _ _ _ _ fun _ => hallowed _ .canonical)
  | deployRemoteCanonicalInterchainToken tokenIdentifier destinationChain =>
    exact rules.payableInEgld (rules.deployRemoteCanonicalInterchainToken hrequest
      (fun _ _ _ _ _ _ _ => hallowed _ (.remoteIssues rfl)) _ _)
  | registerCustomToken salt tokenIdentifier tokenManagerType operatorOpt =>
    exact rules.unpaid (.inspect_bind (.lift _) fun _ => .inspect_bind (.reads _) fun _ =>
      rules.registerCustomTokenRaw _ _ _ _ fun htype => hallowed _ (.custom htype))
  | linkToken salt destinationChain destinationTokenAddress tokenManagerType linkParams =>
    refine rules.payableInEgld (.inspect_bind (.reads _) fun _ => .lift_bind
      fun gasValue hvalue => ?_)
    rw [egldValue_eq_ok hvalue]
    exact rules.linkTokenRaw _ _ _ _ _ gasValue

/-! ## Callbacks -/

theorem directNonZeroEgld (rules : EffectRules crypto env ctx Allowed Rel) (receiver : Address)
    (amount : ℕ) : Satisfies (Rel amount) (directNonZeroEgld ctx receiver amount) :=
  .ite (fun _ => rules.send receiver amount) fun _ =>
    .weaken rules.toComposes (Nat.zero_le amount) (.pure rules.toComposes ())

/-- A callback spends at most the gas value of its request. -/
theorem callbackCode (rules : EffectRules crypto env ctx Allowed Rel)
    (hunpaid : ctx.callValue = .none) (result : AsyncResult) (request : Request)
    (hdeploys : ∀ deploySalt chain tokenSymbol minter,
      request.callback = .deployRemoteToken deploySalt chain tokenSymbol minter →
      chain.isEmpty → Allowed (.deploys (interchainTokenIdRaw crypto deploySalt)
        .nativeInterchainToken none minter))
    (hissues : ∀ deploySalt chain tokenSymbol minter name decimals address value minterOpt,
      request.callback = .deployRemoteToken deploySalt chain tokenSymbol minter →
      chain.isEmpty → Allowed (.commands address value
        (.deployInterchainToken minterOpt name tokenSymbol decimals (some request.caller)))) :
    Satisfies (Rel request.gasValue) (request.callbackCode crypto env ctx result) := by
  have hrefund := rules.directNonZeroEgld request.caller request.gasValue
  unfold Request.callbackCode
  split
  case h_1 deploySalt destinationChain tokenSymbol destinationMinter hcallback =>
    cases result with
    | err errCode errMsg => exact hrefund
    | ok values =>
      refine .inspect_bind (inspects_isTrustedChain _) fun _ => .ite (fun _ => hrefund) fun _ =>
        .inspect_bind (.lift _) fun _ => .inspect_bind (.lift _) fun _ =>
          .inspect_bind (.lift _) fun _ => .ite (fun _ => hrefund) fun _ =>
            .inspect_bind (.lift _) fun _ => .thenFree rules.toComposes ?_ fun _ =>
              .pure rules.toComposes ()
      refine rules.deployInterchainTokenRaw _ _ _ _ _ _ _ (fun _ => ?_) le_rfl
        (hdeploys _ _ _ _ hcallback) fun hempty _ _ _ => hissues _ _ _ _ _ _ _ _ _ hcallback hempty
      rw [hunpaid]
      exact Nat.zero_le _
  case h_2 tokenIdentifier _ =>
    cases result with
    | err errCode errMsg => exact hrefund
    | ok values =>
      exact .inspect_bind (.lift _) fun _ => .inspect_bind (.lift _) fun _ =>
        .ite (fun _ => hrefund) fun _ => .inspect_bind (.lift _) fun _ =>
          rules.registerTokenMetadataRaw _ _ _

end EffectRules

end Its

end AxelarCgp
