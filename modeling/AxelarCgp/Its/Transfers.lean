import AxelarCgp.Its.Tokens

/-!
# Transfers to other chains

A call of `interchainTransfer` splits what was attached between the token manager
and the gas service, and tells the hub what the manager took.  The service itself
keeps nothing of it.
-/

namespace AxelarCgp.Its

open Transaction

/-! ## Exact balances -/

/-- `amount` of a payment in the balance of one account. -/
def share (payment : EgldOrMultiEsdtPayment) (receiver account : Address) (asset : Asset) : ℕ :=
  if account = receiver then payment.total asset else 0

/-- The parts of a payment make up the whole in every balance. -/
theorem share_splits {gasValue : ℕ} {payment : EgldOrMultiEsdtPayment}
    {tokens : TransferAndGasTokens} (h : Splits gasValue payment tokens)
    (receiver account : Address) (asset : Asset) :
    share payment receiver account asset =
      share (singlePayment tokens.transferToken tokens.transferAmount) receiver account asset +
        share (.egld tokens.gasAmount) receiver account asset := by
  unfold share
  split
  · exact h.total asset
  · rfl

section Balances

variable {env : Environment} {ctx : CallContext} {world last : World} {trace : List Action}

theorem balance_transfer {ledger after : Ledger Address Asset} {sender receiver : Address}
    {sent : Asset} {amount : ℕ} (h : ledger.transfer sender receiver sent amount = .ok after)
    (account : Address) (asset : Asset) :
    after.balance account asset + Ledger.single sender sent amount account asset =
      ledger.balance account asset + Ledger.single receiver sent amount account asset := by
  obtain ⟨henough, hbalance, _⟩ := Ledger.transfer_eq_ok h
  have hle : Ledger.single sender sent amount account asset ≤ ledger.balance account asset := by
    unfold Ledger.single
    split
    · rename_i hsame
      rw [hsame.1, hsame.2]
      exact henough
    · exact Nat.zero_le _
  rw [hbalance]
  omega

theorem share_of_amounts {payment : EgldOrMultiEsdtPayment} {sent : Asset} {amount : ℕ}
    (h : payment.amounts = [(sent, amount)]) (receiver account : Address) (asset : Asset) :
    share payment receiver account asset = Ledger.single receiver sent amount account asset := by
  by_cases haccount : account = receiver <;> by_cases hasset : sent = asset <;>
    simp [share, Ledger.single, EgldOrMultiEsdtPayment.total, h, haccount, hasset, eq_comm]

/-- A payment goes from the caller to the contract it calls, and nowhere else. -/
theorem balance_pay (h : pay ctx world = .ok ⟨(), last, trace⟩) (account : Address)
    (asset : Asset) :
    last.ledger.balance account asset + share ctx.callValue ctx.caller account asset =
      world.ledger.balance account asset + share ctx.callValue ctx.scAddress account asset := by
  rw [pay] at h
  unfold share EgldOrMultiEsdtPayment.total
  generalize ctx.callValue.amounts = amounts at h ⊢
  induction amounts generalizing world trace with
  | nil =>
    obtain ⟨_, rfl, _⟩ := Transaction.pure_eq_ok.mp h
    simp
  | cons entry amounts ih =>
    simp only [forEach, Transaction.bind_eq_ok, Outcome.exists_unit, transfer_eq_ok] at h
    obtain ⟨_, _, _, ⟨ledger, hledger, rfl, _⟩, hrest, _⟩ := h
    have hafter := ih hrest
    have hfirst := balance_transfer hledger account asset
    dsimp only at hafter
    simp only [Purse.total_cons]
    unfold Ledger.single at hfirst
    grind

/-- A payment changes the ledger only. -/
theorem pay_frame (h : pay ctx world = .ok ⟨(), last, trace⟩) :
    ∃ ledger, last = { world with ledger } := by
  rw [pay] at h
  generalize ctx.callValue.amounts = amounts at h
  induction amounts generalizing world trace with
  | nil =>
    obtain ⟨_, rfl, _⟩ := Transaction.pure_eq_ok.mp h
    exact ⟨_, rfl⟩
  | cons entry amounts ih =>
    simp only [forEach, Transaction.bind_eq_ok, Outcome.exists_unit, transfer_eq_ok] at h
    obtain ⟨_, _, _, ⟨ledger, _, rfl, _⟩, hrest, _⟩ := h
    obtain ⟨final, hfinal⟩ := ih hrest
    exact ⟨final, hfinal⟩

/-- What a manager destroys of the tokens it took. -/
def burnt (managerType : TokenManagerType) (payment : EgldOrMultiEsdtPayment) :
    EgldOrMultiEsdtPayment :=
  if managerType.mints then payment else .none

theorem balance_absorbs {manager : Address} {token : EgldOrEsdtTokenIdentifier} {amount : ℕ}
    {ledger after : Ledger Address Asset} {managerType : TokenManagerType}
    (h : Absorbs env manager token amount ledger managerType after) (account : Address)
    (asset : Asset) :
    after.balance account asset +
        share (burnt managerType (singlePayment token amount)) manager account asset =
      ledger.balance account asset := by
  cases h with
  | lock hlocks => simp [burnt, hlocks, share, EgldOrMultiEsdtPayment.total,
      EgldOrMultiEsdtPayment.none, EgldOrMultiEsdtPayment.amounts]
  | burn hmints hesdt hroles hburn =>
    obtain ⟨henough, hbalance, _⟩ := Ledger.burn_eq_ok hburn
    rw [burnt, if_pos hmints, share_of_amounts (singlePayment_amounts token amount), hbalance]
    unfold Ledger.single
    split
    · rename_i hsame
      rw [hsame.1, hsame.2]
      omega
    · omega

/-- The manager gets what it takes, less what it burns. -/
theorem balance_takeToken {token : EgldOrEsdtTokenIdentifier} {amount : ℕ}
    {reply : TokenManager.Reply} (hpayment : ctx.callValue = singlePayment token amount)
    (h : callManager env ctx .takeToken world = .ok ⟨reply, last, trace⟩) :
    ∃ state, world.managers ctx.scAddress = some state ∧
      ∀ account asset, last.ledger.balance account asset +
          share (singlePayment token amount) ctx.caller account asset +
          share (burnt state.implementationType (singlePayment token amount)) ctx.scAddress
            account asset =
        world.ledger.balance account asset +
          share (singlePayment token amount) ctx.scAddress account asset := by
  obtain ⟨state, next, received, ledger, actions, hmanager, _, _, _, _, hreceived, habsorbs,
    rfl, _⟩ := callManager_takeToken hpayment h
  refine ⟨state, hmanager, fun account asset => ?_⟩
  have htransfer := balance_transfer hreceived account asset
  have habsorbed := balance_absorbs habsorbs account asset
  simp only [share_of_amounts (singlePayment_amounts token amount)]
  change ledger.balance account asset + _ + _ = _
  omega

theorem balance_pays {sender receiver : Address} {amount : ℕ}
    (h : Pays sender receiver amount world last) (account : Address) (asset : Asset) :
    last.ledger.balance account asset + share (.egld amount) sender account asset =
      world.ledger.balance account asset + share (.egld amount) receiver account asset := by
  unfold Pays at h
  split at h
  · obtain ⟨ledger, hledger, rfl, _⟩ := transfer_eq_ok.mp h
    simp only [share_of_amounts (rfl : (EgldOrMultiEsdtPayment.egld amount).amounts = _)]
    exact balance_transfer hledger account asset
  · rename_i hfree
    obtain rfl : amount = 0 := by omega
    subst h
    simp [share, EgldOrMultiEsdtPayment.total, EgldOrMultiEsdtPayment.amounts]

end Balances

/-! ## Messages -/

section Messages

variable {crypto : Crypto} {env : Environment} {ctx : CallContext}
variable {world last : World} {trace : List Action}

theorem biguint_eq_ok {value : ℕ} {number : BigUint} (h : biguint value = .ok number) :
    number.1 = value := by
  unfold biguint at h
  split at h
  · rw [← Except.ok.inj h]
  · simp at h

/-- A message to another chain goes to the hub, wrapped with the name of the chain. -/
structure Routed (crypto : Crypto) (env : Environment) (ctx : CallContext) (world : World)
    (destinationChain inner : ManagedBuffer) (gasValue : ℕ) (last : World) (trace : List Action)
    (sendToHub : BigUint) (payload : ManagedBuffer) : Prop where
  notHub : destinationChain ≠ ITS_HUB_CHAIN_NAME
  trusted : world.its.trustedChains destinationChain = true
  messageType : sendToHub.1 = MESSAGE_TYPE_SEND_TO_HUB
  decoded : abiDecode payload = .ok (⟨sendToHub, destinationChain, inner⟩ : SendToHubPayload)
  pays : Pays ctx.scAddress world.its.gasService gasValue world last
  trace : trace = hubTrace crypto env ctx world.its payload gasValue

theorem routeMessageThroughItsHub_iff {destinationChain inner : ManagedBuffer} {gasValue : ℕ} :
    routeMessageThroughItsHub crypto env ctx destinationChain inner gasValue world =
        .ok ⟨(), last, trace⟩ ↔
      destinationChain ≠ ITS_HUB_CHAIN_NAME ∧
      world.its.trustedChains destinationChain = true ∧
      ∃ messageType payload, biguint MESSAGE_TYPE_SEND_TO_HUB = .ok messageType ∧
        abiEncode (⟨messageType, destinationChain, inner⟩ : SendToHubPayload) = .ok payload ∧
        Pays ctx.scAddress world.its.gasService gasValue world last ∧
        trace = hubTrace crypto env ctx world.its payload gasValue := by
  simp only [routeMessageThroughItsHub, isTrustedChain, Transaction.bind_eq_ok,
    Outcome.exists_unit, lift_eq_ok, reads_eq_ok, Outcome.require_eq_ok,
    callContractItsHub_eq_ok]
  constructor
  · rintro ⟨_, _, _, ⟨hnotHub, rfl, rfl⟩, ⟨_, _, _, _, ⟨rfl, rfl, rfl⟩, ⟨_, _, _,
      ⟨htrusted, rfl, rfl⟩, ⟨messageType, _, _, _, ⟨htype, rfl, rfl⟩, ⟨payload, _, _, _,
        ⟨hpayload, rfl, rfl⟩, ⟨hpays, rfl⟩, rfl⟩, rfl⟩, rfl⟩, rfl⟩, rfl⟩
    exact ⟨hnotHub, htrusted, messageType, payload, htype, hpayload, hpays, rfl⟩
  · rintro ⟨hnotHub, htrusted, messageType, payload, htype, hpayload, hpays, rfl⟩
    exact ⟨_, _, _, ⟨hnotHub, rfl, rfl⟩, ⟨_, _, _, _, ⟨rfl, rfl, rfl⟩, ⟨_, _, _,
      ⟨htrusted, rfl, rfl⟩, ⟨messageType, _, _, _, ⟨htype, rfl, rfl⟩, ⟨payload, _, _, _,
        ⟨hpayload, rfl, rfl⟩, ⟨hpays, rfl⟩, rfl⟩, rfl⟩, rfl⟩, rfl⟩, by simp⟩

theorem routeMessageThroughItsHub_eq_ok {destinationChain inner : ManagedBuffer} {gasValue : ℕ}
    (h : routeMessageThroughItsHub crypto env ctx destinationChain inner gasValue world =
      .ok ⟨(), last, trace⟩) :
    ∃ messageType payload, Routed crypto env ctx world destinationChain inner gasValue last trace
      messageType payload := by
  obtain ⟨hnotHub, htrusted, messageType, payload, htype, hpayload, hpays, htrace⟩ :=
    routeMessageThroughItsHub_iff.mp h
  exact ⟨messageType, payload, hnotHub, htrusted, biguint_eq_ok htype, abiDecode_abiEncode hpayload,
    hpays, htrace⟩

/-- A hub payload that unwraps to a transfer to some chain. -/
def Announces (payload destinationChain : ManagedBuffer) (tokenId : TokenId)
    (sourceAddress destinationAddress : ManagedBuffer) (amount : ℕ) (data : ManagedBuffer) :
    Prop :=
  ∃ (sendToHub : SendToHubPayload) (transfer : InterchainTransferPayload),
    abiDecode payload = .ok sendToHub ∧ sendToHub.messageType.1 = MESSAGE_TYPE_SEND_TO_HUB ∧
    sendToHub.destinationChain = destinationChain ∧
    abiDecode sendToHub.payload = .ok transfer ∧
    transfer.messageType.1 = MESSAGE_TYPE_INTERCHAIN_TRANSFER ∧ transfer.tokenId = tokenId ∧
    transfer.sourceAddress = sourceAddress ∧ transfer.destinationAddress = destinationAddress ∧
    transfer.amount.1 = amount ∧ transfer.data = data

theorem transmitInterchainTransferRaw_eq_ok {tokenId : TokenId} {sourceAddress : Address}
    {destinationChain destinationAddress data : ManagedBuffer} {tokens : TransferAndGasTokens}
    (h : transmitInterchainTransferRaw crypto env ctx tokenId sourceAddress destinationChain
      destinationAddress tokens data world = .ok ⟨(), last, trace⟩) :
    destinationAddress.isEmpty = false ∧ tokens.transferAmount > 0 ∧
    destinationChain ≠ ITS_HUB_CHAIN_NAME ∧ world.its.trustedChains destinationChain = true ∧
    Pays ctx.scAddress world.its.gasService tokens.gasAmount world last ∧
    ∃ payload, Announces payload destinationChain tokenId (.ofFixed sourceAddress)
        destinationAddress tokens.transferAmount data ∧
      trace = hubTrace crypto env ctx world.its payload tokens.gasAmount ++
        [.event (.interchainTransfer tokenId sourceAddress (hashOfData crypto data)
          destinationChain destinationAddress tokens.transferAmount)] := by
  simp only [transmitInterchainTransferRaw, emits, Transaction.bind_eq_ok, Outcome.exists_unit,
    lift_eq_ok, Outcome.require_eq_ok, performs_eq_ok] at h
  obtain ⟨_, _, _, ⟨haddressed, rfl, rfl⟩, ⟨_, _, _, ⟨hpositive, rfl, rfl⟩, ⟨messageType, _, _, _,
    ⟨htype, rfl, rfl⟩, ⟨amount, _, _, _, ⟨hamount, rfl, rfl⟩, ⟨inner, _, _, _,
      ⟨hinner, rfl, rfl⟩, ⟨_, _, _, hroute, ⟨rfl, rfl⟩, rfl⟩, rfl⟩, rfl⟩, rfl⟩, rfl⟩, rfl⟩ := h
  obtain ⟨sendToHub, payload, hrouted⟩ := routeMessageThroughItsHub_eq_ok hroute
  refine ⟨by simpa using haddressed, hpositive, hrouted.notHub, hrouted.trusted, hrouted.pays,
    payload, ?_, by rw [hrouted.trace]; rfl⟩
  exact ⟨_, _, hrouted.decoded, hrouted.messageType, rfl, abiDecode_abiEncode hinner,
    biguint_eq_ok htype, rfl, rfl, rfl, biguint_eq_ok hamount, rfl⟩

end Messages

/-! ## Whole transfers -/

/-- A transfer to another chain: what was attached is split between the token
manager and the gas service, and one message to the hub says what was taken. -/
structure SentOut (crypto : Crypto) (env : Environment) (world : World) (caller : Address)
    (payment : EgldOrMultiEsdtPayment) (tokenId : TokenId)
    (destinationChain destinationAddress data : ManagedBuffer) (gasValue : ℕ) (next : World)
    (trace : List Action) (tokens : TransferAndGasTokens) (address : Address)
    (manager : TokenManager.State) (payload : ManagedBuffer) : Prop where
  splits : Splits gasValue payment tokens
  conserved : ∀ asset, payment.total asset =
    (singlePayment tokens.transferToken tokens.transferAmount).total asset +
      (EgldOrMultiEsdtPayment.egld tokens.gasAmount).total asset
  registered : world.its.tokenManagerAddress tokenId = some address
  deployed : world.managers address = some manager
  balances : ∀ account asset,
    next.ledger.balance account asset + share payment caller account asset +
        share (burnt manager.implementationType
          (singlePayment tokens.transferToken tokens.transferAmount)) address account asset =
      world.ledger.balance account asset +
        share (singlePayment tokens.transferToken tokens.transferAmount) address account asset +
        share (.egld tokens.gasAmount) world.its.gasService account asset
  trace : ∃ actions, trace =
    .manager (env.context world.itsAddress address
      (singlePayment tokens.transferToken tokens.transferAmount)) .takeToken
      (.taken tokens.transferAmount) actions ::
    (hubTrace crypto env (env.context caller world.itsAddress payment) world.its payload
      tokens.gasAmount ++
    [.event (.interchainTransfer tokenId caller (hashOfData crypto data) destinationChain
      destinationAddress tokens.transferAmount)])
  trusted : world.its.trustedChains destinationChain = true
  notHub : destinationChain ≠ ITS_HUB_CHAIN_NAME
  addressed : destinationAddress.isEmpty = false
  positive : tokens.transferAmount > 0
  announced : Announces payload destinationChain tokenId (.ofFixed caller) destinationAddress
    tokens.transferAmount data

variable {crypto : Crypto}

theorem interchainTransfer_sentOut {env : Environment} {world next : World} {caller : Address}
    {payment : EgldOrMultiEsdtPayment} {tokenId : TokenId}
    {destinationChain destinationAddress data : ManagedBuffer} {gasValue : ℕ}
    {trace : List Action}
    (hstep : (machine crypto).step world ⟨env, .its caller payment (.interchainTransfer tokenId
      destinationChain destinationAddress data gasValue)⟩ = .ok (next, trace)) :
    ∃ tokens address manager payload, SentOut crypto env world caller payment tokenId
      destinationChain destinationAddress data gasValue next trace tokens address manager
      payload := by
  rw [step_eq_ok] at hstep
  obtain ⟨_, paid, hpay, hperform⟩ := run_its_eq_ok.mp hstep
  have hpaid : MovesTokens world paid := (silent_pay _ _ _ _ _ hpay).1
  simp only [perform, interchainTransfer, requireNotPaused, Transaction.bind_eq_ok,
    Outcome.exists_unit, reads_eq_ok, lift_eq_ok, Outcome.require_eq_ok,
    getTransferAndGasTokens_eq_ok, tokenManagerTakeToken_eq_ok] at hperform
  obtain ⟨_, _, _, ⟨_, _, _, _, ⟨rfl, rfl, rfl⟩, ⟨_, rfl, rfl⟩, rfl⟩, ⟨tokens, _, _, _,
    ⟨hsplits, rfl, rfl⟩, ⟨taken, _, _, ⟨address, reply, haddress, htake⟩, hsend, rfl⟩, rfl⟩,
      rfl⟩ := hperform
  obtain ⟨state, hmanager, hbalances⟩ := balance_takeToken rfl htake
  obtain ⟨_, _, _, _, actions, _, _, _, _, rfl, _, _, _, rfl⟩ := callManager_takeToken rfl htake
  obtain ⟨htaken, -⟩ := callManager_movesTokens htake
  obtain ⟨haddressed, hpositive, hnotHub, htrusted, hpays, payload, hannounces, rfl⟩ :=
    transmitInterchainTransferRaw_eq_ok hsend
  rw [htaken.its, hpaid.its] at htrusted hpays
  rw [hpaid.its] at haddress
  exact ⟨tokens, address, state, payload, {
    splits := hsplits
    conserved := hsplits.total
    registered := haddress
    deployed := by
      obtain ⟨ledger, rfl⟩ := pay_frame hpay
      exact hmanager
    balances := fun account asset => by
      have hattached := balance_pay hpay account asset
      have htook := hbalances account asset
      have hgas := balance_pays hpays account asset
      have htotal := share_splits hsplits world.itsAddress account asset
      simp only [nested, Environment.context] at hattached htook hgas htotal
      omega
    trace := ⟨actions, by
      rw [htaken.its, hpaid.its]
      rfl⟩
    trusted := htrusted
    notHub := hnotHub
    addressed := haddressed
    positive := hpositive
    announced := hannounces }⟩

/-- Every transfer that completes conserves what was attached and says what it
took; a payment that does not split moves nothing. -/
theorem transfersOut {env : Environment} {world : World} {caller : Address}
    {payment : EgldOrMultiEsdtPayment} {tokenId : TokenId}
    {destinationChain destinationAddress data : ManagedBuffer} {gasValue : ℕ} {input : Input}
    (hinput : input = ⟨env, .its caller payment (.interchainTransfer tokenId destinationChain
      destinationAddress data gasValue)⟩) :
    (∀ next trace, (machine crypto).step world input = .ok (next, trace) →
      ∃ tokens address manager payload, SentOut crypto env world caller payment tokenId
        destinationChain destinationAddress data gasValue next trace tokens address manager
        payload) ∧
    ((¬ ∃ tokens, Splits gasValue payment tokens) →
      ∃ message, (machine crypto).step world input = .error message) := by
  subst hinput
  refine ⟨fun _ _ hstep => interchainTransfer_sentOut hstep, fun hmisfit => ?_⟩
  cases hstep : (machine crypto).step world ⟨env, .its caller payment (.interchainTransfer tokenId
    destinationChain destinationAddress data gasValue)⟩ with
  | ok result =>
    obtain ⟨tokens, _, _, _, hsent⟩ := interchainTransfer_sentOut hstep
    exact absurd ⟨tokens, hsent.splits⟩ hmisfit
  | error message => exact ⟨message, rfl⟩

/-! ## A transfer of EGLD -/

def sampleCanonicalSalt : Hash := NestedCodec.writeNat 32
  0xe5c36624a6ed578e399622b44e6aaa1d6405f95aed891cb92c971630684d5f43

def sampleCanonicalId : TokenId := NestedCodec.writeNat 32
  0x764324ca564aa350b7f055cb5fdc566a29e546f6df0db1fb2f916830b7c26135

/-- What the hub is told when the user sends 4 of EGLD to `d` on chain `c`. -/
def sampleSendToHub : Outcome ManagedBuffer := do
  let inner ← abiEncode (⟨.ofByte 0, sampleCanonicalId, .ofFixed sampleUser,
    sampleBuffer (Bytes.ascii ['d']), .ofByte 4, .new⟩ : InterchainTransferPayload)
  abiEncode (⟨.ofByte 3, sampleBuffer (Bytes.ascii ['c']), inner⟩ : SendToHubPayload)

def sampleTransferCrypto : Crypto :=
  .tabulated (sampleHashes ++
    [(((sampleHashes.map Prod.snd)[2]?.getD zeroHash).1 ++
        ((sampleHashes.map Prod.snd)[0]?.getD zeroHash).1 ++ EgldOrEsdtTokenIdentifier.egldName,
      sampleCanonicalSalt),
    (((sampleHashes.map Prod.snd)[1]?.getD zeroHash).1 ++ sampleCanonicalSalt.1,
      sampleCanonicalId),
    ((sampleSendToHub.toOption.getD .new).1, NestedCodec.writeNat 32
      0xa98c8872842c51919b044d8f8658996d18e3c83e6af4ddcdd756747aa98bbada)]) []

def sampleRegister : Input :=
  ⟨sampleEnvironment, .its sampleUser (.egld 0) (.registerCanonicalInterchainToken .egld)⟩

/-- The user sends 5 of EGLD, of which 1 is for gas. -/
def sampleTransfer : Input :=
  ⟨sampleEnvironment, .its sampleUser (.egld 5) (.interchainTransfer sampleCanonicalId
    (sampleBuffer (Bytes.ascii ['c'])) (sampleBuffer (Bytes.ascii ['d'])) .new 1)⟩

theorem sampleTransfer_steps : (do
    let start ← sampleWorld sampleTransferCrypto
    let (world, _) ← (machine sampleTransferCrypto).step start sampleRegister
    let (next, _) ← (machine sampleTransferCrypto).step world sampleTransfer
    return (next.ledger.balance sampleItsAddress .egld,
      next.ledger.balance (sampleAddress 6) .egld,
      next.ledger.balance (sampleAddress 4) .egld)) = .ok (0, 4, 1) := by
  decide +kernel

theorem sample_transfersOut : ∃ world next trace tokens address manager payload,
    (machine sampleTransferCrypto).step world sampleTransfer = .ok (next, trace) ∧
    SentOut sampleTransferCrypto sampleEnvironment world sampleUser (.egld 5) sampleCanonicalId
      (sampleBuffer (Bytes.ascii ['c'])) (sampleBuffer (Bytes.ascii ['d'])) .new 1 next trace
      tokens address manager payload := by
  have hsteps := sampleTransfer_steps
  simp only [Outcome.bind_eq_ok, Prod.exists] at hsteps
  obtain ⟨_, _, world, _, _, next, trace, hstep, _⟩ := hsteps
  obtain ⟨tokens, address, manager, payload, hsent⟩ :=
    (transfersOut rfl).1 _ _ hstep
  exact ⟨world, next, trace, tokens, address, manager, payload, hstep, hsent⟩

end AxelarCgp.Its
