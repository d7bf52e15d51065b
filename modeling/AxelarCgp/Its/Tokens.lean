import AxelarCgp.Its.Effects
import AxelarCgp.TokenManager.Effects

/-!
# Tokens given and taken

What a call of a token manager does to the ledger when the service has it give
tokens away or take them in.
-/

namespace AxelarCgp.Its

open Transaction

variable {env : Environment} {ctx : CallContext} {world last : World} {trace : List Action}

theorem singlePayment_amounts (token : EgldOrEsdtTokenIdentifier) (amount : ℕ) :
    (singlePayment token amount).amounts = [(token.asset 0, amount)] := by
  cases token <;> rfl

theorem singlePayment_total (token : EgldOrEsdtTokenIdentifier) (amount : ℕ) (asset : Asset) :
    (singlePayment token amount).total asset =
      if token.asset 0 = asset then amount else 0 := by
  rw [EgldOrMultiEsdtPayment.total, singlePayment_amounts, Purse.total_cons, Purse.total_nil,
    Nat.add_zero]

/-- A call without a payment moves nothing. -/
theorem pay_none (hunpaid : ctx.callValue = .none) :
    pay ctx world = .ok ⟨(), world, []⟩ := by
  have hamounts : ctx.callValue.amounts = [(.egld, 0)] := by rw [hunpaid]; rfl
  rw [pay_eq_transfer hamounts, transfer_eq_ok]
  exact ⟨world.ledger, Ledger.transfer_zero .., rfl, rfl⟩

theorem localMint_eq_ok {holder : Address} {token : TokenIdentifier} {amount : ℕ} :
    localMint env holder token amount world = .ok ⟨(), last, trace⟩ ↔
      env.hasLocalRoles holder token ∧ trace = [] ∧
      last = { world with
        ledger := world.ledger.mint holder (EgldOrEsdtTokenIdentifier.asset (.esdt token) 0)
          amount } := by
  simp only [localMint, Transaction.bind_eq_ok, Outcome.exists_unit, lift_eq_ok,
    Outcome.require_eq_ok, modifies_eq_ok]
  constructor
  · rintro ⟨_, _, _, ⟨hroles, rfl, rfl⟩, ⟨rfl, rfl⟩, rfl⟩
    exact ⟨hroles, rfl, rfl⟩
  · rintro ⟨hroles, rfl, rfl⟩
    exact ⟨_, _, _, ⟨hroles, rfl, rfl⟩, ⟨rfl, rfl⟩, rfl⟩

theorem localBurn_eq_ok {holder : Address} {token : TokenIdentifier} {amount : ℕ} :
    localBurn env holder token amount world = .ok ⟨(), last, trace⟩ ↔
      env.hasLocalRoles holder token ∧ trace = [] ∧
      ∃ ledger, world.ledger.burn holder (EgldOrEsdtTokenIdentifier.asset (.esdt token) 0)
        amount = .ok ledger ∧ last = { world with ledger } := by
  simp only [localBurn, Transaction.bind_eq_ok, Outcome.exists_unit, lift_eq_ok, reads_eq_ok,
    Outcome.require_eq_ok, modifies_eq_ok]
  constructor
  · rintro ⟨_, _, _, ⟨hroles, rfl, rfl⟩, ⟨_, _, _, _, ⟨rfl, rfl, rfl⟩, ⟨ledger, _, _, _,
      ⟨hburn, rfl, rfl⟩, ⟨rfl, rfl⟩, rfl⟩, rfl⟩, rfl⟩
    exact ⟨hroles, rfl, ledger, hburn, rfl⟩
  · rintro ⟨hroles, rfl, ledger, hburn, rfl⟩
    exact ⟨_, _, _, ⟨hroles, rfl, rfl⟩, ⟨_, _, _, _, ⟨rfl, rfl, rfl⟩, ⟨ledger, _, _, _,
      ⟨hburn, rfl, rfl⟩, ⟨rfl, rfl⟩, rfl⟩, rfl⟩, rfl⟩

/-- The ledger from which a manager gives: one that mints has minted. -/
inductive Provides (env : Environment) (address : Address) (token : EgldOrEsdtTokenIdentifier)
    (amount : ℕ) (ledger : Ledger Address Asset) :
    TokenManagerType → Ledger Address Asset → Prop
  | unlock {managerType : TokenManagerType} : managerType.mints = false →
      Provides env address token amount ledger managerType ledger
  | mint {managerType : TokenManagerType} {identifier : TokenIdentifier} :
      managerType.mints = true → token = .esdt identifier →
      env.hasLocalRoles address identifier →
      Provides env address token amount ledger managerType
        (ledger.mint address (token.asset 0) amount)

/-- The ledger once a manager has taken what it was paid: one that mints burns it. -/
inductive Absorbs (env : Environment) (address : Address) (token : EgldOrEsdtTokenIdentifier)
    (amount : ℕ) (ledger : Ledger Address Asset) :
    TokenManagerType → Ledger Address Asset → Prop
  | lock {managerType : TokenManagerType} : managerType.mints = false →
      Absorbs env address token amount ledger managerType ledger
  | burn {managerType : TokenManagerType} {identifier : TokenIdentifier}
      {burnt : Ledger Address Asset} : managerType.mints = true → token = .esdt identifier →
      env.hasLocalRoles address identifier →
      ledger.burn address (token.asset 0) amount = .ok burnt →
      Absorbs env address token amount ledger managerType burnt

/-- A manager gives exactly what it is told to, to whom it is told. -/
theorem callManager_giveToken {receiver : Address} {amount : ℕ} {reply : TokenManager.Reply}
    (hunpaid : ctx.callValue = .none)
    (h : callManager env ctx (.giveToken receiver amount) world = .ok ⟨reply, last, trace⟩) :
    ∃ state next provided ledger actions,
      world.managers ctx.scAddress = some state ∧
      ctx.caller = state.interchainTokenService ∧ state.SameBooks next ∧
      reply = .given state.tokenIdentifierGet amount ∧
      Provides env ctx.scAddress state.tokenIdentifierGet amount world.ledger
        state.implementationType provided ∧
      provided.transfer ctx.scAddress receiver (state.tokenIdentifierGet.asset 0) amount =
        .ok ledger ∧
      last = { world.setManager ctx.scAddress next with ledger } ∧
      trace = [.manager ctx (.giveToken receiver amount) reply actions] := by
  obtain ⟨paid, actions, hpay, hrun, htrace⟩ := callManager_eq_ok.mp h
  rw [pay_none hunpaid, Except.ok.injEq, Completed.mk.injEq] at hpay
  obtain ⟨_, rfl, _⟩ := hpay
  obtain ⟨state, next, hmanager, hcode, hactions⟩ := runManager_eq_ok.mp hrun
  obtain ⟨hservice, hreply, hflows, hgives⟩ := TokenManager.giveToken_eq_ok hcode
  have hbooks := hflows.sameBooks
  generalize htype : state.implementationType = managerType at hgives
  cases hgives with
  | unlock hunlock =>
    simp only [forEach, managerAction, Transaction.bind_eq_ok, Outcome.exists_unit,
      transfer_eq_ok, Transaction.pure_eq_ok] at hactions
    obtain ⟨_, _, _, ⟨ledger, htransfer, rfl, _⟩, ⟨_, rfl, _⟩, _⟩ := hactions
    exact ⟨state, next, world.ledger, ledger, _, hmanager, hservice, hbooks, hreply,
      htype ▸ .unlock hunlock, htransfer, rfl, htrace⟩
  | mint hmints htoken =>
    simp only [forEach, managerAction, Transaction.bind_eq_ok, Outcome.exists_unit,
      localMint_eq_ok, transfer_eq_ok, Transaction.pure_eq_ok] at hactions
    obtain ⟨_, _, _, ⟨hroles, _, rfl⟩, ⟨_, _, _, ⟨ledger, htransfer, rfl, _⟩, ⟨_, rfl, _⟩, _⟩, _⟩ :=
      hactions
    rw [← htoken] at htransfer
    exact ⟨state, next, _, ledger, _, hmanager, hservice, hbooks, hreply,
      htype ▸ .mint hmints htoken hroles, htransfer, rfl, htrace⟩

/-- A receiver other than the manager gains what was given. -/
theorem giveToken_gains {receiver : Address} {amount given : ℕ}
    {token : EgldOrEsdtTokenIdentifier} (hunpaid : ctx.callValue = .none)
    (h : callManager env ctx (.giveToken receiver amount) world =
      .ok ⟨.given token given, last, trace⟩)
    (hreceiver : receiver ≠ ctx.scAddress) (asset : Asset) :
    world.ledger.balance receiver asset + (singlePayment token given).total asset ≤
      last.ledger.balance receiver asset := by
  obtain ⟨state, next, provided, ledger, _, _, _, _, hreply, hprovides, htransfer, rfl, _⟩ :=
    callManager_giveToken hunpaid h
  obtain ⟨rfl, rfl⟩ := TokenManager.Reply.given.inj hreply
  have hprovided : world.ledger.balance receiver asset ≤ provided.balance receiver asset := by
    cases hprovides with
    | unlock => exact le_rfl
    | mint => exact Nat.le_add_right _ _
  obtain ⟨_, hbalance, _⟩ := Ledger.transfer_eq_ok htransfer
  have hafter := hbalance receiver asset
  rw [Ledger.single_of_account_ne hreceiver, Nat.sub_zero] at hafter
  rw [singlePayment_total]
  change _ ≤ ledger.balance receiver asset
  by_cases hasset : state.tokenIdentifierGet.asset 0 = asset
  · subst hasset
    rw [Ledger.single_self] at hafter
    rw [if_pos rfl]
    omega
  · rw [if_neg hasset]
    omega

/-- A payment of one token is read as that token and amount. -/
theorem egldOrSingleFungibleEsdt_singlePayment (token : EgldOrEsdtTokenIdentifier)
    (amount : ℕ) :
    TokenManager.egldOrSingleFungibleEsdt (singlePayment token amount) = .ok (token, amount) := by
  cases token <;> rfl

/-- A manager takes exactly what it is paid, of its own token. -/
theorem callManager_takeToken {token : EgldOrEsdtTokenIdentifier} {amount : ℕ}
    {reply : TokenManager.Reply} (hpayment : ctx.callValue = singlePayment token amount)
    (h : callManager env ctx .takeToken world = .ok ⟨reply, last, trace⟩) :
    ∃ state next received ledger actions,
      world.managers ctx.scAddress = some state ∧
      ctx.caller = state.interchainTokenService ∧ state.SameBooks next ∧
      token = state.tokenIdentifierGet ∧ reply = .taken amount ∧
      world.ledger.transfer ctx.caller ctx.scAddress (token.asset 0) amount = .ok received ∧
      Absorbs env ctx.scAddress token amount received state.implementationType ledger ∧
      last = { world.setManager ctx.scAddress next with ledger } ∧
      trace = [.manager ctx .takeToken reply actions] := by
  obtain ⟨paid, actions, hpay, hrun, htrace⟩ := callManager_eq_ok.mp h
  have hamounts : ctx.callValue.amounts = [(token.asset 0, amount)] := by
    rw [hpayment, singlePayment_amounts]
  rw [pay_eq_transfer hamounts, transfer_eq_ok] at hpay
  obtain ⟨received, hreceived, rfl, _⟩ := hpay
  obtain ⟨state, next, hmanager, hcode, hactions⟩ := runManager_eq_ok.mp hrun
  obtain ⟨hservice, taken, hread, hreply, hflows, htakes⟩ := TokenManager.takeToken_eq_ok hcode
  have hbooks := hflows.sameBooks
  rw [hpayment, egldOrSingleFungibleEsdt_singlePayment, Except.ok.injEq, Prod.mk.injEq] at hread
  obtain ⟨htoken, rfl⟩ := hread
  rw [← htoken] at htakes
  generalize htype : state.implementationType = managerType at htakes
  cases htakes with
  | lock hlocks =>
    simp only [forEach, Transaction.pure_eq_ok] at hactions
    obtain ⟨_, rfl, _⟩ := hactions
    exact ⟨state, next, received, received, _, hmanager, hservice, hbooks, htoken, hreply,
      hreceived,
      htype ▸ .lock hlocks, rfl, htrace⟩
  | burn hmints hesdt =>
    simp only [forEach, managerAction, Transaction.bind_eq_ok, Outcome.exists_unit,
      localBurn_eq_ok, Transaction.pure_eq_ok] at hactions
    obtain ⟨_, _, _, ⟨hroles, _, ledger, hburn, rfl⟩, ⟨_, rfl, _⟩, _⟩ := hactions
    rw [← hesdt] at hburn
    exact ⟨state, next, received, ledger, _, hmanager, hservice, hbooks, htoken, hreply,
      hreceived,
      htype ▸ .burn hmints hesdt hroles hburn, rfl, htrace⟩

theorem deployedTokenManager_eq_ok {tokenId : TokenId} {address : Address} :
    deployedTokenManager tokenId world = .ok ⟨address, last, trace⟩ ↔
      world.its.tokenManagerAddress tokenId = some address ∧ last = world ∧ trace = [] := by
  simp only [deployedTokenManager, Transaction.bind_eq_ok, reads_eq_ok, lift_eq_ok,
    Outcome.orFail_eq_ok]
  constructor
  · rintro ⟨_, _, _, _, ⟨rfl, rfl, rfl⟩, ⟨haddress, rfl, rfl⟩, rfl⟩
    exact ⟨haddress, rfl, rfl⟩
  · rintro ⟨haddress, rfl, rfl⟩
    exact ⟨_, _, _, _, ⟨rfl, rfl, rfl⟩, ⟨haddress, rfl, rfl⟩, rfl⟩

theorem tokenManagerGiveToken_eq_ok {tokenId : TokenId} {receiver : Address} {amount given : ℕ}
    {token : EgldOrEsdtTokenIdentifier} :
    tokenManagerGiveToken env ctx tokenId receiver amount world =
        .ok ⟨(token, given), last, trace⟩ ↔
      ∃ address, world.its.tokenManagerAddress tokenId = some address ∧
        callManager env (nested env ctx address .none) (.giveToken receiver amount) world =
          .ok ⟨.given token given, last, trace⟩ := by
  simp only [tokenManagerGiveToken, Transaction.bind_eq_ok, deployedTokenManager_eq_ok]
  constructor
  · rintro ⟨address, _, _, _, ⟨haddress, rfl, rfl⟩, ⟨reply, _, _, _, hcall, h, rfl⟩, rfl⟩
    cases reply with
    | given token given =>
      obtain ⟨hvalue, rfl, rfl⟩ := Transaction.pure_eq_ok.mp h
      obtain ⟨rfl, rfl⟩ := Prod.mk.inj hvalue
      exact ⟨address, haddress, by simpa using hcall⟩
    | nothing => exact absurd (lift_eq_ok.mp h).1 (by simp)
    | taken amount => exact absurd (lift_eq_ok.mp h).1 (by simp)
  · rintro ⟨address, haddress, hcall⟩
    exact ⟨address, _, _, _, ⟨haddress, rfl, rfl⟩, ⟨_, _, _, _, hcall,
      Transaction.pure_eq_ok.mpr ⟨rfl, rfl, rfl⟩, rfl⟩, by simp⟩

theorem tokenManagerTakeToken_eq_ok {tokenId : TokenId} {token : EgldOrEsdtTokenIdentifier}
    {amount : ℕ} :
    tokenManagerTakeToken env ctx tokenId token amount world = .ok ⟨(), last, trace⟩ ↔
      ∃ address reply, world.its.tokenManagerAddress tokenId = some address ∧
        callManager env (nested env ctx address (singlePayment token amount)) .takeToken world =
          .ok ⟨reply, last, trace⟩ := by
  simp only [tokenManagerTakeToken, Transaction.bind_eq_ok, deployedTokenManager_eq_ok,
    Transaction.pure_eq_ok]
  constructor
  · rintro ⟨address, _, _, _, ⟨haddress, rfl, rfl⟩, ⟨reply, _, _, _, hcall, ⟨_, rfl, rfl⟩, rfl⟩,
      rfl⟩
    exact ⟨address, reply, haddress, by simpa using hcall⟩
  · rintro ⟨address, reply, haddress, hcall⟩
    exact ⟨address, _, _, _, ⟨haddress, rfl, rfl⟩, ⟨reply, _, _, _, hcall, ⟨trivial, rfl, rfl⟩,
      rfl⟩, by simp⟩

/-- The payload of an inbound transfer, and whom it is for. -/
structure ReadsTransfer (payload : ManagedBuffer) (transfer : InterchainTransferPayload)
    (receiver : Address) : Prop where
  decoded : abiDecode payload = .ok transfer
  addressed : toAddress transfer.destinationAddress = .ok receiver

/-- What the service announces of an inbound transfer. -/
def receivedEvent (crypto : Crypto) (originalSourceChain messageId : ManagedBuffer)
    (transfer : InterchainTransferPayload) (receiver : Address) : Event :=
  .interchainTransferReceived transfer.tokenId originalSourceChain messageId
    transfer.sourceAddress receiver (hashOfData crypto transfer.data) transfer.amount

/-- An inbound transfer goes to its receiver, or, with data, to the service and on
to the receiver. -/
theorem processInterchainTransferPayload_eq_ok {crypto : Crypto}
    {originalSourceChain messageId payload : ManagedBuffer}
    (h : processInterchainTransferPayload crypto env ctx originalSourceChain messageId payload
      world = .ok ⟨(), last, trace⟩) :
    ∃ transfer receiver address, ReadsTransfer payload transfer receiver ∧
      world.its.tokenManagerAddress transfer.tokenId = some address ∧
      ((transfer.data.isEmpty = true ∧ ∃ token given rest,
          callManager env (nested env ctx address .none)
            (.giveToken receiver transfer.amount.1) world =
              .ok ⟨.given token given, last, rest⟩ ∧
          trace = .event (receivedEvent crypto originalSourceChain messageId transfer receiver) ::
            rest) ∨
        (transfer.data.isEmpty = false ∧ ∃ token given middle rest,
          callManager env (nested env ctx address .none)
            (.giveToken ctx.scAddress transfer.amount.1) world =
              .ok ⟨.given token given, middle, rest⟩ ∧
          executableContractExecuteWithInterchainToken env ctx receiver originalSourceChain
            messageId transfer.sourceAddress transfer.data transfer.tokenId token given middle =
              .ok ⟨(), last, [.executeWithInterchainToken receiver originalSourceChain messageId
                transfer.sourceAddress transfer.data transfer.tokenId token given]⟩ ∧
          trace = .event (receivedEvent crypto originalSourceChain messageId transfer receiver) ::
            rest ++ [.executeWithInterchainToken receiver originalSourceChain messageId
              transfer.sourceAddress transfer.data transfer.tokenId token given])) := by
  simp only [processInterchainTransferPayload, emits, Transaction.bind_eq_ok,
    Outcome.exists_unit, lift_eq_ok, performs_eq_ok] at h
  obtain ⟨transfer, _, _, _, ⟨hdecoded, rfl, rfl⟩, ⟨receiver, _, _, _, ⟨haddressed, rfl, rfl⟩,
    ⟨_, _, _, ⟨rfl, rfl⟩, h, rfl⟩, rfl⟩, rfl⟩ := h
  have hreads : ReadsTransfer payload transfer receiver := ⟨hdecoded, haddressed⟩
  split at h
  · rename_i hempty
    simp only [Transaction.bind_eq_ok, Prod.exists, tokenManagerGiveToken_eq_ok,
      Transaction.pure_eq_ok] at h
    obtain ⟨token, given, _, _, _, ⟨address, haddress, hcall⟩, ⟨_, rfl, rfl⟩, rfl⟩ := h
    exact ⟨transfer, receiver, address, hreads, haddress,
      .inl ⟨hempty, token, given, _, hcall, by simp [receivedEvent]⟩⟩
  · rename_i hdata
    simp only [Transaction.bind_eq_ok, Prod.exists, tokenManagerGiveToken_eq_ok] at h
    obtain ⟨token, given, middle, rest, _, ⟨address, haddress, hcall⟩, hexecute, rfl⟩ := h
    obtain ⟨_, _, rfl⟩ := executeWithInterchainToken_eq_ok.mp hexecute
    exact ⟨transfer, receiver, address, hreads, haddress, .inr ⟨by simpa using hdata, token,
      given, middle, rest, hcall, hexecute, by simp [receivedEvent]⟩⟩

end AxelarCgp.Its
