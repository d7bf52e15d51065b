import AxelarCgp.Its.Reserves

/-!
# What backs the tokens that are sent

Every transaction adds to a reserve what it tells the hub of, and takes from it what it makes
the manager give, and nothing else.
-/

namespace AxelarCgp.Its

open Transaction

namespace Reserve

variable {reserve : Reserve}

/-! ## Backing -/

/-- What the hub was told of has been taken before, and only what was given has gone. -/
def Backs (reserve : Reserve) (before : World) (trace : List Action) (after : World) : Prop :=
  reserve.Stands before → reserve.Stands after ∧
    reserve.value before.ledger + reserve.sent trace ≤
      reserve.value after.ledger + reserve.given trace

theorem composes_backs : Composes fun _ : ℕ => reserve.Backs where
  nil _ hstands := ⟨hstands, by simp [sent, given, emissions, gifts]⟩
  append first second hstands := by
    obtain ⟨hmiddle, hfirst⟩ := first hstands
    obtain ⟨hafter, hsecond⟩ := second hmiddle
    refine ⟨hafter, ?_⟩
    rw [sent_append, given_append]
    push_cast
    omega
  mono _ h := h

section Backing

variable {crypto : Crypto} {env : Environment} {ctx : CallContext} {before after : World}
variable {trace : List Action}

theorem Backs.trans {middle : World} {first second : List Action}
    (hfirst : reserve.Backs before first middle) (hsecond : reserve.Backs middle second after) :
    reserve.Backs before (first ++ second) after :=
  composes_backs.append (m := 0) (n := 0) hfirst hsecond

theorem Stands.of_frame (h : reserve.Stands before) (hself : after.itsAddress = before.itsAddress)
    (hregistry : after.its.tokenManagerAddress = before.its.tokenManagerAddress)
    (hmanagers : after.managers = before.managers) : reserve.Stands after where
  itsAddress := hself.trans h.itsAddress
  registered := by rw [hregistry, h.registered]
  managed := by
    rw [hmanagers]
    exact h.managed
  apart := by rw [hmanagers, h.apart]
  distinct := h.distinct
  present := h.present

/-- What tells the hub of nothing and does not lessen the reserve. -/
theorem Backs.of_gains (hstands : reserve.Stands before → reserve.Stands after)
    (hgains : reserve.Gains before trace after) (hsent : reserve.sent trace = 0) :
    reserve.Backs before trace after := by
  intro h
  refine ⟨hstands h, ?_⟩
  rw [hsent]
  have hvalue : reserve.value before.ledger ≤ reserve.value after.ledger := hgains
  omega

/-- Only the books of the service and what is in flight may have changed. -/
theorem backs_of_unchanged (hself : after.itsAddress = before.itsAddress)
    (hregistry : after.its.tokenManagerAddress = before.its.tokenManagerAddress)
    (hmanagers : after.managers = before.managers) (hledger : after.ledger = before.ledger)
    (hsent : reserve.sent trace = 0) : reserve.Backs before trace after := by
  apply Backs.of_gains (fun h => h.of_frame hself hregistry hmanagers) _ hsent
  rw [Gains, hledger]

theorem sent_note {action : Action} (hnote : action.isNote) : reserve.sent [action] = 0 := by
  cases action with
  | gateway => simp [Action.isNote] at hnote
  | _ => simp [sent, emissions]

theorem backs_transfer {sender : Address} (hsender : sender ≠ reserve.manager)
    (receiver : Address) (asset : Asset) (amount : ℕ) :
    Satisfies reserve.Backs (transfer sender receiver asset amount) := by
  intro before value after trace h
  have hgains := gains_transfer hsender _ _ _ _ _ _ _ h
  obtain ⟨ledger, _, rfl, rfl⟩ := transfer_eq_ok.mp h
  exact .of_gains (fun h => h.of_frame rfl rfl rfl) hgains rfl

theorem backs_pay (hcaller : ctx.caller ≠ reserve.manager) :
    Satisfies reserve.Backs (pay ctx) :=
  .forEach composes_backs (fun _ => backs_transfer hcaller _ _ _) _

theorem backs_pays {sender receiver : Address} {amount : ℕ} (hsender : sender ≠ reserve.manager)
    (h : Pays sender receiver amount before after) : reserve.Backs before [] after := by
  unfold Pays at h
  split at h
  · exact backs_transfer hsender _ _ _ _ _ _ _ h
  · rw [h]
    exact composes_backs.nil before

/-! ### Calls of managers -/

theorem Stands.managerCall {call : TokenManager.Call} {reply : TokenManager.Reply}
    (h : reserve.Stands before) (hcaller : ctx.caller.isZero = false)
    (hok : callManager env ctx call before = .ok ⟨reply, after, trace⟩) :
    reserve.Stands after := by
  obtain ⟨state, next, actions, ledger, pending, hstate, hcode, rfl, _⟩ := callManager_manager hok
  exact h.setManager hstate fun hadmits => hadmits.perform hcaller hcode

theorem gains_callManager {call : TokenManager.Call} {reply : TokenManager.Reply}
    (hsole : reserve.Sole env) (h : reserve.Stands before)
    (hcaller : ctx.caller ≠ reserve.manager) (hpresent : ctx.caller.isZero = false)
    (hother : ctx.caller = reserve.service → ctx.scAddress = reserve.manager →
      (∀ receiver amount, call ≠ .giveToken receiver amount) ∧ call ≠ .takeToken)
    (hok : callManager env ctx call before = .ok ⟨reply, after, trace⟩) :
    reserve.Gains before trace after := by
  obtain ⟨paid, actions, hpay, hrun, rfl⟩ := callManager_eq_ok.mp hok
  have hpaid := gains_pay hcaller _ _ _ _ hpay
  obtain ⟨ledger, rfl⟩ := pay_frame hpay
  obtain ⟨state, next, hstate, hcode, hactions⟩ := runManager_eq_ok.mp hrun
  have hcarried : Satisfies reserve.Gains
      (forEach (managerAction env ctx.scAddress) actions) := by
    by_cases hself : ctx.scAddress = reserve.manager
    · obtain ⟨other, hmanager, hadmits⟩ := h.managed
      obtain rfl := Option.some.inj (hmanager.symm.trans (hself ▸ hstate))
      apply gains_quiet
      apply TokenManager.perform_quiet hcode _ hpresent hadmits.minterless
      · intro hservice
        exact hother (hservice.trans hadmits.service) hself
      · rw [hadmits.token]
        rfl
    · exact .forEach composes_gains (gains_managerAction hsole hself) actions
  have hafter : reserve.Gains _ [] after := hcarried _ _ _ _ hactions
  exact le_trans hpaid hafter

/-- A call neither gives nor takes for the service lessens the reserve. -/
theorem backs_callManager {call : TokenManager.Call} (hsole : reserve.Sole env)
    (hcaller : ctx.caller ≠ reserve.manager) (hpresent : ctx.caller.isZero = false)
    (hother : ctx.caller = reserve.service → ctx.scAddress = reserve.manager →
      (∀ receiver amount, call ≠ .giveToken receiver amount) ∧ call ≠ .takeToken) :
    Satisfies reserve.Backs (callManager env ctx call) := by
  intro before reply after trace h hstands
  have hgains := gains_callManager hsole hstands hcaller hpresent hother h
  obtain ⟨_, actions, rfl⟩ := callManager_movesTokens h
  exact Backs.of_gains (fun _ => hstands.managerCall hpresent h) hgains rfl hstands

theorem part_le (account : Address) (asset : Asset) (amount : ℕ) :
    reserve.part account asset amount ≤ amount := by
  unfold part
  split
  · exact Int.natCast_nonneg amount
  · exact_mod_cast Ledger.single_le account reserve.manager asset reserve.asset amount

/-- A manager that mints does not live on what it has. -/
theorem part_of_mints (hmints : reserve.mints = true) (account : Address) (asset : Asset)
    (amount : ℕ) : reserve.part account asset amount = 0 :=
  if_pos hmints

theorem value_of_mints (hmints : reserve.mints = true) (ledger : Ledger Address Asset) :
    reserve.value ledger = -(ledger.supply reserve.asset : ℤ) :=
  if_pos hmints

/-- The manager gives what the service makes it give. -/
theorem backs_giveToken (hunpaid : ctx.callValue = .none) (hcaller : ctx.caller = reserve.service)
    (hself : ctx.scAddress = reserve.manager) (receiver : Address) (amount : ℕ) :
    Satisfies reserve.Backs (callManager env ctx (.giveToken receiver amount)) := by
  intro before reply after trace h hstands
  have hpresent : ctx.caller.isZero = false := hcaller ▸ hstands.present
  refine ⟨hstands.managerCall hpresent h, ?_⟩
  obtain ⟨state, next, provided, ledger, actions, hstate, _, _, _, hprovides, hledger, rfl, rfl⟩ :=
    callManager_giveToken hunpaid h
  obtain ⟨other, hmanager, hadmits⟩ := hstands.managed
  obtain rfl := Option.some.inj (hmanager.symm.trans (hself ▸ hstate))
  have hgiven : reserve.given [.manager ctx (.giveToken receiver amount) reply actions] =
      amount := by
    simp [given, gifts, hcaller, hself]
  have hsent : reserve.sent [.manager ctx (.giveToken receiver amount) reply actions] = 0 := rfl
  have htransfer : reserve.value ledger + _ = reserve.value provided + _ :=
    value_transfer hledger
  rw [hgiven, hsent]
  have htype := hadmits.mints
  change reserve.value before.ledger + (0 : ℕ) ≤ reserve.value ledger + amount
  generalize other.implementationType = managerType at hprovides htype
  cases hprovides with
  | unlock hunlock =>
    have hspent : reserve.part ctx.scAddress (other.tokenIdentifierGet.asset 0) amount ≤ amount :=
      part_le ..
    have hkept : 0 ≤ reserve.part receiver (other.tokenIdentifierGet.asset 0) amount :=
      part_nonneg ..
    omega
  | mint hmints _ _ =>
    rw [htype] at hmints
    rw [part_of_mints hmints, part_of_mints hmints] at htransfer
    simp only [value_of_mints hmints, Ledger.supply_mint] at htransfer ⊢
    split at htransfer <;> omega

/-- What the manager takes for the service is in the reserve. -/
theorem Stands.managerTakes {token : EgldOrEsdtTokenIdentifier} {amount : ℕ}
    {reply : TokenManager.Reply} (h : reserve.Stands before)
    (hcaller : ctx.caller = reserve.service) (hself : ctx.scAddress = reserve.manager)
    (hpayment : ctx.callValue = singlePayment token amount)
    (hok : callManager env ctx .takeToken before = .ok ⟨reply, after, trace⟩) :
    reserve.Stands after ∧ reserve.value before.ledger + amount ≤ reserve.value after.ledger := by
  have hpresent : ctx.caller.isZero = false := hcaller ▸ h.present
  refine ⟨h.managerCall hpresent hok, ?_⟩
  obtain ⟨state, next, received, ledger, actions, hstate, _, _, htoken, _, hreceived, habsorbs,
    rfl, _⟩ := callManager_takeToken hpayment hok
  obtain ⟨other, hmanager, hadmits⟩ := h.managed
  obtain rfl := Option.some.inj (hmanager.symm.trans (hself ▸ hstate))
  rw [hadmits.tokenIdentifierGet] at htoken
  subst htoken
  have htype := hadmits.mints
  have htransfer : reserve.value received + _ = reserve.value before.ledger + _ :=
    value_transfer hreceived
  have hother : ctx.caller ≠ reserve.manager := by
    rw [hcaller]
    exact h.manager_ne_service.symm
  rw [part_of_ne hother, hself] at htransfer
  rw [hself] at habsorbs
  change reserve.value before.ledger + amount ≤ reserve.value ledger
  generalize other.implementationType = managerType at habsorbs htype
  cases habsorbs with
  | lock hlocks =>
    rw [htype] at hlocks
    have hpart : reserve.part reserve.manager (reserve.token.asset 0) amount = amount := by
      simp [part, hlocks, Ledger.single, asset]
    omega
  | burn hmints _ _ hburn =>
    rw [htype] at hmints
    obtain ⟨henough, _, hsupply⟩ := Ledger.burn_eq_ok hburn
    have hasset : reserve.asset = reserve.token.asset 0 := rfl
    have hburnt := hsupply reserve.asset
    have hcovered := henough.trans (received.balance_le_supply _ _)
    rw [if_pos hasset] at hburnt
    rw [← hasset] at hcovered
    rw [part_of_mints hmints] at htransfer
    simp only [value_of_mints hmints] at htransfer ⊢
    omega

/-- Whichever manager takes what is sent, the reserve has what is sent of its token. -/
theorem Stands.takes {tokenId : TokenId} {address : Address}
    {token : EgldOrEsdtTokenIdentifier} {amount : ℕ} {reply : TokenManager.Reply}
    (h : reserve.Stands before) (hsole : reserve.Sole env) (hself : ctx.scAddress = reserve.service)
    (haddress : before.its.tokenManagerAddress tokenId = some address)
    (htake : callManager env (nested env ctx address (singlePayment token amount)) .takeToken
      before = .ok ⟨reply, after, trace⟩) :
    reserve.Stands after ∧
      reserve.value before.ledger + (if tokenId = reserve.tokenId then amount else 0 : ℕ) ≤
        reserve.value after.ledger := by
  by_cases hmanager : address = reserve.manager
  · obtain ⟨hafter, hvalue⟩ := h.managerTakes hself hmanager rfl htake
    refine ⟨hafter, ?_⟩
    split <;> omega
  · have hother : ctx.scAddress ≠ reserve.manager := hself ▸ h.manager_ne_service.symm
    have hpresent : ctx.scAddress.isZero = false := hself ▸ h.present
    have htoken : tokenId ≠ reserve.tokenId := by
      rintro rfl
      rw [h.registered] at haddress
      exact hmanager (Option.some.inj haddress).symm
    rw [if_neg htoken]
    have hgains : reserve.value before.ledger ≤ reserve.value after.ledger :=
      gains_callManager hsole h hother hpresent (fun _ hsame => absurd hsame hmanager) htake
    exact ⟨h.managerCall hpresent htake, by omega⟩

/-! ### What the service does -/

theorem sent_hubTrace (its : State) (payload : ManagedBuffer) (gasValue : ℕ)
    (hself : ctx.scAddress = reserve.service) :
    reserve.sent (hubTrace crypto env ctx its payload gasValue) =
      ((wrappedTransfer reserve.tokenId payload).map transferredAmount).getD 0 := by
  rw [sent, ← hself, emissions_hubTrace]
  cases wrappedTransfer reserve.tokenId payload <;> simp

/-- A message to the hub is paid for by the service. -/
theorem backs_callContractItsHub (hself : ctx.scAddress = reserve.service)
    (hne : reserve.manager ≠ reserve.service) {payload : ManagedBuffer}
    (hcontrol : Control payload) (gasValue : ℕ) :
    Satisfies reserve.Backs (callContractItsHub crypto env ctx payload gasValue) := by
  intro before value after trace h hstands
  obtain ⟨hpays, rfl⟩ := callContractItsHub_eq_ok.mp h
  have hsender : ctx.scAddress ≠ reserve.manager := hself ▸ hne.symm
  obtain ⟨hafter, hvalue⟩ := backs_pays hsender hpays hstands
  refine ⟨hafter, ?_⟩
  rw [sent_hubTrace _ _ _ hself, hcontrol.wrappedTransfer]
  have hnone : reserve.sent [] = 0 := rfl
  have hnothing : reserve.given [] = 0 := rfl
  rw [hnone, hnothing] at hvalue
  simp only [Option.map_none, Option.getD_none]
  omega

theorem backs_deploy (tokenId : TokenId) (tokenManagerType : TokenManagerType)
    (tokenIdentifier : Option EgldOrEsdtTokenIdentifier) (operator : ManagedBuffer) :
    Satisfies reserve.Backs
      (deployTokenManagerRaw env ctx tokenId tokenManagerType tokenIdentifier operator) := by
  intro before address after trace h
  obtain ⟨state, _, _, hnone, hfree, _, _, _, rfl, rfl⟩ := deployTokenManagerRaw_eq_ok h
  refine Backs.of_gains (fun hstands => ?_) (le_refl (reserve.value before.ledger)) rfl
  obtain ⟨manager, hmanager, hadmits⟩ := hstands.managed
  have hother : reserve.manager ≠ address := (hstands.ne_of_external hfree).symm
  have hservice : reserve.service ≠ address := (hstands.ne_service hfree).symm
  have htoken : reserve.tokenId ≠ tokenId := by
    rintro rfl
    rw [hstands.registered] at hnone
    simp at hnone
  exact {
    itsAddress := hstands.itsAddress
    registered := (Function.update_of_ne htoken _ _).trans hstands.registered
    managed := ⟨manager, (Function.update_of_ne hother _ _).trans hmanager, hadmits⟩
    apart := (Function.update_of_ne hservice _ _).trans hstands.apart
    distinct := hstands.distinct
    present := hstands.present }

theorem backsRules (hsole : reserve.Sole env) (hself : ctx.scAddress = reserve.service)
    (hne : reserve.manager ≠ reserve.service) (hpresent : reserve.service.isZero = false) :
    EffectRules crypto env ctx AnyEffect fun _ => reserve.Backs where
  toComposes := composes_backs
  event event world := backs_of_unchanged rfl rfl rfl rfl (sent_note rfl)
  storage world its hkeeps :=
    backs_of_unchanged rfl hkeeps.toKeeps.tokenManagerAddress rfl rfl rfl
  roles world roles _ := backs_of_unchanged rfl rfl rfl rfl rfl
  status _ _ _ := .modifies fun world => backs_of_unchanged rfl rfl rfl rfl rfl
  approval _ _ _ := .modifies fun world => backs_of_unchanged rfl rfl rfl rfl rfl
  deploy _ _ _ _ _ := backs_deploy _ _ _ _
  command address value call hcommand _ := by
    apply backs_callManager hsole
    · change ctx.scAddress ≠ reserve.manager
      exact hself ▸ hne.symm
    · change ctx.scAddress.isZero = false
      exact hself ▸ hpresent
    · intro _ _
      cases call with
      | giveToken | takeToken => simp [TokenManager.Call.isCommand] at hcommand
      | _ => simp
  message payload gasValue hcontrol := backs_callContractItsHub hself hne hcontrol gasValue
  send receiver amount := by
    have hsender : ctx.scAddress ≠ reserve.manager := hself ▸ hne.symm
    exact .andThen (n := 0) composes_backs (backs_transfer hsender _ _ _) fun _ =>
      .performs fun world => backs_of_unchanged rfl rfl rfl rfl (sent_note rfl)

theorem backs_requestRule : RequestRule crypto ctx fun _ => reserve.Backs :=
  fun _ _ _ => backs_of_unchanged rfl rfl rfl rfl (sent_note rfl)

/-- A transfer is told of to the hub once the manager has taken it. -/
theorem backs_interchainTransfer (hsole : reserve.Sole env)
    (hself : ctx.scAddress = reserve.service) (tokenId : TokenId)
    (destinationChain destinationAddress data : ManagedBuffer) (gasValue : ℕ) :
    Satisfies reserve.Backs (interchainTransfer crypto env ctx tokenId destinationChain
      destinationAddress data gasValue) := by
  intro before value after trace h hstands
  simp only [interchainTransfer, requireNotPaused, Transaction.bind_eq_ok, Outcome.exists_unit,
    reads_eq_ok, lift_eq_ok, Outcome.require_eq_ok, tokenManagerTakeToken_eq_ok] at h
  obtain ⟨_, _, _, ⟨_, _, _, _, ⟨rfl, rfl, rfl⟩, ⟨_, rfl, rfl⟩, rfl⟩, ⟨tokens, _, _, _,
    ⟨_, rfl, rfl⟩, ⟨taken, _, _, ⟨address, reply, haddress, htake⟩, hsend, rfl⟩, rfl⟩, rfl⟩ := h
  obtain ⟨_, _, _, _, hpays, payload, hannounces, rfl⟩ := transmitInterchainTransferRaw_eq_ok hsend
  have hsender : ctx.scAddress ≠ reserve.manager := hself ▸ hstands.manager_ne_service.symm
  have hpresent : ctx.scAddress.isZero = false := hself ▸ hstands.present
  obtain ⟨hmiddle, htaken⟩ := hstands.takes hsole hself haddress htake
  obtain ⟨hafter, hpaid⟩ := backs_pays hsender hpays hmiddle
  obtain ⟨_, actions, rfl⟩ := callManager_movesTokens htake
  refine ⟨hafter, ?_⟩
  have hsent : reserve.sent (hubTrace crypto env ctx taken.its payload tokens.gasAmount ++ [.event
      (.interchainTransfer tokenId ctx.caller (hashOfData crypto data) destinationChain
        destinationAddress tokens.transferAmount)]) =
      if tokenId = reserve.tokenId then tokens.transferAmount else 0 := by
    rw [sent_append, sent_hubTrace _ _ _ hself, hannounces.wrappedTransfer, sent_note rfl,
      Nat.add_zero]
  have hnone : reserve.sent [] = 0 := rfl
  have hnothing : reserve.given [] = 0 := rfl
  have hcall : ∀ ctx reply actions, reserve.sent [.manager ctx .takeToken reply actions] = 0 :=
    fun _ _ _ => rfl
  rw [hnone, hnothing] at hpaid
  simp only [List.nil_append]
  rw [sent_append, hcall, hsent]
  omega

/-! ### Messages -/

theorem backs_callGateway {call : Gateway.Call}
    (hsent : ∀ reply, reserve.sent [.gateway ctx call reply] = 0) :
    Satisfies reserve.Backs (callGateway crypto ctx call) := by
  intro before reply after trace h
  obtain ⟨gateway, _, rfl, rfl⟩ := callGateway_eq_ok.mp h
  exact backs_of_unchanged rfl rfl rfl rfl (hsent reply)

theorem backs_give (hsole : reserve.Sole env) (hself : ctx.scAddress = reserve.service)
    (hne : reserve.manager ≠ reserve.service) (hpresent : reserve.service.isZero = false)
    (address receiver : Address) (amount : ℕ) :
    Satisfies reserve.Backs
      (callManager env (nested env ctx address .none) (.giveToken receiver amount)) := by
  by_cases hmanager : address = reserve.manager
  · exact backs_giveToken rfl hself hmanager receiver amount
  · apply backs_callManager hsole
    · exact fun hsame => hne (hsame.symm.trans hself)
    · exact (congrArg Address.isZero hself).trans hpresent
    · exact fun _ hsame => absurd hsame hmanager

theorem backs_processInterchainTransferPayload (hsole : reserve.Sole env)
    (hself : ctx.scAddress = reserve.service) (hne : reserve.manager ≠ reserve.service)
    (hpresent : reserve.service.isZero = false)
    (originalSourceChain messageId payload : ManagedBuffer) :
    Satisfies reserve.Backs (processInterchainTransferPayload crypto env ctx
      originalSourceChain messageId payload) := by
  intro before value after trace h
  have hevent : ∀ world event, reserve.Backs world [.event event] world :=
    fun _ _ => backs_of_unchanged rfl rfl rfl rfl (sent_note rfl)
  obtain ⟨transfer, receiver, address, _, _, ⟨_, token, given, rest, hcall, rfl⟩ |
    ⟨_, token, given, middle, rest, hcall, hexecute, rfl⟩⟩ :=
    processInterchainTransferPayload_eq_ok h
  · have hgives := backs_give hsole hself hne hpresent _ _ _ _ _ _ _ hcall
    exact (hevent _ _).trans hgives
  · have hgives := backs_give hsole hself hne hpresent _ _ _ _ _ _ _ hcall
    obtain ⟨_, hpay, _⟩ := executeWithInterchainToken_eq_ok.mp hexecute
    have hsender : ctx.scAddress ≠ reserve.manager := fun hsame => hne (hsame.symm.trans hself)
    have hpasses : reserve.Backs middle [.executeWithInterchainToken receiver
        originalSourceChain messageId transfer.sourceAddress transfer.data transfer.tokenId token
        given] after := by
      have hpaid : reserve.Backs middle [] after := backs_pay hsender _ _ _ _ hpay
      exact hpaid.trans (backs_of_unchanged rfl rfl rfl rfl (sent_note rfl))
    exact ((hevent _ _).trans hgives).trans hpasses

/-! ### Answers -/

theorem Stands.issueCallback {manager user : Address} {cost : ℕ} {result : AsyncResult}
    (h : reserve.Stands before)
    (hok : issueCallback env manager user cost result before = .ok ⟨(), after, trace⟩) :
    reserve.Stands after := by
  obtain ⟨state, next, actions, ledger, pending, callbackCtx, token, hstate, hcode, rfl⟩ :=
    issueCallback_manager hok
  exact h.setManager hstate fun hadmits => hadmits.callback hcode

/-- What comes back to a manager goes on to the user. -/
theorem value_issueCallback {manager user : Address} {cost : ℕ} {result : AsyncResult}
    {back : World}
    (hother : ESDTSystemSCAddress ≠ reserve.manager)
    (hback : bringBack manager cost result before = .ok ⟨(), back, []⟩)
    (hok : issueCallback env manager user cost result back = .ok ⟨(), after, trace⟩) :
    reserve.value before.ledger ≤ reserve.value after.ledger := by
  cases result with
  | ok values =>
    simp only [issueCallback, Transaction.bind_eq_ok, lift_eq_ok, Transaction.pure_eq_ok] at hok
    obtain ⟨_, rfl, _⟩ := Transaction.pure_eq_ok.mp hback
    obtain ⟨token, _, _, _, ⟨_, rfl, rfl⟩, ⟨⟨_, actions⟩, _, _, _, hrun, ⟨_, rfl, rfl⟩, rfl⟩,
      rfl⟩ := hok
    obtain ⟨state, next, _, hcode, hactions⟩ := runManager_eq_ok.mp hrun
    have hquiet := TokenManager.deployTokenCallback_quiet hcode
    have hkept : reserve.Gains (before.setManager manager next) _ _ :=
      gains_quiet hquiet _ _ _ _ hactions
    exact hkept
  | err errCode errMsg =>
    simp only [issueCallback, Transaction.bind_eq_ok, Transaction.pure_eq_ok] at hok
    obtain ⟨ledger, hreturned, rfl, _⟩ := transfer_eq_ok.mp hback
    obtain ⟨⟨_, actions⟩, _, _, _, hrun, ⟨_, rfl, rfl⟩, rfl⟩ := hok
    obtain ⟨state, next, _, hcode, hactions⟩ := runManager_eq_ok.mp hrun
    obtain ⟨value, hvalue, rfl⟩ := TokenManager.deployTokenCallback_none hcode
    obtain rfl : cost = value := Except.ok.inj hvalue
    simp only [forEach, managerAction, Transaction.bind_eq_ok, Outcome.exists_unit,
      transfer_eq_ok, Transaction.pure_eq_ok] at hactions
    obtain ⟨_, _, _, ⟨_, rfl, rfl⟩, ⟨_, _, _, ⟨last, hlast, rfl, _⟩, ⟨_, rfl, _⟩, _⟩, _⟩ := hactions
    have hfirst : reserve.value ledger + _ = reserve.value before.ledger + _ :=
      value_transfer hreturned
    have hsecond : reserve.value last + _ = reserve.value ledger + _ := value_transfer hlast
    have hkept : 0 ≤ reserve.part user (EgldOrEsdtTokenIdentifier.asset .egld 0) cost :=
      part_nonneg ..
    rw [part_of_ne hother] at hfirst
    change reserve.value before.ledger ≤ reserve.value last
    change _ + reserve.part manager .egld cost = _ at hsecond
    omega

/-! ### Steps -/

theorem backs_perform (hsole : reserve.Sole env) (hself : ctx.scAddress = reserve.service)
    (hne : reserve.manager ≠ reserve.service) (hpresent : reserve.service.isZero = false)
    (call : Call) : Satisfies reserve.Backs (perform crypto env ctx call) := by
  have hrules : EffectRules crypto env ctx AnyEffect fun _ => reserve.Backs :=
    backsRules hsole hself hne hpresent
  apply hrules.perform backs_requestRule call fun _ _ => trivial
  · intro tokenId destinationChain destinationAddress data gasValue _
    exact backs_interchainTransfer hsole hself _ _ _ _ _
  · intro sourceChain messageId sourceAddress payload _
    apply hrules.execute _ _ _ _ _ _ fun _ _ => trivial
    · intro chain id address hash
      exact .inspect_bind (.reads _) fun _ => .andThen (n := 0) composes_backs
        (backs_callGateway fun _ => rfl) fun _ => .pure composes_backs _
    · exact backs_processInterchainTransferPayload hsole hself hne hpresent

/-- Somebody else tells the hub of nothing. -/
theorem sent_gateway (hcaller : ctx.caller ≠ reserve.service) (call : Gateway.Call)
    (reply : Gateway.Reply) : reserve.sent [.gateway ctx call reply] = 0 := by
  cases call <;> simp [sent, emissions, hcaller]

theorem backs_issueAnswer {manager user : Address} {cost : ℕ} {result : AsyncResult}
    {back : World} {completed : Bool}
    (hback : bringBack manager cost result before = .ok ⟨(), back, []⟩)
    (hattempt : attempt (issueCallback env manager user cost result) back =
      .ok ⟨completed, after, []⟩) : reserve.Backs before [] after := by
  intro hstands
  have hother : ESDTSystemSCAddress ≠ reserve.manager := hstands.distinct.symm
  have hreturned : reserve.Backs before [] back := by
    cases result with
    | ok values =>
      obtain ⟨_, rfl, _⟩ := Transaction.pure_eq_ok.mp hback
      exact composes_backs.nil before
    | err errCode errMsg => exact backs_transfer hother _ _ _ _ _ _ _ hback
  obtain ⟨hmiddle, hvalue⟩ := hreturned hstands
  rcases attempt_eq_ok.mp hattempt with ⟨_, hok⟩ | ⟨_, _, rfl, _⟩
  · refine ⟨hmiddle.issueCallback hok, ?_⟩
    have hkept : reserve.value before.ledger ≤ reserve.value after.ledger :=
      value_issueCallback hother hback hok
    exact add_le_add_left hkept 0
  · exact ⟨hmiddle, hvalue⟩

/-- Every step of the machine backs what it tells the hub of. -/
theorem backs_step {world next : World} {input : Input} (hsole : reserve.Sole input.env)
    (hok : (machine crypto).step world input = .ok (next, trace)) :
    reserve.Backs world trace next := by
  intro hstands
  obtain ⟨env, operation⟩ := input
  have hrun := (step_eq_ok crypto).mp hok
  have hne := hstands.manager_ne_service
  cases operation with
  | its caller payment call =>
    obtain ⟨⟨hexternal, _⟩, paid, hpay, hperform⟩ := run_its_eq_ok.mp hrun
    have hcaller : caller ≠ reserve.manager := hstands.ne_of_external hexternal
    have hpaid : reserve.Backs world [] paid := backs_pay hcaller _ _ _ _ hpay
    have hcall := backs_perform hsole hstands.itsAddress hne hstands.present call _ _ _ _ hperform
    exact hpaid.trans hcall hstands
  | gateway caller call =>
    obtain ⟨⟨hexternal, _⟩, reply, hcall⟩ := run_gateway_eq_ok.mp hrun
    have hcaller : caller ≠ reserve.service := hstands.ne_service hexternal
    exact backs_callGateway (sent_gateway hcaller call) _ _ _ _ hcall hstands
  | manager caller address payment call =>
    obtain ⟨⟨hexternal, hpresent⟩, reply, hcall⟩ := run_manager_eq_ok.mp hrun
    have hcaller : caller ≠ reserve.manager := hstands.ne_of_external hexternal
    apply backs_callManager hsole hcaller hpresent _ _ _ _ _ hcall hstands
    exact fun hservice _ => absurd hservice (hstands.ne_service hexternal)
  | transfer sender receiver asset amount =>
    obtain ⟨⟨hexternal, _⟩, htransfer⟩ := run_transfer_eq_ok.mp hrun
    exact backs_transfer (hstands.ne_of_external hexternal) _ _ _ _ _ _ _ htransfer hstands
  | answer index result =>
    have herased : reserve.Backs world [] { world with pending := world.pending.eraseIdx index } :=
      backs_of_unchanged rfl rfl rfl rfl rfl
    have hnote : ∀ world call completed, reserve.Backs world [.answered call completed] world :=
      fun _ _ _ => backs_of_unchanged rfl rfl rfl rfl (sent_note rfl)
    rcases answer_eq_ok.mp hrun with ⟨request, completed, inner, _, hattempt, rfl⟩ |
      ⟨manager, user, cost, completed, back, _, hback, hattempt, rfl⟩
    · have hrules : EffectRules crypto env
          (env.context ESDTSystemSCAddress world.itsAddress .none) AnyEffect
          fun _ => reserve.Backs := backsRules hsole hstands.itsAddress hne hstands.present
      have hcallback := satisfies_attempt composes_backs.nil (hrules.callbackCode rfl result
        request (fun _ _ _ _ _ _ => trivial) fun _ _ _ _ _ _ _ _ _ _ _ => trivial)
      have hanswered := hcallback _ _ _ _ hattempt
      exact (herased.trans hanswered).trans (hnote _ _ _) hstands
    · have hanswered : reserve.Backs _ [] next := backs_issueAnswer hback hattempt
      exact (herased.trans hanswered).trans (hnote _ _ _) hstands

end Backing

/-! ## Runs -/

/-- In every run the reserve grows by what the hub is told of, and lessens at most by what
the service makes the manager give. -/
theorem backs_run {crypto : Crypto} {start world : World} {history : History}
    (hrun : (machine crypto).Run start history world)
    (hsole : ∀ entry ∈ history, reserve.Sole entry.input.env) :
    reserve.Backs start (performed history) world := by
  induction hrun with
  | start => exact composes_backs.nil start
  | stopped _ _ ih =>
    rw [performed_stopped]
    exact ih fun entry hmem => hsole entry (List.mem_append_left _ hmem)
  | completed _ hok ih =>
    rw [performed_completed]
    have hbefore := ih fun entry hmem => hsole entry (List.mem_append_left _ hmem)
    have hlast := hsole _ (List.mem_append_right _ (List.mem_singleton_self _))
    exact hbefore.trans (backs_step hlast hok)

end Reserve

end AxelarCgp.Its
