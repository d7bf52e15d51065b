import AxelarCgp.Its.Tokens

/-!
# Gas of requests in flight

Between a request for token properties and its answer the service keeps the gas
value.  Whatever else it does is paid for by the call it is in, so that the EGLD
of the service always covers the gas values of all requests in flight.
-/

namespace AxelarCgp.Its

open Machine Transaction

/-! ## What an account spends -/

/-- The account has at most `n` less of the asset afterwards. -/
def Costs (account : Address) (asset : Asset) (n : ℕ) (before : World) (_ : List Action)
    (after : World) : Prop :=
  before.ledger.balance account asset ≤ after.ledger.balance account asset + n

section Costs

variable {account : Address} {asset : Asset} {env : Environment} {ctx : CallContext}

theorem composes_costs : Composes (Costs account asset) where
  nil _ := le_rfl
  append hfirst hsecond := by
    unfold Costs at *
    omega
  mono hle h := by
    unfold Costs at *
    omega

/-- Only the sender loses anything. -/
theorem costs_transfer (sender receiver : Address) (sent : Asset) (amount : ℕ) :
    Satisfies (Costs account asset (Ledger.single sender sent amount account asset))
      (transfer sender receiver sent amount) := by
  intro before value after trace h
  obtain ⟨ledger, hledger, rfl, _⟩ := transfer_eq_ok.mp h
  obtain ⟨_, hbalance, _⟩ := Ledger.transfer_eq_ok hledger
  unfold Costs
  dsimp only
  rw [hbalance account asset]
  omega

theorem costs_transfer_of_ne {sender : Address} (hsender : sender ≠ account)
    (receiver : Address) (sent : Asset) (amount : ℕ) :
    Satisfies (Costs account asset 0) (transfer sender receiver sent amount) := by
  have h : Satisfies (Costs account asset _) _ := costs_transfer sender receiver sent amount
  rwa [Ledger.single_of_account_ne hsender.symm] at h

/-- A payment costs at most what it brings of the asset. -/
theorem costs_pay : Satisfies (Costs account asset (ctx.callValue.total asset)) (pay ctx) := by
  unfold pay EgldOrMultiEsdtPayment.total
  induction ctx.callValue.amounts with
  | nil => exact .pure composes_costs ()
  | cons entry amounts ih =>
    rw [Purse.total_cons]
    refine .bind composes_costs (.weaken composes_costs ?_ (costs_transfer _ _ _ _)) fun _ => ih
    by_cases hasset : entry.1 = asset
    · rw [if_pos hasset]
      exact Ledger.single_le ..
    · rw [Ledger.single_of_asset_ne (Ne.symm hasset)]
      exact Nat.zero_le _

theorem costs_pay_of_ne (hcaller : ctx.caller ≠ account) :
    Satisfies (Costs account asset 0) (pay ctx) :=
  .forEach composes_costs (fun _ => costs_transfer_of_ne hcaller _ _ _) _

/-- Who is paid by another gains what the payment brings. -/
theorem gains_pay (asset : Asset) (hcaller : ctx.caller ≠ ctx.scAddress)
    {before after : World} {trace : List Action} (h : pay ctx before = .ok ⟨(), after, trace⟩) :
    before.ledger.balance ctx.scAddress asset + ctx.callValue.total asset ≤
      after.ledger.balance ctx.scAddress asset := by
  rw [pay] at h
  rw [EgldOrMultiEsdtPayment.total]
  generalize ctx.callValue.amounts = amounts at h ⊢
  induction amounts generalizing before trace with
  | nil =>
    obtain ⟨_, rfl, _⟩ := Transaction.pure_eq_ok.mp h
    simp
  | cons entry amounts ih =>
    simp only [forEach, Transaction.bind_eq_ok, Outcome.exists_unit, transfer_eq_ok] at h
    obtain ⟨_, _, _, ⟨ledger, hledger, rfl, _⟩, hrest, _⟩ := h
    have hafter := ih hrest
    obtain ⟨_, hbalance, _⟩ := Ledger.transfer_eq_ok hledger
    have hfirst := hbalance ctx.scAddress asset
    rw [Ledger.single_of_account_ne hcaller.symm, Nat.sub_zero] at hfirst
    rw [Purse.total_cons]
    dsimp only at hafter
    by_cases hasset : entry.1 = asset
    · subst hasset
      rw [Ledger.single_self] at hfirst
      rw [if_pos rfl]
      omega
    · rw [if_neg hasset]
      omega

theorem costs_register (pending : Pending) :
    Satisfies (Costs account asset 0) (register pending) :=
  .modifies fun _ => le_rfl

/-- Another account's manager spends its own tokens only. -/
theorem costs_managerAction {manager : Address} (hmanager : manager ≠ account)
    (action : TokenManager.Action) :
    Satisfies (Costs account asset 0) (managerAction env manager action) := by
  cases action with
  | localMint token amount =>
    refine .inspect_bind (.lift _) fun _ => .modifies fun world => ?_
    exact Nat.le_add_right _ _
  | localBurn token amount =>
    intro before value after trace h
    simp only [managerAction, localBurn, Transaction.bind_eq_ok, Outcome.exists_unit,
      lift_eq_ok, reads_eq_ok, modifies_eq_ok] at h
    obtain ⟨_, _, _, ⟨_, rfl, rfl⟩, ⟨_, _, _, _, ⟨rfl, rfl, rfl⟩, ⟨ledger, _, _, _,
      ⟨hledger, rfl, rfl⟩, ⟨rfl, rfl⟩, rfl⟩, rfl⟩, rfl⟩ := h
    obtain ⟨_, hbalance, _⟩ := Ledger.burn_eq_ok hledger
    have hafter := hbalance account asset
    rw [Ledger.single_of_account_ne hmanager.symm] at hafter
    exact hafter.ge
  | send receiver token amount => exact costs_transfer_of_ne hmanager _ _ _
  | issue cost name ticker decimals user =>
    exact .andThen composes_costs (costs_transfer_of_ne hmanager _ _ _) fun _ =>
      costs_register _
  | _ => exact .pure composes_costs ()

theorem costs_runManager {A : Type} {manager : Address} (hmanager : manager ≠ account)
    (code : TokenManager.Tx A) :
    Satisfies (Costs account asset 0) (runManager env manager code) := by
  rintro before ⟨value, actions⟩ after trace h
  obtain ⟨state, next, _, _, hactions⟩ := runManager_eq_ok.mp h
  have hcosts : Satisfies (Costs account asset 0) (forEach (managerAction env manager) actions) :=
    .forEach composes_costs (costs_managerAction hmanager) actions
  exact hcosts (before.setManager manager next) _ _ _ hactions

/-- A call of another account's manager costs what is paid with it. -/
theorem costs_callManager {n : ℕ} (hpay : Satisfies (Costs account asset n) (pay ctx))
    (hmanager : ctx.scAddress ≠ account) (call : TokenManager.Call) :
    Satisfies (Costs account asset n) (callManager env ctx call) := by
  intro before reply after trace h
  obtain ⟨paid, actions, hpaid, hrun, _⟩ := callManager_eq_ok.mp h
  have hfirst := hpay _ _ _ _ hpaid
  have hsecond : Costs account asset 0 _ _ _ := costs_runManager hmanager _ _ _ _ _ hrun
  unfold Costs at *
  omega

end Costs

/-! ## Covered requests -/

/-- What the answer to a request relies on besides what is checked again. -/
def Request.Ready (crypto : Crypto) (its : State) (request : Request) : Prop :=
  match request.callback with
  | .deployRemoteToken deploySalt destinationChain tokenSymbol _ =>
      tokenSymbol.isEmpty = false ∧
      (its.tokenManagerAddress (interchainTokenIdRaw crypto deploySalt)).isSome ∧
      its.chainName ≠ destinationChain
  | .registerTokenMetadata token => isValidEsdtIdentifier token

theorem Request.Sound.ready {crypto : Crypto} {its : State} {caller : Address}
    {request : Request} (h : request.Sound crypto its caller) : request.Ready crypto its := by
  cases h with
  | deployRemoteToken hvalid hmanager hself _ =>
    exact ⟨ticker_isEmpty_of_isValid hvalid, hmanager, hself⟩
  | registerTokenMetadata hvalid => exact hvalid

/-- A request stays ready while token managers are added only. -/
theorem Request.Ready.mono {crypto : Crypto} {before after : State} {request : Request}
    (h : request.Ready crypto before) (hchain : after.chainName = before.chainName)
    (hmanagers : ∀ tokenId, (before.tokenManagerAddress tokenId).isSome →
      (after.tokenManagerAddress tokenId).isSome) : request.Ready crypto after := by
  unfold Ready at *
  split
  · rename_i hcallback
    rw [hcallback] at h
    exact ⟨h.1, hmanagers _ h.2.1, hchain ▸ h.2.2⟩
  · rename_i hcallback
    rw [hcallback] at h
    exact h

def World.gasOwed (world : World) : ℕ :=
  (world.requests.map Request.gasValue).sum

def Pending.gasValue : Pending → ℕ
  | tokenProperties request => request.gasValue
  | issue _ _ _ => 0

theorem World.gasOwed_eq (world : World) :
    world.gasOwed = (world.pending.map Pending.gasValue).sum := by
  rw [gasOwed, requests]
  induction world.pending with
  | nil => rfl
  | cons call calls ih =>
    cases call with
    | tokenProperties request => simp [Pending.gasValue, ih]
    | issue manager user cost => simpa [Pending.gasValue] using ih

/-- The service holds `spare` of EGLD beyond what it keeps for requests in flight,
and every request can be gone on with. -/
structure Solvent (crypto : Crypto) (spare : ℕ) (world : World) : Prop where
  covered : world.gasOwed + spare ≤ world.ledger.balance world.itsAddress .egld
  ready : ∀ request ∈ world.requests, request.Ready crypto world.its
  nameless : world.its.trustedChains .new = false
  alone : world.managers world.itsAddress = none
  distinct : world.itsAddress ≠ ESDTSystemSCAddress

/-- What is done costs the service at most `n` of what it has to spare. -/
def Spends (crypto : Crypto) (n : ℕ) (before : World) (_ : List Action) (after : World) : Prop :=
  ∀ spare, Solvent crypto (spare + n) before → Solvent crypto spare after

namespace Solvent

variable {crypto : Crypto} {before after : World} {spare m n : ℕ}

theorem anti (h : Solvent crypto spare before) (hle : n ≤ spare) : Solvent crypto n before where
  covered := by
    have hcovered := h.covered
    omega
  ready := h.ready
  nameless := h.nameless
  alone := h.alone
  distinct := h.distinct

/-- Moving tokens matters only as far as the service loses or gains EGLD. -/
theorem of_movesTokens (h : Solvent crypto m before) (hmoves : MovesTokens before after)
    (hbalance : before.ledger.balance before.itsAddress .egld + n ≤
      after.ledger.balance before.itsAddress .egld + m) : Solvent crypto n after where
  covered := by
    have hcovered := h.covered
    rw [World.gasOwed, hmoves.requests, hmoves.itsAddress, ← World.gasOwed]
    omega
  ready := by
    rw [hmoves.requests, hmoves.its]
    exact h.ready
  nameless := by
    rw [hmoves.its]
    exact h.nameless
  alone := by
    have hmanager := hmoves.managers before.itsAddress
    rw [h.alone, Option.isSome_none, Option.isSome_eq_false_iff,
      Option.isNone_iff_eq_none] at hmanager
    rw [hmoves.itsAddress, hmanager]
  distinct := by
    rw [hmoves.itsAddress]
    exact h.distinct

theorem of_costs {trace : List Action} (h : Solvent crypto (spare + n) before)
    (hmoves : MovesTokens before after)
    (hcosts : Costs before.itsAddress .egld n before trace after) : Solvent crypto spare after := by
  apply h.of_movesTokens hmoves
  unfold Costs at hcosts
  omega

/-- A manager is another contract. -/
theorem ne_itsAddress {address : Address} {state : TokenManager.State}
    (h : Solvent crypto spare before) (hmanager : before.managers address = some state) :
    address ≠ before.itsAddress := by
  rintro rfl
  rw [h.alone] at hmanager
  simp at hmanager

/-- The storage of the service matters only as far as requests rely on it. -/
theorem of_keeps {its : State} (h : Solvent crypto spare before) (hkeeps : before.its.Keeps its) :
    Solvent crypto spare { before with its } where
  covered := h.covered
  ready request hmem := (h.ready request hmem).mono hkeeps.chainName fun tokenId hmanager => by
    rw [hkeeps.tokenManagerAddress]
    exact hmanager
  nameless := hkeeps.trustedChains.trans h.nameless
  alone := h.alone
  distinct := h.distinct

end Solvent

namespace Spends

variable {crypto : Crypto} {env : Environment} {ctx : CallContext}

theorem composes : Composes (Spends crypto) where
  nil _ _ h := h
  append := by
    intro m n _ _ _ _ _ hfirst hsecond spare h
    rw [add_comm m n, ← add_assoc] at h
    exact hsecond spare (hfirst _ h)
  mono hle h spare hsolvent := h spare (hsolvent.anti (Nat.add_le_add_left hle spare))

theorem transfer (sender receiver : Address) (amount : ℕ) :
    Satisfies (Spends crypto amount) (transfer sender receiver .egld amount) := by
  intro before value after trace h spare hsolvent
  apply hsolvent.of_costs (silent_transfer _ _ _ _ _ _ _ _ h).1
  exact composes_costs.mono (Ledger.single_le ..) (costs_transfer _ _ _ _ _ _ _ _ h)

theorem send (sender receiver : Address) (amount : ℕ) :
    Satisfies (Spends crypto amount) (send sender receiver .egld amount) :=
  .thenFree composes (transfer _ _ _) fun _ => .performs fun _ _ h => h

/-- A call of a token manager costs what is paid with it. -/
theorem callManager (call : TokenManager.Call) :
    Satisfies (Spends crypto (ctx.callValue.total .egld)) (callManager env ctx call) := by
  intro before reply after trace h spare hsolvent
  have hmoves := (callManager_movesTokens h).1
  obtain ⟨paid, actions, hpay, hrun, _⟩ := callManager_eq_ok.mp h
  obtain ⟨state, _, hmanager, _⟩ := runManager_eq_ok.mp hrun
  have hpaid := (hsolvent.anti (Nat.le_refl _)).of_costs (silent_pay _ _ _ _ _ hpay).1
    (costs_pay _ _ _ _ hpay)
  have hother : ctx.scAddress ≠ before.itsAddress := by
    rw [← (silent_pay _ _ _ _ _ hpay).1.itsAddress]
    exact hpaid.ne_itsAddress hmanager
  exact hsolvent.of_costs hmoves (costs_callManager costs_pay hother call _ _ _ _ h)

theorem callGateway (call : Gateway.Call) :
    Satisfies (Spends crypto 0) (callGateway crypto ctx call) := by
  intro before reply after trace h spare hsolvent
  obtain ⟨gateway, _, rfl, _⟩ := callGateway_eq_ok.mp h
  exact ⟨hsolvent.covered, hsolvent.ready, hsolvent.nameless, hsolvent.alone, hsolvent.distinct⟩

theorem callContractItsHub (payload : ManagedBuffer) (gasValue : ℕ) :
    Satisfies (Spends crypto gasValue) (callContractItsHub crypto env ctx payload gasValue) := by
  intro before value after trace h spare hsolvent
  obtain ⟨hgas, _⟩ := callContractItsHub_eq_ok.mp h
  unfold Pays at hgas
  split at hgas
  · exact transfer _ _ _ _ _ _ _ hgas spare hsolvent
  · rw [hgas]
    exact hsolvent.anti (Nat.le_add_right _ _)

/-- A new token manager is not the service. -/
theorem deployTokenManagerRaw (tokenId : TokenId) (tokenManagerType : TokenManagerType)
    (tokenIdentifier : Option EgldOrEsdtTokenIdentifier) (operator : ManagedBuffer) :
    Satisfies (Spends crypto 0)
      (deployTokenManagerRaw env ctx tokenId tokenManagerType tokenIdentifier operator) := by
  intro before address after trace h spare hsolvent
  obtain ⟨state, _, _, _, hfree, _, _, _, rfl, _⟩ := deployTokenManagerRaw_eq_ok h
  have hother : before.itsAddress ≠ address := by
    rintro rfl
    simp [World.isSystemContract] at hfree
  exact {
    covered := hsolvent.covered
    ready := fun request hmem => (hsolvent.ready request hmem).mono rfl fun other hmanager => by
      by_cases hsame : other = tokenId
      · simp [hsame]
      · simpa [Function.update_of_ne hsame] using hmanager
    nameless := hsolvent.nameless
    alone := by
      change Function.update before.managers address (some state) before.itsAddress = none
      rw [Function.update_of_ne hother, hsolvent.alone]
    distinct := hsolvent.distinct }

theorem rules : Rules crypto env ctx (Spends crypto) where
  toComposes := composes
  event _ _ _ h := h
  storage _ _ hkeeps _ h := h.of_keeps hkeeps
  deploy := deployTokenManagerRaw
  command address value call _ := by
    have hcosts : Satisfies (Spends crypto _)
        (Its.callManager env (nested env ctx address (.egld value)) call) := callManager call
    rwa [show (nested env ctx address (.egld value)).callValue = .egld value from rfl,
      EgldOrMultiEsdtPayment.total_egld] at hcosts
  message payload gasValue _ := callContractItsHub payload gasValue
  send receiver amount := send _ receiver amount

/-- A request sets its gas value aside. -/
theorem requestRule : RequestRule crypto ctx (Spends crypto) := by
  intro before request hsound spare h
  exact {
    covered := by
      have hcovered := h.covered
      simp only [World.gasOwed, World.requests_append, List.map_append, List.sum_append,
        List.map_singleton, List.sum_singleton] at hcovered ⊢
      omega
    ready := fun other hmem => by
      rw [World.requests_append, List.mem_append, List.mem_singleton] at hmem
      rcases hmem with hmem | rfl
      · exact h.ready other hmem
      · exact hsound.ready
    nameless := h.nameless
    alone := h.alone
    distinct := h.distinct }

theorem validateMessage (chain id address : ManagedBuffer) (payloadHash : Hash) :
    Satisfies (Spends crypto 0)
      (gatewayValidateMessage crypto env ctx chain id address payloadHash) :=
  .inspect_bind (.reads _) fun _ =>
    .andThen composes (callGateway _) fun _ => .pure composes _

/-- What the service is given for a receiver, it passes on. -/
theorem processInterchainTransferPayload (originalSourceChain messageId payload : ManagedBuffer) :
    Satisfies (Spends crypto 0) (processInterchainTransferPayload crypto env ctx
      originalSourceChain messageId payload) := by
  intro before value after trace h spare hsolvent
  obtain ⟨transfer, receiver, address, _, _, ⟨_, token, given, rest, hcall, _⟩ |
    ⟨_, token, given, middle, rest, hcall, hexecute, _⟩⟩ :=
    processInterchainTransferPayload_eq_ok h
  · exact callManager _ _ _ _ _ hcall spare hsolvent
  · have hmoves := (callManager_movesTokens hcall).1
    obtain ⟨_, hpay, _⟩ := executeWithInterchainToken_eq_ok.mp hexecute
    have hpaid := (silent_pay _ _ _ _ _ hpay).1
    by_cases hself : ctx.scAddress = before.itsAddress
    · -- The service has more by what the manager gave, which it pays out again.
      obtain ⟨state, _, _, _, _, hmanager, _⟩ := callManager_giveToken rfl hcall
      have hother := hsolvent.ne_itsAddress hmanager
      rw [hself] at hcall
      have hgains := giveToken_gains rfl hcall hother.symm .egld
      have hmiddle : Solvent crypto (spare + (singlePayment token given).total .egld) middle := by
        apply hsolvent.of_movesTokens hmoves
        omega
      exact hmiddle.of_costs hpaid (costs_pay _ _ _ _ hpay)
    · have hmiddle := callManager _ _ _ _ _ hcall spare hsolvent
      rw [← hmoves.itsAddress] at hself
      exact Solvent.of_costs (n := 0) hmiddle hpaid (costs_pay_of_ne hself _ _ _ _ hpay)

end Spends

/-! ## Runs -/

namespace Spends

variable {crypto : Crypto} {env : Environment} {ctx : CallContext}

/-- An endpoint spends what came with the call. -/
theorem perform (call : Call) :
    Satisfies (Spends crypto (ctx.callValue.total .egld)) (perform crypto env ctx call) := by
  refine rules.effectRules.perform requestRule call (fun _ _ => trivial) ?transfer ?execute
  case transfer =>
    intro tokenId destinationChain destinationAddress data gasValue _
    exact rules.effectRules.interchainTransfer (fun _ _ _ => callManager _) callContractItsHub
      _ _ _ _ _
  case execute =>
    intro sourceChain messageId sourceAddress payload _
    exact rules.effectRules.execute validateMessage processInterchainTransferPayload _ _ _ _
      fun _ _ => trivial

end Spends

namespace Solvent

variable {crypto : Crypto} {world next : World} {input : Input} {trace : List Action}

/-- The gas value of a request is free once the request has been answered. -/
theorem eraseIdx {spare index : ℕ} {call : Pending} (h : Solvent crypto spare world)
    (hcall : world.pending[index]? = some call) :
    Solvent crypto (spare + call.gasValue)
      { world with pending := world.pending.eraseIdx index } where
  covered := by
    obtain ⟨hindex, rfl⟩ := List.getElem?_eq_some_iff.mp hcall
    have hperm := (List.getElem_cons_eraseIdx_perm hindex).map Pending.gasValue
    have hsum := hperm.sum_eq
    have hcovered := h.covered
    rw [List.map_cons, List.sum_cons] at hsum
    simp only [World.gasOwed_eq] at hcovered ⊢
    omega
  ready request hmem := h.ready request (world.requests_eraseIdx_subset index hmem)
  nameless := h.nameless
  alone := h.alone
  distinct := h.distinct

/-- Code of a token manager costs the service nothing. -/
theorem runManager {A : Type} {env : Environment} {address : Address}
    {code : TokenManager.Tx A} {value : A × List TokenManager.Action} {spare : ℕ}
    (h : Solvent crypto spare world)
    (hrun : runManager env address code world = .ok ⟨value, next, trace⟩) :
    Solvent crypto spare next := by
  obtain ⟨result, actions⟩ := value
  obtain ⟨state, _, hmanager, _⟩ := runManager_eq_ok.mp hrun
  exact h.of_costs (n := 0) (runManager_silent _ _ _ _ _ _ hrun).1
    (costs_runManager (h.ne_itsAddress hmanager) _ _ _ _ _ hrun)

theorem issueCallback {env : Environment} {manager user : Address} {cost spare : ℕ}
    {result : AsyncResult} {completed : Bool} (h : Solvent crypto spare world)
    (hattempt : attempt (issueCallback env manager user cost result) world =
      .ok ⟨completed, next, trace⟩) : Solvent crypto spare next := by
  have hcallback : Satisfies (Spends crypto 0)
      (Its.issueCallback env manager user cost result) := by
    cases result with
    | ok values =>
      exact .inspect_bind (.lift _) fun _ => .andThen Spends.composes
        (fun _ _ _ _ hrun _ hsolvent => hsolvent.runManager hrun) fun _ =>
          .pure Spends.composes ()
    | err errCode errMsg =>
      exact .andThen Spends.composes
        (fun _ _ _ _ hrun _ hsolvent => hsolvent.runManager hrun) fun _ =>
          .pure Spends.composes ()
  exact satisfies_attempt (fun _ _ hsolvent => hsolvent) hcallback _ _ _ _ hattempt spare h

/-- Every step leaves the gas values of all requests in flight covered. -/
theorem step (h : Solvent crypto 0 world)
    (hok : (machine crypto).step world input = .ok (next, trace)) : Solvent crypto 0 next := by
  obtain ⟨env, operation⟩ := input
  have hrun := (step_eq_ok crypto).mp hok
  have hne : ∀ {caller}, world.isSystemContract caller = false → caller ≠ world.itsAddress := by
    rintro _ hexternal rfl
    simp [World.isSystemContract] at hexternal
  cases operation with
  | its caller payment call =>
    obtain ⟨⟨hexternal, _⟩, paid, hpay, hperform⟩ := run_its_eq_ok.mp hrun
    have hgains := gains_pay .egld (hne hexternal) hpay
    have hpaid : Solvent crypto (0 + payment.total .egld) paid := by
      apply h.of_movesTokens (silent_pay _ _ _ _ _ hpay).1
      rw [zero_add]
      exact hgains
    exact Spends.perform call _ _ _ _ hperform 0 hpaid
  | gateway caller call =>
    obtain ⟨_, reply, hcall⟩ := run_gateway_eq_ok.mp hrun
    exact Spends.callGateway call _ _ _ _ hcall 0 h
  | manager caller address payment call =>
    obtain ⟨⟨hexternal, _⟩, reply, hcall⟩ := run_manager_eq_ok.mp hrun
    obtain ⟨paid, _, hpay, hmanager, _⟩ := callManager_eq_ok.mp hcall
    have hpaid := h.of_costs (n := 0) (silent_pay _ _ _ _ _ hpay).1
      (costs_pay_of_ne (hne hexternal) _ _ _ _ hpay)
    exact hpaid.runManager hmanager
  | transfer sender receiver asset amount =>
    obtain ⟨⟨hexternal, _⟩, htransfer⟩ := run_transfer_eq_ok.mp hrun
    exact h.of_costs (n := 0) (silent_transfer _ _ _ _ _ _ _ _ htransfer).1
      (costs_transfer_of_ne (hne hexternal) _ _ _ _ _ _ _ htransfer)
  | answer index result =>
    rcases answer_eq_ok.mp hrun with ⟨request, completed, inner, hcall, hattempt, _⟩ |
      ⟨manager, user, cost, completed, back, hcall, hback, hattempt, _⟩
    · have hcallback : Satisfies (Spends crypto request.gasValue) (attempt
          (request.callbackCode crypto env
            (env.context ESDTSystemSCAddress world.itsAddress .none) result)) :=
        satisfies_attempt (fun _ spare hsolvent => hsolvent.anti (Nat.le_add_right _ _))
          (Spends.rules.effectRules.callbackCode rfl result request (fun _ _ _ _ _ _ => trivial)
            fun _ _ _ _ _ _ _ _ _ _ _ => trivial)
      exact hcallback _ _ _ _ hattempt 0 (h.eraseIdx hcall)
    · have herased := h.eraseIdx hcall
      have hother : ESDTSystemSCAddress ≠ world.itsAddress := h.distinct.symm
      have hreturned : Solvent crypto 0 back := by
        cases result with
        | ok values =>
          obtain ⟨_, rfl, _⟩ := Transaction.pure_eq_ok.mp hback
          exact herased
        | err errCode errMsg =>
          exact Solvent.of_costs (n := 0) herased (silent_transfer _ _ _ _ _ _ _ _ hback).1
            (costs_transfer_of_ne hother _ _ _ _ _ _ _ hback)
      exact hreturned.issueCallback hattempt

theorem run {start : World} {history : List (Entry Input (List Action))}
    (hstart : Solvent crypto 0 start) (hrun : Run (machine crypto) start history world) :
    Solvent crypto 0 world :=
  hrun.invariant hstart fun _ _ _ _ h hok => h.step hok

end Solvent

end AxelarCgp.Its
