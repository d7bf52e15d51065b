import AxelarCgp.GasService.Fees

/-!
# The accounts of the gas service

What comes in with a call is announced, to the unit, and what goes out the collector sends.  So
the log and the sends of a run, with what others gave without a call, account for every balance
of the contract.
-/

namespace AxelarCgp.GasService

open Machine Transaction

/-! ## Entries -/

/-- The balance of a token without a nonce. -/
def fungible (token : TokenIdentifier) : Asset :=
  EgldOrEsdtTokenIdentifier.asset (.esdt token) 0

/-- What an event says that the contract was paid. -/
def Event.payments : Event → List (Asset × ℕ)
  | .gasPaidForContractCall paid => [(fungible paid.gasToken, paid.gasFeeAmount)]
  | .nativeGasPaidForContractCall paid => [(.egld, paid.value)]
  | .gasPaidForExpressCall paid => [(fungible paid.gasToken, paid.gasFeeAmount)]
  | .nativeGasPaidForExpressCall paid => [(.egld, paid.value)]
  | .gasAdded added => [(fungible added.gasToken, added.gasFeeAmount)]
  | .nativeGasAdded added => [(.egld, added.value)]
  | .expressGasAdded added => [(fungible added.gasToken, added.gasFeeAmount)]
  | .nativeExpressGasAdded added => [(.egld, added.value)]
  | .refunded _ => []

/-- What an action announces as paid. -/
def Action.payments : Action → List (Asset × ℕ)
  | .event logged => logged.payments
  | .send _ _ _ => []

/-- What an action sends away from the contract. -/
def Action.sends (address : Address) : Action → List (Asset × ℕ)
  | .event _ => []
  | .send receiver token amount =>
      if receiver = address then [] else [(token.asset 0, amount)]

def paid (trace : List Action) (asset : Asset) : ℕ :=
  Purse.total (trace.flatMap Action.payments) asset

def sent (address : Address) (trace : List Action) (asset : Asset) : ℕ :=
  Purse.total (trace.flatMap (Action.sends address)) asset

/-- What others give to an address without a call. -/
def Input.gifts (address : Address) : Input → List (Asset × ℕ)
  | .transfer _ receiver asset amount => if receiver = address then [(asset, amount)] else []
  | .mint receiver asset amount => if receiver = address then [(asset, amount)] else []
  | _ => []

/-- The contract calls nobody, and so not itself. -/
def Input.FromOutside (address : Address) : Input → Prop
  | .call ctx _ => ctx.caller ≠ address
  | _ => True

variable {crypto : Crypto} {address : Address} {ctx : CallContext} {system next : System}
variable {trace first second : List Action} {asset : Asset}

theorem paid_append :
    paid (first ++ second) asset = paid first asset + paid second asset := by
  simp [paid]

theorem sent_append :
    sent address (first ++ second) asset =
      sent address first asset + sent address second asset := by
  simp [sent]

/-! ## What each call enters -/

/-- The balances change by what was announced and what was sent. -/
def Accounts (address : Address) (system : System) (trace : List Action) (next : System) : Prop :=
  ∀ asset, next.ledger.balance address asset + sent address trace asset =
    system.ledger.balance address asset + paid trace asset

theorem composes_accounts (address : Address) : Composes fun _ : ℕ => Accounts address where
  nil _ _ := rfl
  append := by
    intro _ _ system middle last first second hfirst hsecond asset
    have hone := hfirst asset
    have htwo := hsecond asset
    rw [paid_append, sent_append]
    omega
  mono _ h := h

/-- The payment of a call arrives. -/
theorem balance_pay (hcaller : ctx.caller ≠ ctx.scAddress)
    (hok : pay ctx system = .ok ⟨(), next, trace⟩) :
    trace = [] ∧ ∀ asset, next.ledger.balance ctx.scAddress asset =
      system.ledger.balance ctx.scAddress asset + ctx.callValue.total asset := by
  rw [pay] at hok
  simp only [EgldOrMultiEsdtPayment.total]
  generalize ctx.callValue.amounts = amounts at hok ⊢
  induction amounts generalizing system trace with
  | nil =>
      obtain ⟨_, rfl, rfl⟩ := Transaction.pure_eq_ok.mp hok
      exact ⟨rfl, fun _ => rfl⟩
  | cons entry amounts ih =>
      obtain ⟨_, middle, _, _, htransfer, hrest, rfl⟩ := Transaction.bind_eq_ok.mp hok
      obtain ⟨ledger, hledger, rfl, rfl⟩ := transfer_eq_ok.mp htransfer
      obtain ⟨rfl, hbalance⟩ := ih hrest
      obtain ⟨_, hmoved, _⟩ := Ledger.transfer_eq_ok hledger
      refine ⟨rfl, fun asset => ?_⟩
      rw [hbalance, Purse.total_cons]
      dsimp only
      rw [hmoved, Ledger.single_of_account_ne (Ne.symm hcaller)]
      by_cases hasset : entry.1 = asset
      · subst hasset
        rw [Ledger.single_self, if_pos rfl]
        omega
      · rw [Ledger.single_of_asset_ne (Ne.symm hasset), if_neg hasset]
        omega

theorem egldValue_eq_ok {value : ℕ} (h : egldValue ctx = .ok value) (asset : Asset) :
    ctx.callValue.total asset = Purse.total [(.egld, value)] asset := by
  unfold egldValue at h
  split at h
  · rename_i hvalue
    rw [hvalue, ← Except.ok.inj h]
    rfl
  · simp at h

theorem singleFungibleEsdt_eq_ok {token : TokenIdentifier} {amount : ℕ}
    (h : singleFungibleEsdt ctx = .ok (token, amount)) (asset : Asset) :
    ctx.callValue.total asset =
      Purse.total [(fungible token, amount)] asset := by
  unfold singleFungibleEsdt at h
  split at h
  · rename_i payment hvalue
    simp only [Outcome.bind_eq_ok, Outcome.exists_unit, Outcome.require_eq_ok,
      Outcome.pure_eq_ok, Prod.mk.injEq] at h
    obtain ⟨hnonce, rfl, rfl⟩ := h
    rw [hvalue]
    simp [EgldOrMultiEsdtPayment.total, EgldOrMultiEsdtPayment.amounts, EsdtTokenPayment.asset,
      fungible, hnonce]
  · simp at h

section Payments

variable {sender refundAddress : Address} {chain destination payload txHash : ManagedBuffer}
variable {logIndex : ℕ}

theorem payGasForContractCall_total {value : GasPaidForContractCall}
    (h : payGasForContractCall crypto ctx sender chain destination payload refundAddress =
      .ok value) (asset : Asset) :
    ctx.callValue.total asset =
      Purse.total [(fungible value.gasToken, value.gasFeeAmount)] asset := by
  simp only [payGasForContractCall, Outcome.bind_eq_ok, Outcome.exists_unit, Prod.exists,
    Outcome.pure_eq_ok] at h
  obtain ⟨_, _, hpayment, _, rfl⟩ := h
  exact singleFungibleEsdt_eq_ok hpayment asset

theorem payNativeGasForContractCall_total {value : NativeGasPaidForContractCall}
    (h : payNativeGasForContractCall crypto ctx sender chain destination payload refundAddress =
      .ok value) (asset : Asset) :
    ctx.callValue.total asset = Purse.total [(.egld, value.value)] asset := by
  simp only [payNativeGasForContractCall, Outcome.bind_eq_ok, Outcome.exists_unit,
    Outcome.pure_eq_ok] at h
  obtain ⟨_, hpayment, _, rfl⟩ := h
  exact egldValue_eq_ok hpayment asset

theorem addGas_total {value : AddGas}
    (h : GasService.addGas ctx txHash logIndex refundAddress = .ok value) (asset : Asset) :
    ctx.callValue.total asset =
      Purse.total [(fungible value.gasToken, value.gasFeeAmount)] asset := by
  simp only [addGas, Outcome.bind_eq_ok, Outcome.exists_unit, Prod.exists,
    Outcome.pure_eq_ok] at h
  obtain ⟨_, _, hpayment, _, rfl⟩ := h
  exact singleFungibleEsdt_eq_ok hpayment asset

theorem addNativeGas_total {value : AddNativeGas}
    (h : GasService.addNativeGas ctx txHash logIndex refundAddress = .ok value) (asset : Asset) :
    ctx.callValue.total asset = Purse.total [(.egld, value.value)] asset := by
  simp only [addNativeGas, Outcome.bind_eq_ok, Outcome.exists_unit, Outcome.pure_eq_ok] at h
  obtain ⟨_, hpayment, _, rfl⟩ := h
  exact egldValue_eq_ok hpayment asset

end Payments

/-- A call that announces what it was paid. -/
theorem accounts_announce {A : Type} {event : A → Event} {paid : Outcome A}
    (hcaller : ctx.caller ≠ ctx.scAddress)
    (hpaid : ∀ value, paid = .ok value → ∀ asset,
      ctx.callValue.total asset = Purse.total (event value).payments asset)
    (hok : (do pay ctx; announce event paid : Tx Unit) system = .ok ⟨(), next, trace⟩) :
    Accounts ctx.scAddress system trace next ∧ ∃ event, trace = [.event event] := by
  obtain ⟨_, middle, _, _, hpay, hannounce, rfl⟩ := Transaction.bind_eq_ok.mp hok
  obtain ⟨rfl, hbalance⟩ := balance_pay hcaller hpay
  obtain ⟨value, _, _, _, hlift, hperforms, rfl⟩ := Transaction.bind_eq_ok.mp hannounce
  obtain ⟨hvalue, rfl, rfl⟩ := lift_eq_ok.mp hlift
  obtain ⟨rfl, rfl⟩ := performs_eq_ok.mp hperforms
  refine ⟨fun asset => ?_, _, rfl⟩
  rw [hbalance, hpaid value hvalue]
  simp [GasService.paid, sent, Action.payments, Action.sends]

theorem accounts_direct {receiver : Address} {fee : Fee} :
    Satisfies (Accounts ctx.scAddress) (direct ctx receiver fee.1 fee.2) := by
  intro system value next trace hok
  obtain ⟨ledger, hledger, rfl, rfl⟩ := direct_eq_ok.mp hok
  obtain ⟨henough, hbalance, _⟩ := Ledger.transfer_eq_ok hledger
  intro asset
  dsimp only
  rw [hbalance]
  simp only [sent, paid, List.flatMap_singleton, Action.sends, Action.payments]
  by_cases hasset : feeAsset fee = asset
  · subst hasset
    by_cases hreceiver : receiver = ctx.scAddress
    · subst hreceiver
      simp [henough]
    · rw [if_neg hreceiver, Ledger.single_self,
        Ledger.single_of_account_ne (Ne.symm hreceiver)]
      simp [feeAsset] at henough ⊢
      omega
  · rw [Ledger.single_of_asset_ne (Ne.symm hasset), Ledger.single_of_asset_ne (Ne.symm hasset)]
    split <;> simp_all [feeAsset]

theorem accounts_collectFee {receiver : Address} (fee : Fee) :
    Satisfies (Accounts ctx.scAddress) (collectFee ctx receiver fee) := by
  refine .lift_bind fun _ _ => .inspect_bind (.reads _) fun balance => ?_
  exact .ite (fun _ => accounts_direct) fun _ => .pure (composes_accounts _) ()

theorem inspects_requireOnlyCollector : Inspects (requireOnlyCollector ctx) :=
  .bind (.reads _) fun _ => .bind (.lift _) fun _ => .lift _

theorem accounts_collectFees {receiver : Address} {tokens : List EgldOrEsdtTokenIdentifier}
    {amounts : List ℕ} :
    Satisfies (Accounts ctx.scAddress) (collectFees ctx receiver tokens amounts) := by
  refine .inspect_bind inspects_requireOnlyCollector fun _ => ?_
  refine .lift_bind fun _ _ => .lift_bind fun _ _ => ?_
  exact .forEach (composes_accounts _) accounts_collectFee _

theorem accounts_refund {txHash : ManagedBuffer} {logIndex : ℕ} {receiver : Address}
    {token : EgldOrEsdtTokenIdentifier} {amount : ℕ} :
    Satisfies (Accounts ctx.scAddress) (refund ctx txHash logIndex receiver token amount) := by
  refine .inspect_bind inspects_requireOnlyCollector fun _ => .lift_bind fun _ _ => ?_
  have hdirect : Satisfies (Accounts ctx.scAddress) (direct ctx receiver token amount) :=
    @accounts_direct ctx receiver (token, amount)
  exact .andThen (n := 0) (composes_accounts _) hdirect fun _ => .performs fun _ _ => rfl

theorem setGasCollector_quiet {gasCollector : Address} :
    Satisfies (fun system trace next => next.ledger = system.ledger ∧ trace = [])
      (setGasCollector ctx gasCollector) := by
  refine .inspect_bind (.reads _) fun collector => .lift_bind fun _ _ => .lift_bind fun _ _ => ?_
  exact .modifies fun _ => ⟨rfl, rfl⟩

/-- What goes out the collector of the moment sends. -/
def SentByCollector (system : System) (input : Input) (trace : List Action) : Prop :=
  ByCollector system input ∨ ∀ action ∈ trace, ∃ event, action = .event event

/-- Every call enters what it moved. -/
theorem perform_accounts {call : Call} (hcaller : ctx.caller ≠ ctx.scAddress)
    (hok : perform crypto ctx call system = .ok ⟨(), next, trace⟩) :
    Accounts ctx.scAddress system trace next ∧
      SentByCollector system (.call ctx call) trace := by
  have hlogs : ∀ {A : Type} {event : A → Event} {paid : Outcome A},
      (∀ value, paid = .ok value → ∀ asset,
        ctx.callValue.total asset = Purse.total (event value).payments asset) →
      (do pay ctx; announce event paid : Tx Unit) system = .ok ⟨(), next, trace⟩ →
      Accounts ctx.scAddress system trace next ∧
        SentByCollector system (.call ctx call) trace := by
    intro A event paid hpaid h
    obtain ⟨haccounts, logged, rfl⟩ := accounts_announce hcaller hpaid h
    exact ⟨haccounts, .inr (by simp)⟩
  cases call with
  | upgrade =>
      obtain ⟨_, h⟩ := unpaid_eq_ok.mp hok
      obtain ⟨_, rfl, rfl⟩ := Transaction.pure_eq_ok.mp h
      exact ⟨fun _ => rfl, .inr (by simp)⟩
  | payGasForContractCall sender chain destination payload refundAddress
  | payGasForExpressCall sender chain destination payload refundAddress =>
      exact hlogs (fun _ => payGasForContractCall_total) hok
  | payNativeGasForContractCall sender chain destination payload refundAddress
  | payNativeGasForExpressCall sender chain destination payload refundAddress =>
      exact hlogs (fun _ => payNativeGasForContractCall_total) hok
  | addGas txHash logIndex refundAddress | addExpressGas txHash logIndex refundAddress =>
      exact hlogs (fun _ => addGas_total) hok
  | addNativeGas txHash logIndex refundAddress
  | addNativeExpressGas txHash logIndex refundAddress =>
      exact hlogs (fun _ => addNativeGas_total) hok
  | collectFees receiver tokens amounts =>
      obtain ⟨_, hcollect⟩ := unpaid_eq_ok.mp hok
      have hcollector := (collectFees_eq_ok.mp hcollect).1
      exact ⟨accounts_collectFees _ _ _ _ hcollect,
        .inl ⟨ctx, _, rfl, hcollector, .inl ⟨_, _, _, rfl⟩⟩⟩
  | refund txHash logIndex receiver token amount =>
      obtain ⟨_, hrefund⟩ := unpaid_eq_ok.mp hok
      obtain ⟨_, _, _, _, hguard, _⟩ := Transaction.bind_eq_ok.mp hrefund
      have hcollector := (requireOnlyCollector_eq_ok.mp hguard).1
      exact ⟨accounts_refund _ _ _ _ hrefund,
        .inl ⟨ctx, _, rfl, hcollector, .inr ⟨_, _, _, _, _, rfl⟩⟩⟩
  | setGasCollector gasCollector =>
      obtain ⟨_, hset⟩ := unpaid_eq_ok.mp hok
      obtain ⟨hledger, rfl⟩ := setGasCollector_quiet _ _ _ _ hset
      exact ⟨fun _ => by rw [hledger]; rfl, .inr (by simp)⟩

/-! ## Runs -/

abbrev History := List (Entry Input (List Action))

/-- All that was done in a run. -/
def performed (history : History) : List Action :=
  history.flatMap fun entry =>
    match entry.result with
    | .ok trace => trace
    | .error _ => []

/-- All that others gave to an address in a run. -/
def given (address : Address) (history : History) : List (Asset × ℕ) :=
  history.flatMap fun entry =>
    match entry.result with
    | .ok _ => entry.input.gifts address
    | .error _ => []

theorem performed_append (first second : History) :
    performed (first ++ second) = performed first ++ performed second :=
  List.flatMap_append

theorem given_append (first second : History) :
    given address (first ++ second) = given address first ++ given address second :=
  List.flatMap_append

theorem single_eq_total (receiver : Address) (asset : Asset) (amount : ℕ) (other : Asset) :
    Ledger.single receiver asset amount address other =
      Purse.total (if receiver = address then [(asset, amount)] else []) other := by
  by_cases hreceiver : receiver = address
  · subst hreceiver
    simp [Ledger.single, eq_comm]
  · rw [Ledger.single_of_account_ne (Ne.symm hreceiver), if_neg hreceiver, Purse.total_nil]

/-- A step enters what it moved, and what others gave. -/
theorem step_accounts {input : Input} (houtside : input.FromOutside address)
    (hok : (machine crypto address).step system input = .ok (next, trace)) :
    (∀ asset, next.ledger.balance address asset + sent address trace asset =
      system.ledger.balance address asset + paid trace asset +
        Purse.total (input.gifts address) asset) ∧
      SentByCollector system input trace := by
  obtain ⟨⟨_, last, actions⟩, hperform, hdone⟩ := Outcome.bind_eq_ok.mp hok
  obtain ⟨rfl, rfl⟩ := Prod.mk.inj (Outcome.pure_eq_ok.mp hdone)
  cases input with
  | call ctx call =>
      obtain ⟨_, _, _, _, hguard, hcall, rfl⟩ := Transaction.bind_eq_ok.mp hperform
      obtain ⟨hhere, rfl, rfl⟩ := lift_eq_ok.mp hguard
      obtain rfl : ctx.scAddress = address := Outcome.require_eq_ok.mp hhere
      obtain ⟨haccounts, hcollector⟩ := perform_accounts houtside hcall
      exact ⟨haccounts, hcollector⟩
  | transfer sender receiver asset amount =>
      obtain ⟨_, _, _, _, hguard, htransfer, rfl⟩ := Transaction.bind_eq_ok.mp hperform
      obtain ⟨hother, rfl, rfl⟩ := lift_eq_ok.mp hguard
      have hsender : sender ≠ address := Outcome.require_eq_ok.mp hother
      obtain ⟨ledger, hledger, rfl, rfl⟩ := transfer_eq_ok.mp htransfer
      obtain ⟨_, hbalance, _⟩ := Ledger.transfer_eq_ok hledger
      refine ⟨fun other => ?_, .inr (by simp)⟩
      dsimp only
      rw [hbalance, Ledger.single_of_account_ne (Ne.symm hsender), single_eq_total]
      rfl
  | mint receiver asset amount =>
      rw [Input.perform, modifies_eq_ok] at hperform
      obtain ⟨rfl, rfl⟩ := hperform
      refine ⟨fun other => ?_, .inr (by simp)⟩
      rw [Ledger.balance_mint, single_eq_total]
      rfl
  | burn holder asset amount =>
      obtain ⟨_, _, _, _, hguard, hrest, rfl⟩ := Transaction.bind_eq_ok.mp hperform
      obtain ⟨hother, rfl, rfl⟩ := lift_eq_ok.mp hguard
      have hholder : holder ≠ address := Outcome.require_eq_ok.mp hother
      rw [reads_bind] at hrest
      obtain ⟨ledger, _, _, _, hburn, hmodifies, rfl⟩ := Transaction.bind_eq_ok.mp hrest
      obtain ⟨hledger, rfl, rfl⟩ := lift_eq_ok.mp hburn
      obtain ⟨rfl, rfl⟩ := modifies_eq_ok.mp hmodifies
      obtain ⟨_, hbalance, _⟩ := Ledger.burn_eq_ok hledger
      refine ⟨fun other => ?_, .inr (by simp)⟩
      dsimp only
      rw [hbalance, Ledger.single_of_account_ne (Ne.symm hholder)]
      rfl

/-- Every balance of the contract is accounted for, and whatever was sent the collector sent. -/
structure AccountedFor (crypto : Crypto) (address : Address) (start : System) (history : History)
    (system : System) : Prop where
  balances : ∀ asset, system.ledger.balance address asset + sent address (performed history) asset =
    start.ledger.balance address asset + paid (performed history) asset +
      Purse.total (given address history) asset
  collector : ∀ before input trace after reached,
    history = before ++ ⟨input, .ok trace⟩ :: after →
    Run (machine crypto address) start before reached → SentByCollector reached input trace

theorem accountedFor {start : System} {history : History}
    (hrun : Run (machine crypto address) start history system)
    (houtside : ∀ entry ∈ history, entry.input.FromOutside address) :
    AccountedFor crypto address start history system where
  balances asset := by
    induction hrun with
    | start => rfl
    | @completed history reached next input trace _ hok ih =>
        have hbefore := ih fun entry hmem => houtside entry (List.mem_append_left _ hmem)
        have hinput : input.FromOutside address := houtside ⟨input, .ok trace⟩ (by simp)
        have hstep := (step_accounts hinput hok).1 asset
        have hperformed : performed [⟨input, .ok trace⟩] = trace := List.flatMap_singleton ..
        have hgiven : given address [(⟨input, .ok trace⟩ : Entry Input (List Action))] =
            input.gifts address := List.flatMap_singleton ..
        rw [performed_append, given_append, hperformed, hgiven, paid_append, sent_append,
          Purse.total_append]
        omega
    | @stopped history reached input message _ _ ih =>
        have hbefore := ih fun entry hmem => houtside entry (List.mem_append_left _ hmem)
        rw [performed_append, given_append]
        simpa [performed, given] using hbefore
  collector := by
    intro before input trace after reached hhistory hreached
    subst hhistory
    obtain ⟨other, next, hother, hok, _⟩ := hrun.step_at
    rw [hreached.unique hother]
    exact (step_accounts (houtside ⟨input, .ok trace⟩ (by simp)) hok).2

/-- A user pays 5 of EGLD and gives 1 more, and the collector takes 4. -/
def sampleInputs : List Input :=
  [.call { sampleContext with caller := Address.ofByte 3, callValue := .egld 5 }
      (.payNativeGasForContractCall (Address.ofByte 3) .new .new .new (Address.ofByte 3)),
    .transfer (Address.ofByte 3) sampleService .egld 1,
    .call sampleContext (.collectFees sampleCollector [.egld] [4])]

def sampleUserSystem : System where
  gasCollector := some sampleCollector
  ledger := Ledger.empty.mint (Address.ofByte 3) .egld 7

theorem sample_accountedFor : ∃ history system,
    sent sampleService (performed history) .egld = 4 ∧
    paid (performed history) .egld = 5 ∧ system.ledger.balance sampleService .egld = 2 ∧
    AccountedFor (.tabulated [] []) sampleService sampleUserSystem history system := by
  have hreplay : (fun (run : History × System) =>
      (sent sampleService (performed run.1) .egld, paid (performed run.1) .egld,
        run.2.ledger.balance sampleService .egld))
        ((machine (.tabulated [] []) sampleService).replay sampleUserSystem sampleInputs) =
      (4, 5, 2) := by
    decide +kernel
  obtain ⟨hsent, hrest⟩ := Prod.mk.inj hreplay
  obtain ⟨hpaid, hbalance⟩ := Prod.mk.inj hrest
  have hrun := (machine (.tabulated [] []) sampleService).run_replay sampleUserSystem sampleInputs
  have hall : ∀ input ∈ sampleInputs, input.FromOutside sampleService := by
    simp only [sampleInputs, List.forall_mem_cons, Input.FromOutside]
    exact ⟨by decide, trivial, by decide, by simp⟩
  have houtside : ∀ entry ∈ ((machine (.tabulated [] []) sampleService).replay sampleUserSystem
      sampleInputs).1, entry.input.FromOutside sampleService := by
    intro entry hentry
    apply hall
    rw [← (machine (.tabulated [] []) sampleService).replay_inputs sampleUserSystem sampleInputs]
    exact List.mem_map_of_mem hentry
  exact ⟨_, _, hsent, hpaid, hbalance, accountedFor hrun houtside⟩

end AxelarCgp.GasService
