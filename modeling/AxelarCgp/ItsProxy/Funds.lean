import AxelarCgp.Core.Custody
import AxelarCgp.ItsProxy.Contract

/-!
# What the proxy was given

Every payment that the token service delivered is with a call in flight, or recorded as
failed under its own key, or with the executable for good; and the proxy owns exactly
what it has recorded.
-/

namespace AxelarCgp.ItsProxy

open Machine Custody
open Governance (ManagedAsyncCallResult)

/-! ## What a history says -/

/-- A payment with the key it was delivered under. -/
structure Delivery where
  key : CallKey
  tokenIdentifier : EgldOrEsdtTokenIdentifier
  amount : ℕ
  deriving DecidableEq

namespace Delivery

def payment (delivery : Delivery) : EgldOrEsdtTokenIdentifier × ℕ :=
  (delivery.tokenIdentifier, delivery.amount)

def carried (delivery : Delivery) : Asset × ℕ :=
  (delivery.tokenIdentifier.asset 0, delivery.amount)

end Delivery

def Promise.delivery (promise : Promise) : Delivery :=
  ⟨promise.key, promise.tokenIdentifier, promise.amount⟩

/-- What a call brings, when it is a single payment. -/
def delivered (key : CallKey) : EgldOrMultiEsdtPayment → Option Delivery
  | .egld value => some ⟨key, .egld, value⟩
  | .multiEsdt [payment] => some ⟨key, .esdt payment.tokenIdentifier, payment.amount⟩
  | .multiEsdt _ => none

/-- The service delivers, anybody else tries again, and answers end a call. -/
def deliveryMove (service : Address) : Entry Input Output → Option (Move Delivery)
  | ⟨.executeWithInterchainToken ctx key, .ok output⟩ =>
      if ctx.caller = service then (delivered key ctx.callValue).map .send
      else output.registered.map fun promise => .resend promise.delivery
  | ⟨.callback index (.ok _), .ok _⟩ => some (.settle index)
  | ⟨.callback index (.err _ _), .ok _⟩ => some (.fail index)
  | _ => none

abbrev History := List (Entry Input Output)

/-- What the service delivered. -/
def deliveries (service : Address) (history : History) : List Delivery :=
  sent (deliveryMove service) history

/-- What a call carried that the executable completed. -/
def acceptedIn : Entry Input Output → Option Delivery
  | ⟨.callback _ (.ok _), .ok output⟩ => output.answered.map Promise.delivery
  | _ => none

def accepted (history : History) : List Delivery :=
  history.filterMap acceptedIn

theorem accepted_append (first second : History) :
    accepted (first ++ second) = accepted first ++ accepted second := by
  simp [accepted, List.filterMap_append]

theorem accepted_snoc_none {history : History} {entry : Entry Input Output}
    (h : acceptedIn entry = none) : accepted (history ++ [entry]) = accepted history := by
  simp [accepted, h]

/-! ## What a step does -/

section

variable {ctx : CallContext} {key : CallKey} {state nextState : State}
variable {system next : System} {output : Output}

theorem takePayment_eq_ok {payment : EgldOrEsdtTokenIdentifier × ℕ} :
    takePayment ctx key state = .ok (nextState, payment) ↔
      (ctx.caller = state.interchainTokenService ∧ nextState = state ∧
        TokenManager.egldOrSingleFungibleEsdt ctx.callValue = .ok payment) ∨
      (ctx.caller ≠ state.interchainTokenService ∧ state.failedCalls key = some payment ∧
        ctx.callValue.isEmpty ∧
        nextState =
          { state with failedCalls := Function.update state.failedCalls key none }) := by
  unfold takePayment
  by_cases hservice : ctx.caller = state.interchainTokenService
  · simp only [hservice, if_true, Outcome.bind_eq_ok, Outcome.pure_eq_ok, Prod.mk.injEq,
      exists_eq_right_right, true_and, ne_eq, not_true_eq_false, false_and, or_false]
    rw [and_comm, eq_comm]
  · simp only [hservice, if_false, Outcome.bind_eq_ok, Outcome.exists_unit,
      Outcome.orFail_eq_ok, Outcome.require_eq_ok, Outcome.pure_eq_ok, Prod.mk.injEq,
      false_and, false_or, ne_eq, not_false_eq_true, true_and]
    constructor
    · rintro ⟨_, hrecorded, hempty, rfl, rfl⟩
      exact ⟨hrecorded, hempty, rfl⟩
    · rintro ⟨hrecorded, hempty, rfl⟩
      exact ⟨payment, hrecorded, hempty, rfl, rfl⟩

/-- The call that forwards a payment. -/
def State.call (state : State) (ctx : CallContext) (key : CallKey)
    (payment : EgldOrEsdtTokenIdentifier × ℕ) : Promise where
  target := state.contractAddress
  key
  tokenIdentifier := payment.1
  amount := payment.2
  gasLimit := ctx.gasLeft - CALLBACK_GAS - KEEP_EXTRA_GAS
  extraGasForCallback := CALLBACK_GAS

/-- There is gas for the call, its callback and what follows. -/
def State.HasGas (state : State) (ctx : CallContext) : Prop :=
  state.minGasForExecution + CALLBACK_GAS + KEEP_EXTRA_GAS ≤ ctx.gasLeft

theorem executeWithInterchainToken_eq_ok {promise : Promise} :
    executeWithInterchainToken ctx key state = .ok (nextState, promise) ↔
      ∃ payment, takePayment ctx key state = .ok (nextState, payment) ∧
        nextState.HasGas ctx ∧ promise = nextState.call ctx key payment := by
  simp only [executeWithInterchainToken, Outcome.bind_eq_ok, Outcome.exists_unit,
    Outcome.require_eq_ok, Outcome.pure_eq_ok, Prod.mk.injEq, Prod.exists]
  constructor
  · rintro ⟨_, tokenIdentifier, amount, htake, hgas, rfl, rfl⟩
    exact ⟨tokenIdentifier, amount, htake, hgas, rfl⟩
  · rintro ⟨tokenIdentifier, amount, htake, hgas, rfl⟩
    exact ⟨nextState, tokenIdentifier, amount, htake, hgas, rfl, rfl⟩

theorem forward_eq_ok {promise : Promise} :
    forward ctx system (nextState, promise) = .ok (next, output) ↔
      (∀ asset, Purse.total promise.carried asset ≤
        system.balance asset + ctx.callValue.total asset) ∧
      next = ⟨nextState, fun asset => system.balance asset + ctx.callValue.total asset -
        Purse.total promise.carried asset, system.pending ++ [promise]⟩ ∧
      output = { registered := some promise } := by
  simp only [forward, Outcome.bind_eq_ok, Outcome.pure_eq_ok, Purse.withdraw_eq_ok,
    Prod.mk.injEq]
  constructor
  · rintro ⟨_, ⟨hcovered, rfl⟩, rfl, rfl⟩
    exact ⟨hcovered, rfl, rfl⟩
  · rintro ⟨hcovered, rfl, rfl⟩
    exact ⟨_, ⟨hcovered, rfl⟩, rfl, rfl⟩

/-- A single payment is what arrives with the call. -/
theorem egldOrSingleFungibleEsdt_eq_ok (key : CallKey) {value : EgldOrMultiEsdtPayment}
    {payment : EgldOrEsdtTokenIdentifier × ℕ}
    (h : TokenManager.egldOrSingleFungibleEsdt value = .ok payment) :
    delivered key value = some ⟨key, payment.1, payment.2⟩ ∧
      ∀ asset, value.total asset = Purse.total [(payment.1.asset 0, payment.2)] asset := by
  cases value with
  | egld value =>
    obtain rfl := Except.ok.inj h
    exact ⟨rfl, fun _ => rfl⟩
  | multiEsdt payments =>
    match payments with
    | [] => cases h
    | [single] =>
      simp only [TokenManager.egldOrSingleFungibleEsdt, Outcome.bind_eq_ok,
        Outcome.exists_unit, Outcome.require_eq_ok, Outcome.pure_eq_ok] at h
      obtain ⟨hnonce, rfl⟩ := h
      constructor
      · rfl
      · intro asset
        simp [EgldOrMultiEsdtPayment.total, EgldOrMultiEsdtPayment.amounts,
          EsdtTokenPayment.asset, hnonce]
    | _ :: _ :: _ => cases h

/-- A delivery or a retry, with the payment that the registered call carries. -/
theorem perform_execute_eq_ok
    (h : (Input.executeWithInterchainToken ctx key).perform system = .ok (next, output)) :
    ∃ payment promise, takePayment ctx key system.contract = .ok (next.contract, payment) ∧
      promise.delivery = ⟨key, payment.1, payment.2⟩ ∧
      output = { registered := some promise } ∧
      next.pending = system.pending ++ [promise] ∧
      ∀ asset, Purse.total [(payment.1.asset 0, payment.2)] asset ≤
          system.balance asset + ctx.callValue.total asset ∧
        next.balance asset = system.balance asset + ctx.callValue.total asset -
          Purse.total [(payment.1.asset 0, payment.2)] asset := by
  simp only [Input.perform, Outcome.bind_eq_ok, Prod.exists,
    executeWithInterchainToken_eq_ok, forward_eq_ok] at h
  obtain ⟨contract, promise, ⟨tokenIdentifier, amount, htake, _, hpromise⟩, hcovered, rfl, rfl⟩ :=
    h
  subst hpromise
  exact ⟨(tokenIdentifier, amount), _, htake, rfl, rfl, rfl, fun asset => ⟨hcovered asset, rfl⟩⟩

theorem answer_eq_ok {index : ℕ} {result : ManagedAsyncCallResult}
    (h : answer index result system = .ok (next, output)) :
    ∃ promise, system.pending[index]? = some promise ∧
      next.pending = system.pending.eraseIdx index ∧
      output.answered = some promise ∧
      next.contract = (executeCallback promise.key promise.tokenIdentifier promise.amount
        result system.contract).1 ∧
      next.balance = system.balance.deposit (result.returned promise.carried) := by
  simp only [answer, Outcome.bind_eq_ok, Outcome.orFail_eq_ok, Outcome.pure_eq_ok,
    Prod.mk.injEq] at h
  obtain ⟨promise, hpending, rfl, rfl⟩ := h
  exact ⟨promise, hpending, rfl, rfl, rfl, rfl⟩

end

/-! ## The invariant -/

/-- The calls in flight and the failed ones are those of the places, and the proxy owns
what the failed ones carried. -/
structure Holds (places : Places Delivery) (system : System) : Prop where
  inFlight : system.pending.map Promise.delivery = places.inFlight
  recorded : Records Delivery.key Delivery.payment system.contract.failedCalls places.returned
  balance : ∀ asset, system.balance asset =
    Purse.total (places.returned.map Delivery.carried) asset

/-- The places of a history hold what the service delivered, and the proxy holds what
they say. -/
structure Kept (service : Address) (history : History) (system : System) : Prop where
  forwards : system.contract.interchainTokenService = service
  items : (places (deliveryMove service) history).items.Perm (deliveries service history)
  settled : accepted history = (places (deliveryMove service) history).settled
  holds : Holds (places (deliveryMove service) history) system

variable {service : Address} {history : History} {system next : System}
variable {input : Input} {output : Output} {entry : Entry Input Output}
variable {ctx : CallContext} {key : CallKey}

theorem Holds.recorded_iff {places : Places Delivery} (h : Holds places system)
    {delivery : Delivery} :
    system.contract.failedCalls delivery.key = some delivery.payment ↔
      delivery ∈ places.returned := by
  rw [h.recorded]
  constructor
  · rintro ⟨⟨_, _, _⟩, hmem, rfl, hpayment⟩
    obtain ⟨rfl, rfl⟩ := Prod.mk.inj hpayment
    exact hmem
  · intro hmem
    exact ⟨delivery, hmem, rfl, rfl⟩

/-- The part of the purse that one failed call has in it. -/
theorem Holds.balance_erase {places : Places Delivery} (h : Holds places system)
    {delivery : Delivery} (hreturned : delivery ∈ places.returned) (asset : Asset) :
    system.balance asset = Purse.total [delivery.carried] asset +
      Purse.total ((places.returned.erase delivery).map Delivery.carried) asset := by
  calc system.balance asset
      = Purse.total (places.returned.map Delivery.carried) asset := h.balance asset
    _ = Purse.total ((delivery :: places.returned.erase delivery).map Delivery.carried) asset :=
        Purse.total_perm ((List.perm_cons_erase hreturned).map _) asset
    _ = Purse.total ([delivery.carried] ++
          (places.returned.erase delivery).map Delivery.carried) asset := rfl
    _ = _ := Purse.total_append _ _ _

/-- A delivery goes out with the payment that came with it. -/
theorem Holds.delivery {places : Places Delivery} (h : Holds places system)
    {delivery : Delivery} (hcontract : next.contract = system.contract)
    (hpending : next.pending.map Promise.delivery =
      system.pending.map Promise.delivery ++ [delivery])
    (hbalance : next.balance = system.balance) :
    Holds (places.move (.send delivery)) next where
  inFlight := by
    rw [hpending, h.inFlight]
    rfl
  recorded := by
    rw [hcontract]
    exact h.recorded
  balance := by
    rw [hbalance]
    exact h.balance

/-- A retry takes what was recorded out of the table and out of the purse. -/
theorem Holds.retry {places : Places Delivery} (h : Holds places system) {delivery : Delivery}
    (hdistinct : (places.returned.map Delivery.key).Nodup)
    (hreturned : delivery ∈ places.returned)
    (hfailed : next.contract.failedCalls =
      Function.update system.contract.failedCalls delivery.key none)
    (hpending : next.pending.map Promise.delivery =
      system.pending.map Promise.delivery ++ [delivery])
    (hbalance : ∀ asset, next.balance asset =
      system.balance asset - Purse.total [delivery.carried] asset) :
    Holds (places.move (.resend delivery)) next where
  inFlight := by
    rw [hpending, h.inFlight]
    rfl
  recorded := by
    rw [hfailed]
    exact h.recorded.erase hdistinct hreturned
  balance asset := by
    rw [hbalance, h.balance_erase hreturned, Nat.add_sub_cancel_left]
    rfl

/-- A call that fails comes back with what it carried. -/
theorem Holds.failure {places : Places Delivery} (h : Holds places system) {delivery : Delivery}
    {index : ℕ} (hindex : places.inFlight[index]? = some delivery)
    (hfresh : delivery.key ∉ places.returned.map Delivery.key)
    (hfailed : next.contract.failedCalls =
      Function.update system.contract.failedCalls delivery.key (some delivery.payment))
    (hpending : next.pending = system.pending.eraseIdx index)
    (hbalance : ∀ asset, next.balance asset =
      system.balance asset + Purse.total [delivery.carried] asset) :
    Holds (places.move (.fail index)) next where
  inFlight := by
    rw [hpending, ← List.eraseIdx_map, h.inFlight]
    rfl
  recorded := by
    simp only [Places.move, hindex, Option.toList_some]
    rw [hfailed]
    exact h.recorded.snoc hfresh
  balance asset := by
    simp only [Places.move, hindex, Option.toList_some, List.map_append, Purse.total_append]
    rw [hbalance, h.balance]
    rfl

/-- A call that is accepted takes what it carried with it. -/
theorem Holds.acceptance {places : Places Delivery} (h : Holds places system) {index : ℕ}
    (hcontract : next.contract = system.contract)
    (hpending : next.pending = system.pending.eraseIdx index)
    (hbalance : next.balance = system.balance) :
    Holds (places.move (.settle index)) next where
  inFlight := by
    rw [hpending, ← List.eraseIdx_map, h.inFlight]
    rfl
  recorded := by
    rw [hcontract]
    exact h.recorded
  balance := by
    rw [hbalance]
    exact h.balance

namespace Kept

/-- A step that moves no payment. -/
theorem quiet (h : Kept service history system) (hmove : deliveryMove service entry = none)
    (haccepted : acceptedIn entry = none)
    (hservice : next.contract.interchainTokenService = system.contract.interchainTokenService)
    (hfailed : next.contract.failedCalls = system.contract.failedCalls)
    (hpending : next.pending = system.pending) (hbalance : next.balance = system.balance) :
    Kept service (history ++ [entry]) next where
  forwards := by rw [hservice, h.forwards]
  items := by
    rw [deliveries, places_snoc_none hmove, sent_snoc_none hmove]
    exact h.items
  settled := by
    rw [places_snoc_none hmove, accepted_snoc_none haccepted, h.settled]
  holds := by
    rw [places_snoc_none hmove]
    exact ⟨hpending ▸ h.holds.inFlight, hfailed ▸ h.holds.recorded, hbalance ▸ h.holds.balance⟩

/-- A step that moves a payment. -/
theorem moved (h : Kept service history system) (step : Move Delivery)
    (hmove : deliveryMove service entry = some step)
    (hallows : (places (deliveryMove service) history).Allows step)
    (hservice : next.contract.interchainTokenService = system.contract.interchainTokenService)
    (hsettled : accepted (history ++ [entry]) =
      ((places (deliveryMove service) history).move step).settled)
    (hholds : Holds ((places (deliveryMove service) history).move step) next) :
    Kept service (history ++ [entry]) next where
  forwards := by rw [hservice, h.forwards]
  items := by
    rw [deliveries, places_snoc_some hmove, sent_snoc_some hmove]
    exact (Places.items_move_perm hallows).trans (h.items.append_right _)
  settled := by rw [places_snoc_some hmove, hsettled]
  holds := by
    rw [places_snoc_some hmove]
    exact hholds

/-- Where keys are delivered once, no two payments have one key. -/
theorem distinct (h : Kept service history system)
    (hdistinct : ((deliveries service history).map Delivery.key).Nodup) :
    ((places (deliveryMove service) history).items.map Delivery.key).Nodup :=
  (h.items.map Delivery.key).nodup_iff.mpr hdistinct

theorem returned_distinct (h : Kept service history system)
    (hdistinct : ((deliveries service history).map Delivery.key).Nodup) :
    ((places (deliveryMove service) history).returned.map Delivery.key).Nodup := by
  have hall := h.distinct hdistinct
  simp only [Places.items, List.map_append] at hall
  exact hall.of_append_left.of_append_right

/-- A payment that is in flight is not recorded as well. -/
theorem inFlight_fresh (h : Kept service history system)
    (hdistinct : ((deliveries service history).map Delivery.key).Nodup) {delivery : Delivery}
    (hflight : delivery ∈ (places (deliveryMove service) history).inFlight) :
    delivery.key ∉ (places (deliveryMove service) history).returned.map Delivery.key := by
  have hall := h.distinct hdistinct
  simp only [Places.items, List.map_append] at hall
  exact (List.disjoint_of_nodup_append hall.of_append_left) (List.mem_map_of_mem hflight)

/-- The service brings a payment. -/
theorem delivery (h : Kept service history system) (hcaller : ctx.caller = service)
    (hok : (Input.executeWithInterchainToken ctx key).perform system = .ok (next, output)) :
    Kept service (history ++ [⟨.executeWithInterchainToken ctx key, .ok output⟩]) next := by
  obtain ⟨payment, promise, htake, hdelivery, rfl, hpending, hbalance⟩ :=
    perform_execute_eq_ok hok
  rcases takePayment_eq_ok.mp htake with ⟨_, hcontract, hpayment⟩ | ⟨hother, _⟩
  · obtain ⟨hdelivered, htotal⟩ := egldOrSingleFungibleEsdt_eq_ok key hpayment
    apply h.moved (.send promise.delivery)
    · simp [deliveryMove, hcaller, hdelivered, hdelivery]
    · trivial
    · rw [hcontract]
    · rw [accepted_snoc_none rfl, h.settled]
      rfl
    · apply h.holds.delivery hcontract
      · simp [hpending]
      · funext asset
        rw [(hbalance asset).2, htotal, Nat.add_sub_cancel]
  · exact absurd (hcaller.trans h.forwards.symm) hother

/-- Anybody calls again what had failed. -/
theorem retry (h : Kept service history system) (hcaller : ctx.caller ≠ service)
    (hdistinct : ((deliveries service history).map Delivery.key).Nodup)
    (hok : (Input.executeWithInterchainToken ctx key).perform system = .ok (next, output)) :
    Kept service (history ++ [⟨.executeWithInterchainToken ctx key, .ok output⟩]) next := by
  obtain ⟨payment, promise, htake, hdelivery, rfl, hpending, hbalance⟩ :=
    perform_execute_eq_ok hok
  rcases takePayment_eq_ok.mp htake with ⟨hsame, _⟩ | ⟨_, hrecorded, hempty, hcontract⟩
  · exact absurd (hsame.trans h.forwards) hcaller
  · have hreturned : promise.delivery ∈ (places (deliveryMove service) history).returned := by
      obtain ⟨delivery, hmem, hkey, hvalue⟩ := (h.holds.recorded key payment).mp hrecorded
      rw [hdelivery, ← hkey, ← hvalue]
      exact hmem
    apply h.moved (.resend promise.delivery)
    · simp [deliveryMove, hcaller]
    · exact hreturned
    · rw [hcontract]
    · rw [accepted_snoc_none rfl, h.settled]
      rfl
    · apply h.holds.retry (h.returned_distinct hdistinct) hreturned
      · rw [hcontract, hdelivery]
      · simp [hpending]
      · intro asset
        rw [(hbalance asset).2, EgldOrMultiEsdtPayment.total_eq_zero_of_isEmpty hempty, hdelivery]
        rfl

/-- A call in flight is answered. -/
theorem callback (h : Kept service history system)
    (hdistinct : ((deliveries service history).map Delivery.key).Nodup) {index : ℕ}
    {result : ManagedAsyncCallResult}
    (hok : answer index result system = .ok (next, output)) :
    Kept service (history ++ [⟨.callback index result, .ok output⟩]) next := by
  obtain ⟨promise, hindex, hpending, hanswered, hcontract, hbalance⟩ := answer_eq_ok hok
  have hflight : (places (deliveryMove service) history).inFlight[index]? =
      some promise.delivery := by
    rw [← h.holds.inFlight, List.getElem?_map, hindex]
    rfl
  cases result with
  | ok results =>
    apply h.moved (.settle index) rfl trivial
    · rw [hcontract]
      rfl
    · simp [accepted, acceptedIn, Places.move, hflight, hanswered, ← h.settled]
    · apply h.holds.acceptance hcontract hpending
      funext asset
      simp [hbalance, ManagedAsyncCallResult.returned]
  | err errCode errMsg =>
    apply h.moved (.fail index) rfl trivial
    · rw [hcontract]
      rfl
    · rw [accepted_snoc_none rfl, h.settled]
      rfl
    · apply h.holds.failure hflight (h.inFlight_fresh hdistinct (List.mem_of_getElem? hflight))
      · rw [hcontract]
        rfl
      · exact hpending
      · intro asset
        rw [hbalance]
        rfl

theorem step (h : Kept service history system)
    (hdistinct : ((deliveries service history).map Delivery.key).Nodup)
    (hok : input.perform system = .ok (next, output)) :
    Kept service (history ++ [⟨input, .ok output⟩]) next := by
  cases input with
  | executeWithInterchainToken ctx key =>
    by_cases hcaller : ctx.caller = service
    · exact h.delivery hcaller hok
    · exact h.retry hcaller hdistinct hok
  | setMinGasForExecution ctx minGasForExecution =>
    simp only [Input.perform, setMinGasForExecution, Outcome.bind_eq_ok, Outcome.exists_unit,
      Outcome.pure_eq_ok, Prod.mk.injEq] at hok
    obtain ⟨_, contract, ⟨_, rfl⟩, rfl, _⟩ := hok
    apply h.quiet <;> rfl
  | upgrade minGasForExecution =>
    simp only [Input.perform, Outcome.pure_eq_ok, Prod.mk.injEq] at hok
    obtain ⟨rfl, _⟩ := hok
    apply h.quiet <;> rfl
  | callback index result => exact h.callback hdistinct hok

theorem run {start : System} (hstart : Kept service [] start)
    (hrun : Run machine start history system)
    (hdistinct : ((deliveries service history).map Delivery.key).Nodup) :
    Kept service history system := by
  induction hrun with
  | start => exact hstart
  | @completed history reached next input output _ hok ih =>
    have hbefore : ((deliveries service history).map Delivery.key).Nodup := by
      simp only [deliveries, sent, List.filterMap_append, List.flatMap_append,
        List.map_append] at hdistinct
      exact hdistinct.of_append_left
    exact (ih hbefore).step hbefore hok
  | @stopped history reached input message _ _ ih =>
    have hmove : deliveryMove service ⟨input, .error message⟩ = none := by
      cases input with
      | callback index result => cases result <;> rfl
      | _ => rfl
    have haccepted : acceptedIn ⟨input, .error message⟩ = none := by
      cases input with
      | callback index result => cases result <;> rfl
      | _ => rfl
    rw [deliveries, sent_snoc_none hmove] at hdistinct
    exact (ih hdistinct).quiet hmove haccepted rfl rfl rfl rfl

theorem deploy (interchainTokenService contractAddress : Address) (minGasForExecution : UInt64) :
    Kept interchainTokenService []
      (.deploy (init interchainTokenService contractAddress minGasForExecution)) where
  forwards := rfl
  items := List.Perm.refl _
  settled := rfl
  holds :=
    { inFlight := rfl
      recorded := by simp [Records, init, System.deploy, places, Places.start]
      balance := fun _ => rfl }

end Kept

/-! ## The funds -/

/-- A call in flight has the payment. -/
def InFlight (system : System) (delivery : Delivery) : Prop :=
  delivery ∈ system.pending.map Promise.delivery

/-- The payment is recorded under its own key. -/
def Recorded (system : System) (delivery : Delivery) : Prop :=
  system.contract.failedCalls delivery.key = some delivery.payment

/-- Where the payments are that the service delivered. -/
structure FundsKept (service : Address) (history : History) (system : System) : Prop where
  /-- Each of them is in one of three places. -/
  place : ∀ delivery ∈ deliveries service history,
    InFlight system delivery ∧ ¬ Recorded system delivery ∧ delivery ∉ accepted history ∨
    ¬ InFlight system delivery ∧ Recorded system delivery ∧ delivery ∉ accepted history ∨
    ¬ InFlight system delivery ∧ ¬ Recorded system delivery ∧ delivery ∈ accepted history
  /-- Together they are the calls in flight, the table of failed calls and what was
  accepted, and the proxy owns what is in the table. -/
  account : ∃ failed : List Delivery, (failed.map Delivery.key).Nodup ∧
    Records Delivery.key Delivery.payment system.contract.failedCalls failed ∧
    (deliveries service history).Perm
      (system.pending.map Promise.delivery ++ failed ++ accepted history) ∧
    ∀ asset, system.balance asset = Purse.total (failed.map Delivery.carried) asset
  alone : (system.pending.map Promise.key).Nodup
  /-- What was accepted does not come back. -/
  final : ∀ before after, history = before ++ after → ∀ delivery ∈ accepted before,
    delivery ∈ accepted history ∧ delivery.key ∉ system.pending.map Promise.key ∧
      system.contract.failedCalls delivery.key = none
  /-- A retry of nothing that failed, with a payment or without the gas, is refused. -/
  refuses : ∀ ctx key, ctx.caller ≠ service →
    system.contract.failedCalls key = none ∨ ¬ ctx.callValue.isEmpty ∨
      ¬ system.contract.HasGas ctx →
    ∃ message, machine.step system (.executeWithInterchainToken ctx key) = .error message
  /-- Any other retry makes the call again, with the same payment. -/
  retries : ∀ ctx key payment, ctx.caller ≠ service →
    system.contract.failedCalls key = some payment → ctx.callValue.isEmpty →
    system.contract.HasGas ctx →
    ∃ next, machine.step system (.executeWithInterchainToken ctx key) =
      .ok (next, { registered := some (system.contract.call ctx key payment) })

/-- What is refused: the message depends on the first check that fails. -/
theorem execute_refused (hcaller : ctx.caller ≠ system.contract.interchainTokenService)
    (hrefused : system.contract.failedCalls key = none ∨ ¬ ctx.callValue.isEmpty ∨
      ¬ system.contract.HasGas ctx) :
    ∃ message, machine.step system (.executeWithInterchainToken ctx key) = .error message := by
  cases hresult : machine.step system (.executeWithInterchainToken ctx key) with
  | error message => exact ⟨message, rfl⟩
  | ok result =>
    obtain ⟨next, output⟩ := result
    simp only [machine, Input.perform, Outcome.bind_eq_ok, Prod.exists,
      executeWithInterchainToken_eq_ok] at hresult
    obtain ⟨contract, _, ⟨_, _, htake, hgas, _⟩, _⟩ := hresult
    rcases takePayment_eq_ok.mp htake with ⟨hservice, _⟩ | ⟨_, hrecorded, hempty, hcontract⟩
    · exact absurd hservice hcaller
    · rcases hrefused with hnone | hpaid | hlow
      · rw [hnone] at hrecorded
        cases hrecorded
      · exact absurd hempty hpaid
      · rw [hcontract] at hgas
        exact absurd hgas hlow

/-- What was recorded is covered, so that a retry cannot stop for want of funds. -/
theorem Holds.retry_isOk {places : Places Delivery} (h : Holds places system)
    {payment : EgldOrEsdtTokenIdentifier × ℕ}
    (hcaller : ctx.caller ≠ system.contract.interchainTokenService)
    (hrecorded : system.contract.failedCalls key = some payment)
    (hempty : ctx.callValue.isEmpty) (hgas : system.contract.HasGas ctx) :
    ∃ next, machine.step system (.executeWithInterchainToken ctx key) =
      .ok (next, { registered := some (system.contract.call ctx key payment) }) := by
  obtain ⟨delivery, hreturned, rfl, rfl⟩ := (h.recorded key payment).mp hrecorded
  have hcovered : ∀ asset, Purse.total
      (system.contract.call ctx delivery.key delivery.payment).carried asset ≤
        system.balance asset + ctx.callValue.total asset := by
    intro asset
    rw [h.balance_erase hreturned, Nat.add_assoc]
    exact Nat.le_add_right _ _
  have htake := takePayment_eq_ok.mpr (.inr ⟨hcaller, hrecorded, hempty, rfl⟩)
  have hexecute := executeWithInterchainToken_eq_ok.mpr ⟨_, htake, hgas, rfl⟩
  simp only [machine, Input.perform, Outcome.bind_eq_ok]
  exact ⟨_, _, hexecute, forward_eq_ok.mpr ⟨hcovered, rfl, rfl⟩⟩

/-- Throughout every run in which the service delivers under each key at most once. -/
theorem fundsKept {interchainTokenService contractAddress : Address}
    {minGasForExecution : UInt64} {history : History} {system : System}
    (hrun : Run machine (.deploy (init interchainTokenService contractAddress
      minGasForExecution)) history system)
    (hdistinct : ((deliveries interchainTokenService history).map Delivery.key).Nodup) :
    FundsKept interchainTokenService history system := by
  have hkept : Kept interchainTokenService history system :=
    Kept.run (.deploy _ _ _) hrun hdistinct
  have hholds := hkept.holds
  have hkeys := hkept.distinct hdistinct
  have hitems := hkept.items
  rw [Places.items, ← hkept.settled, ← hholds.inFlight] at hkeys hitems
  have haccepted : ∀ delivery ∈ accepted history,
      delivery.key ∉ system.pending.map Promise.key ∧
        system.contract.failedCalls delivery.key = none := by
    intro delivery hdelivery
    rw [List.map_append, List.nodup_append] at hkeys
    have hapart := hkeys.2.2
    constructor
    · intro hflight
      have hkey : delivery.key ∈ (system.pending.map Promise.delivery).map Delivery.key := by
        rw [List.map_map]
        exact hflight
      apply hapart _ _ _ (List.mem_map_of_mem hdelivery) rfl
      rw [List.map_append]
      exact List.mem_append_left _ hkey
    · cases hfailed : system.contract.failedCalls delivery.key with
      | none => rfl
      | some payment =>
        obtain ⟨other, hother, hkey, _⟩ := (hholds.recorded _ _).mp hfailed
        apply (hapart _ _ _ (List.mem_map_of_mem hdelivery) rfl).elim
        rw [List.map_append, ← hkey]
        exact List.mem_append_right _ (List.mem_map_of_mem hother)
  constructor
  case place =>
    intro delivery hdelivered
    have hnodup := List.Nodup.of_map _ hkeys
    have hplace := hitems.mem_iff.mpr hdelivered
    rw [InFlight, Recorded, hholds.recorded_iff]
    grind
  case account =>
    exact ⟨_, hkept.returned_distinct hdistinct, hholds.recorded, hitems.symm, hholds.balance⟩
  case alone =>
    simp only [List.map_append, List.map_map] at hkeys
    exact hkeys.of_append_left.of_append_left
  case final =>
    rintro before after rfl delivery hbefore
    have hstill : delivery ∈ accepted (before ++ after) := by
      rw [accepted_append]
      exact List.mem_append_left _ hbefore
    exact ⟨hstill, haccepted delivery hstill⟩
  case refuses =>
    intro ctx key hcaller
    apply execute_refused
    rw [hkept.forwards]
    exact hcaller
  case retries =>
    intro ctx key payment hcaller
    apply hholds.retry_isOk
    rw [hkept.forwards]
    exact hcaller

/-! ## Two deliveries, one of which fails twice -/

def sampleService : Address := Address.ofByte 1

def sampleExecutable : Address := Address.ofByte 2

def sampleUser : Address := Address.ofByte 3

def sampleName (letter : UInt8) : ManagedBuffer := ⟨[letter], by simp [lengthLimit]⟩

def sampleKey (letter : UInt8) : CallKey where
  sourceChain := sampleName 10
  messageId := sampleName letter
  sourceAddress := sampleName 11
  data := sampleName 12
  tokenId := Address.ofByte 4

def sampleContext (caller : Address) (callValue : EgldOrMultiEsdtPayment) : CallContext where
  caller
  scAddress := Address.ofByte 5
  ownerAddress := Address.ofByte 6
  blockTimestamp := 0
  callValue
  gasLeft := 100000000

def sampleFailure : ManagedAsyncCallResult := .err 4 (sampleName 13)

/-- The first delivery fails and is called again by a user, and then accepted, while the
second one fails. -/
def sampleCalls : List Input :=
  [.executeWithInterchainToken (sampleContext sampleService (.egld 5)) (sampleKey 1),
    .executeWithInterchainToken (sampleContext sampleService
      (.multiEsdt [⟨sampleName 14, 0, 7⟩])) (sampleKey 2),
    .executeWithInterchainToken (sampleContext sampleUser .none) (sampleKey 1),
    .callback 0 sampleFailure,
    .executeWithInterchainToken (sampleContext sampleUser .none) (sampleKey 3),
    .executeWithInterchainToken (sampleContext sampleUser (.egld 1)) (sampleKey 1),
    .executeWithInterchainToken (sampleContext sampleUser .none) (sampleKey 1),
    .callback 1 (.ok []),
    .callback 0 sampleFailure]

def sampleReplay : History × System :=
  machine.replay (.deploy (init sampleService sampleExecutable 20000000)) sampleCalls

/-- Which calls complete, what is accepted and what stays with the proxy. -/
theorem sampleReplay_state :
    (sampleReplay.1.map fun entry => entry.result.isOk,
      deliveries sampleService sampleReplay.1,
      accepted sampleReplay.1,
      sampleReplay.2.contract.failedCalls (sampleKey 2),
      sampleReplay.2.balance (.esdt (sampleName 14) 0)) =
    ([true, true, false, true, false, false, true, true, true],
      [⟨sampleKey 1, .egld, 5⟩, ⟨sampleKey 2, .esdt (sampleName 14), 7⟩],
      [⟨sampleKey 1, .egld, 5⟩],
      some (.esdt (sampleName 14), 7), 7) := by
  decide +kernel

theorem sample_fundsKept :
    FundsKept sampleService sampleReplay.1 sampleReplay.2 ∧
      accepted sampleReplay.1 = [⟨sampleKey 1, .egld, 5⟩] ∧
      Recorded sampleReplay.2 ⟨sampleKey 2, .esdt (sampleName 14), 7⟩ := by
  have hstate := sampleReplay_state
  simp only [Prod.mk.injEq] at hstate
  obtain ⟨_, hdeliveries, haccepted, hrecorded, _⟩ := hstate
  refine ⟨fundsKept (run_replay _ _ _) ?_, haccepted, hrecorded⟩
  rw [hdeliveries]
  decide

end AxelarCgp.ItsProxy
