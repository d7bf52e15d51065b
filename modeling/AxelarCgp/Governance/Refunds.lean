import AxelarCgp.Governance.OperatorProposals

/-!
# Refunds

What users may withdraw is recorded in the callback of a failed call, from the
payments made when the call was dispatched; what the call carried comes out of
the common balance.  The two need not agree.  Refunds are backed in every run
whose dispatches take out no more than their caller attached and what nothing
else has a claim on, and a run without that discipline is given that loses them.
-/

namespace AxelarCgp.Governance

open Machine

abbrev RefundKey := Address × EgldOrEsdtToken

/-- What is recorded under some keys of one asset. -/
def State.owed (state : State) (asset : Asset) (keys : Finset RefundKey) : ℕ :=
  ∑ key ∈ keys with key.2.asset = asset, state.refundToken key.1 key.2

section Owed

variable {asset : Asset} {keys : Finset RefundKey} {state next : State} {user : Address}
variable {token : EgldOrEsdtToken} {amount : ℕ}

theorem owed_congr (h : next.refundToken = state.refundToken) :
    next.owed asset keys = state.owed asset keys := by
  rw [State.owed, State.owed, h]

/-- A refund adds its amount to what is owed of its asset, and no more. -/
theorem owed_refund_le :
    (refund user token amount state).owed asset keys ≤
      state.owed asset keys + if token.asset = asset then amount else 0 := by
  have hsplit : ∀ key : RefundKey, (refund user token amount state).refundToken key.1 key.2 =
      state.refundToken key.1 key.2 + if key = (user, token) then amount else 0 := by
    rintro ⟨owner, other⟩
    simp only [refund, Function.update_apply, Prod.mk.injEq]
    split <;> split <;> simp_all
  simp only [State.owed, hsplit, Finset.sum_add_distrib, Finset.sum_ite_eq',
    Finset.mem_filter]
  split <;> split <;> simp_all

theorem owed_handleCallbackFailure_le (payments : EgldOrMultiEsdtPayment) :
    (handleCallbackFailure user payments state).owed asset keys ≤
      state.owed asset keys + payments.total asset := by
  cases payments with
  | egld value =>
      have hasset : EgldOrEsdtToken.egld.asset = Asset.egld := rfl
      have hrefund : (refund user .egld value state).owed asset keys ≤ state.owed asset keys +
          if EgldOrEsdtToken.egld.asset = asset then value else 0 := owed_refund_le
      simpa [handleCallbackFailure, EgldOrMultiEsdtPayment.total,
        EgldOrMultiEsdtPayment.amounts, hasset] using hrefund
  | multiEsdt esdts =>
      simp only [handleCallbackFailure, EgldOrMultiEsdtPayment.total,
        EgldOrMultiEsdtPayment.amounts]
      induction esdts generalizing state with
      | nil => simp
      | cons esdt esdts ih =>
          simp only [List.foldl_cons, List.map_cons, Purse.total_cons]
          have hrest := @ih (refund user (.ofPayment esdt) esdt.amount state)
          have hfirst : (refund user (.ofPayment esdt) esdt.amount state).owed asset keys ≤
              state.owed asset keys + if esdt.asset = asset then esdt.amount else 0 :=
            owed_refund_le
          omega

/-- Taking a refund out pays for itself. -/
theorem owed_withdrawRefundToken (ctx : CallContext) :
    (withdrawRefundToken ctx token state).1.owed asset keys +
        (if token.asset = asset then state.refundToken ctx.caller token else 0) ≤
      state.owed asset (insert (ctx.caller, token) keys) := by
  have hsplit : ∀ key : RefundKey,
      (withdrawRefundToken ctx token state).1.refundToken key.1 key.2 +
        (if key = (ctx.caller, token) then state.refundToken ctx.caller token else 0) =
          state.refundToken key.1 key.2 := by
    rintro ⟨owner, other⟩
    simp only [withdrawRefundToken, Function.update_apply, Prod.mk.injEq]
    split <;> split <;> simp_all
  have hmono : (withdrawRefundToken ctx token state).1.owed asset keys ≤
      (withdrawRefundToken ctx token state).1.owed asset
        (insert (ctx.caller, token) keys) :=
    Finset.sum_le_sum_of_subset (Finset.filter_subset_filter _ (Finset.subset_insert _ _))
  refine (Nat.add_le_add_right hmono _).trans (le_of_eq ?_)
  simp only [State.owed, ← hsplit, Finset.sum_add_distrib, Finset.sum_ite_eq',
    Finset.mem_filter, Finset.mem_insert_self, true_and]

end Owed

/-! ## Endpoints that do not touch the refunds -/

section RefundToken

variable {crypto : Crypto} {ctx : CallContext} {target : Address} {callData : ManagedBuffer}
variable {nativeValue : BigUint} {state next : State} {effects : Effects}

theorem refundToken_executeProposal
    (h : executeProposal crypto ctx target callData nativeValue state = .ok (next, effects)) :
    next.refundToken = state.refundToken := by
  simp only [executeProposal, Outcome.bind_eq_ok, Outcome.exists_unit, Outcome.require_eq_ok,
    Outcome.orFail_eq_ok, Outcome.pure_eq_ok, Prod.mk.injEq] at h
  obtain ⟨_, _, _, _, _, _, rfl, _⟩ := h
  rfl

theorem refundToken_executeOperatorProposal
    (h : executeOperatorProposal crypto ctx target callData nativeValue state =
      .ok (next, effects)) :
    next.refundToken = state.refundToken := by
  simp only [executeOperatorProposal, Outcome.bind_eq_ok, Outcome.exists_unit,
    Outcome.require_eq_ok, Outcome.orFail_eq_ok, Outcome.pure_eq_ok, Prod.mk.injEq] at h
  obtain ⟨_, _, _, _, _, _, _, rfl, _⟩ := h
  rfl

theorem refundToken_processCommand {executePayload : ExecutePayload}
    (h : processCommand crypto ctx executePayload state = .ok (next, effects)) :
    next.refundToken = state.refundToken := by
  obtain ⟨command, target, callData, nativeValue, eta⟩ := executePayload
  cases command
  all_goals
    simp only [processCommand, scheduleTimeLock, approveOperatorProposal,
      Outcome.bind_eq_ok, Outcome.exists_unit, Outcome.require_eq_ok, Prod.exists,
      Outcome.pure_eq_ok, Prod.mk.injEq] at h
  case scheduleTimeLockProposal =>
      obtain ⟨_, _, _, ⟨_, _, rfl, _⟩, rfl, _⟩ := h
      rfl
  case cancelTimeLockProposal =>
      obtain ⟨_, rfl, _⟩ := h
      rfl
  case approveOperatorProposal =>
      obtain ⟨_, _, ⟨_, _, rfl⟩, rfl, _⟩ := h
      rfl
  case cancelOperatorApproval =>
      obtain ⟨_, rfl, _⟩ := h
      rfl

theorem refundToken_transferOperatorship {newOperator : Address}
    (h : transferOperatorship ctx newOperator state = .ok (next, effects)) :
    next.refundToken = state.refundToken := by
  simp only [transferOperatorship, Outcome.bind_eq_ok, Outcome.exists_unit,
    Outcome.require_eq_ok, Outcome.pure_eq_ok, Prod.mk.injEq] at h
  obtain ⟨_, _, rfl, _⟩ := h
  rfl

/-- A withdrawal sends the recorded refund and nothing else. -/
theorem total_outflow_withdrawRefundToken (builtinTransfers : BuiltinTransfers)
    (ctx : CallContext) (token : EgldOrEsdtToken) (state : State) (asset : Asset) :
    Purse.total ((withdrawRefundToken ctx token state).2.outflow builtinTransfers) asset =
      if token.asset = asset then state.refundToken ctx.caller token else 0 := by
  by_cases hzero : state.refundToken ctx.caller token = 0 <;>
    simp [withdrawRefundToken, Effects.outflow, hzero]

end RefundToken

/-! ## Reserves -/

variable {builtinTransfers : BuiltinTransfers} {crypto : Crypto}

/-- What a failure of a call would add to the refunds beyond what it brings
back. -/
def Promise.shortfall (builtinTransfers : BuiltinTransfers) (asset : Asset)
    (promise : Promise) : ℕ :=
  promise.callback.payments.total asset - Purse.total (promise.carried builtinTransfers) asset

def System.shortfall (builtinTransfers : BuiltinTransfers) (asset : Asset)
    (system : System) : ℕ :=
  (system.pending.map (Promise.shortfall builtinTransfers asset)).sum

/-- The refunds, and those that calls in flight may still add, are in the
balance. -/
def Reserved (builtinTransfers : BuiltinTransfers) (system : System) : Prop :=
  ∀ asset keys, system.contract.owed asset keys + system.shortfall builtinTransfers asset ≤
    system.balance asset

/-- A dispatch takes at most what its caller attached and what is free. -/
def DispatchCovered (builtinTransfers : BuiltinTransfers) (system : System)
    (ctx : CallContext) (target : Address) (callData : ManagedBuffer)
    (nativeValue : BigUint) : Prop :=
  ∀ data : DecodedCallData, NestedCodec.topDecode callData.1 = some data → ∀ asset keys,
    system.contract.owed asset keys + system.shortfall builtinTransfers asset +
        Purse.total (carriedBy builtinTransfers target nativeValue data.endpointName
          data.arguments) asset ≤
      system.balance asset + ctx.callValue.total asset

/-- Nothing leaves the contract on account of the refunds of others: neither
with a dispatch nor by a withdrawal of the contract's own funds. -/
def Covered (builtinTransfers : BuiltinTransfers) (system : System) : Input → Prop
  | .executeProposal ctx target callData nativeValue =>
      DispatchCovered builtinTransfers system ctx target callData nativeValue
  | .executeOperatorProposal ctx target callData nativeValue =>
      DispatchCovered builtinTransfers system ctx target callData nativeValue
  | .withdraw ctx recipient amount => recipient = ctx.scAddress ∨ ∀ keys,
      system.contract.owed .egld keys + system.shortfall builtinTransfers .egld + amount ≤
        system.balance .egld
  | _ => True

/-- The caller of a dispatch attaches all that it takes. -/
def Attached (builtinTransfers : BuiltinTransfers) (ctx : CallContext) (target : Address)
    (callData : ManagedBuffer) (nativeValue : BigUint) : Prop :=
  ∀ data : DecodedCallData, NestedCodec.topDecode callData.1 = some data → ∀ asset,
    Purse.total (carriedBy builtinTransfers target nativeValue data.endpointName
      data.arguments) asset ≤ ctx.callValue.total asset

/-- An operation that pays for itself, in whatever state it meets. -/
def Input.SelfFunded (builtinTransfers : BuiltinTransfers) : Input → Prop
  | executeProposal ctx target callData nativeValue =>
      Attached builtinTransfers ctx target callData nativeValue
  | executeOperatorProposal ctx target callData nativeValue =>
      Attached builtinTransfers ctx target callData nativeValue
  | withdraw ctx recipient _ => recipient = ctx.scAddress
  | _ => True

namespace Reserved

variable {system next : System} {ctx : CallContext} {contract : State} {effects : Effects}
variable {output : Output}

theorem deploy {gateway operator : Address} {governanceChain governanceAddress : ManagedBuffer}
    {delay : UInt64}
    (h : init gateway governanceChain governanceAddress delay operator = .ok contract) :
    Reserved builtinTransfers (.deploy contract) := by
  simp only [init, Outcome.bind_eq_ok, Outcome.exists_unit, Outcome.require_eq_ok,
    Outcome.pure_eq_ok] at h
  obtain ⟨_, rfl⟩ := h
  intro asset keys
  simp [State.owed, System.shortfall, System.deploy]

/-- An endpoint that registers no call keeps the reserve when what it owes and
sends is no more than before. -/
theorem settle
    (hsettle : Governance.settle builtinTransfers ctx system (contract, effects) =
      .ok (next, output))
    (hpromise : effects.promise = none)
    (h : ∀ asset keys, contract.owed asset keys + system.shortfall builtinTransfers asset +
        Purse.total (effects.outflow builtinTransfers) asset ≤
      system.balance asset + Purse.total (effects.inflow ctx.scAddress) asset) :
    Reserved builtinTransfers next := by
  obtain ⟨rfl, hpending, _, hbalance⟩ := settle_eq_ok hsettle
  intro asset keys
  obtain ⟨hcovered, hafter⟩ := hbalance asset
  have hkeeps := h asset keys
  rw [hpromise, Option.toList_none, List.append_nil] at hpending
  rw [System.shortfall, hpending, hafter]
  simp only [System.shortfall] at hkeeps
  omega

theorem dispatch {kind : Kind} {hash : Hash} {target : Address} {callData : ManagedBuffer}
    {nativeValue : BigUint} {promise : Promise}
    (hdispatches : Dispatches kind hash ctx target callData nativeValue promise)
    (hpromise : effects.promise = some promise) (htransfer : effects.transfer = none)
    (hrefunds : contract.refundToken = system.contract.refundToken)
    (hsettle : Governance.settle builtinTransfers ctx system (contract, effects) =
      .ok (next, output))
    (hreserved : Reserved builtinTransfers system)
    (hcovered : DispatchCovered builtinTransfers system ctx target callData nativeValue) :
    Reserved builtinTransfers next := by
  obtain ⟨rfl, rfl, ⟨minGasLimit, hdecode⟩, hcallback⟩ := hdispatches
  obtain ⟨rfl, hpending, _, hbalance⟩ := settle_eq_ok hsettle
  intro asset keys
  obtain ⟨henough, hafter⟩ := hbalance asset
  have hdispatch : system.contract.owed asset keys + system.shortfall builtinTransfers asset +
      Purse.total (promise.carried builtinTransfers) asset ≤
        system.balance asset + ctx.callValue.total asset := hcovered _ hdecode asset keys
  have hbefore := hreserved asset keys
  have houtflow : Purse.total (effects.outflow builtinTransfers) asset =
      Purse.total (promise.carried builtinTransfers) asset := by
    simp [Effects.outflow, hpromise, htransfer]
  have hinflow : Purse.total (effects.inflow ctx.scAddress) asset = 0 := by
    simp [Effects.inflow, htransfer]
  have hshortfall : next.shortfall builtinTransfers asset =
      system.shortfall builtinTransfers asset + (ctx.callValue.total asset -
        Purse.total (promise.carried builtinTransfers) asset) := by
    simp [System.shortfall, hpending, hpromise, Promise.shortfall, hcallback]
  rw [hafter, houtflow, hinflow, hshortfall, owed_congr hrefunds]
  rw [houtflow] at henough
  omega

theorem callback {index : ℕ} {result : ManagedAsyncCallResult}
    (hok : answer builtinTransfers index result system = .ok (next, output))
    (hreserved : Reserved builtinTransfers system) : Reserved builtinTransfers next := by
  obtain ⟨promise, hindex, hpending, _, _, hcontract, hbalance⟩ := answer_eq_ok hok
  intro asset keys
  have hbefore := hreserved asset keys
  have hshortfall : system.shortfall builtinTransfers asset =
      promise.shortfall builtinTransfers asset + next.shortfall builtinTransfers asset := by
    obtain ⟨hbound, rfl⟩ := List.getElem?_eq_some_iff.mp hindex
    have hperm := (List.getElem_cons_eraseIdx_perm hbound).map
      (Promise.shortfall builtinTransfers asset)
    rw [System.shortfall, System.shortfall, hpending, ← hperm.sum_eq, List.map_cons,
      List.sum_cons]
  rw [hshortfall, Promise.shortfall] at hbefore
  have howed : next.contract.owed asset keys ≤ system.contract.owed asset keys +
      Purse.total (result.returned promise.callback.payments.amounts) asset := by
    rw [hcontract]
    cases promise.callback.kind <;> cases result
    · exact le_of_eq (owed_congr rfl)
    · exact owed_handleCallbackFailure_le _
    · exact le_of_eq (owed_congr rfl)
    · exact owed_handleCallbackFailure_le _
  rw [hbalance, Purse.deposit_apply]
  cases result with
  | ok results =>
      simp only [ManagedAsyncCallResult.returned, Purse.total_nil] at howed ⊢
      omega
  | err errCode errMsg =>
      simp only [ManagedAsyncCallResult.returned] at howed ⊢
      simp only [EgldOrMultiEsdtPayment.total] at hbefore
      omega

/-- Every covered operation keeps the reserve. -/
theorem perform {input : Input}
    (hok : input.perform builtinTransfers crypto system = .ok (next, output))
    (hreserved : Reserved builtinTransfers system)
    (hcovered : Covered builtinTransfers system input) : Reserved builtinTransfers next := by
  cases input with
  | executeProposal ctx target callData nativeValue =>
      simp only [Input.perform, Outcome.bind_eq_ok, Prod.exists] at hok
      obtain ⟨contract, effects, hexecute, hsettle⟩ := hok
      obtain ⟨_, _, _, _, ⟨promise, hdispatches, hpromise⟩, htransfer⟩ :=
        executeProposal_eq_ok hexecute
      exact dispatch hdispatches hpromise htransfer (refundToken_executeProposal hexecute)
        hsettle hreserved hcovered
  | executeOperatorProposal ctx target callData nativeValue =>
      simp only [Input.perform, Outcome.bind_eq_ok, Prod.exists] at hok
      obtain ⟨contract, effects, hexecute, hsettle⟩ := hok
      obtain ⟨_, _, _, _, ⟨promise, hdispatches, hpromise⟩, htransfer⟩ :=
        executeOperatorProposal_eq_ok hexecute
      exact dispatch hdispatches hpromise htransfer
        (refundToken_executeOperatorProposal hexecute) hsettle hreserved hcovered
  | withdraw ctx recipient amount =>
      simp only [Input.perform, withdraw, Outcome.bind_eq_ok, Outcome.exists_unit,
        Outcome.pure_eq_ok, Prod.exists, Prod.mk.injEq] at hok
      obtain ⟨_, contract, effects, ⟨_, rfl, rfl⟩, hsettle⟩ := hok
      refine settle hsettle rfl fun asset keys => ?_
      have hbefore := hreserved asset keys
      by_cases hself : recipient = ctx.scAddress
      · simp only [Effects.outflow, Effects.inflow, hself, if_true, List.nil_append]
        omega
      · have hfree := (hcovered.resolve_left hself) keys
        by_cases hasset : Asset.egld = asset
        · subst hasset
          simpa [Effects.outflow, Effects.inflow, hself] using hfree
        · simpa [Effects.outflow, Effects.inflow, hself, hasset] using hbefore
  | transferOperatorship ctx newOperator =>
      simp only [Input.perform, Outcome.bind_eq_ok, Outcome.exists_unit, Prod.exists] at hok
      obtain ⟨_, contract, effects, htransfer, hsettle⟩ := hok
      obtain ⟨_, hpromise, hnone⟩ := keepsSlots_transferOperatorship htransfer
      refine settle hsettle hpromise fun asset keys => ?_
      rw [owed_congr (refundToken_transferOperatorship htransfer)]
      simpa [Effects.outflow, Effects.inflow, hpromise, hnone] using hreserved asset keys
  | execute ctx validateMessage chain id address payload =>
      simp only [Input.perform, Outcome.bind_eq_ok, Outcome.exists_unit, Prod.exists] at hok
      obtain ⟨_, contract, effects, hexecute, hsettle⟩ := hok
      obtain ⟨_, executePayload, _, hcommand⟩ := execute_eq_ok hexecute
      obtain ⟨_, hpromise, hnone⟩ := processCommand_eq_ok hcommand
      refine settle hsettle hpromise fun asset keys => ?_
      rw [owed_congr (refundToken_processCommand hcommand)]
      simpa [Effects.outflow, Effects.inflow, hpromise, hnone] using hreserved asset keys
  | withdrawRefundToken ctx token =>
      simp only [Input.perform, Outcome.bind_eq_ok, Outcome.exists_unit] at hok
      have hkept : ∀ asset keys,
          (Governance.withdrawRefundToken ctx token system.contract).1.owed asset keys +
              system.shortfall builtinTransfers asset +
              Purse.total ((Governance.withdrawRefundToken ctx token
                system.contract).2.outflow builtinTransfers) asset ≤
            system.balance asset := by
        intro asset keys
        have howed := @owed_withdrawRefundToken asset keys system.contract token ctx
        have hbefore := hreserved asset (insert (ctx.caller, token) keys)
        rw [total_outflow_withdrawRefundToken]
        omega
      exact settle hok.2 rfl fun asset keys => Nat.le_add_right_of_le (hkept asset keys)
  | callback index result => exact callback hok hreserved

theorem covered_of_selfFunded {input : Input} (hreserved : Reserved builtinTransfers system)
    (hfunded : input.SelfFunded builtinTransfers) : Covered builtinTransfers system input := by
  cases input with
  | executeProposal ctx target callData nativeValue =>
      exact fun data hdecode asset keys =>
        Nat.add_le_add (hreserved asset keys) (hfunded data hdecode asset)
  | executeOperatorProposal ctx target callData nativeValue =>
      exact fun data hdecode asset keys =>
        Nat.add_le_add (hreserved asset keys) (hfunded data hdecode asset)
  | withdraw ctx recipient amount => exact .inl hfunded
  | _ => trivial

/-- Where everybody pays for his own calls, every operation is covered. -/
theorem meets_of_selfFunded {history : History} {start : System}
    (hstart : Reserved builtinTransfers start)
    (hfunded : ∀ entry ∈ history, entry.input.SelfFunded builtinTransfers) :
    Run.Meets (machine builtinTransfers crypto) start (Covered builtinTransfers) history := by
  rintro before entry after reached rfl hreached
  have hmeets : Run.Meets (machine builtinTransfers crypto) start
      (fun _ input => input.SelfFunded builtinTransfers) before := by
    rintro _ earlier _ _ rfl _
    exact hfunded earlier (by simp)
  have hreserved : Reserved builtinTransfers reached :=
    hreached.invariant_of_meets hstart
      (fun _ _ _ _ hbefore hfunded hok =>
        hbefore.perform hok (covered_of_selfFunded hbefore hfunded)) hmeets
  exact covered_of_selfFunded hreserved (hfunded entry (by simp))

end Reserved

/-! ## Backed refunds -/

structure RefundsBacked (builtinTransfers : BuiltinTransfers) (crypto : Crypto)
    (system : System) : Prop where
  backed : ∀ (token : EgldOrEsdtToken) (users : Finset Address),
    ∑ user ∈ users, system.contract.refundToken user token ≤ system.balance token.asset
  payable : ∀ ctx token, ctx.callValue = .egld 0 →
    ∃ next output,
      (Input.withdrawRefundToken ctx token).perform builtinTransfers crypto system =
        .ok (next, output) ∧
      output.effects.transfer =
        if system.contract.refundToken ctx.caller token = 0 then none
        else some (ctx.caller, token.asset, system.contract.refundToken ctx.caller token)

theorem Reserved.refundsBacked {system : System}
    (hreserved : Reserved builtinTransfers system) :
    RefundsBacked builtinTransfers crypto system := by
  have hbacked : ∀ (token : EgldOrEsdtToken) (users : Finset Address),
      ∑ user ∈ users, system.contract.refundToken user token ≤ system.balance token.asset := by
    intro token users
    have hkeys : system.contract.owed token.asset (users ×ˢ {token}) =
        ∑ user ∈ users, system.contract.refundToken user token := by
      have hasset : ∀ key ∈ users ×ˢ {token}, key.2.asset = token.asset := by
        intro key hkey
        rw [Finset.mem_singleton.mp (Finset.mem_product.mp hkey).2]
      rw [State.owed, Finset.filter_true_of_mem hasset, Finset.sum_product]
      simp only [Finset.sum_singleton]
    have hkept := hreserved token.asset (users ×ˢ {token})
    omega
  refine { backed := hbacked, payable := ?payable }
  case payable =>
      intro ctx token hunpaid
      have hbalance := hbacked token {ctx.caller}
      rw [Finset.sum_singleton] at hbalance
      have hcovered : ∀ asset, Purse.total ((withdrawRefundToken ctx token
          system.contract).2.outflow builtinTransfers) asset ≤
            system.balance asset + ctx.callValue.total asset := by
        intro asset
        rw [total_outflow_withdrawRefundToken]
        split
        · rename_i hasset
          subst hasset
          omega
        · omega
      obtain ⟨next, hsettle⟩ := settle_isOk hcovered
      refine ⟨next, ⟨(withdrawRefundToken ctx token system.contract).2, none⟩, ?_, rfl⟩
      simp only [Input.perform, requireNotPayable, Outcome.bind_eq_ok, Outcome.exists_unit,
        Outcome.require_eq_ok]
      exact ⟨hunpaid, hsettle⟩

/-- Whatever a run of covered operations comes through, all that is owed is reserved. -/
theorem reserved_of_covered {gateway operator : Address}
    {governanceChain governanceAddress : ManagedBuffer} {delay : UInt64} {contract : State}
    {before after : History} {reached : System}
    (hinit : init gateway governanceChain governanceAddress delay operator = .ok contract)
    (hcovered : Run.Meets (machine builtinTransfers crypto) (.deploy contract)
      (Covered builtinTransfers) (before ++ after))
    (hreached : Run (machine builtinTransfers crypto) (.deploy contract) before reached) :
    Reserved builtinTransfers reached :=
  hreached.invariant_of_meets (.deploy hinit)
    (fun _ _ _ _ hreserved hcovered hok => hreserved.perform hok hcovered) hcovered.of_append

/-- Refunds are backed throughout every run of covered operations. -/
theorem refunds_backed {gateway operator : Address}
    {governanceChain governanceAddress : ManagedBuffer} {delay : UInt64} {contract : State}
    {history : History} {system : System}
    (hinit : init gateway governanceChain governanceAddress delay operator = .ok contract)
    (hrun : Run (machine builtinTransfers crypto) (.deploy contract) history system)
    (hcovered : Run.Meets (machine builtinTransfers crypto) (.deploy contract)
      (Covered builtinTransfers) history) :
    ∀ before after reached, history = before ++ after →
      Run (machine builtinTransfers crypto) (.deploy contract) before reached →
      RefundsBacked builtinTransfers crypto reached := by
  rintro before after reached rfl hreached
  exact (reserved_of_covered hinit hcovered hreached).refundsBacked

/-- Refunds are backed throughout every run in which whoever has a proposal executed attaches
all that it sends, and the contract withdraws to itself only. -/
theorem refunds_backed_of_selfFunded {gateway operator : Address}
    {governanceChain governanceAddress : ManagedBuffer} {delay : UInt64} {contract : State}
    {history : History}
    (hinit : init gateway governanceChain governanceAddress delay operator = .ok contract)
    (hfunded : ∀ entry ∈ history, entry.input.SelfFunded builtinTransfers) :
    ∀ before after reached, history = before ++ after →
      Run (machine builtinTransfers crypto) (.deploy contract) before reached →
      RefundsBacked builtinTransfers crypto reached := by
  rintro before after reached rfl hreached
  have hcovered : Run.Meets (machine builtinTransfers crypto) (.deploy contract)
      (Covered builtinTransfers) (before ++ after) :=
    Reserved.meets_of_selfFunded (.deploy hinit) hfunded
  exact (reserved_of_covered hinit hcovered hreached).refundsBacked

/-! ## A refund that is paid and a refund that is lost -/

def sampleFailure : ManagedAsyncCallResult :=
  .err 4 (sampleBuffer (Bytes.ascii ['e', 'r', 'r']))

/-- A caller who attached the value of a proposal gets it back. -/
def sampleRefund : List Input :=
  [sampleCommand .scheduleTimeLockProposal 'a',
    .executeProposal (sampleContext 110 10) sampleTarget (sampleCallData 'a') sampleValue,
    .callback 0 sampleFailure,
    .withdrawRefundToken (sampleContext 120 0) .egld]

theorem sampleRefund_completes :
    (fun contract => ((machine noTransfers sampleCrypto).replay (.deploy contract)
      sampleRefund).1.map fun entry => entry.result.isOk) <$> sampleInit =
        .ok [true, true, true, true] := by
  decide +kernel

theorem sample_refunds_backed : ∃ contract history system,
    sampleInit = .ok contract ∧
    Run (machine noTransfers sampleCrypto) (.deploy contract) history system ∧
    history.map (fun entry => entry.result.isOk) = [true, true, true, true] ∧
    RefundsBacked noTransfers sampleCrypto system := by
  obtain ⟨contract, hinit⟩ := Outcome.exists_eq_ok sampleInit_isOk
  have hrun := run_replay (machine noTransfers sampleCrypto) (.deploy contract) sampleRefund
  have hcompletes := Outcome.apply_of_map sampleRefund_completes hinit
  have hfunded : ∀ input ∈ sampleRefund, input.SelfFunded noTransfers := by
    simp [sampleRefund, sampleCommand, Input.SelfFunded, Attached, carriedBy, noTransfers,
      sampleContext, sampleValue, EgldOrMultiEsdtPayment.total, EgldOrMultiEsdtPayment.amounts]
  have hcovered : Run.Meets (machine noTransfers sampleCrypto) (.deploy contract)
      (Covered noTransfers)
      ((machine noTransfers sampleCrypto).replay (.deploy contract) sampleRefund).1 := by
    refine Reserved.meets_of_selfFunded (.deploy hinit) fun entry hentry => hfunded _ ?_
    rw [← replay_inputs (machine noTransfers sampleCrypto) (.deploy contract) sampleRefund]
    exact List.mem_map_of_mem hentry
  exact ⟨contract, _, _, hinit, hrun, hcompletes,
    refunds_backed hinit hrun hcovered _ [] _ (List.append_nil _).symm hrun⟩

/-- The value that came back is spent on another proposal, executed by a caller
who attached nothing. -/
def sampleLoss : List Input :=
  [sampleCommand .scheduleTimeLockProposal 'a',
    sampleCommand .scheduleTimeLockProposal 'b',
    .executeProposal (sampleContext 110 10) sampleTarget (sampleCallData 'a') sampleValue,
    .callback 0 sampleFailure,
    .executeProposal (sampleContext 110 0) sampleTarget (sampleCallData 'b') sampleValue]

theorem sampleLoss_state :
    (fun contract =>
      let system := ((machine noTransfers sampleCrypto).replay (.deploy contract) sampleLoss).2
      (system.contract.refundToken (sampleContext 110 0).caller .egld,
        system.balance .egld,
        ((Input.withdrawRefundToken (sampleContext 120 0) .egld).perform noTransfers sampleCrypto
          system).isOk)) <$> sampleInit = .ok (10, 0, false) := by
  decide +kernel

theorem sample_refund_lost : ∃ contract history system,
    sampleInit = .ok contract ∧
    Run (machine noTransfers sampleCrypto) (.deploy contract) history system ∧
    system.contract.refundToken (sampleContext 110 0).caller .egld = 10 ∧
    system.balance .egld = 0 ∧
    ((Input.withdrawRefundToken (sampleContext 120 0) .egld).perform noTransfers sampleCrypto
      system).isOk = false ∧
    ¬ RefundsBacked noTransfers sampleCrypto system := by
  obtain ⟨contract, hinit⟩ := Outcome.exists_eq_ok sampleInit_isOk
  have hrun := run_replay (machine noTransfers sampleCrypto) (.deploy contract) sampleLoss
  have hstate := Outcome.apply_of_map sampleLoss_state hinit
  simp only [Prod.mk.injEq] at hstate
  obtain ⟨hrefund, hbalance, hfails⟩ := hstate
  refine ⟨contract, _, _, hinit, hrun, hrefund, hbalance, hfails, fun h => ?_⟩
  have hbacked := h.backed .egld {(sampleContext 110 0).caller}
  rw [Finset.sum_singleton, hrefund] at hbacked
  exact absurd (hbacked.trans (le_of_eq hbalance)) (by decide)

end AxelarCgp.Governance
