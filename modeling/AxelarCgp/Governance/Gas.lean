import AxelarCgp.Governance.OperatorProposals

/-!
# Gas and times

Executing a proposal forwards what is left of the gas once some is kept for the callback,
and scheduling one puts off its time.  Both are computed on machine words.
-/

namespace AxelarCgp.Governance

open NestedCodec

/-! ## What is forwarded and what is reserved -/

/-- The endpoint that executes proposals of a kind. -/
def Kind.execute (crypto : Crypto) (ctx : CallContext) (target : Address)
    (callData : ManagedBuffer) (nativeValue : BigUint) (state : State) :
    Kind → Outcome (State × Effects)
  | timeLock => executeProposal crypto ctx target callData nativeValue state
  | operator => executeOperatorProposal crypto ctx target callData nativeValue state

/-- The gas that the promise of a kind reserves for its callback. -/
def Kind.reserve (payments : EgldOrMultiEsdtPayment) : Kind → UInt64
  | timeLock => extraGasForCallback payments
  | operator => executeProposalCallbackGas

/-- What an endpoint checked of the gas that was left, what it forwards, and what it
reserves. -/
structure Budgets (kind : Kind) (ctx : CallContext) (callData : ManagedBuffer)
    (promise : Promise) : Prop where
  checked : ∃ decodedCallData : DecodedCallData, topDecode callData.1 = some decodedCallData ∧
    extraGasForCallback ctx.callValue + keepExtraGas + decodedCallData.minGasLimit < ctx.gasLeft
  gasLimit : promise.gasLimit = ctx.gasLeft - extraGasForCallback ctx.callValue - keepExtraGas
  reserved : promise.extraGasForCallback = kind.reserve ctx.callValue

section Calls

variable {crypto : Crypto} {ctx otherCtx : CallContext} {target otherTarget : Address}
variable {callData : ManagedBuffer} {nativeValue otherValue : BigUint}
variable {state otherState next otherNext : State} {effects otherEffects : Effects}
variable {kind otherKind : Kind}

theorem Kind.execute_eq_ok
    (h : kind.execute crypto ctx target callData nativeValue state = .ok (next, effects)) :
    ∃ promise, effects.promise = some promise ∧ Budgets kind ctx callData promise := by
  cases kind with
  | timeLock =>
      simp only [execute, executeProposal, Outcome.bind_eq_ok, Outcome.exists_unit,
        Outcome.require_eq_ok, Outcome.orFail_eq_ok, Outcome.pure_eq_ok, Prod.mk.injEq] at h
      obtain ⟨_, _, _, decoded, hdecode, hgas, _, rfl⟩ := h
      exact ⟨_, rfl, ⟨decoded, hdecode, hgas⟩, rfl, rfl⟩
  | operator =>
      simp only [execute, executeOperatorProposal, Outcome.bind_eq_ok, Outcome.exists_unit,
        Outcome.require_eq_ok, Outcome.orFail_eq_ok, Outcome.pure_eq_ok, Prod.mk.injEq] at h
      obtain ⟨_, _, _, _, decoded, hdecode, hgas, _, rfl⟩ := h
      exact ⟨_, rfl, ⟨decoded, hdecode, hgas⟩, rfl, rfl⟩

/-! ## Reservations -/

/-- Payments for which the callback costs no more than its constant: EGLD, or so many
ESDT payments that the words wrap to nothing. -/
def CostsConstant (payments : EgldOrMultiEsdtPayment) : Prop :=
  ∀ esdts, payments = .multiEsdt esdts → 2 ^ 57 ∣ esdts.length

theorem perPayment_mul_eq_zero (count : ℕ) :
    executeProposalCallbackGasPerPayment * UInt64.ofNat count = 0 ↔ 2 ^ 57 ∣ count := by
  have hword : (executeProposalCallbackGasPerPayment * UInt64.ofNat count).toNat =
      2000000 * count % 2 ^ 64 := by
    rw [UInt64.toNat_mul, UInt64.toNat_ofNat']
    exact (Nat.mul_mod_mod _ _ _)
  rw [← UInt64.toNat_inj, hword]
  change 2000000 * count % 2 ^ 64 = 0 ↔ _
  omega

theorem extraGasForCallback_eq_iff (payments : EgldOrMultiEsdtPayment) :
    executeProposalCallbackGas = extraGasForCallback payments ↔ CostsConstant payments := by
  cases payments with
  | egld value => simp [extraGasForCallback, CostsConstant]
  | multiEsdt esdts =>
      rw [extraGasForCallback, left_eq_add, perPayment_mul_eq_zero]
      simp [CostsConstant]

theorem Kind.reserve_eq_iff (kind otherKind : Kind) (payments : EgldOrMultiEsdtPayment) :
    otherKind.reserve payments = kind.reserve payments ↔
      otherKind = kind ∨ CostsConstant payments := by
  cases kind <;> cases otherKind <;>
    simp [reserve, extraGasForCallback_eq_iff, eq_comm (b := executeProposalCallbackGas)]

/-- Two calls on the same gas, payments and call data forward the same gas, but reserve the
same only if they are of one kind or the payments cost the callback no more than its
constant; and so it is with what a call reserves and what it subtracts. -/
theorem callbackGasReserved
    (hexecute : kind.execute crypto ctx target callData nativeValue state = .ok (next, effects))
    (hother : otherKind.execute crypto otherCtx otherTarget callData otherValue otherState =
      .ok (otherNext, otherEffects))
    (hgas : otherCtx.gasLeft = ctx.gasLeft) (hpayments : otherCtx.callValue = ctx.callValue) :
    ∃ promise otherPromise, effects.promise = some promise ∧
      otherEffects.promise = some otherPromise ∧
      promise.gasLimit = ctx.gasLeft - extraGasForCallback ctx.callValue - keepExtraGas ∧
      (promise.extraGasForCallback = extraGasForCallback ctx.callValue ↔
        kind = .timeLock ∨ CostsConstant ctx.callValue) ∧
      otherPromise.gasLimit = promise.gasLimit ∧
      (otherPromise.extraGasForCallback = promise.extraGasForCallback ↔
        otherKind = kind ∨ CostsConstant ctx.callValue) := by
  obtain ⟨promise, hpromise, hbudgets⟩ := Kind.execute_eq_ok hexecute
  obtain ⟨otherPromise, hotherPromise, hsame⟩ := Kind.execute_eq_ok hother
  refine ⟨promise, otherPromise, hpromise, hotherPromise, hbudgets.gasLimit, ?_, ?_, ?_⟩
  · rw [hbudgets.reserved]
    exact Kind.reserve_eq_iff .timeLock kind ctx.callValue
  · rw [hsame.gasLimit, hbudgets.gasLimit, hgas, hpayments]
  · rw [hbudgets.reserved, hsame.reserved, hpayments]
    exact Kind.reserve_eq_iff kind otherKind ctx.callValue

/-! ## Wrapping -/

/-- The gas that the check asks for, on integers. -/
def gasNeeded (payments : EgldOrMultiEsdtPayment) (minGasLimit : UInt64) : ℕ :=
  (extraGasForCallback payments).toNat + keepExtraGas.toNat + minGasLimit.toNat

/-- A promise forwards what its proposal asks for at least, and what it forwards, reserves
and keeps is there. -/
structure Affordable (ctx : CallContext) (minGasLimit : UInt64) (promise : Promise) : Prop where
  enough : minGasLimit.toNat ≤ promise.gasLimit.toNat
  covered : promise.gasLimit.toNat + promise.extraGasForCallback.toNat + keepExtraGas.toNat ≤
    ctx.gasLeft.toNat

theorem Budgets.affordable_iff {promise : Promise} {decodedCallData : DecodedCallData}
    (h : Budgets kind ctx callData promise)
    (hdecode : topDecode callData.1 = some decodedCallData) :
    Affordable ctx decodedCallData.minGasLimit promise ↔
      (kind.reserve ctx.callValue).toNat ≤ (extraGasForCallback ctx.callValue).toNat ∧
      gasNeeded ctx.callValue decodedCallData.minGasLimit < 2 ^ 64 := by
  obtain ⟨other, hother, hchecked⟩ := h.checked
  obtain rfl := Option.some.inj (hother.symm.trans hdecode)
  have hextra := UInt64.toNat_lt (extraGasForCallback ctx.callValue)
  have hkept : keepExtraGas.toNat = 15000000 := rfl
  have hleft := UInt64.toNat_lt ctx.gasLeft
  have hwrapped : (gasNeeded ctx.callValue other.minGasLimit) % 2 ^ 64 < ctx.gasLeft.toNat := by
    have hlt := UInt64.lt_iff_toNat_lt.mp hchecked
    rwa [UInt64.toNat_add, UInt64.toNat_add, Nat.mod_add_mod] at hlt
  have hlimit : promise.gasLimit.toNat = (2 ^ 64 - keepExtraGas.toNat +
      (2 ^ 64 - (extraGasForCallback ctx.callValue).toNat + ctx.gasLeft.toNat) % 2 ^ 64) %
        2 ^ 64 := by
    rw [h.gasLimit, UInt64.toNat_sub, UInt64.toNat_sub]
  rw [gasNeeded] at hwrapped ⊢
  constructor
  · rintro ⟨henough, hcovered⟩
    rw [h.reserved] at hcovered
    omega
  · rintro ⟨hreserve, hfits⟩
    rw [← h.reserved] at hreserve
    constructor <;> omega

theorem le_effectiveEta_iff (timestamp delay eta : UInt64) :
    timestamp.toNat + delay.toNat ≤ (effectiveEta timestamp delay eta).toNat ↔
      timestamp.toNat + delay.toNat < 2 ^ 64 := by
  have hstored := UInt64.toNat_lt (effectiveEta timestamp delay eta)
  constructor
  · omega
  · intro hfits
    have hsum : (timestamp + delay).toNat = timestamp.toNat + delay.toNat := by
      rw [UInt64.toNat_add, Nat.mod_eq_of_lt hfits]
    unfold effectiveEta
    split
    · exact hsum.ge
    · rename_i hlate
      rw [UInt64.not_lt, UInt64.le_iff_toNat_le, hsum] at hlate
      exact hlate

/-- The checks hold on integers exactly where the words that they compare have not
wrapped. -/
theorem checksHold_iff (crypto : Crypto) :
    (∀ kind ctx target callData nativeValue state next effects promise decodedCallData,
      Kind.execute crypto ctx target callData nativeValue state kind = .ok (next, effects) →
      effects.promise = some promise →
      topDecode (A := DecodedCallData) callData.1 = some decodedCallData →
      (Affordable ctx decodedCallData.minGasLimit promise ↔
        (kind.reserve ctx.callValue).toNat ≤ (extraGasForCallback ctx.callValue).toNat ∧
        gasNeeded ctx.callValue decodedCallData.minGasLimit < 2 ^ 64)) ∧
    (∀ ctx hash eta state next stored,
      scheduleTimeLock ctx hash eta state = .ok (next, stored) →
      next.timeLockEta hash = stored ∧
      (ctx.blockTimestamp.toNat + state.minimumTimeLockDelay.toNat ≤ stored.toNat ↔
        ctx.blockTimestamp.toNat + state.minimumTimeLockDelay.toNat < 2 ^ 64)) := by
  constructor
  · intro kind ctx target callData nativeValue state next effects promise decodedCallData
      hexecute hpromise hdecode
    obtain ⟨other, hother, hbudgets⟩ := Kind.execute_eq_ok hexecute
    obtain rfl := Option.some.inj (hother.symm.trans hpromise)
    exact hbudgets.affordable_iff hdecode
  · intro ctx hash eta state next stored hschedule
    obtain ⟨_, _, rfl, hacts⟩ := scheduleTimeLock_eq_ok hschedule
    exact ⟨congrArg Slot.eta hacts.here, le_effectiveEta_iff _ _ _⟩

end Calls

/-! ## An ESDT payment and a proposal that asks for all gas -/

/-- The context of the user, with one ESDT payment. -/
def sampleEsdtContext : CallContext :=
  { sampleContext 110 0 with
    callValue := .multiEsdt [⟨sampleBuffer (Bytes.ascii ['T', '-', '1']), 0, 1⟩] }

/-- A proposal that asks for as much gas as a word holds. -/
def sampleGreedyData : ManagedBuffer :=
  sampleBuffer (depEncode (⟨sampleBuffer (Bytes.ascii ['a']), .nil,
    18446744073709551615⟩ : DecodedCallData))

def sampleGasCrypto : Crypto :=
  Crypto.tabulated
    [(proposalPreimage sampleTarget (sampleCallData 'a') sampleValue, writeNat 32
        0x6f2ecae99cc4983d647ddae71aeae8b585b278952b6c521b9662ec9a65ed7a95),
      (proposalPreimage sampleTarget sampleGreedyData sampleValue, writeNat 32
        0x0d4aa34d1067a391a3001319af74ebf44c8174ba9bd181a6c5ead9738b4a35c7)]
    []

/-- A deployment with a proposal of each kind. -/
def sampleSubmitted (callData : ManagedBuffer) (eta : UInt64) : Outcome (State × UInt64) := do
  let hash := getProposalHash sampleGasCrypto sampleTarget callData sampleValue
  let state ← sampleInit
  let state ← approveOperatorProposal hash state
  scheduleTimeLock (sampleContext 100 0) hash eta state

/-- What a call on a proposal of the sample forwards and reserves. -/
def samplePromise (kind : Kind) (ctx : CallContext) (callData : ManagedBuffer) (state : State) :
    Outcome (Option (UInt64 × UInt64)) := do
  let (_, effects) ← kind.execute sampleGasCrypto ctx sampleTarget callData sampleValue state
  return effects.promise.map fun promise => (promise.gasLimit, promise.extraGasForCallback)

theorem samplePromise_eq_ok {kind : Kind} {ctx : CallContext} {callData : ManagedBuffer}
    {state : State} {gasLimit reserved : UInt64}
    (h : samplePromise kind ctx callData state = .ok (some (gasLimit, reserved))) :
    ∃ next effects promise,
      kind.execute sampleGasCrypto ctx sampleTarget callData sampleValue state =
        .ok (next, effects) ∧ effects.promise = some promise ∧ promise.gasLimit = gasLimit ∧
      promise.extraGasForCallback = reserved := by
  simp only [samplePromise, Outcome.bind_eq_ok, Prod.exists, Outcome.pure_eq_ok,
    Option.map_eq_some_iff, Prod.mk.injEq] at h
  obtain ⟨next, effects, hexecute, promise, hpromise, hlimit, hreserved⟩ := h
  exact ⟨next, effects, promise, hexecute, hpromise, hlimit, hreserved⟩

/-- The two kinds forward the same for one ESDT payment, and reserve different amounts. -/
theorem samplePromises : (do
    let (state, _) ← sampleSubmitted (sampleCallData 'a') 0
    let first ← samplePromise .timeLock sampleEsdtContext (sampleCallData 'a') state
    let second ← samplePromise .operator sampleEsdtContext (sampleCallData 'a') state
    return (first, second)) =
      .ok (some (73000000, 12000000), some (73000000, 10000000)) := by
  decide +kernel

theorem samplePromises_executed : ∃ state next effects promise otherNext otherEffects
    otherPromise,
    Kind.execute sampleGasCrypto sampleEsdtContext sampleTarget (sampleCallData 'a') sampleValue
      state .timeLock = .ok (next, effects) ∧ effects.promise = some promise ∧
    Kind.execute sampleGasCrypto sampleEsdtContext sampleTarget (sampleCallData 'a') sampleValue
      state .operator = .ok (otherNext, otherEffects) ∧
    otherEffects.promise = some otherPromise ∧ promise.extraGasForCallback = 12000000 ∧
    otherPromise.gasLimit = 73000000 ∧ otherPromise.extraGasForCallback = 10000000 := by
  have h := samplePromises
  simp only [Outcome.bind_eq_ok, Prod.exists, Outcome.pure_eq_ok, Prod.mk.injEq] at h
  obtain ⟨state, _, _, _, hfirst, _, hsecond, rfl, rfl⟩ := h
  obtain ⟨next, effects, promise, hexecute, hpromise, _, hreserved⟩ :=
    samplePromise_eq_ok hfirst
  obtain ⟨otherNext, otherEffects, otherPromise, hother, hotherPromise, hlimit, hless⟩ :=
    samplePromise_eq_ok hsecond
  exact ⟨state, next, effects, promise, otherNext, otherEffects, otherPromise, hexecute, hpromise,
    hother, hotherPromise, hreserved, hlimit, hless⟩

/-- For one ESDT payment the operator's promise reserves less than was subtracted. -/
theorem sample_callback_short : ∃ state next effects promise,
    executeOperatorProposal sampleGasCrypto sampleEsdtContext sampleTarget (sampleCallData 'a')
      sampleValue state = .ok (next, effects) ∧ effects.promise = some promise ∧
    promise.gasLimit = sampleEsdtContext.gasLeft -
      (executeProposalCallbackGas + executeProposalCallbackGasPerPayment * 1) - keepExtraGas ∧
    promise.extraGasForCallback ≠
      executeProposalCallbackGas + executeProposalCallbackGasPerPayment * 1 := by
  obtain ⟨state, _, _, _, next, effects, promise, _, _, hexecute, hpromise, _, hlimit, hless⟩ :=
    samplePromises_executed
  refine ⟨state, next, effects, promise, hexecute, hpromise, hlimit, ?_⟩
  rw [hless]
  decide

theorem sample_callbackGasReserved : ∃ state next effects otherNext otherEffects promise
    otherPromise,
    Kind.execute sampleGasCrypto sampleEsdtContext sampleTarget (sampleCallData 'a') sampleValue
      state .timeLock = .ok (next, effects) ∧
    Kind.execute sampleGasCrypto sampleEsdtContext sampleTarget (sampleCallData 'a') sampleValue
      state .operator = .ok (otherNext, otherEffects) ∧
    effects.promise = some promise ∧ otherEffects.promise = some otherPromise ∧
    otherPromise.gasLimit = promise.gasLimit := by
  obtain ⟨state, next, effects, _, otherNext, otherEffects, _, hexecute, _, hother, _⟩ :=
    samplePromises_executed
  obtain ⟨promise, otherPromise, hpromise, hotherPromise, _, _, hsame, _⟩ :=
    callbackGasReserved hexecute hother rfl rfl
  exact ⟨state, next, effects, otherNext, otherEffects, promise, otherPromise, hexecute, hother,
    hpromise, hotherPromise, hsame⟩

/-! ## Words that wrap -/

/-- Forty million units of gas are left. -/
def sampleScarceContext : CallContext := { sampleContext 110 0 with gasLeft := 40000000 }

/-- A proposal that asks for all gas is executed with very little. -/
theorem sampleGreedy_promise : (do
    let (state, _) ← sampleSubmitted sampleGreedyData 0
    samplePromise .timeLock sampleScarceContext sampleGreedyData state) =
      .ok (some (15000000, 10000000)) := by
  decide +kernel

/-- The check passed, and less is forwarded than the proposal asks for. -/
theorem sample_gas_wrapped : ∃ state next effects promise, ∃ decodedCallData : DecodedCallData,
    executeProposal sampleGasCrypto sampleScarceContext sampleTarget sampleGreedyData sampleValue
      state = .ok (next, effects) ∧ effects.promise = some promise ∧
    topDecode (A := DecodedCallData) sampleGreedyData.1 = some decodedCallData ∧
    ¬ decodedCallData.minGasLimit.toNat ≤ promise.gasLimit.toNat := by
  have h := sampleGreedy_promise
  simp only [Outcome.bind_eq_ok, Prod.exists] at h
  obtain ⟨state, _, _, hpromised⟩ := h
  obtain ⟨next, effects, promise, hexecute, hpromise, hlimit, _⟩ := samplePromise_eq_ok hpromised
  have hdecode : (topDecode (A := DecodedCallData) sampleGreedyData.1).map
      DecodedCallData.minGasLimit = some 18446744073709551615 := by
    decide +kernel
  obtain ⟨decodedCallData, hdecoded, hmin⟩ := Option.map_eq_some_iff.mp hdecode
  refine ⟨state, next, effects, promise, decodedCallData, hexecute, hpromise, hdecoded, ?_⟩
  rw [hmin, hlimit]
  decide

/-- Of a hundred million units enough are left for a proposal that asks for none, and a
proposal is put off by the ten seconds of the delay. -/
theorem sample_checksHold : ∃ state next effects promise,
    executeOperatorProposal sampleGasCrypto sampleEsdtContext sampleTarget (sampleCallData 'a')
      sampleValue state = .ok (next, effects) ∧ effects.promise = some promise ∧
    Affordable sampleEsdtContext 0 promise ∧
    ∃ hash before after stored,
      scheduleTimeLock (sampleContext 100 0) hash 0 before = .ok (after, stored) ∧
      110 ≤ stored.toNat := by
  obtain ⟨state, _, _, _, next, effects, promise, _, _, hexecute, hpromise, _⟩ :=
    samplePromises_executed
  have hdecode : topDecode (A := DecodedCallData) (sampleCallData 'a').1 =
      some ⟨sampleBuffer (Bytes.ascii ['a']), ⟨[], by decide⟩, 0⟩ := by
    decide +kernel
  have hchecks := checksHold_iff sampleGasCrypto
  have haffordable : Affordable sampleEsdtContext 0 promise :=
    (hchecks.1 .operator _ _ _ _ _ _ _ _ _ hexecute hpromise hdecode).mpr (by decide)
  have hscheduled : (do
      let state ← sampleInit
      let (_, stored) ← scheduleTimeLock (sampleContext 100 0)
        (getProposalHash sampleGasCrypto sampleTarget (sampleCallData 'a') sampleValue) 0 state
      return (state.minimumTimeLockDelay, stored)) = .ok (10, 110) := by
    decide +kernel
  simp only [Outcome.bind_eq_ok, Prod.exists, Outcome.pure_eq_ok, Prod.mk.injEq] at hscheduled
  obtain ⟨before, _, after, stored, hschedule, hdelay, rfl⟩ := hscheduled
  obtain ⟨_, heta⟩ := hchecks.2 _ _ _ _ _ _ hschedule
  rw [hdelay] at heta
  exact ⟨state, next, effects, promise, hexecute, hpromise, haffordable, _, before, after,
    110, hschedule, heta.mpr (by decide)⟩

end AxelarCgp.Governance
