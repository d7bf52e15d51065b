import AxelarCgp.Governance.Types

/-!
# The governance contract

`governance/src/lib.rs`, endpoint by endpoint.  Times and gas are machine words
and wrap, as the contract is compiled without overflow checks.  The gateway is
called through `validateMessage`, which stands for its answer.
-/

namespace AxelarCgp.Governance

open NestedCodec

structure State where
  gateway : Address
  minimumTimeLockDelay : UInt64
  governanceChain : ManagedBuffer
  governanceAddress : ManagedBuffer
  operator : Address
  timeLockEta : Hash → UInt64
  operatorApprovals : Hash → Bool
  refundToken : Address → EgldOrEsdtToken → ℕ
  timeLockProposalsSubmitted : Hash → Bool
  operatorProposalsSubmitted : Hash → Bool
  timeLockProposalsBeingExecuted : Hash → Bool
  operatorProposalsBeingExecuted : Hash → Bool

def init (gateway : Address) (governanceChain governanceAddress : ManagedBuffer)
    (minimumTimeDelay : UInt64) (operator : Address) : Outcome State := do
  require (¬ gateway.isZero ∧ ¬ governanceChain.isEmpty ∧ ¬ governanceAddress.isEmpty ∧
    ¬ operator.isZero) "Invalid address"
  return {
    gateway
    minimumTimeLockDelay := minimumTimeDelay
    governanceChain
    governanceAddress
    operator
    timeLockEta := fun _ => 0
    operatorApprovals := fun _ => false
    refundToken := fun _ _ => 0
    timeLockProposalsSubmitted := fun _ => false
    operatorProposalsSubmitted := fun _ => false
    timeLockProposalsBeingExecuted := fun _ => false
    operatorProposalsBeingExecuted := fun _ => false }

variable (crypto : Crypto)

def proposalPreimage (target : Address) (callData : ManagedBuffer) (nativeValue : BigUint) :
    Bytes :=
  depEncode target ++ depEncode callData ++ depEncode nativeValue

def getProposalHash (target : Address) (callData : ManagedBuffer) (nativeValue : BigUint) :
    Hash :=
  crypto.keccak256 (proposalPreimage target callData nativeValue)

/-! ## Executing proposals -/

def executeProposalCallbackGas : UInt64 := 10000000

def executeProposalCallbackGasPerPayment : UInt64 := 2000000

def keepExtraGas : UInt64 := 15000000

/-- The gas set aside for the callback: more for each ESDT payment. -/
def extraGasForCallback (payments : EgldOrMultiEsdtPayment) : UInt64 :=
  match payments with
  | .egld _ => executeProposalCallbackGas
  | .multiEsdt payments => executeProposalCallbackGas +
      executeProposalCallbackGasPerPayment * UInt64.ofNat payments.length

def executeProposal (ctx : CallContext) (target : Address) (callData : ManagedBuffer)
    (nativeValue : BigUint) (state : State) : Outcome (State × Effects) := do
  let proposalHash := getProposalHash crypto target callData nativeValue
  require (state.timeLockProposalsSubmitted proposalHash) "Proposal is not submitted"
  require (¬ state.timeLockProposalsBeingExecuted proposalHash) "Proposal is being executed"
  let eta := state.timeLockEta proposalHash
  require (ctx.blockTimestamp ≥ eta) "Time lock not ready"
  let decodedCallData ← orFail (topDecode (A := DecodedCallData) callData.1)
    "Could not decode call data"
  let payments := ctx.callValue
  let extraGas := extraGasForCallback payments
  require (ctx.gasLeft > extraGas + keepExtraGas + decodedCallData.minGasLimit)
    "Insufficient gas for execution"
  let gasLimit := ctx.gasLeft - extraGas - keepExtraGas
  let state := { state with
    timeLockProposalsBeingExecuted :=
      Function.update state.timeLockProposalsBeingExecuted proposalHash true }
  return (state, {
    events := [.proposalExecuted proposalHash target callData nativeValue]
    promise := some {
      target
      endpointName := decodedCallData.endpointName
      egldValue := nativeValue
      arguments := decodedCallData.arguments
      gasLimit
      extraGasForCallback := extraGas
      callback := ⟨.timeLock, proposalHash, ctx.caller, payments⟩ } })

/-- Unlike `executeProposal` this reserves the constant callback gas, whatever
it subtracted from the gas limit. -/
def executeOperatorProposal (ctx : CallContext) (target : Address) (callData : ManagedBuffer)
    (nativeValue : BigUint) (state : State) : Outcome (State × Effects) := do
  let operator := state.operator
  require (ctx.caller = operator) "Not authorized"
  let proposalHash := getProposalHash crypto target callData nativeValue
  require (state.operatorProposalsSubmitted proposalHash) "Proposal is not submitted"
  require (¬ state.operatorProposalsBeingExecuted proposalHash) "Proposal is being executed"
  require (state.operatorApprovals proposalHash) "Not approved"
  let decodedCallData ← orFail (topDecode (A := DecodedCallData) callData.1)
    "Could not decode call data"
  let payments := ctx.callValue
  let extraGas := extraGasForCallback payments
  require (ctx.gasLeft > extraGas + keepExtraGas + decodedCallData.minGasLimit)
    "Insufficient gas for execution"
  let state := { state with
    operatorProposalsBeingExecuted :=
      Function.update state.operatorProposalsBeingExecuted proposalHash true }
  let gasLimit := ctx.gasLeft - extraGas - keepExtraGas
  return (state, {
    events := [.operatorProposalExecuted proposalHash target callData nativeValue]
    promise := some {
      target
      endpointName := decodedCallData.endpointName
      egldValue := nativeValue
      arguments := decodedCallData.arguments
      gasLimit
      extraGasForCallback := executeProposalCallbackGas
      callback := ⟨.operator, proposalHash, operator, payments⟩ } })

/-! ## Commands of the gateway -/

/-- The earliest time is computed on machine words. -/
def scheduleTimeLock (ctx : CallContext) (hash : Hash) (eta : UInt64) (state : State) :
    Outcome (State × UInt64) := do
  require (¬ state.timeLockProposalsSubmitted hash) "Proposal was already submitted"
  require (¬ state.timeLockProposalsBeingExecuted hash) "Proposal is being executed"
  let minimumEta := ctx.blockTimestamp + state.minimumTimeLockDelay
  let eta := if eta < minimumEta then minimumEta else eta
  return ({ state with
    timeLockEta := Function.update state.timeLockEta hash eta
    timeLockProposalsSubmitted := Function.update state.timeLockProposalsSubmitted hash true },
    eta)

def approveOperatorProposal (hash : Hash) (state : State) : Outcome State := do
  require (¬ state.operatorProposalsSubmitted hash) "Proposal was already submitted"
  require (¬ state.operatorProposalsBeingExecuted hash) "Proposal is being executed"
  return { state with
    operatorApprovals := Function.update state.operatorApprovals hash true
    operatorProposalsSubmitted := Function.update state.operatorProposalsSubmitted hash true }

def removeProposalTimeLock (hash : Hash) (state : State) : State :=
  { state with
    timeLockEta := Function.update state.timeLockEta hash 0
    timeLockProposalsSubmitted := Function.update state.timeLockProposalsSubmitted hash false }

def removeProposalOperator (hash : Hash) (state : State) : State :=
  { state with
    operatorApprovals := Function.update state.operatorApprovals hash false
    operatorProposalsSubmitted := Function.update state.operatorProposalsSubmitted hash false }

def processCommand (ctx : CallContext) (executePayload : ExecutePayload) (state : State) :
    Outcome (State × Effects) := do
  let proposalHash := getProposalHash crypto executePayload.target executePayload.callData
    executePayload.nativeValue
  require (¬ proposalHash.1.isEmpty) "Invalid proposal hash"
  match executePayload.command with
  | .scheduleTimeLockProposal => do
      let (state, eta) ← scheduleTimeLock ctx proposalHash executePayload.eta state
      return (state, {
        events := [.proposalScheduled proposalHash executePayload.target eta
          executePayload.callData executePayload.nativeValue] })
  | .cancelTimeLockProposal =>
      return (removeProposalTimeLock proposalHash state, {
        events := [.proposalCancelled proposalHash executePayload.target executePayload.eta
          executePayload.callData executePayload.nativeValue] })
  | .approveOperatorProposal => do
      let state ← approveOperatorProposal proposalHash state
      return (state, {
        events := [.operatorApproved proposalHash executePayload.target
          executePayload.callData executePayload.nativeValue] })
  | .cancelOperatorApproval =>
      return (removeProposalOperator proposalHash state, {
        events := [.operatorCancelled proposalHash executePayload.target
          executePayload.callData executePayload.nativeValue] })

def execute (validateMessage : (sourceChain messageId sourceAddress : ManagedBuffer) → Hash →
      Outcome Bool)
    (ctx : CallContext) (sourceChain messageId sourceAddress payload : ManagedBuffer)
    (state : State) : Outcome (State × Effects) := do
  require (sourceChain = state.governanceChain ∧ sourceAddress = state.governanceAddress)
    "Not governance"
  let payloadHash := crypto.keccak256 payload.1
  let approved ← validateMessage sourceChain messageId sourceAddress payloadHash
  require approved "Not approved by gateway"
  let executePayload ← orFail (topDecode (A := ExecutePayload) payload.1)
    "Could not decode execute payload"
  require (¬ executePayload.target.isZero) "Invalid target"
  processCommand crypto ctx executePayload state

/-! ## Other endpoints -/

def withdraw (ctx : CallContext) (recipient : Address) (amount : ℕ) (state : State) :
    Outcome (State × Effects) := do
  require (ctx.caller = ctx.scAddress) "Not self"
  return (state, { transfer := some (recipient, .egld, amount) })

def transferOperatorship (ctx : CallContext) (newOperator : Address) (state : State) :
    Outcome (State × Effects) := do
  require (ctx.caller = state.operator ∨ ctx.caller = ctx.scAddress) "Not authorized"
  require (¬ newOperator.isZero) "Invalid operator address"
  return ({ state with operator := newOperator },
    { events := [.operatorshipTransferred state.operator newOperator] })

/-- The whole refund is taken out of storage and sent, unless it is zero. -/
def withdrawRefundToken (ctx : CallContext) (token : EgldOrEsdtToken) (state : State) :
    State × Effects :=
  let value := state.refundToken ctx.caller token
  let state := { state with
    refundToken := Function.update state.refundToken ctx.caller
      (Function.update (state.refundToken ctx.caller) token 0) }
  (state, { transfer := if value = 0 then none else some (ctx.caller, token.asset, value) })

/-! ## Callbacks -/

/-- Add to what a user may withdraw of a token. -/
def refund (user : Address) (token : EgldOrEsdtToken) (amount : ℕ) (state : State) : State :=
  { state with
    refundToken := Function.update state.refundToken user
      (Function.update (state.refundToken user) token
        (state.refundToken user token + amount)) }

def handleCallbackFailure (caller : Address) (payments : EgldOrMultiEsdtPayment)
    (state : State) : State :=
  match payments with
  | .egld egldValue => refund caller .egld egldValue state
  | .multiEsdt esdts => esdts.foldl
      (fun state esdt => refund caller (.ofPayment esdt) esdt.amount state) state

def executeProposalCallback (hash : Hash) (caller : Address)
    (payments : EgldOrMultiEsdtPayment) (callResult : ManagedAsyncCallResult)
    (state : State) : State × List Event :=
  let state := { state with
    timeLockProposalsBeingExecuted :=
      Function.update state.timeLockProposalsBeingExecuted hash false }
  match callResult with
  | .ok results => (removeProposalTimeLock hash state, [.executeProposalSuccess hash results])
  | .err errCode errMsg => (handleCallbackFailure caller payments state,
      [.executeProposalError hash errCode errMsg])

def executeOperatorProposalCallback (hash : Hash) (operator : Address)
    (payments : EgldOrMultiEsdtPayment) (callResult : ManagedAsyncCallResult)
    (state : State) : State × List Event :=
  let state := { state with
    operatorProposalsBeingExecuted :=
      Function.update state.operatorProposalsBeingExecuted hash false }
  match callResult with
  | .ok results => (removeProposalOperator hash state,
      [.operatorExecuteProposalSuccess hash results])
  | .err errCode errMsg => (handleCallbackFailure operator payments state,
      [.operatorExecuteProposalError hash errCode errMsg])

end AxelarCgp.Governance
