import AxelarCgp.Core.Machine
import AxelarCgp.Governance.System
import AxelarCgp.TokenManager.Contract

/-!
# The proxy of the token service

A contract on the shard of the token service that forwards what it delivers to an
executable on another shard.  The call is asynchronous, and one that fails is recorded
with the token and the amount it carried, for anybody to call again.

The arguments of a call are kept together as its key: they are what a failed call is
recorded under, what its callback captures, and what the executable is called with.
-/

namespace AxelarCgp.ItsProxy

open Governance (ManagedAsyncCallResult)

structure CallKey where
  sourceChain : ManagedBuffer
  messageId : ManagedBuffer
  sourceAddress : ManagedBuffer
  data : ManagedBuffer
  tokenId : FixedBytes 32
  deriving DecidableEq

inductive Event where
  | executeSuccess (sourceChain messageId : ManagedBuffer)
  | executeFailed (sourceChain messageId sourceAddress : ManagedBuffer)
      (tokenId : FixedBytes 32) (data : ManagedBuffer)
  deriving DecidableEq

/-- A call of `executeWithInterchainToken` of the executable, with what it carries; the
callback `execute_callback` captures the key, the token and the amount. -/
structure Promise where
  target : Address
  key : CallKey
  tokenIdentifier : EgldOrEsdtTokenIdentifier
  amount : ℕ
  gasLimit : UInt64
  extraGasForCallback : UInt64
  deriving DecidableEq

structure State where
  interchainTokenService : Address
  contractAddress : Address
  minGasForExecution : UInt64
  failedCalls : CallKey → Option (EgldOrEsdtTokenIdentifier × ℕ)

def CALLBACK_GAS : UInt64 := 10000000
def KEEP_EXTRA_GAS : UInt64 := 10000000

def init (interchainTokenService contractAddress : Address) (minGasForExecution : UInt64) :
    State where
  interchainTokenService
  contractAddress
  minGasForExecution
  failedCalls _ := none

def upgrade (minGasForExecution : UInt64) (state : State) : State :=
  { state with minGasForExecution }

/-- The payment that is forwarded: the one the token service sends, or for any other
caller the one of a failed call, which is no longer recorded then. -/
def takePayment (ctx : CallContext) (key : CallKey) (state : State) :
    Outcome (State × EgldOrEsdtTokenIdentifier × ℕ) :=
  if ctx.caller = state.interchainTokenService then do
    let payment ← TokenManager.egldOrSingleFungibleEsdt ctx.callValue
    return (state, payment)
  else do
    let payment ← orFail (state.failedCalls key) "Call is not allowed"
    require ctx.callValue.isEmpty "Can not send any payment"
    return ({ state with failedCalls := Function.update state.failedCalls key none }, payment)

def executeWithInterchainToken (ctx : CallContext) (key : CallKey) (state : State) :
    Outcome (State × Promise) := do
  let (state, tokenIdentifier, amount) ← takePayment ctx key state
  -- The sum is taken modulo the size of a machine word.
  require (state.minGasForExecution + CALLBACK_GAS + KEEP_EXTRA_GAS ≤ ctx.gasLeft)
    "Not enough gas left for async call"
  return (state, {
    target := state.contractAddress
    key
    tokenIdentifier
    amount
    gasLimit := ctx.gasLeft - CALLBACK_GAS - KEEP_EXTRA_GAS
    extraGasForCallback := CALLBACK_GAS })

def setMinGasForExecution (ctx : CallContext) (minGasForExecution : UInt64) (state : State) :
    Outcome State := do
  require (ctx.caller = ctx.ownerAddress) "Endpoint can only be called by owner"
  return { state with minGasForExecution }

def executeCallback (key : CallKey) (tokenIdentifier : EgldOrEsdtTokenIdentifier) (amount : ℕ)
    (result : ManagedAsyncCallResult) (state : State) : State × List Event :=
  match result with
  | .ok _ => (state, [.executeSuccess key.sourceChain key.messageId])
  | .err _ _ =>
      ({ state with
          failedCalls := Function.update state.failedCalls key (some (tokenIdentifier, amount)) },
        [.executeFailed key.sourceChain key.messageId key.sourceAddress key.tokenId key.data])

/-! ## On the platform -/

structure System where
  contract : State
  balance : Purse Asset
  pending : List Promise

/-- A deployed contract that owns nothing. -/
def System.deploy (contract : State) : System where
  contract
  balance _ := 0
  pending := []

inductive Input where
  | executeWithInterchainToken (ctx : CallContext) (key : CallKey)
  | setMinGasForExecution (ctx : CallContext) (minGasForExecution : UInt64)
  | upgrade (minGasForExecution : UInt64)
  | callback (index : ℕ) (result : ManagedAsyncCallResult)

/-- The call that an endpoint registered, or the one that was answered, with the events
of its callback. -/
structure Output where
  registered : Option Promise := none
  answered : Option Promise := none
  events : List Event := []
  deriving DecidableEq

/-- What a call in flight has with it. -/
def Promise.carried (promise : Promise) : List (Asset × ℕ) :=
  [(promise.tokenIdentifier.asset 0, promise.amount)]

/-- The payments arrive with the call, and what the registered call carries leaves. -/
def forward (ctx : CallContext) (system : System) (result : State × Promise) :
    Outcome (System × Output) := do
  let (contract, promise) := result
  let balance ← (system.balance.deposit ctx.callValue.amounts).withdraw promise.carried
  return (⟨contract, balance, system.pending ++ [promise]⟩, { registered := some promise })

/-- The platform brings back what a failed call carried, and then runs the callback. -/
def answer (index : ℕ) (result : ManagedAsyncCallResult) (system : System) :
    Outcome (System × Output) := do
  let promise ← orFail system.pending[index]? "no such call in flight"
  let balance := system.balance.deposit (result.returned promise.carried)
  let (contract, events) := executeCallback promise.key promise.tokenIdentifier promise.amount
    result system.contract
  return (⟨contract, balance, system.pending.eraseIdx index⟩,
    { answered := some promise, events })

def Input.perform (input : Input) (system : System) : Outcome (System × Output) :=
  match input with
  | executeWithInterchainToken ctx key =>
      ItsProxy.executeWithInterchainToken ctx key system.contract >>= forward ctx system
  | setMinGasForExecution ctx minGasForExecution => do
      requireNotPayable ctx
      let contract ← ItsProxy.setMinGasForExecution ctx minGasForExecution system.contract
      return ({ system with contract }, {})
  | upgrade minGasForExecution =>
      return ({ system with contract := ItsProxy.upgrade minGasForExecution system.contract }, {})
  | callback index result => answer index result system

/-- Deliveries, retries by anybody and answers of calls in flight, in any order. -/
def machine : Machine System Input Output where
  step system input := input.perform system

end AxelarCgp.ItsProxy
