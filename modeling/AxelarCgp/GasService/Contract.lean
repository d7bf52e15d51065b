import AxelarCgp.Core.Machine
import AxelarCgp.Core.Transaction
import AxelarCgp.Platform.Types

/-!
# The gas service

`gas-service/src/lib.rs`: anybody pays for a cross-chain call or adds to such a payment, in
EGLD or in one ESDT, and the contract keeps and announces what it received.  The gas
collector takes it out again.
-/

namespace AxelarCgp.GasService

structure NativeGasPaidForContractCall where
  sender : Address
  destinationChain : ManagedBuffer
  destinationAddress : ManagedBuffer
  hash : Hash
  value : ℕ
  refundAddress : Address
  deriving DecidableEq

structure GasPaidForContractCall where
  sender : Address
  destinationChain : ManagedBuffer
  destinationAddress : ManagedBuffer
  hash : Hash
  gasToken : TokenIdentifier
  gasFeeAmount : ℕ
  refundAddress : Address
  deriving DecidableEq

structure AddNativeGas where
  txHash : ManagedBuffer
  logIndex : ℕ
  value : ℕ
  refundAddress : Address
  deriving DecidableEq

structure AddGas where
  txHash : ManagedBuffer
  logIndex : ℕ
  gasToken : TokenIdentifier
  gasFeeAmount : ℕ
  refundAddress : Address
  deriving DecidableEq

structure Refunded where
  txHash : ManagedBuffer
  logIndex : ℕ
  receiver : Address
  token : EgldOrEsdtTokenIdentifier
  amount : ℕ
  deriving DecidableEq

inductive Event where
  | gasPaidForContractCall (paid : GasPaidForContractCall)
  | nativeGasPaidForContractCall (paid : NativeGasPaidForContractCall)
  | gasPaidForExpressCall (paid : GasPaidForContractCall)
  | nativeGasPaidForExpressCall (paid : NativeGasPaidForContractCall)
  | gasAdded (added : AddGas)
  | nativeGasAdded (added : AddNativeGas)
  | expressGasAdded (added : AddGas)
  | nativeExpressGasAdded (added : AddNativeGas)
  | refunded (refunded : Refunded)
  deriving DecidableEq

/-! ## Payments -/

/-- `single_fungible_esdt`: the one payment of a call, of a token without a nonce. -/
def singleFungibleEsdt (ctx : CallContext) : Outcome (TokenIdentifier × ℕ) :=
  match ctx.callValue with
  | .multiEsdt [payment] => do
      require (payment.tokenNonce = 0) "fungible ESDT token expected"
      return (payment.tokenIdentifier, payment.amount)
  | _ => .error "incorrect number of ESDT transfers"

section Payments

variable (crypto : Crypto) (ctx : CallContext)

def payNativeGasForContractCall (sender : Address)
    (destinationChain destinationAddress payload : ManagedBuffer) (refundAddress : Address) :
    Outcome NativeGasPaidForContractCall := do
  let value ← egldValue ctx
  require (value > 0) "Nothing received"
  let hash := crypto.keccak256 payload.1
  return ⟨sender, destinationChain, destinationAddress, hash, value, refundAddress⟩

def payGasForContractCall (sender : Address)
    (destinationChain destinationAddress payload : ManagedBuffer) (refundAddress : Address) :
    Outcome GasPaidForContractCall := do
  let (gasToken, gasFeeAmount) ← singleFungibleEsdt ctx
  require (gasFeeAmount > 0) "Nothing received"
  let hash := crypto.keccak256 payload.1
  return ⟨sender, destinationChain, destinationAddress, hash, gasToken, gasFeeAmount,
    refundAddress⟩

def addNativeGas (txHash : ManagedBuffer) (logIndex : ℕ) (refundAddress : Address) :
    Outcome AddNativeGas := do
  let value ← egldValue ctx
  require (value > 0) "Nothing received"
  return ⟨txHash, logIndex, value, refundAddress⟩

def addGas (txHash : ManagedBuffer) (logIndex : ℕ) (refundAddress : Address) :
    Outcome AddGas := do
  let (gasToken, gasFeeAmount) ← singleFungibleEsdt ctx
  require (gasFeeAmount > 0) "Nothing received"
  return ⟨txHash, logIndex, gasToken, gasFeeAmount, refundAddress⟩

end Payments

/-! ## On the platform -/

/-- The contract, whose collector is unset until it is deployed, and what every account
owns. -/
structure System where
  gasCollector : Option Address
  ledger : Ledger Address Asset

inductive Action where
  | event (event : Event)
  | send (receiver : Address) (token : EgldOrEsdtTokenIdentifier) (amount : ℕ)
  deriving DecidableEq

abbrev Tx := Transaction System Action

open Transaction

def transfer (sender receiver : Address) (asset : Asset) (amount : ℕ) : Tx Unit := do
  let ledger ← reads System.ledger
  let ledger ← ledger.transfer sender receiver asset amount
  modifies fun system => { system with ledger }

/-- Move the payment of a call to the contract. -/
def pay (ctx : CallContext) : Tx Unit :=
  forEach (fun entry => transfer ctx.caller ctx.scAddress entry.1 entry.2) ctx.callValue.amounts

/-- `direct`, `direct_egld` and `direct_esdt`: a transfer without a call. -/
def direct (ctx : CallContext) (receiver : Address) (token : EgldOrEsdtTokenIdentifier)
    (amount : ℕ) : Tx Unit := do
  transfer ctx.scAddress receiver (token.asset 0) amount
  performs (.send receiver token amount)

/-! ## The gas collector -/

/-- `set_if_empty`: only the first call sets the collector. -/
def init (gasCollector : Address) : Tx Unit :=
  modifies fun system => { system with
    gasCollector := some (system.gasCollector.getD gasCollector) }

section Collector

variable (ctx : CallContext)

def requireOnlyCollector : Tx Unit := do
  let collector ← reads System.gasCollector
  let collector ← orFail collector "storage decode error: bad array length"
  require (ctx.caller = collector) "Not collector"

/-- One pass of the loop of `collect_fees`; what the balance does not cover is skipped. -/
def collectFee (receiver : Address) (entry : EgldOrEsdtTokenIdentifier × ℕ) : Tx Unit := do
  let (token, amount) := entry
  require (amount > 0) "Invalid amounts"
  let balance ← reads fun system => system.ledger.balance ctx.scAddress (token.asset 0)
  if amount ≤ balance then
    direct ctx receiver token amount

def collectFees (receiver : Address) (tokens : List EgldOrEsdtTokenIdentifier)
    (amounts : List ℕ) : Tx Unit := do
  requireOnlyCollector ctx
  require (¬ receiver.isZero) "Invalid address"
  require (tokens.length = amounts.length) "Invalid amounts"
  forEach (collectFee ctx receiver) (tokens.zip amounts)

def refund (txHash : ManagedBuffer) (logIndex : ℕ) (receiver : Address)
    (token : EgldOrEsdtTokenIdentifier) (amount : ℕ) : Tx Unit := do
  requireOnlyCollector ctx
  require (¬ receiver.isZero) "Invalid address"
  direct ctx receiver token amount
  performs (.event (.refunded ⟨txHash, logIndex, receiver, token, amount⟩))

def setGasCollector (gasCollector : Address) : Tx Unit := do
  let collector ← reads System.gasCollector
  let collector ← orFail collector "storage decode error: bad array length"
  require (ctx.caller = collector ∨ ctx.caller = ctx.ownerAddress) "Not collector or owner"
  modifies fun system => { system with gasCollector := some gasCollector }

end Collector

/-! ## The contract as a machine -/

inductive Call where
  | upgrade
  | payGasForContractCall (sender : Address)
      (destinationChain destinationAddress payload : ManagedBuffer) (refundAddress : Address)
  | payNativeGasForContractCall (sender : Address)
      (destinationChain destinationAddress payload : ManagedBuffer) (refundAddress : Address)
  | payGasForExpressCall (sender : Address)
      (destinationChain destinationAddress payload : ManagedBuffer) (refundAddress : Address)
  | payNativeGasForExpressCall (sender : Address)
      (destinationChain destinationAddress payload : ManagedBuffer) (refundAddress : Address)
  | addGas (txHash : ManagedBuffer) (logIndex : ℕ) (refundAddress : Address)
  | addNativeGas (txHash : ManagedBuffer) (logIndex : ℕ) (refundAddress : Address)
  | addExpressGas (txHash : ManagedBuffer) (logIndex : ℕ) (refundAddress : Address)
  | addNativeExpressGas (txHash : ManagedBuffer) (logIndex : ℕ) (refundAddress : Address)
  | collectFees (receiver : Address) (tokens : List EgldOrEsdtTokenIdentifier)
      (amounts : List ℕ)
  | refund (txHash : ManagedBuffer) (logIndex : ℕ) (receiver : Address)
      (token : EgldOrEsdtTokenIdentifier) (amount : ℕ)
  | setGasCollector (gasCollector : Address)
  deriving DecidableEq

/-- Announce what an endpoint was paid. -/
def announce {A : Type} (event : A → Event) (paid : Outcome A) : Tx Unit := do
  let paid ← paid
  performs (.event (event paid))

/-- An endpoint that takes no payment. -/
def unpaid (ctx : CallContext) (x : Tx Unit) : Tx Unit := do
  requireNotPayable ctx
  x

/-- The payment reaches the contract, and then its code runs. -/
def perform (crypto : Crypto) (ctx : CallContext) (call : Call) : Tx Unit := do
  pay ctx
  match call with
  | .upgrade => unpaid ctx (pure ())
  | .payGasForContractCall sender chain address payload refundAddress =>
      announce .gasPaidForContractCall
        (payGasForContractCall crypto ctx sender chain address payload refundAddress)
  | .payNativeGasForContractCall sender chain address payload refundAddress =>
      announce .nativeGasPaidForContractCall
        (payNativeGasForContractCall crypto ctx sender chain address payload refundAddress)
  | .payGasForExpressCall sender chain address payload refundAddress =>
      announce .gasPaidForExpressCall
        (payGasForContractCall crypto ctx sender chain address payload refundAddress)
  | .payNativeGasForExpressCall sender chain address payload refundAddress =>
      announce .nativeGasPaidForExpressCall
        (payNativeGasForContractCall crypto ctx sender chain address payload refundAddress)
  | .addGas txHash logIndex refundAddress =>
      announce .gasAdded (addGas ctx txHash logIndex refundAddress)
  | .addNativeGas txHash logIndex refundAddress =>
      announce .nativeGasAdded (addNativeGas ctx txHash logIndex refundAddress)
  | .addExpressGas txHash logIndex refundAddress =>
      announce .expressGasAdded (addGas ctx txHash logIndex refundAddress)
  | .addNativeExpressGas txHash logIndex refundAddress =>
      announce .nativeExpressGasAdded (addNativeGas ctx txHash logIndex refundAddress)
  | .collectFees receiver tokens amounts =>
      unpaid ctx (collectFees ctx receiver tokens amounts)
  | .refund txHash logIndex receiver token amount =>
      unpaid ctx (refund ctx txHash logIndex receiver token amount)
  | .setGasCollector gasCollector => unpaid ctx (setGasCollector ctx gasCollector)

/-- A call of the contract, or what others do with their own assets. -/
inductive Input where
  | call (ctx : CallContext) (call : Call)
  | transfer (sender receiver : Address) (asset : Asset) (amount : ℕ)
  | mint (receiver : Address) (asset : Asset) (amount : ℕ)
  | burn (holder : Address) (asset : Asset) (amount : ℕ)

/-- The contract at `address` acts only as its code says. -/
def Input.perform (crypto : Crypto) (address : Address) : Input → Tx Unit
  | call ctx endpoint => do
      require (ctx.scAddress = address) "account was not found"
      GasService.perform crypto ctx endpoint
  | transfer sender receiver asset amount => do
      require (sender ≠ address) "not a call of the contract"
      GasService.transfer sender receiver asset amount
  | mint receiver asset amount =>
      modifies fun system => { system with ledger := system.ledger.mint receiver asset amount }
  | burn holder asset amount => do
      require (holder ≠ address) "not a call of the contract"
      let ledger ← reads System.ledger
      let ledger ← ledger.burn holder asset amount
      modifies fun system => { system with ledger }

def machine (crypto : Crypto) (address : Address) : Machine System Input (List Action) where
  step system input := do
    let done ← input.perform crypto address system
    return (done.state, done.trace)

end AxelarCgp.GasService
