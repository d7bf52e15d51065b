import AxelarCgp.GasService.Contract
import AxelarCgp.Gateway.Contract
import AxelarCgp.Its.Types
import AxelarCgp.TokenManager.Contract

/-!
# The service among the other contracts

The service, the gateway and the token managers, what every account owns, and
the asynchronous calls in flight.  A call of another contract in the same
transaction runs that contract on its own state, moves the payment and carries
out what the contract does with tokens; if it stops, so does the caller.  The
trace of a transaction lists these calls in order.

A contract that receives tokens may call any of these contracts in turn.  The
service has nothing left to do by then, so such a call is one more input of the
machine, made by that contract.
-/

namespace AxelarCgp.Its

open Transaction

/-- An asynchronous call that waits for its answer. -/
inductive Pending where
  | tokenProperties (request : Request)
  | issue (manager user : Address) (cost : ℕ)
  deriving DecidableEq

structure World where
  itsAddress : Address
  its : State
  gateway : Gateway.State
  managers : Address → Option TokenManager.State
  ledger : Ledger Address Asset
  pending : List Pending

/-- What the platform decides in a transaction: the block, who holds the local
roles of a token, where the next contract goes, and which contracts accept a
call with interchain tokens. -/
structure Environment where
  blockTimestamp : UInt64
  gasLeft : UInt64
  ownerOf : Address → Address
  hasLocalRoles : Address → TokenIdentifier → Bool
  newAddress : Address
  accepts : Address → Bool

def Environment.context (env : Environment) (caller scAddress : Address)
    (callValue : EgldOrMultiEsdtPayment) : CallContext where
  caller
  scAddress
  ownerAddress := env.ownerOf scAddress
  blockTimestamp := env.blockTimestamp
  callValue
  gasLeft := env.gasLeft

inductive Action where
  | event (event : Event)
  | gateway (ctx : CallContext) (call : Gateway.Call) (reply : Gateway.Reply)
  | gasService (paid : GasService.NativeGasPaidForContractCall)
  | managerDeployed (address service : Address) (tokenManagerType : TokenManagerType)
      (tokenId : TokenId) (params : DeployTokenManagerParams)
  | manager (ctx : CallContext) (call : TokenManager.Call) (reply : TokenManager.Reply)
      (actions : List TokenManager.Action)
  | executeWithInterchainToken (destination : Address) (sourceChain messageId sourceAddress
      data : ManagedBuffer) (tokenId : TokenId) (token : EgldOrEsdtTokenIdentifier)
      (amount : ℕ)
  | send (receiver : Address) (asset : Asset) (amount : ℕ)
  | request (request : Request)
  | answered (call : Pending) (completed : Bool)

abbrev Tx := Transaction World Action

/-- The system contract that issues tokens and knows their properties. -/
def ESDTSystemSCAddress : Address :=
  ⟨List.replicate 9 0 ++ [1] ++ List.replicate 19 0 ++ [2, 255, 255], by decide⟩

namespace World

/-- The contracts of the system, which act only as their code says. -/
def isSystemContract (address : Address) (world : World) : Bool :=
  address = world.itsAddress || address = world.its.gateway ||
    address = world.its.gasService || address = ESDTSystemSCAddress ||
    (world.managers address).isSome

def setManager (address : Address) (state : TokenManager.State) (world : World) : World :=
  { world with managers := Function.update world.managers address (some state) }

end World

/-! ## Tokens -/

def transfer (sender receiver : Address) (asset : Asset) (amount : ℕ) : Tx Unit := do
  let ledger ← reads World.ledger
  let ledger ← ledger.transfer sender receiver asset amount
  modifies fun world => { world with ledger }

/-- Move the payment of a call. -/
def pay (ctx : CallContext) : Tx Unit :=
  forEach (fun entry => transfer ctx.caller ctx.scAddress entry.1 entry.2)
    ctx.callValue.amounts

def localMint (env : Environment) (holder : Address) (token : TokenIdentifier)
    (amount : ℕ) : Tx Unit := do
  require (env.hasLocalRoles holder token) "action is not allowed"
  modifies fun world => { world with
    ledger := world.ledger.mint holder
      (EgldOrEsdtTokenIdentifier.asset (.esdt token) 0) amount }

def localBurn (env : Environment) (holder : Address) (token : TokenIdentifier)
    (amount : ℕ) : Tx Unit := do
  require (env.hasLocalRoles holder token) "action is not allowed"
  let ledger ← reads World.ledger
  let ledger ← ledger.burn holder (EgldOrEsdtTokenIdentifier.asset (.esdt token) 0) amount
  modifies fun world => { world with ledger }

def register (pending : Pending) : Tx Unit :=
  modifies fun world => { world with pending := world.pending ++ [pending] }

/-! ## Calls of other contracts -/

/-- Carry out what a token manager did. -/
def managerAction (env : Environment) (manager : Address) : TokenManager.Action → Tx Unit
  | .localMint token amount => localMint env manager token amount
  | .localBurn token amount => localBurn env manager token amount
  | .send receiver token amount => transfer manager receiver (token.asset 0) amount
  | .issue cost _ _ _ user => do
      transfer manager ESDTSystemSCAddress .egld cost
      register (.issue manager user cost)
  | .roles _ | .flowLimitSet _ _ _ | .interchainTokenDeployed _ _
  | .interchainTokenDeploymentFailed => pure ()

/-- The state of a token manager, for its views. -/
def managerAt (address : Address) : Tx TokenManager.State := do
  let manager ← reads fun world => world.managers address
  orFail manager "account was not found"

/-- Run code of the manager at an address and carry out what it does. -/
def runManager {A : Type} (env : Environment) (address : Address)
    (code : TokenManager.Tx A) : Tx (A × List TokenManager.Action) := do
  let state ← managerAt address
  let result ← code state
  modifies (World.setManager address result.state)
  forEach (managerAction env address) result.trace
  return (result.value, result.trace)

def callManager (env : Environment) (ctx : CallContext) (call : TokenManager.Call) :
    Tx TokenManager.Reply := do
  pay ctx
  let (reply, actions) ← runManager env ctx.scAddress (TokenManager.perform ctx call)
  performs (.manager ctx call reply actions)
  return reply

def callGateway (crypto : Crypto) (ctx : CallContext) (call : Gateway.Call) :
    Tx Gateway.Reply := do
  let state ← reads World.gateway
  let (gateway, reply) ← Gateway.perform crypto ctx call state
  modifies fun world => { world with gateway }
  performs (.gateway ctx call reply)
  return reply

def callGasService (crypto : Crypto) (ctx : CallContext) (sender : Address)
    (destinationChain destinationAddress payload : ManagedBuffer) (refundAddress : Address) :
    Tx Unit := do
  pay ctx
  let paid ← GasService.payNativeGasForContractCall crypto ctx sender destinationChain
    destinationAddress payload refundAddress
  performs (.gasService paid)

/-- `deploy_from_source_contract` with the arguments of the manager's `init`.
The platform never gives an address twice. -/
def deployFromSource (env : Environment) (service : Address)
    (tokenManagerType : TokenManagerType) (tokenId : TokenId)
    (params : DeployTokenManagerParams) : Tx Address := do
  let address := env.newAddress
  let taken ← reads (World.isSystemContract address)
  require (¬ taken) "account already exists"
  let result ← TokenManager.init service tokenManagerType tokenId params .blank
  modifies (World.setManager address result.state)
  performs (.managerDeployed address service tokenManagerType tokenId params)
  return address

/-- Send own funds. -/
def send (sender receiver : Address) (asset : Asset) (amount : ℕ) : Tx Unit := do
  transfer sender receiver asset amount
  performs (.send receiver asset amount)

/-- Ask for the properties of a token. -/
def esdtGetTokenProperties (request : Request) : Tx Unit := do
  register (.tokenProperties request)
  performs (.request request)

/-! ## The storage of the service -/

/-- Change the storage of the service. -/
def modifiesIts (change : State → State) : Tx Unit :=
  modifies fun world => { world with its := change world.its }

def emits (event : Event) : Tx Unit :=
  performs (.event event)

def withRoles {A : Type} (x : AccountRoles.Tx A) : Tx A :=
  within (fun world => world.its.roles)
    (fun roles world => { world with its := { world.its with roles } })
    (fun event => .event (.roles event)) x

end AxelarCgp.Its
