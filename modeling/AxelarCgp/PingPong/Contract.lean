import AxelarCgp.Core.Machine
import AxelarCgp.Core.Transaction
import AxelarCgp.Platform.Types
import Mathlib.Data.List.Nodup
import Mathlib.Logic.Function.Basic

/-!
# The ping-pong contract

`ping-pong-interchain/src/ping_pong.rs`: a user pays a fixed sum once ("ping"), and gets it
back once after a deadline ("pong"), alone or with everybody else.  Both can be asked for by
the interchain token service as well.
-/

namespace AxelarCgp.PingPong

/-- What comes from other chains: a function and the user it is for. -/
structure Data where
  function : ManagedBuffer
  address : Address
  deriving DecidableEq

def Data.topDecode (data : ManagedBuffer) : Option Data :=
  (NestedCodec.topDecode (A := ManagedBuffer × Address) data.1).map fun fields =>
    ⟨fields.1, fields.2⟩

/-- `"ping"` and `"pong"` as the functions of such data. -/
def pingFunction : ManagedBuffer := ⟨Bytes.ascii ['p', 'i', 'n', 'g'], by decide⟩

def pongFunction : ManagedBuffer := ⟨Bytes.ascii ['p', 'o', 'n', 'g'], by decide⟩

inductive UserStatus where
  | new
  | registered
  | withdrawn
  deriving DecidableEq

inductive OperationCompletionStatus where
  | completed
  | interruptedBeforeOutOfGas
  deriving DecidableEq

def PONG_ALL_LOW_GAS_LIMIT : UInt64 := 3000000

/-- `UserMapper`: users are numbered from 1 in the order they came. -/
structure UserMapper where
  addresses : List Address
  nodup : addresses.Nodup

namespace UserMapper

def empty : UserMapper := ⟨[], List.nodup_nil⟩

/-- The number of a user, and 0 for an unknown one. -/
def getUserId (mapper : UserMapper) (address : Address) : ℕ :=
  if address ∈ mapper.addresses then mapper.addresses.idxOf address + 1 else 0

def getUserAddress (mapper : UserMapper) : ℕ → Option Address
  | 0 => none
  | index + 1 => mapper.addresses[index]?

def getUserCount (mapper : UserMapper) : ℕ := mapper.addresses.length

/-- `get_or_create_user`, with the numbering it leaves. -/
def getOrCreateUser (mapper : UserMapper) (address : Address) : ℕ × UserMapper :=
  if h : address ∈ mapper.addresses then
    (mapper.getUserId address, mapper)
  else
    (mapper.getUserCount + 1,
      ⟨mapper.addresses ++ [address], List.nodup_append.mpr ⟨mapper.nodup, by simp, by
        rintro left hleft right hright rfl
        exact h (List.mem_singleton.mp hright ▸ hleft)⟩⟩)

end UserMapper

structure State where
  interchainTokenService : Address
  pingAmount : ℕ
  deadline : UInt64
  activationTimestamp : UInt64
  maxFunds : Option ℕ
  userMapper : UserMapper
  userStatus : ℕ → UserStatus
  pongAllLastUser : ℕ

/-- `init`, on an empty storage. -/
def State.init (ctx : CallContext) (interchainTokenService : Address) (pingAmount : ℕ)
    (durationInSeconds : UInt64) (optActivationTimestamp : Option UInt64)
    (maxFunds : Option ℕ) : State :=
  let activationTimestamp := optActivationTimestamp.getD ctx.blockTimestamp
  { interchainTokenService
    pingAmount
    deadline := activationTimestamp + durationInSeconds
    activationTimestamp
    maxFunds
    userMapper := .empty
    userStatus := fun _ => .new
    pongAllLastUser := 0 }

/-! ## On the platform -/

/-- The account of the contract. -/
structure System where
  address : Address
  contract : State
  balance : ℕ

inductive Action where
  | send (receiver : Address) (amount : ℕ)
  deriving DecidableEq

abbrev Tx := Transaction System Action

open Transaction

def setUserStatus (userId : ℕ) (status : UserStatus) : Tx Unit :=
  modifies fun system => { system with contract := { system.contract with
    userStatus := Function.update system.contract.userStatus userId status } }

def setPongAllLastUser (lastUser : ℕ) : Tx Unit :=
  modifies fun system => { system with contract := { system.contract with
    pongAllLastUser := lastUser } }

def getOrCreateUser (address : Address) : Tx ℕ := do
  let mapper ← reads fun system => system.contract.userMapper
  let (userId, userMapper) := mapper.getOrCreateUser address
  modifies fun system => { system with contract := { system.contract with userMapper } }
  return userId

/-- `direct_egld`: what the contract sends to itself it keeps. -/
def directEgld (receiver : Address) (amount : ℕ) : Tx Unit := do
  let balance ← reads System.balance
  require (amount ≤ balance) "failed transfer (insufficient funds)"
  modifies fun system => { system with
    balance := if receiver = system.address then system.balance else system.balance - amount }
  performs (.send receiver amount)

/-- `egld_value`: a list of ESDT payments is no EGLD. -/
def callEgldValue (ctx : CallContext) : ℕ :=
  match ctx.callValue with
  | .egld value => value
  | .multiEsdt _ => 0

/-! ## Endpoints -/

section Endpoints

variable (ctx : CallContext)

def requireNotFull (payment : ℕ) : Option ℕ → Tx Unit
  | some maxFunds => do
      let balance ← reads System.balance
      require (balance + payment ≤ maxFunds) "smart contract full"
  | none => pure ()

/-- The end of `ping`: a user who was never entered is registered. -/
def enter (caller : Address) : Tx Unit := do
  let userId ← getOrCreateUser caller
  let userStatus ← reads fun system => system.contract.userStatus userId
  match userStatus with
  | .new => setUserStatus userId .registered
  | .registered => liftM (.error "can only ping once" : Outcome Unit)
  | .withdrawn => liftM (.error "already withdrawn" : Outcome Unit)

def ping (optCaller : Option Address) : Tx Unit := do
  let payment := callEgldValue ctx
  let pingAmount ← reads fun system => system.contract.pingAmount
  require (payment = pingAmount) "the payment must match the fixed sum"
  let activationTimestamp ← reads fun system => system.contract.activationTimestamp
  require (activationTimestamp ≤ ctx.blockTimestamp) "smart contract not active yet"
  let maxFunds ← reads fun system => system.contract.maxFunds
  requireNotFull payment maxFunds
  let caller := optCaller.getD ctx.caller
  enter caller

/-- The status is set before the user is looked up. -/
def pongByUserId (userId : ℕ) : Tx (Except String Unit) := do
  let userStatus ← reads fun system => system.contract.userStatus userId
  match userStatus with
  | .new => return .error "can't pong, never pinged"
  | .registered => do
      setUserStatus userId .withdrawn
      let userAddress ← reads fun system => system.contract.userMapper.getUserAddress userId
      match userAddress with
      | some userAddress => do
          let pingAmount ← reads fun system => system.contract.pingAmount
          directEgld userAddress pingAmount
          return .ok ()
      | none => return .error "unknown user"
  | .withdrawn => return .error "already withdrawn"

def requireExpired : Tx Unit := do
  let deadline ← reads fun system => system.contract.deadline
  require (ctx.blockTimestamp ≥ deadline) "can't withdraw before deadline"

def pong (optCaller : Option Address) : Tx Unit := do
  requireExpired ctx
  let caller := optCaller.getD ctx.caller
  let userId ← reads fun system => system.contract.userMapper.getUserId caller
  let pongResult ← pongByUserId userId
  liftM pongResult

/-- The loop of `pong_all` with `remaining` users after `lastUser`; `gasLeft` is what each
check of the gas finds. -/
def pongAllLoop (gasLeft : ℕ → UInt64) : (remaining lastUser : ℕ) →
    Tx OperationCompletionStatus
  | 0, _ => do
      setPongAllLastUser 0
      return .completed
  | remaining + 1, lastUser => do
      if gasLeft lastUser < PONG_ALL_LOW_GAS_LIMIT then
        setPongAllLastUser lastUser
        return .interruptedBeforeOutOfGas
      else
        let _ ← pongByUserId (lastUser + 1)
        pongAllLoop gasLeft remaining (lastUser + 1)

def pongAll (gasLeft : ℕ → UInt64) : Tx OperationCompletionStatus := do
  requireExpired ctx
  let numUsers ← reads fun system => system.contract.userMapper.getUserCount
  let lastUser ← reads fun system => system.contract.pongAllLastUser
  pongAllLoop gasLeft (numUsers - lastUser) lastUser

/-- What `validateMessage` of an address answers to a source chain, a message id, a source
address and a payload hash. -/
abbrev ValidateMessage :=
  Address → ManagedBuffer → ManagedBuffer → ManagedBuffer → Hash → Outcome Bool

/-- The contract acts only after the answer, so whatever the called contract asks of it
meanwhile is as good as asked before. -/
def execute (crypto : Crypto) (validateMessage : ValidateMessage)
    (sourceChain messageId sourceAddress payload : ManagedBuffer) : Tx Unit := do
  let payloadHash := crypto.keccak256 payload.1
  let service ← reads fun system => system.contract.interchainTokenService
  let valid ← validateMessage service sourceChain messageId sourceAddress payloadHash
  require (valid = true) "Not validated by gateway"
  let data ← orFail (Data.topDecode payload) "panic occurred"
  pong ctx (some data.address)

/-- The other arguments are ignored. -/
def executeWithInterchainToken (data : ManagedBuffer) : Tx Unit := do
  let data ← orFail (Data.topDecode data) "argument decode error"
  let service ← reads fun system => system.contract.interchainTokenService
  require (ctx.caller = service) "Not service"
  if data.function = pingFunction then
    ping ctx (some data.address)
  else if data.function = pongFunction then
    pong ctx (some data.address)
  else
    liftM (.error "Unsupported payload" : Outcome Unit)

def setInterchainTokenService (interchainTokenService : Address) : Tx Unit := do
  require (ctx.caller = ctx.ownerAddress) "Endpoint can only be called by owner"
  modifies fun system => { system with contract := { system.contract with
    interchainTokenService } }

end Endpoints

/-! ## The contract as a machine -/

inductive Call where
  | upgrade
  | execute (validateMessage : ValidateMessage)
      (sourceChain messageId sourceAddress payload : ManagedBuffer)
  | executeWithInterchainToken (data : ManagedBuffer)
  | ping (optCaller : Option Address)
  | pong (optCaller : Option Address)
  | pongAll (gasLeft : ℕ → UInt64)
  | setInterchainTokenService (interchainTokenService : Address)

/-- Only `pong_all` returns something. -/
abbrev Answer := Option OperationCompletionStatus

/-- An endpoint that takes no payment. -/
def unpaid {A : Type} (ctx : CallContext) (x : Tx A) : Tx A := do
  requireNotPayable ctx
  x

/-- The EGLD of a call is there before the code runs. -/
def receive (ctx : CallContext) : Tx Unit :=
  modifies fun system => { system with
    balance := system.balance + ctx.callValue.total .egld }

def perform (crypto : Crypto) (ctx : CallContext) (call : Call) : Tx Answer := do
  receive ctx
  match call with
  | .upgrade => do
      unpaid ctx (pure ())
      return none
  | .execute validateMessage sourceChain messageId sourceAddress payload => do
      unpaid ctx (execute ctx crypto validateMessage sourceChain messageId sourceAddress payload)
      return none
  | .executeWithInterchainToken data => do
      executeWithInterchainToken ctx data
      return none
  | .ping optCaller => do
      let _ ← egldValue ctx
      ping ctx optCaller
      return none
  | .pong optCaller => do
      unpaid ctx (pong ctx optCaller)
      return none
  | .pongAll gasLeft => do
      let status ← unpaid ctx (pongAll ctx gasLeft)
      return some status
  | .setInterchainTokenService interchainTokenService => do
      unpaid ctx (setInterchainTokenService ctx interchainTokenService)
      return none

structure Input where
  ctx : CallContext
  call : Call

/-- What a call returned, and what it sent. -/
structure Output where
  answer : Answer
  sent : List Action
  deriving DecidableEq

def machine (crypto : Crypto) : Machine System Input Output where
  step system input := do
    let done ← perform crypto input.ctx input.call system
    return (done.state, ⟨done.value, done.trace⟩)

end AxelarCgp.PingPong
