import AxelarCgp.Core.Machine
import AxelarCgp.TokenManager.Constants

/-!
# The token manager

`token-manager/src`, endpoint by endpoint.  What an endpoint does to tokens
(minting, burning, sending) is left to the platform, as its trace says.
-/

namespace AxelarCgp.TokenManager

open Transaction

structure State where
  interchainTokenService : Address
  implementationType : TokenManagerType
  interchainTokenId : Hash
  tokenIdentifier : Option EgldOrEsdtTokenIdentifier
  minterAddress : Option Address
  roles : RoleTable
  flowLimit : Option ℕ
  flowOutAmount : UInt64 → ℕ
  flowInAmount : UInt64 → ℕ

inductive Action where
  | roles (event : RoleEvent)
  | flowLimitSet (tokenId : Hash) (operator : Address) (flowLimit : Option ℕ)
  | interchainTokenDeployed (tokenId : Hash) (tokenIdentifier : EgldOrEsdtTokenIdentifier)
  | interchainTokenDeploymentFailed
  | localMint (token : TokenIdentifier) (amount : ℕ)
  | localBurn (token : TokenIdentifier) (amount : ℕ)
  | send (receiver : Address) (token : EgldOrEsdtTokenIdentifier) (amount : ℕ)
  /-- `issue_and_set_all_roles` with its cost, and the user of the callback. -/
  | issue (cost : ℕ) (name ticker : Bytes) (decimals : UInt8) (user : Address)
  deriving DecidableEq

abbrev Tx := Transaction State Action

/-- A token identifier that was never set reads as an empty ESDT identifier. -/
def State.tokenIdentifierGet (state : State) : EgldOrEsdtTokenIdentifier :=
  state.tokenIdentifier.getD (.esdt ManagedBuffer.new)

def State.isMinter (address : Address) (state : State) : Bool :=
  state.roles.hasRole address .MINTER

def withRoles {A : Type} (x : AccountRoles.Tx A) : Tx A :=
  within State.roles (fun roles state => { state with roles }) Action.roles x

def unwrapEsdt : EgldOrEsdtTokenIdentifier → Outcome TokenIdentifier
  | .egld => .error "ESDT expected"
  | .esdt identifier => .ok identifier

/-! ## Flow limit -/

/-- Six hours. -/
def EPOCH_TIME : UInt64 := 6 * 3600

def setFlowLimitRaw (ctx : CallContext) (flowLimit : Option ℕ) (tokenId : Hash) : Tx Unit := do
  performs (.flowLimitSet tokenId ctx.caller flowLimit)
  modifies fun state => { state with flowLimit }

/-- The new value of the slot that a flow is added to. -/
def addFlow (flowLimit flowToAdd flowToCompare flowAmount : ℕ) : Outcome ℕ := do
  require (flowToAdd + flowAmount ≤ flowToCompare + flowLimit ∧ flowAmount ≤ flowLimit)
    "Flow limit exceeded"
  return flowToAdd + flowAmount

def addFlowOutRaw (ctx : CallContext) (flowOutAmount : ℕ) : Tx Unit := do
  match ← reads State.flowLimit with
  | none => return ()
  | some flowLimit => do
      let epoch := ctx.blockTimestamp / EPOCH_TIME
      let flowToAdd ← reads fun state => state.flowOutAmount epoch
      let flowToCompare ← reads fun state => state.flowInAmount epoch
      let flow ← addFlow flowLimit flowToAdd flowToCompare flowOutAmount
      modifies fun state => { state with
        flowOutAmount := Function.update state.flowOutAmount epoch flow }

def addFlowInRaw (ctx : CallContext) (flowInAmount : ℕ) : Tx Unit := do
  match ← reads State.flowLimit with
  | none => return ()
  | some flowLimit => do
      let epoch := ctx.blockTimestamp / EPOCH_TIME
      let flowToAdd ← reads fun state => state.flowInAmount epoch
      let flowToCompare ← reads fun state => state.flowOutAmount epoch
      let flow ← addFlow flowLimit flowToAdd flowToCompare flowInAmount
      modifies fun state => { state with
        flowInAmount := Function.update state.flowInAmount epoch flow }

/-! ## Mintership -/

def onlyMinter (ctx : CallContext) : Tx Unit :=
  withRoles (AccountRoles.onlyRole ctx.caller .MINTER)

def setMinterAddress (minter : Address) : Tx Unit :=
  modifies fun state => { state with minterAddress := some minter }

def addMinter (minter : Address) : Tx Unit := do
  setMinterAddress minter
  withRoles (AccountRoles.addRole minter .MINTER)

def transferMintership (ctx : CallContext) (minter : Address) : Tx Unit := do
  onlyMinter ctx
  setMinterAddress minter
  withRoles (AccountRoles.transferRole ctx.caller minter .MINTER)

def proposeMintership (ctx : CallContext) (minter : Address) : Tx Unit := do
  onlyMinter ctx
  withRoles (AccountRoles.proposeRole ctx.caller minter .MINTER)

def acceptMintership (ctx : CallContext) (fromMinter : Address) : Tx Unit := do
  setMinterAddress ctx.caller
  withRoles (AccountRoles.acceptRole fromMinter ctx.caller .MINTER)

/-! ## Deployment -/

/-- The storage of a contract before `init`: every mapper reads as empty. -/
def State.blank : State where
  interchainTokenService := .zero
  implementationType := .nativeInterchainToken
  interchainTokenId := NestedCodec.writeNat 32 0
  tokenIdentifier := none
  minterAddress := none
  roles := .empty
  flowLimit := none
  flowOutAmount _ := 0
  flowInAmount _ := 0

def init (interchainTokenService : Address) (implementationType : TokenManagerType)
    (interchainTokenId : Hash) (params : DeployTokenManagerParams) : Tx Unit := do
  require (¬ interchainTokenService.isZero) "Zero address"
  modifies fun state => { state with
    interchainTokenService
    implementationType
    interchainTokenId }
  let operator := params.operator.getD .zero
  withRoles (AccountRoles.addRole operator (Roles.union .FLOW_LIMITER .OPERATOR))
  withRoles (AccountRoles.addRole interchainTokenService (Roles.union .FLOW_LIMITER .OPERATOR))
  match implementationType with
  | .nativeInterchainToken =>
      require (params.tokenIdentifier = none) "Invalid token address"
  | .lockUnlock | .lockUnlockFee =>
      require (params.tokenIdentifier ≠ none) "Invalid token address"
  | .mintBurn | .mintBurnFrom =>
      require (params.tokenIdentifier.any EgldOrEsdtTokenIdentifier.isEsdt)
        "Invalid token address"
  modifies fun state => { state with tokenIdentifier := params.tokenIdentifier }

/-! ## Endpoints -/

def onlyService (ctx : CallContext) : Tx Unit := do
  let service ← reads State.interchainTokenService
  require (ctx.caller = service) "Not service"

/-- `egld_or_single_fungible_esdt`. -/
def egldOrSingleFungibleEsdt : EgldOrMultiEsdtPayment →
    Outcome (EgldOrEsdtTokenIdentifier × ℕ)
  | .egld value => .ok (.egld, value)
  | .multiEsdt [payment] => do
      require (payment.tokenNonce = 0) "fungible ESDT token expected"
      return (.esdt payment.tokenIdentifier, payment.amount)
  | .multiEsdt _ => .error "incorrect number of ESDT transfers"

def requireCorrectToken (ctx : CallContext) : Tx (EgldOrEsdtTokenIdentifier × ℕ) := do
  let (tokenIdentifier, amount) ← egldOrSingleFungibleEsdt ctx.callValue
  let requiredTokenIdentifier ← reads State.tokenIdentifierGet
  require (tokenIdentifier = requiredTokenIdentifier) "Wrong token sent"
  return (tokenIdentifier, amount)

def addFlowLimiter (ctx : CallContext) (flowLimiter : Address) : Tx Unit := do
  withRoles (Operatable.onlyOperator ctx.caller)
  withRoles (AccountRoles.addRole flowLimiter .FLOW_LIMITER)

def removeFlowLimiter (ctx : CallContext) (flowLimiter : Address) : Tx Unit := do
  withRoles (Operatable.onlyOperator ctx.caller)
  withRoles (AccountRoles.removeRole flowLimiter .FLOW_LIMITER)

def transferFlowLimiter (ctx : CallContext) (fromAddress toAddress : Address) : Tx Unit := do
  withRoles (Operatable.onlyOperator ctx.caller)
  withRoles (AccountRoles.transferRole fromAddress toAddress .FLOW_LIMITER)

def setFlowLimit (ctx : CallContext) (flowLimit : Option ℕ) : Tx Unit := do
  withRoles (AccountRoles.onlyRole ctx.caller .FLOW_LIMITER)
  let tokenId ← reads State.interchainTokenId
  setFlowLimitRaw ctx flowLimit tokenId

def giveTokenLockUnlock (tokenIdentifier : EgldOrEsdtTokenIdentifier)
    (destinationAddress : Address) (amount : ℕ) : Tx Unit :=
  performs (.send destinationAddress tokenIdentifier amount)

def giveTokenMintBurn (tokenIdentifier : EgldOrEsdtTokenIdentifier)
    (destinationAddress : Address) (amount : ℕ) : Tx Unit := do
  let token ← unwrapEsdt tokenIdentifier
  performs (.localMint token amount)
  performs (.send destinationAddress tokenIdentifier amount)

def takeTokenMintBurn (tokenIdentifier : EgldOrEsdtTokenIdentifier) (amount : ℕ) :
    Tx Unit := do
  let token ← unwrapEsdt tokenIdentifier
  performs (.localBurn token amount)

def giveToken (ctx : CallContext) (destinationAddress : Address) (amount : ℕ) :
    Tx (EgldOrEsdtTokenIdentifier × ℕ) := do
  onlyService ctx
  let tokenIdentifier ← reads State.tokenIdentifierGet
  addFlowInRaw ctx amount
  match ← reads State.implementationType with
  | .nativeInterchainToken | .mintBurn | .mintBurnFrom =>
      giveTokenMintBurn tokenIdentifier destinationAddress amount
  | .lockUnlock | .lockUnlockFee =>
      giveTokenLockUnlock tokenIdentifier destinationAddress amount
  return (tokenIdentifier, amount)

def takeToken (ctx : CallContext) : Tx ℕ := do
  onlyService ctx
  let (tokenIdentifier, amount) ← requireCorrectToken ctx
  addFlowOutRaw ctx amount
  match ← reads State.implementationType with
  | .nativeInterchainToken | .mintBurn | .mintBurnFrom =>
      takeTokenMintBurn tokenIdentifier amount
  | .lockUnlock | .lockUnlockFee => pure ()
  return amount

def donateTokens (ctx : CallContext) : Tx Unit := do
  let implementationType ← reads State.implementationType
  require (implementationType = .lockUnlock) "Not lock/unlock token manager"
  let _ ← requireCorrectToken ctx

/-- `Not native interchain token manager` otherwise. -/
def requireNative : Tx Unit := do
  let implementationType ← reads State.implementationType
  require (implementationType = .nativeInterchainToken) "Not native interchain token manager"

def deployInterchainToken (ctx : CallContext) (minter : Option Address)
    (name symbol : ManagedBuffer) (decimals : UInt8) (initialCaller : Option Address) :
    Tx Unit := do
  requireNative
  let tokenIdentifier ← reads State.tokenIdentifier
  require (tokenIdentifier = none) "Token address already exists"
  let interchainTokenService ← reads State.interchainTokenService
  let isMinter ← reads (State.isMinter ctx.caller)
  require (ctx.caller = interchainTokenService ∨ isMinter) "Not service or minter"
  require (¬ name.isEmpty) "Empty token name"
  require (¬ symbol.isEmpty) "Empty token symbol"
  match ← reads State.minterAddress with
  | none => addMinter (minter.getD .zero)
  | some _ => pure ()
  let value ← egldValue ctx
  require (value = DEFAULT_ESDT_ISSUE_COST) "Invalid esdt issue cost"
  performs (.issue DEFAULT_ESDT_ISSUE_COST (toNormalizedTokenName name.1)
    (toNormalizedTokenTicker symbol.1) decimals (initialCaller.getD ctx.caller))

def mint (ctx : CallContext) (address : Address) (amount : ℕ) : Tx Unit := do
  requireNative
  onlyMinter ctx
  let tokenIdentifier ← reads State.tokenIdentifier
  require (tokenIdentifier ≠ none) "Token address not yet set"
  let token ← reads State.tokenIdentifierGet
  let identifier ← unwrapEsdt token
  performs (.localMint identifier amount)
  performs (.send address token amount)

def burn (ctx : CallContext) : Tx Unit := do
  requireNative
  onlyMinter ctx
  let tokenIdentifier ← reads State.tokenIdentifier
  require (tokenIdentifier ≠ none) "Token address not yet set"
  let (token, amount) ← requireCorrectToken ctx
  let identifier ← unwrapEsdt token
  performs (.localBurn identifier amount)

/-- A failed issue brings its cost back, which goes on to the user. -/
def deployTokenCallback (ctx : CallContext) (user : Address)
    (result : Option TokenIdentifier) : Tx Unit := do
  match result with
  | some tokenIdRaw => do
      let tokenId ← reads State.interchainTokenId
      performs (.interchainTokenDeployed tokenId (.esdt tokenIdRaw))
      modifies fun state => { state with
        tokenIdentifier := some (state.tokenIdentifier.getD (.esdt tokenIdRaw)) }
  | none => do
      performs .interchainTokenDeploymentFailed
      let value ← egldValue ctx
      performs (.send user .egld value)

/-! ## The contract as a machine -/

inductive Call where
  | addFlowLimiter (flowLimiter : Address)
  | removeFlowLimiter (flowLimiter : Address)
  | transferFlowLimiter (fromAddress toAddress : Address)
  | setFlowLimit (flowLimit : Option ℕ)
  | giveToken (destinationAddress : Address) (amount : ℕ)
  | takeToken
  | donateTokens
  | deployInterchainToken (minter : Option Address) (name symbol : ManagedBuffer)
      (decimals : UInt8) (initialCaller : Option Address)
  | mint (address : Address) (amount : ℕ)
  | burn
  | transferMintership (minter : Address)
  | proposeMintership (minter : Address)
  | acceptMintership (fromMinter : Address)
  | transferOperatorship (operator : Address)
  | proposeOperatorship (operator : Address)
  | acceptOperatorship (fromOperator : Address)
  deriving DecidableEq

/-- What a call returns. -/
inductive Reply where
  | nothing
  | given (tokenIdentifier : EgldOrEsdtTokenIdentifier) (amount : ℕ)
  | taken (amount : ℕ)
  deriving DecidableEq

/-- An endpoint that takes no payment and returns nothing. -/
def unpaid (ctx : CallContext) (x : Tx Unit) : Tx Reply := do
  requireNotPayable ctx
  x
  return .nothing

def perform (ctx : CallContext) : Call → Tx Reply
  | .addFlowLimiter flowLimiter => unpaid ctx (addFlowLimiter ctx flowLimiter)
  | .removeFlowLimiter flowLimiter => unpaid ctx (removeFlowLimiter ctx flowLimiter)
  | .transferFlowLimiter fromAddress toAddress =>
      unpaid ctx (transferFlowLimiter ctx fromAddress toAddress)
  | .setFlowLimit flowLimit => unpaid ctx (setFlowLimit ctx flowLimit)
  | .giveToken destinationAddress amount => do
      requireNotPayable ctx
      let (tokenIdentifier, amount) ← giveToken ctx destinationAddress amount
      return .given tokenIdentifier amount
  | .takeToken => do
      let amount ← takeToken ctx
      return .taken amount
  | .donateTokens => do
      donateTokens ctx
      return .nothing
  | .deployInterchainToken minter name symbol decimals initialCaller => do
      let _ ← egldValue ctx
      deployInterchainToken ctx minter name symbol decimals initialCaller
      return .nothing
  | .mint address amount => unpaid ctx (mint ctx address amount)
  | .burn => do
      burn ctx
      return .nothing
  | .transferMintership minter => unpaid ctx (transferMintership ctx minter)
  | .proposeMintership minter => unpaid ctx (proposeMintership ctx minter)
  | .acceptMintership fromMinter => unpaid ctx (acceptMintership ctx fromMinter)
  | .transferOperatorship operator =>
      unpaid ctx (withRoles (Operatable.transferOperatorship ctx.caller operator))
  | .proposeOperatorship operator =>
      unpaid ctx (withRoles (Operatable.proposeOperatorship ctx.caller operator))
  | .acceptOperatorship fromOperator =>
      unpaid ctx (withRoles (Operatable.acceptOperatorship ctx.caller fromOperator))

end AxelarCgp.TokenManager
