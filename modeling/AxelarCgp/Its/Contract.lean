import AxelarCgp.Its.World

/-!
# The interchain token service

`interchain-token-service/src`, function by function, grouped by the module
they stand in.  `env` is the platform and `ctx` the call of the service.
-/

namespace AxelarCgp.Its

open NestedCodec Transaction

variable (crypto : Crypto) (env : Environment) (ctx : CallContext)

/-! ## Owner, pause, operators -/

def onlyOwner : Outcome Unit :=
  require (ctx.caller = ctx.ownerAddress) "Endpoint can only be called by owner"

def requireNotPaused : Tx Unit := do
  let paused ← reads fun world => world.its.paused
  require (¬ paused) "Contract is paused"

def setPaused (paused : Bool) : Tx Unit := do
  onlyOwner ctx
  modifiesIts fun its => { its with paused }

/-! ## `address_tracker.rs` -/

def isTrustedChain (chain : ManagedBuffer) : Tx Bool :=
  reads fun world => world.its.trustedChains chain

def setTrusted (chain : ManagedBuffer) (trusted : Bool) : Tx Unit :=
  modifiesIts fun its => { its with
    trustedChains := Function.update its.trustedChains chain trusted }

def setTrustedChain (chain : ManagedBuffer) : Tx Unit := do
  onlyOwner ctx
  require (¬ chain.isEmpty) "Zero string length"
  emits (.trustedChainAdded chain)
  setTrusted chain true

def removeTrustedChain (sourceChain : ManagedBuffer) : Tx Unit := do
  onlyOwner ctx
  require (¬ sourceChain.isEmpty) "Zero string length"
  emits (.trustedChainRemoved sourceChain)
  setTrusted sourceChain false

/-! ## `proxy_gmp.rs` -/

/-- The context of a call that the service makes. -/
def nested (target : Address) (payment : EgldOrMultiEsdtPayment) : CallContext :=
  env.context ctx.scAddress target payment

/-- The refund goes to whoever called the service, as the platform tells. -/
def gasServicePayNativeGasForContractCall (destinationChain destinationAddress
    payload : ManagedBuffer) (gasValue : ℕ) : Tx Unit := do
  let gasService ← reads fun world => world.its.gasService
  callGasService crypto (nested env ctx gasService (.egld gasValue)) ctx.scAddress
    destinationChain destinationAddress payload ctx.caller

def gatewayCallContract (destinationChain destinationAddress payload : ManagedBuffer) :
    Tx Unit := do
  let gateway ← reads fun world => world.its.gateway
  let _ ← callGateway crypto (nested env ctx gateway .none)
    (.callContract destinationChain destinationAddress payload)

def gatewayValidateMessage (sourceChain messageId sourceAddress : ManagedBuffer)
    (payloadHash : Hash) : Tx Bool := do
  let gateway ← reads fun world => world.its.gateway
  let reply ← callGateway crypto (nested env ctx gateway .none)
    (.validateMessage sourceChain messageId sourceAddress payloadHash)
  return reply.valid

def gatewayIsMessageApproved (sourceChain messageId sourceAddress : ManagedBuffer)
    (payloadHash : Hash) : Tx Bool := do
  let gateway ← reads World.gateway
  Gateway.isMessageApproved crypto sourceChain messageId sourceAddress ctx.scAddress
    payloadHash gateway

def callContractItsHub (payload : ManagedBuffer) (gasValue : ℕ) : Tx Unit := do
  let itsHubAddress ← reads fun world => world.its.itsHubAddress
  if gasValue > 0 then
    gasServicePayNativeGasForContractCall crypto env ctx ITS_HUB_CHAIN_NAME itsHubAddress
      payload gasValue
  gatewayCallContract crypto env ctx ITS_HUB_CHAIN_NAME itsHubAddress payload

/-- A number as a big integer, when it is small enough to be one. -/
def biguint (value : ℕ) : Outcome BigUint :=
  if h : Bytes.byteLength value < lengthLimit then .ok ⟨value, h⟩
  else .error "execution failed"

def routeMessageThroughItsHub (destinationChain payload : ManagedBuffer) (gasValue : ℕ) :
    Tx Unit := do
  require (destinationChain ≠ ITS_HUB_CHAIN_NAME) "Untrusted chain"
  let trusted ← isTrustedChain destinationChain
  require trusted "Untrusted chain"
  let messageType ← biguint MESSAGE_TYPE_SEND_TO_HUB
  let payload ← abiEncode (⟨messageType, destinationChain, payload⟩ : SendToHubPayload)
  callContractItsHub crypto env ctx payload gasValue

/-! ## `proxy_its.rs` -/

def deployedTokenManager (tokenId : TokenId) : Tx Address := do
  let address ← reads fun world => world.its.tokenManagerAddress tokenId
  orFail address "Token manager does not exist"

/-- A payment of one token. -/
def singlePayment (token : EgldOrEsdtTokenIdentifier) (amount : ℕ) : EgldOrMultiEsdtPayment :=
  match token with
  | .egld => .egld amount
  | .esdt identifier => .multiEsdt [⟨identifier, 0, amount⟩]

/-- Call the manager at an address, without a payment and for no result. -/
def commandManager (address : Address) (call : TokenManager.Call) : Tx Unit := do
  let _ ← callManager env (nested env ctx address .none) call

def tokenManagerTakeToken (tokenId : TokenId) (token : EgldOrEsdtTokenIdentifier)
    (amount : ℕ) : Tx Unit := do
  let address ← deployedTokenManager tokenId
  let _ ← callManager env (nested env ctx address (singlePayment token amount)) .takeToken

def tokenManagerSetFlowLimit (tokenId : TokenId) (flowLimit : Option ℕ) : Tx Unit := do
  let address ← deployedTokenManager tokenId
  commandManager env ctx address (.setFlowLimit flowLimit)

def tokenManagerGiveToken (tokenId : TokenId) (destinationAddress : Address)
    (amount : ℕ) : Tx (EgldOrEsdtTokenIdentifier × ℕ) := do
  let address ← deployedTokenManager tokenId
  match ← callManager env (nested env ctx address .none)
      (.giveToken destinationAddress amount) with
  | .given token amount => return (token, amount)
  | _ => Except.error "result decode error"

def tokenManagerDeployInterchainToken (tokenId : TokenId) (minter : Option Address)
    (name symbol : ManagedBuffer) (decimals : UInt8) (initialCaller : Address) :
    Tx Unit := do
  let address ← deployedTokenManager tokenId
  let value ← egldValue ctx
  let _ ← callManager env (nested env ctx address (.egld value))
    (.deployInterchainToken minter name symbol decimals (some initialCaller))

def tokenManagerGetOptTokenIdentifier (address : Address) :
    Tx (Option EgldOrEsdtTokenIdentifier) := do
  let manager ← managerAt address
  return manager.tokenIdentifier

def tokenManagerIsMinter (address minter : Address) : Tx Bool := do
  let manager ← managerAt address
  return manager.isMinter minter

def registeredTokenIdentifier (tokenId : TokenId) : Tx EgldOrEsdtTokenIdentifier := do
  let address ← deployedTokenManager tokenId
  let manager ← managerAt address
  return manager.tokenIdentifierGet

/-- The destination is any contract but those of the system, which have no such
endpoint. -/
def executableContractExecuteWithInterchainToken (destinationAddress : Address)
    (originalSourceChain messageId originalSourceAddress data : ManagedBuffer)
    (tokenId : TokenId) (token : EgldOrEsdtTokenIdentifier) (amount : ℕ) : Tx Unit := do
  let isSystemContract ← reads (World.isSystemContract destinationAddress)
  require (¬ isSystemContract ∧ env.accepts destinationAddress) "execution failed"
  pay (nested env ctx destinationAddress (singlePayment token amount))
  performs (.executeWithInterchainToken destinationAddress originalSourceChain messageId
    originalSourceAddress data tokenId token amount)

def registerTokenMetadataRaw (tokenIdentifier : EgldOrEsdtTokenIdentifier)
    (decimals : UInt8) (gasValue : ℕ) : Tx Unit := do
  emits (.tokenMetadataRegistered tokenIdentifier decimals)
  let messageType ← biguint MESSAGE_TYPE_REGISTER_TOKEN_METADATA
  let payload ← abiEncode
    (⟨messageType, tokenIdentifier.intoName, decimals⟩ : RegisterTokenMetadataPayload)
  callContractItsHub crypto env ctx payload gasValue

def registerTokenMetadataAsyncCall (tokenIdentifier : TokenIdentifier) (gasValue : ℕ) :
    Tx Unit :=
  esdtGetTokenProperties {
    token := tokenIdentifier
    callback := .registerTokenMetadata tokenIdentifier
    gasValue
    caller := ctx.caller }

/-! ## `remote.rs` -/

def zeroHash : Hash := writeNat 32 0

/-- The hash of the data of a transfer; none is written as zeros. -/
def hashOfData (data : ManagedBuffer) : Hash :=
  if data.isEmpty then zeroHash else crypto.keccak256 data.1

def deployRemoteInterchainTokenBase (tokenId : TokenId) (name symbol : ManagedBuffer)
    (decimals : UInt8) (minter destinationChain : ManagedBuffer) (gasValue : ℕ) :
    Tx Unit := do
  require (¬ name.isEmpty) "Empty token name"
  require (¬ symbol.isEmpty) "Empty token symbol"
  let _ ← deployedTokenManager tokenId
  let messageType ← biguint MESSAGE_TYPE_DEPLOY_INTERCHAIN_TOKEN
  let payload ← abiEncode
    (⟨messageType, tokenId, name, symbol, decimals, minter⟩ : DeployInterchainTokenPayload)
  routeMessageThroughItsHub crypto env ctx destinationChain payload gasValue
  emits (.interchainTokenDeploymentStarted tokenId name symbol decimals minter
    destinationChain)

def transmitInterchainTransferRaw (tokenId : TokenId) (sourceAddress : Address)
    (destinationChain destinationAddress : ManagedBuffer)
    (transferAndGasTokens : TransferAndGasTokens) (data : ManagedBuffer) : Tx Unit := do
  require (¬ destinationAddress.isEmpty) "Empty destination address"
  require (transferAndGasTokens.transferAmount > 0) "Zero amount"
  let dataHash := hashOfData crypto data
  let messageType ← biguint MESSAGE_TYPE_INTERCHAIN_TRANSFER
  let amount ← biguint transferAndGasTokens.transferAmount
  let payload ← abiEncode (⟨messageType, tokenId, .ofFixed sourceAddress, destinationAddress,
    amount, data⟩ : InterchainTransferPayload)
  routeMessageThroughItsHub crypto env ctx destinationChain payload
    transferAndGasTokens.gasAmount
  emits (.interchainTransfer tokenId sourceAddress dataHash destinationChain
    destinationAddress transferAndGasTokens.transferAmount)

def onlyItsHub (sourceChain sourceAddress : ManagedBuffer) : Tx Unit := do
  let itsHubAddress ← reads fun world => world.its.itsHubAddress
  require (sourceChain = ITS_HUB_CHAIN_NAME ∧ itsHubAddress = sourceAddress) "Not its hub"

/-! ## `executable.rs` -/

/-- `to_u64` of the first word; a larger number panics. -/
def getMessageType (payload : ManagedBuffer) : Outcome ℕ := do
  let (token, _) ← ParamType.uint256.abiDecode payload 0
  let value ← token.intoBiguint
  require (value.1 < 2 ^ 64) "panic occurred"
  return value.1

/-- The original message type, source chain and payload. -/
def getExecuteParams (payload : ManagedBuffer) : Tx (ℕ × ManagedBuffer × ManagedBuffer) := do
  let messageType ← getMessageType payload
  require (messageType = MESSAGE_TYPE_RECEIVE_FROM_HUB) "Invalid message type"
  let data ← (abiDecode payload : Outcome ReceiveFromHubPayload)
  let trusted ← isTrustedChain data.originalSourceChain
  require trusted "Untrusted chain"
  let messageType ← getMessageType data.payload
  return (messageType, data.originalSourceChain, data.payload)

/-- An address that an argument of variable length carries. -/
def toAddress (buffer : ManagedBuffer) : Outcome Address :=
  orFail buffer.toAddress "Invalid MultiversX address"

/-- An optional address, of which an empty argument is none. -/
def toOptionalAddress (buffer : ManagedBuffer) : Outcome (Option Address) :=
  if buffer.isEmpty then .ok none
  else some <$> toAddress buffer

def deployTokenManagerRaw (tokenId : TokenId) (tokenManagerType : TokenManagerType)
    (tokenIdentifier : Option EgldOrEsdtTokenIdentifier) (operator : ManagedBuffer) :
    Tx Address := do
  let current ← reads fun world => world.its.tokenManagerAddress tokenId
  require (current = none) "Token manager already exists"
  let operator ← toOptionalAddress operator
  let params : DeployTokenManagerParams := ⟨operator, tokenIdentifier⟩
  let address ← deployFromSource env ctx.scAddress tokenManagerType tokenId params
  require (¬ address.isZero) "Token manager deployment failed"
  emits (.tokenManagerDeployed tokenId address tokenManagerType params)
  modifiesIts fun its => { its with
    tokenManagerAddress := Function.update its.tokenManagerAddress tokenId (some address) }
  return address

/-- Tokens go to the destination, or, with data, to the service and from there
to the destination together with the data. -/
def processInterchainTransferPayload (originalSourceChain messageId payload : ManagedBuffer) :
    Tx Unit := do
  let sendTokenPayload ← (abiDecode payload : Outcome InterchainTransferPayload)
  let destinationAddress ← toAddress sendTokenPayload.destinationAddress
  emits (.interchainTransferReceived sendTokenPayload.tokenId originalSourceChain messageId
    sendTokenPayload.sourceAddress destinationAddress (hashOfData crypto sendTokenPayload.data)
    sendTokenPayload.amount)
  if sendTokenPayload.data.isEmpty then
    let _ ← tokenManagerGiveToken env ctx sendTokenPayload.tokenId destinationAddress
      sendTokenPayload.amount.1
  else
    let (tokenIdentifier, amount) ← tokenManagerGiveToken env ctx sendTokenPayload.tokenId
      ctx.scAddress sendTokenPayload.amount.1
    executableContractExecuteWithInterchainToken env ctx destinationAddress
      originalSourceChain messageId sendTokenPayload.sourceAddress sendTokenPayload.data
      sendTokenPayload.tokenId tokenIdentifier amount

def processLinkTokenPayload (payload : ManagedBuffer) : Tx Unit := do
  let linkTokenPayload ← (abiDecode payload : Outcome LinkTokenPayload)
  require (linkTokenPayload.tokenManagerType ≠ .nativeInterchainToken)
    "Can not deploy native interchain token"
  let tokenIdentifier := EgldOrEsdtTokenIdentifier.parse linkTokenPayload.destinationTokenAddress
  require (isValid tokenIdentifier) "Invalid token identifier"
  let _ ← deployTokenManagerRaw env ctx linkTokenPayload.tokenId
    linkTokenPayload.tokenManagerType (some tokenIdentifier) linkTokenPayload.linkParams

/-- Endpoints that issue no token refuse EGLD. -/
def requireNoEgld (value : ℕ) : Outcome Unit :=
  require (value = 0) "Can not send EGLD payment if not issuing ESDT"

/-- The first execution deploys the token manager and leaves the message
approved, the second issues the token. -/
def processDeployInterchainTokenPayload (sourceChain messageId sourceAddress : ManagedBuffer)
    (payloadHash : Hash) (payload : ManagedBuffer) : Tx Unit := do
  let data ← (abiDecode payload : Outcome DeployInterchainTokenPayload)
  let current ← reads fun world => world.its.tokenManagerAddress data.tokenId
  if current = none then
    let value ← egldValue ctx
    requireNoEgld value
    let valid ← gatewayIsMessageApproved crypto ctx sourceChain messageId sourceAddress
      payloadHash
    require valid "Not approved by gateway"
    let _ ← deployTokenManagerRaw env ctx data.tokenId .nativeInterchainToken none data.minter
  else
    let valid ← gatewayValidateMessage crypto env ctx sourceChain messageId sourceAddress
      payloadHash
    require valid "Not approved by gateway"
    let minter ← toOptionalAddress data.minter
    tokenManagerDeployInterchainToken env ctx data.tokenId minter data.name data.symbol
      data.decimals ctx.caller

/-! ## `lib.rs` -/

def setFlowLimits (tokenIds : List TokenId) (flowLimits : List (Option ℕ)) : Tx Unit := do
  withRoles (Operatable.onlyOperator ctx.caller)
  require (tokenIds.length = flowLimits.length) "Length mismatch"
  forEach (fun entry => tokenManagerSetFlowLimit env ctx entry.1 entry.2)
    (tokenIds.zip flowLimits)

def execute (sourceChain messageId sourceAddress payload : ManagedBuffer) : Tx Unit := do
  requireNotPaused
  onlyItsHub sourceChain sourceAddress
  let payloadHash := crypto.keccak256 payload.1
  let (messageType, originalSourceChain, payload) ← getExecuteParams payload
  if messageType = MESSAGE_TYPE_INTERCHAIN_TRANSFER then
    let value ← egldValue ctx
    requireNoEgld value
    let valid ← gatewayValidateMessage crypto env ctx sourceChain messageId sourceAddress
      payloadHash
    require valid "Not approved by gateway"
    processInterchainTransferPayload crypto env ctx originalSourceChain messageId payload
  else if messageType = MESSAGE_TYPE_DEPLOY_INTERCHAIN_TOKEN then
    processDeployInterchainTokenPayload crypto env ctx sourceChain messageId sourceAddress
      payloadHash payload
  else if messageType = MESSAGE_TYPE_LINK_TOKEN then
    let value ← egldValue ctx
    requireNoEgld value
    let valid ← gatewayValidateMessage crypto env ctx sourceChain messageId sourceAddress
      payloadHash
    require valid "Not approved by gateway"
    processLinkTokenPayload env ctx payload
  else
    Except.error "Invalid message type"

/-! ## `user_functions.rs` -/

def registerTokenMetadata (tokenIdentifier : EgldOrEsdtTokenIdentifier) : Tx Unit := do
  require (isValid tokenIdentifier) "Invalid token identifier"
  let gasValue ← egldValue ctx
  match tokenIdentifier with
  | .egld => registerTokenMetadataRaw crypto env ctx .egld EGLD_DECIMALS gasValue
  | .esdt identifier => registerTokenMetadataAsyncCall ctx identifier gasValue

def interchainTokenIdRaw (salt : Hash) : TokenId :=
  crypto.keccak256 ((crypto.keccak256 PREFIX_INTERCHAIN_TOKEN_ID).1 ++ salt.1)

def registerCustomTokenRaw (deploySalt : Hash) (tokenIdentifier : EgldOrEsdtTokenIdentifier)
    (tokenManagerType : TokenManagerType) (linkParams : ManagedBuffer) : Tx TokenId := do
  requireNotPaused
  require (tokenManagerType ≠ .nativeInterchainToken) "Can not deploy native interchain token"
  let tokenId := interchainTokenIdRaw crypto deploySalt
  emits (.interchainTokenIdClaimed tokenId deploySalt)
  let _ ← deployTokenManagerRaw env ctx tokenId tokenManagerType (some tokenIdentifier)
    linkParams
  return tokenId

def linkTokenRaw (deploySalt : Hash) (destinationChain destinationTokenAddress :
      ManagedBuffer) (tokenManagerType : TokenManagerType) (linkParams : ManagedBuffer)
    (gasValue : ℕ) : Tx TokenId := do
  requireNotPaused
  require (¬ destinationTokenAddress.isEmpty) "Empty token address"
  require (tokenManagerType ≠ .nativeInterchainToken) "Can not deploy native interchain token"
  require (¬ destinationChain.isEmpty) "Not supported"
  let chainName ← reads fun world => world.its.chainName
  require (destinationChain ≠ chainName) "Cannot deploy remotely to self"
  let tokenId := interchainTokenIdRaw crypto deploySalt
  emits (.interchainTokenIdClaimed tokenId deploySalt)
  let registered ← registeredTokenIdentifier tokenId
  let sourceTokenAddress := registered.intoName
  emits (.linkTokenStarted tokenId destinationChain sourceTokenAddress
    destinationTokenAddress tokenManagerType linkParams)
  let messageType ← biguint MESSAGE_TYPE_LINK_TOKEN
  let payload ← abiEncode (⟨messageType, tokenId, tokenManagerType, sourceTokenAddress,
    destinationTokenAddress, linkParams⟩ : LinkTokenPayload)
  routeMessageThroughItsHub crypto env ctx destinationChain payload gasValue
  return tokenId

def deployInterchainTokenRaw (deploySalt : Hash) (destinationChain name symbol :
      ManagedBuffer) (decimals : UInt8) (minter : ManagedBuffer) (egldValue : ℕ)
    (initialCaller : Address) : Tx TokenId := do
  let tokenId := interchainTokenIdRaw crypto deploySalt
  emits (.interchainTokenIdClaimed tokenId deploySalt)
  if destinationChain.isEmpty then
    let current ← reads fun world => world.its.tokenManagerAddress tokenId
    if current = none then
      requireNoEgld egldValue
      let _ ← deployTokenManagerRaw env ctx tokenId .nativeInterchainToken none minter
    else
      let minter ← toOptionalAddress minter
      tokenManagerDeployInterchainToken env ctx tokenId minter name symbol decimals
        initialCaller
  else
    let chainName ← reads fun world => world.its.chainName
    require (chainName ≠ destinationChain) "Cannot deploy remotely to self"
    deployRemoteInterchainTokenBase crypto env ctx tokenId name symbol decimals minter
      destinationChain egldValue
  return tokenId

/-- How a payment is split into the tokens to transfer and the gas to pay. -/
def getTransferAndGasTokens (gasAmount : ℕ) : Outcome TransferAndGasTokens :=
  match ctx.callValue with
  | .egld value => do
      require (value > gasAmount) "Invalid gas value"
      return ⟨.egld, value - gasAmount, gasAmount⟩
  | .multiEsdt esdts => do
      require (esdts.length ≤ 2) "A maximum of two esdt payments are supported"
      let firstPayment ← orFail esdts[0]? "ManagedVec index out of range"
      require (firstPayment.tokenNonce = 0) "Only fungible esdts are supported"
      match esdts[1]? with
      | none => require (gasAmount = 0) "Gas amount should be zero"
      | some secondPayment => do
          require (secondPayment.tokenNonce = 0) "Only fungible esdts are supported"
          require (secondPayment.amount = gasAmount) "Invalid gas value"
          require (secondPayment.tokenIdentifier.1 = esdtEgldIdentifier)
            "Only egld is supported for paying gas"
      return ⟨.esdt firstPayment.tokenIdentifier, firstPayment.amount, gasAmount⟩

def interchainTransfer (tokenId : TokenId) (destinationChain destinationAddress data :
      ManagedBuffer) (gasValue : ℕ) : Tx Unit := do
  requireNotPaused
  let transferAndGasTokens ← getTransferAndGasTokens ctx gasValue
  tokenManagerTakeToken env ctx tokenId transferAndGasTokens.transferToken
    transferAndGasTokens.transferAmount
  transmitInterchainTransferRaw crypto env ctx tokenId ctx.caller destinationChain
    destinationAddress transferAndGasTokens data

/-! ## `factory.rs` -/

/-- A salt: the hash of a prefix, the chain's name, and what is to be told
apart. -/
def deploySaltOf (prefixBytes : Bytes) (chainNameHash : Hash) (suffix : Bytes) : Hash :=
  crypto.keccak256 ((crypto.keccak256 prefixBytes).1 ++ chainNameHash.1 ++ suffix)

def interchainTokenDeploySalt (deployer : Address) (salt : Hash) : Tx Hash :=
  reads fun world => deploySaltOf crypto PREFIX_INTERCHAIN_TOKEN_SALT world.its.chainNameHash
    (deployer.1 ++ salt.1)

def canonicalInterchainTokenDeploySalt (tokenIdentifier : EgldOrEsdtTokenIdentifier) :
    Tx Hash :=
  reads fun world => deploySaltOf crypto PREFIX_CANONICAL_TOKEN_SALT world.its.chainNameHash
    tokenIdentifier.intoName.1

def linkedTokenDeploySalt (deployer : Address) (salt : Hash) : Tx Hash :=
  reads fun world => deploySaltOf crypto PREFIX_CUSTOM_TOKEN_SALT world.its.chainNameHash
    (deployer.1 ++ salt.1)

def interchainTokenId (deployer : Address) (salt : Hash) : Tx TokenId := do
  let deploySalt ← interchainTokenDeploySalt crypto deployer salt
  return interchainTokenIdRaw crypto deploySalt

def canonicalInterchainTokenId (tokenIdentifier : EgldOrEsdtTokenIdentifier) : Tx TokenId := do
  let deploySalt ← canonicalInterchainTokenDeploySalt crypto tokenIdentifier
  return interchainTokenIdRaw crypto deploySalt

def linkedTokenId (deployer : Address) (salt : Hash) : Tx TokenId := do
  let deploySalt ← linkedTokenDeploySalt crypto deployer salt
  return interchainTokenIdRaw crypto deploySalt

def deployApprovalKey (approval : DeployApproval) : Hash :=
  crypto.keccak256 ((crypto.keccak256 PREFIX_DEPLOY_APPROVAL).1 ++ depEncode approval)

def setDestinationMinter (approvalKey : Hash) (destinationMinter : Option Hash) : Tx Unit :=
  modifiesIts fun its => { its with
    approvedDestinationMinters :=
      Function.update its.approvedDestinationMinters approvalKey destinationMinter }

def useDeployApproval (approval : DeployApproval) (destinationMinter : ManagedBuffer) :
    Tx Unit := do
  let approvalKey := deployApprovalKey crypto approval
  let destinationMinterHash := crypto.keccak256 destinationMinter.1
  let approved ← reads fun world => world.its.approvedDestinationMinters approvalKey
  setDestinationMinter approvalKey none
  require (approved = some destinationMinterHash) "Remote deployment not approved"

def checkTokenMinter (tokenId : TokenId) (minter : Address) : Tx Unit := do
  let tokenManager ← reads fun world => world.its.tokenManagerAddress tokenId
  let address ← orFail tokenManager "Not minter"
  let isMinter ← tokenManagerIsMinter address minter
  require isMinter "Not minter"

def setInterchainTokenStatus (tokenId : TokenId) (status : InterchainTokenStatus) : Tx Unit :=
  modifiesIts fun its => { its with
    interchainTokenStatus := Function.update its.interchainTokenStatus tokenId status }

/-- The minter that a local deployment starts with, and the status it leaves. -/
def initialMinter (tokenId : TokenId) (initialSupply : ℕ) (minterOpt : Option Address) :
    Tx ManagedBuffer := do
  let status ← reads fun world => world.its.interchainTokenStatus tokenId
  if initialSupply > 0 then
    require (status = .none ∨ status = .needsMint) "Token already initialized"
    setInterchainTokenStatus tokenId .needsMint
    return .ofFixed ctx.scAddress
  else
    let minter ← orFail minterOpt "Zero supply token"
    require (minter ≠ ctx.scAddress) "Invalid minter"
    require (status = .none ∨ status = .noMint) "Token already initialized"
    setInterchainTokenStatus tokenId .noMint
    return .ofFixed minter

/-- The third step of a local deployment: mint, and hand the token over. -/
def mintInitialSupply (tokenId : TokenId) (tokenManager sender : Address)
    (initialSupply : ℕ) (minterOpt : Option Address) : Tx Unit := do
  commandManager env ctx tokenManager (.mint sender initialSupply)
  let minter := minterOpt.getD .zero
  commandManager env ctx tokenManager (.transferMintership minter)
  commandManager env ctx tokenManager (.removeFlowLimiter ctx.scAddress)
  commandManager env ctx tokenManager (.addFlowLimiter minter)
  commandManager env ctx tokenManager (.transferOperatorship minter)
  setInterchainTokenStatus tokenId .alreadyMinted

def deployInterchainToken (salt : Hash) (name symbol : ManagedBuffer) (decimals : UInt8)
    (initialSupply : ℕ) (minterOpt : Option Address) : Tx TokenId := do
  requireNotPaused
  require (name.1 = toNormalizedTokenName name.1) "Invalid token name"
  require (symbol.1 = toNormalizedTokenTicker symbol.1) "Invalid token symbol"
  let sender := ctx.caller
  let deploySalt ← interchainTokenDeploySalt crypto sender salt
  let tokenId := interchainTokenIdRaw crypto deploySalt
  let currentChain := ManagedBuffer.new
  let minterBytes ← initialMinter ctx tokenId initialSupply minterOpt
  let egldValue ← egldValue ctx
  match ← reads fun world => world.its.tokenManagerAddress tokenId with
  | none => do
      requireNoEgld egldValue
      let _ ← deployInterchainTokenRaw crypto env ctx deploySalt currentChain name symbol
        decimals minterBytes 0 sender
      return tokenId
  | some tokenManager => do
      let tokenIdentifier ← tokenManagerGetOptTokenIdentifier tokenManager
      if tokenIdentifier = none then
        let _ ← deployInterchainTokenRaw crypto env ctx deploySalt currentChain name symbol
          decimals minterBytes egldValue sender
        return tokenId
      else
        requireNoEgld egldValue
        if initialSupply > 0 then
          mintInitialSupply env ctx tokenId tokenManager sender initialSupply minterOpt
        return tokenId

def approveDeployRemoteInterchainToken (deployer : Address) (salt : Hash)
    (destinationChain destinationMinter : ManagedBuffer) : Tx Unit := do
  let minter := ctx.caller
  let tokenId ← interchainTokenId crypto deployer salt
  checkTokenMinter tokenId minter
  let trusted ← isTrustedChain destinationChain
  require trusted "Invalid chain name"
  emits (.deployRemoteInterchainTokenApproval minter deployer tokenId destinationChain
    destinationMinter)
  let approvalKey := deployApprovalKey crypto ⟨minter, tokenId, destinationChain⟩
  setDestinationMinter approvalKey (some (crypto.keccak256 destinationMinter.1))

def revokeDeployRemoteInterchainToken (deployer : Address) (salt : Hash)
    (destinationChain : ManagedBuffer) : Tx Unit := do
  let minter := ctx.caller
  let tokenId ← interchainTokenId crypto deployer salt
  emits (.revokedDeployRemoteInterchainTokenApproval minter deployer tokenId destinationChain)
  let approvalKey := deployApprovalKey crypto ⟨minter, tokenId, destinationChain⟩
  setDestinationMinter approvalKey none

/-- EGLD is deployed at once; for an ESDT its properties are asked for first. -/
def deployRemoteInterchainTokenRaw (deploySalt : Hash) (destinationChain destinationMinter :
      ManagedBuffer) (sender : Address) : Tx TokenId := do
  let expectedTokenId := interchainTokenIdRaw crypto deploySalt
  let tokenIdentifier ← registeredTokenIdentifier expectedTokenId
  require (isValid tokenIdentifier) "Invalid token identifier"
  let gasValue ← egldValue ctx
  match tokenIdentifier with
  | .egld => do
      let _ ← deployInterchainTokenRaw crypto env ctx deploySalt destinationChain
        tokenIdentifier.intoName tokenIdentifier.intoName EGLD_DECIMALS destinationMinter
        gasValue sender
      return expectedTokenId
  | .esdt identifier => do
      let tokenSymbol := ticker identifier
      let chainName ← reads fun world => world.its.chainName
      require (chainName ≠ destinationChain) "Cannot deploy remotely to self"
      let trusted ← isTrustedChain destinationChain
      require trusted "Untrusted chain"
      esdtGetTokenProperties {
        token := identifier
        callback := .deployRemoteToken deploySalt destinationChain tokenSymbol
          destinationMinter
        gasValue
        caller := sender }
      return expectedTokenId

/-- The minter of the remote token, for which a local minter has to answer. -/
def remoteMinter (deploySalt : Hash) (minterOpt : Option Address)
    (destinationChain : ManagedBuffer) (destinationMinter : Option ManagedBuffer) :
    Tx ManagedBuffer := do
  match minterOpt with
  | some minter => do
      let deployedTokenId := interchainTokenIdRaw crypto deploySalt
      checkTokenMinter deployedTokenId minter
      require (minter ≠ ctx.scAddress) "Invalid minter"
      match destinationMinter with
      | some destinationMinter => do
          useDeployApproval crypto ⟨minter, deployedTokenId, destinationChain⟩
            destinationMinter
          return destinationMinter
      | none => return .new
  | none => do
      require (destinationMinter = none) "Invalid minter"
      return .new

def deployRemoteInterchainTokenWithMinter (salt : Hash) (minterOpt : Option Address)
    (destinationChain : ManagedBuffer) (destinationMinter : Option ManagedBuffer) :
    Tx TokenId := do
  requireNotPaused
  let sender := ctx.caller
  let deploySalt ← interchainTokenDeploySalt crypto sender salt
  let destinationMinterRaw ← remoteMinter crypto ctx deploySalt minterOpt destinationChain
    destinationMinter
  deployRemoteInterchainTokenRaw crypto env ctx deploySalt destinationChain
    destinationMinterRaw sender

def deployRemoteInterchainToken (salt : Hash) (destinationChain : ManagedBuffer) :
    Tx TokenId :=
  deployRemoteInterchainTokenWithMinter crypto env ctx salt none destinationChain none

def registerCanonicalInterchainToken (tokenIdentifier : EgldOrEsdtTokenIdentifier) :
    Tx TokenId := do
  require (isValid tokenIdentifier) "Invalid token identifier"
  let deploySalt ← canonicalInterchainTokenDeploySalt crypto tokenIdentifier
  registerCustomTokenRaw crypto env ctx deploySalt tokenIdentifier .lockUnlock .new

def deployRemoteCanonicalInterchainToken
    (originalTokenIdentifier : EgldOrEsdtTokenIdentifier) (destinationChain : ManagedBuffer) :
    Tx TokenId := do
  requireNotPaused
  require (isValid originalTokenIdentifier) "Invalid token identifier"
  let deploySalt ← canonicalInterchainTokenDeploySalt crypto originalTokenIdentifier
  deployRemoteInterchainTokenRaw crypto env ctx deploySalt destinationChain .new ctx.caller

def registerCustomToken (salt : Hash) (tokenIdentifier : EgldOrEsdtTokenIdentifier)
    (tokenManagerType : TokenManagerType) (operatorOpt : Option Address) : Tx TokenId := do
  require (isValid tokenIdentifier) "Invalid token identifier"
  let deploySalt ← linkedTokenDeploySalt crypto ctx.caller salt
  let linkParams := operatorOpt.elim .new .ofFixed
  registerCustomTokenRaw crypto env ctx deploySalt tokenIdentifier tokenManagerType linkParams

def linkToken (salt : Hash) (destinationChain destinationTokenAddress : ManagedBuffer)
    (tokenManagerType : TokenManagerType) (linkParams : ManagedBuffer) : Tx TokenId := do
  let deploySalt ← linkedTokenDeploySalt crypto ctx.caller salt
  let gasValue ← egldValue ctx
  linkTokenRaw crypto env ctx deploySalt destinationChain destinationTokenAddress
    tokenManagerType linkParams gasValue

/-! ## Callbacks -/

def ESDT_PROPERTIES_TOKEN_NAME_INDEX : ℕ := 0
def ESDT_PROPERTIES_TOKEN_TYPE_INDEX : ℕ := 1
def ESDT_PROPERTIES_DECIMALS_BUFFER_INDEX : ℕ := 5

/-- `FungibleESDT` -/
def fungibleTypeName : Bytes :=
  Bytes.ascii ['F', 'u', 'n', 'g', 'i', 'b', 'l', 'e', 'E', 'S', 'D', 'T']

/-- `char::to_digit` in base 16. -/
def toDigit16 (byte : UInt8) : Option UInt8 :=
  if isAsciiDigit byte then some (byte - 48)
  else if 97 ≤ byte && byte ≤ 102 then some (byte - 87)
  else if 65 ≤ byte && byte ≤ 70 then some (byte - 55)
  else none

/-- Two bytes are read whatever the length; a load past the end of the buffer
leaves both zero. -/
def asciiToU8 (buffer : ManagedBuffer) : Outcome UInt8 :=
  let byteArray := if 2 ≤ buffer.1.length then buffer.1.take 2 else [0, 0]
  byteArray.foldlM (fun result byte => do
    let digit ← orFail (toDigit16 byte) "panic occurred"
    return result * 10 + digit) 0

/-- The decimals in the answer's `NumDecimals-` entry. -/
def decimalsOf (decimalsBuffer : ManagedBuffer) : Outcome UInt8 := do
  let length := UInt32.ofNat decimalsBuffer.1.length - 12
  let tokenDecimalsBuf ← orFail (copySlice decimalsBuffer 12 length.toNat) "panic occurred"
  asciiToU8 tokenDecimalsBuf

/-- `direct_non_zero_egld`. -/
def directNonZeroEgld (receiver : Address) (amount : ℕ) : Tx Unit :=
  if amount > 0 then send ctx.scAddress receiver .egld amount else pure ()

/-- `ManagedVec::get`. -/
def vecGet (values : List ManagedBuffer) (index : ℕ) : Outcome ManagedBuffer :=
  orFail values[index]? "ManagedVec index out of range"

def deployRemoteTokenCallback (deploySalt : Hash) (destinationChain tokenSymbol
      destinationMinter : ManagedBuffer) (gasValue : ℕ) (caller : Address)
    (result : AsyncResult) : Tx Unit := do
  match result with
  | .ok values => do
      let trusted ← isTrustedChain destinationChain
      if ¬ trusted then
        directNonZeroEgld ctx caller gasValue
      else
        let tokenName ← vecGet values ESDT_PROPERTIES_TOKEN_NAME_INDEX
        let tokenType ← vecGet values ESDT_PROPERTIES_TOKEN_TYPE_INDEX
        let decimalsBuffer ← vecGet values ESDT_PROPERTIES_DECIMALS_BUFFER_INDEX
        if tokenType.1 ≠ fungibleTypeName then
          directNonZeroEgld ctx caller gasValue
        else
          let tokenDecimals ← decimalsOf decimalsBuffer
          let _ ← deployInterchainTokenRaw crypto env ctx deploySalt destinationChain
            tokenName tokenSymbol tokenDecimals destinationMinter gasValue caller
  | .err _ _ => directNonZeroEgld ctx caller gasValue

def registerTokenMetadataCallback (tokenIdentifier : TokenIdentifier) (gasValue : ℕ)
    (caller : Address) (result : AsyncResult) : Tx Unit := do
  match result with
  | .ok values => do
      let tokenType ← vecGet values ESDT_PROPERTIES_TOKEN_TYPE_INDEX
      let decimalsBuffer ← vecGet values ESDT_PROPERTIES_DECIMALS_BUFFER_INDEX
      if tokenType.1 ≠ fungibleTypeName then
        directNonZeroEgld ctx caller gasValue
      else
        let tokenDecimals ← decimalsOf decimalsBuffer
        registerTokenMetadataRaw crypto env ctx (.esdt tokenIdentifier) tokenDecimals gasValue
  | .err _ _ => directNonZeroEgld ctx caller gasValue

end AxelarCgp.Its
