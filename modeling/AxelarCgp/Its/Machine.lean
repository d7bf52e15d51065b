import AxelarCgp.Its.Contract

/-!
# The service as a machine

Transactions of anybody with any of the contracts, and answers of asynchronous
calls, in any order.  The contracts of the system act only as their code says:
none of them, nor the zero address, starts a transaction.
-/

namespace AxelarCgp.Its

open Transaction

variable (crypto : Crypto)

def init (gateway gasService tokenManagerImplementation operator : Address)
    (chainName itsHubAddress : ManagedBuffer) (trustedChainNames : List ManagedBuffer) :
    Outcome State := do
  require (¬ gateway.isZero ∧ ¬ gasService.isZero ∧ ¬ tokenManagerImplementation.isZero)
    "Zero address"
  require (¬ operator.isZero) "Zero address"
  require (¬ chainName.isEmpty) "Invalid chain name"
  require (¬ itsHubAddress.isEmpty) "Invalid its hub address"
  require (trustedChainNames.all fun name => !name.isEmpty) "Zero string length"
  return {
    gateway
    gasService
    tokenManager := tokenManagerImplementation
    chainName
    chainNameHash := crypto.keccak256 chainName.1
    trustedChains := fun chain => decide (chain ∈ trustedChainNames)
    itsHubAddress
    paused := false
    roles := RoleTable.empty.setRoles operator .OPERATOR
    tokenManagerAddress := fun _ => none
    approvedDestinationMinters := fun _ => none
    interchainTokenStatus := fun _ => .none }

inductive Call where
  | setTrustedChain (chain : ManagedBuffer)
  | removeTrustedChain (sourceChain : ManagedBuffer)
  | pause
  | unpause
  | transferOperatorship (operator : Address)
  | proposeOperatorship (operator : Address)
  | acceptOperatorship (fromOperator : Address)
  | setFlowLimits (tokenIds : List TokenId) (flowLimits : List (Option ℕ))
  | execute (sourceChain messageId sourceAddress payload : ManagedBuffer)
  | registerTokenMetadata (tokenIdentifier : EgldOrEsdtTokenIdentifier)
  | interchainTransfer (tokenId : TokenId) (destinationChain destinationAddress data :
      ManagedBuffer) (gasValue : ℕ)
  | deployInterchainToken (salt : Hash) (name symbol : ManagedBuffer) (decimals : UInt8)
      (initialSupply : ℕ) (minterOpt : Option Address)
  | approveDeployRemoteInterchainToken (deployer : Address) (salt : Hash)
      (destinationChain destinationMinter : ManagedBuffer)
  | revokeDeployRemoteInterchainToken (deployer : Address) (salt : Hash)
      (destinationChain : ManagedBuffer)
  | deployRemoteInterchainToken (salt : Hash) (destinationChain : ManagedBuffer)
  | deployRemoteInterchainTokenWithMinter (salt : Hash) (minterOpt : Option Address)
      (destinationChain : ManagedBuffer) (destinationMinter : Option ManagedBuffer)
  | registerCanonicalInterchainToken (tokenIdentifier : EgldOrEsdtTokenIdentifier)
  | deployRemoteCanonicalInterchainToken (tokenIdentifier : EgldOrEsdtTokenIdentifier)
      (destinationChain : ManagedBuffer)
  | registerCustomToken (salt : Hash) (tokenIdentifier : EgldOrEsdtTokenIdentifier)
      (tokenManagerType : TokenManagerType) (operatorOpt : Option Address)
  | linkToken (salt : Hash) (destinationChain destinationTokenAddress : ManagedBuffer)
      (tokenManagerType : TokenManagerType) (linkParams : ManagedBuffer)

/-- An endpoint that takes no payment. -/
def unpaid {A : Type} (ctx : CallContext) (x : Tx A) : Tx Unit := do
  requireNotPayable ctx
  let _ ← x

/-- An endpoint that takes EGLD only. -/
def payableInEgld {A : Type} (ctx : CallContext) (x : Tx A) : Tx Unit := do
  let _ ← egldValue ctx
  let _ ← x

def perform (env : Environment) (ctx : CallContext) : Call → Tx Unit
  | .setTrustedChain chain => unpaid ctx (setTrustedChain ctx chain)
  | .removeTrustedChain sourceChain => unpaid ctx (removeTrustedChain ctx sourceChain)
  | .pause => unpaid ctx (setPaused ctx true)
  | .unpause => unpaid ctx (setPaused ctx false)
  | .transferOperatorship operator =>
      unpaid ctx (withRoles (Operatable.transferOperatorship ctx.caller operator))
  | .proposeOperatorship operator =>
      unpaid ctx (withRoles (Operatable.proposeOperatorship ctx.caller operator))
  | .acceptOperatorship fromOperator =>
      unpaid ctx (withRoles (Operatable.acceptOperatorship ctx.caller fromOperator))
  | .setFlowLimits tokenIds flowLimits =>
      unpaid ctx (setFlowLimits env ctx tokenIds flowLimits)
  | .execute sourceChain messageId sourceAddress payload =>
      payableInEgld ctx (execute crypto env ctx sourceChain messageId sourceAddress payload)
  | .registerTokenMetadata tokenIdentifier =>
      payableInEgld ctx (registerTokenMetadata crypto env ctx tokenIdentifier)
  | .interchainTransfer tokenId destinationChain destinationAddress data gasValue =>
      interchainTransfer crypto env ctx tokenId destinationChain destinationAddress data
        gasValue
  | .deployInterchainToken salt name symbol decimals initialSupply minterOpt =>
      payableInEgld ctx (deployInterchainToken crypto env ctx salt name symbol decimals
        initialSupply minterOpt)
  | .approveDeployRemoteInterchainToken deployer salt destinationChain destinationMinter =>
      unpaid ctx (approveDeployRemoteInterchainToken crypto ctx deployer salt
        destinationChain destinationMinter)
  | .revokeDeployRemoteInterchainToken deployer salt destinationChain =>
      unpaid ctx (revokeDeployRemoteInterchainToken crypto ctx deployer salt
        destinationChain)
  | .deployRemoteInterchainToken salt destinationChain =>
      payableInEgld ctx (deployRemoteInterchainToken crypto env ctx salt destinationChain)
  | .deployRemoteInterchainTokenWithMinter salt minterOpt destinationChain
      destinationMinter =>
      payableInEgld ctx (deployRemoteInterchainTokenWithMinter crypto env ctx salt minterOpt
        destinationChain destinationMinter)
  | .registerCanonicalInterchainToken tokenIdentifier =>
      unpaid ctx (registerCanonicalInterchainToken crypto env ctx tokenIdentifier)
  | .deployRemoteCanonicalInterchainToken tokenIdentifier destinationChain =>
      payableInEgld ctx (deployRemoteCanonicalInterchainToken crypto env ctx
        tokenIdentifier destinationChain)
  | .registerCustomToken salt tokenIdentifier tokenManagerType operatorOpt =>
      unpaid ctx (registerCustomToken crypto env ctx salt tokenIdentifier tokenManagerType
        operatorOpt)
  | .linkToken salt destinationChain destinationTokenAddress tokenManagerType linkParams =>
      payableInEgld ctx (linkToken crypto env ctx salt destinationChain
        destinationTokenAddress tokenManagerType linkParams)

/-! ## Answers -/

/-- Run a callback; when it stops, nothing it did remains, and it is not run
again. -/
def attempt (x : Tx Unit) : Tx Bool :=
  fun world =>
    match x world with
    | .ok result => .ok ⟨true, result.state, result.trace⟩
    | .error _ => .ok ⟨false, world, []⟩

/-- The callback of a request for token properties. -/
def Request.callbackCode (env : Environment) (ctx : CallContext) (result : AsyncResult)
    (request : Request) : Tx Unit :=
  match request.callback with
  | .deployRemoteToken deploySalt destinationChain tokenSymbol destinationMinter =>
      deployRemoteTokenCallback crypto env ctx deploySalt destinationChain tokenSymbol
        destinationMinter request.gasValue request.caller result
  | .registerTokenMetadata tokenIdentifier =>
      registerTokenMetadataCallback crypto env ctx tokenIdentifier request.gasValue
        request.caller result

/-- The callback of an issue: with an error its cost has come back. -/
def issueCallback (env : Environment) (manager user : Address) (cost : ℕ) :
    AsyncResult → Tx Unit
  | .ok values => do
      let tokenIdentifier ← orFail values.head? "argument decode error"
      let _ ← runManager env manager (TokenManager.deployTokenCallback
        (env.context ESDTSystemSCAddress manager .none) user (some tokenIdentifier))
  | .err _ _ => do
      let _ ← runManager env manager (TokenManager.deployTokenCallback
        (env.context ESDTSystemSCAddress manager (.egld cost)) user none)

/-- What a failed call brings back before its callback runs. -/
def bringBack (manager : Address) (cost : ℕ) : AsyncResult → Tx Unit
  | .ok _ => pure ()
  | .err _ _ => transfer ESDTSystemSCAddress manager .egld cost

def answer (env : Environment) (index : ℕ) (result : AsyncResult) : Tx Unit := do
  let pending ← reads World.pending
  let call ← orFail pending[index]? "no such call in flight"
  modifies fun world => { world with pending := world.pending.eraseIdx index }
  match call with
  | .tokenProperties request => do
      let itsAddress ← reads World.itsAddress
      let completed ← attempt (request.callbackCode crypto env
        (env.context ESDTSystemSCAddress itsAddress .none) result)
      performs (.answered call completed)
  | .issue manager user cost => do
      bringBack manager cost result
      let completed ← attempt (issueCallback env manager user cost result)
      performs (.answered call completed)

/-! ## Inputs -/

inductive Operation where
  | its (caller : Address) (payment : EgldOrMultiEsdtPayment) (call : Call)
  | gateway (caller : Address) (call : Gateway.Call)
  | manager (caller address : Address) (payment : EgldOrMultiEsdtPayment)
      (call : TokenManager.Call)
  | transfer (sender receiver : Address) (asset : Asset) (amount : ℕ)
  | answer (index : ℕ) (result : AsyncResult)

structure Input where
  env : Environment
  operation : Operation

/-- Transactions are started by accounts outside the system. -/
def requireExternal (caller : Address) : Tx Unit := do
  let isSystemContract ← reads (World.isSystemContract caller)
  require (¬ isSystemContract ∧ ¬ caller.isZero) "not an account that signs transactions"

def Operation.run (env : Environment) : Operation → Tx Unit
  | .its caller payment call => do
      requireExternal caller
      let itsAddress ← reads World.itsAddress
      let ctx := env.context caller itsAddress payment
      pay ctx
      perform crypto env ctx call
  | .gateway caller call => do
      requireExternal caller
      let gateway ← reads fun world => world.its.gateway
      let _ ← callGateway crypto (env.context caller gateway .none) call
  | .manager caller address payment call => do
      requireExternal caller
      let _ ← callManager env (env.context caller address payment) call
  | .transfer sender receiver asset amount => do
      requireExternal sender
      Its.transfer sender receiver asset amount
  | .answer index result => Its.answer crypto env index result

/-- The output of a step is its trace. -/
def machine : Machine World Input (List Action) where
  step world input := do
    let result ← input.operation.run crypto input.env world
    return (result.state, result.trace)

abbrev History := List (Entry Input (List Action))

@[simp]
theorem step_eq_ok {world next : World} {input : Input} {trace : List Action} :
    (machine crypto).step world input = .ok (next, trace) ↔
      input.operation.run crypto input.env world = .ok ⟨(), next, trace⟩ := by
  simp only [machine, Outcome.bind_eq_ok, Outcome.pure_eq_ok, Prod.mk.injEq]
  constructor
  · rintro ⟨result, hok, rfl, rfl⟩
    exact hok
  · intro hok
    exact ⟨_, hok, rfl, rfl⟩

/-! ## Sample values -/

def sampleUser : Address := sampleAddress 1
def sampleItsAddress : Address := sampleAddress 2

/-- `multiversx` -/
def sampleChainName : ManagedBuffer :=
  sampleBuffer (Bytes.ascii ['m', 'u', 'l', 't', 'i', 'v', 'e', 'r', 's', 'x'])

/-- `ABC-123456` -/
def sampleToken : TokenIdentifier :=
  sampleBuffer (Bytes.ascii ['A', 'B', 'C', '-', '1', '2', '3', '4', '5', '6'])

def sampleEnvironment : Environment where
  blockTimestamp := 0
  gasLeft := 0
  ownerOf _ := sampleUser
  hasLocalRoles _ _ := false
  newAddress := sampleAddress 6
  accepts _ := false

/-- The hashes of the name of the chain and of the prefixes of salts. -/
def sampleHashes : List (Bytes × Hash) :=
  [(sampleChainName.1, NestedCodec.writeNat 32
      0xbd331747a896c8a66e8323aa6358909e4c8878c9b157cab64d51a9c57722c4fd),
    (PREFIX_INTERCHAIN_TOKEN_ID, NestedCodec.writeNat 32
      0x980c3be34c7ee75cc250c76223092614e21653cdf2faece10ac24fcef821df10),
    (PREFIX_CANONICAL_TOKEN_SALT, NestedCodec.writeNat 32
      0x9ca52083bb00ac0f5bed7edcaabb0534d03efb0719807b54a8029c4d13136309),
    (PREFIX_INTERCHAIN_TOKEN_SALT, NestedCodec.writeNat 32
      0xf84d43c32bc607f1bdb175c63a0cf1939bf0cc8cc3565450be225afbb5a10985),
    (PREFIX_DEPLOY_APPROVAL, NestedCodec.writeNat 32
      0xf1302cc23b373b441b50010257156be4e920e78f3dc60bf8cd05c64367827f60),
    (PREFIX_CUSTOM_TOKEN_SALT, NestedCodec.writeNat 32
      0x5498bf1696259c19f826e687122ca9404f85fe476a9e186af31eb6a53bf123dc)]

/-- A service that has just been deployed and trusts one chain, `c`, and a user
with some EGLD. -/
def sampleWorld (crypto : Crypto) : Outcome World := do
  let its ← init crypto (sampleAddress 3) (sampleAddress 4) (sampleAddress 5) sampleUser
    sampleChainName (sampleBuffer (Bytes.ascii ['h', 'u', 'b'])) [sampleBuffer (Bytes.ascii ['c'])]
  return {
    itsAddress := sampleItsAddress
    its
    gateway := Gateway.State.blank
    managers := fun _ => none
    ledger := Ledger.empty.mint sampleUser .egld (10 * DEFAULT_ESDT_ISSUE_COST)
    pending := [] }

end AxelarCgp.Its
