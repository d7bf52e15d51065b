import AxelarCgp.Core.Machine
import AxelarCgp.Gateway.Types

/-!
# The gateway contract

`gateway/src/lib.rs`, `auth.rs` and `operator.rs`, endpoint by endpoint.  The
message states live in raw storage, under the encoded cross-chain id and in
their hand-written encoding; the other mappers hold their decoded values.  An
endpoint that stops leaves no trace, so every function returns the whole new
state together with the events it emitted.
-/

namespace AxelarCgp.Gateway

open NestedCodec

structure State where
  operator : Option Address
  messages : Bytes → Bytes
  epoch : ℕ
  lastRotationTimestamp : UInt64
  signerHashByEpoch : ℕ → Option Hash
  epochBySignerHash : Hash → ℕ
  previousSignersRetention : ℕ
  domainSeparator : Hash
  minimumRotationDelay : UInt64

namespace State

/-- Storage before deployment. -/
def blank : State where
  operator := none
  messages _ := []
  epoch := 0
  lastRotationTimestamp := 0
  signerHashByEpoch _ := none
  epochBySignerHash _ := 0
  previousSignersRetention := 0
  domainSeparator := Address.zero
  minimumRotationDelay := 0

/-- The storage key of a message: the mapper's name and the encoded id. -/
def messagesKey (id : CrossChainId) : Bytes :=
  Bytes.ascii ['m', 'e', 's', 's', 'a', 'g', 'e', 's'] ++ depEncode id

def messagesGet (state : State) (id : CrossChainId) : Outcome MessageState :=
  MessageState.topDecode (state.messages (messagesKey id))

def messagesSet (state : State) (id : CrossChainId) (value : MessageState) : State :=
  { state with messages := Function.update state.messages (messagesKey id) value.topEncode }

theorem messagesKey_injective : Function.Injective messagesKey := by
  intro left right heq
  exact depEncode_injective (List.append_cancel_left heq)

@[simp]
theorem messagesGet_messagesSet_self (state : State) (id : CrossChainId)
    (value : MessageState) : (state.messagesSet id value).messagesGet id = .ok value := by
  simp [messagesGet, messagesSet]

@[simp]
theorem messagesGet_messagesSet_of_ne (state : State) {id other : CrossChainId}
    (h : other ≠ id) (value : MessageState) :
    (state.messagesSet id value).messagesGet other = state.messagesGet other := by
  have hkey : messagesKey other ≠ messagesKey id :=
    fun heq => h (messagesKey_injective heq)
  simp [messagesGet, messagesSet, Function.update_of_ne hkey]

end State

variable (crypto : Crypto)

/-! ## Messages -/

def messageHashPreimage (id : CrossChainId) (sourceAddress : ManagedBuffer)
    (contractAddress : Address) (payloadHash : Hash) : Bytes :=
  depEncode id ++ depEncode sourceAddress ++ depEncode contractAddress ++
    depEncode payloadHash

def messageHash (id : CrossChainId) (sourceAddress : ManagedBuffer)
    (contractAddress : Address) (payloadHash : Hash) : Hash :=
  crypto.keccak256 (messageHashPreimage id sourceAddress contractAddress payloadHash)

def getDataHash (commandType : CommandType) (buffer : ManagedBuffer) : Hash :=
  crypto.keccak256 (commandType.depEncode ++ buffer.1)

def approveMessage (message : Message) (state : State) : Outcome (State × List Event) := do
  let current ← state.messagesGet message.crossChainId
  if current ≠ .nonExistent then
    return (state, [])
  else
    let hash := messageHash crypto message.crossChainId message.sourceAddress
      message.contractAddress message.payloadHash
    return (state.messagesSet message.crossChainId (.approved hash),
      [.messageApproved message.sourceChain message.messageId message.sourceAddress
        message.contractAddress message.payloadHash])

/-- The loop of `approve_messages`. -/
def approveEach : List Message → State → Outcome (State × List Event)
  | [], state => return (state, [])
  | message :: messages, state => do
      let (state, events) ← approveMessage crypto message state
      let (state, others) ← approveEach messages state
      return (state, events ++ others)

def validateMessage (ctx : CallContext) (sourceChain messageId sourceAddress : ManagedBuffer)
    (payloadHash : Hash) (state : State) : Outcome (State × Bool × List Event) := do
  let id : CrossChainId := ⟨sourceChain, messageId⟩
  let hash := messageHash crypto id sourceAddress ctx.caller payloadHash
  let current ← state.messagesGet id
  if current = .approved hash then
    return (state.messagesSet id .executed, true, [.messageExecuted sourceChain messageId])
  else
    return (state, false, [])

def isMessageApproved (sourceChain messageId sourceAddress : ManagedBuffer)
    (contractAddress : Address) (payloadHash : Hash) (state : State) : Outcome Bool := do
  let id : CrossChainId := ⟨sourceChain, messageId⟩
  let hash := messageHash crypto id sourceAddress contractAddress payloadHash
  let current ← state.messagesGet id
  return decide (current = .approved hash)

def isMessageExecuted (sourceChain messageId : ManagedBuffer) (state : State) :
    Outcome Bool := do
  let current ← state.messagesGet ⟨sourceChain, messageId⟩
  return decide (current = .executed)

/-! ## Signers -/

/-- `\x19MultiversX Signed Message:\n` -/
def multiversxSignedMessagePrefix : Bytes :=
  25 :: (Bytes.ascii ['M', 'u', 'l', 't', 'i', 'v', 'e', 'r', 's', 'X', ' ', 'S', 'i', 'g',
    'n', 'e', 'd', ' ', 'M', 'e', 's', 's', 'a', 'g', 'e', ':'] ++ [10])

def signersHashPreimage (signers : WeightedSigners) : Bytes :=
  depEncode signers.signers ++ depEncode signers.threshold ++ depEncode signers.nonce

def getSignersHash (signers : WeightedSigners) : Hash :=
  crypto.keccak256 (signersHashPreimage signers)

def messageHashToSign (state : State) (signersHash dataHash : Hash) : Hash :=
  crypto.keccak256 (multiversxSignedMessagePrefix ++ state.domainSeparator.1 ++
    signersHash.1 ++ dataHash.1)

/-- The loop of `validate_signatures`, at position `index` of both lists.  A
signature that does not verify fails the call, and the loop returns as soon as
the weight suffices. -/
def validateSignaturesFrom (messageHash : Hash) (signers : List WeightedSigner)
    (threshold : ℕ) :
    (index : ℕ) → (signatures : List (Option (FixedBytes 64))) → (totalWeight : ℕ) →
    Outcome Unit
  | _, [], _ => .error "Low signatures weight"
  | index, none :: signatures, totalWeight =>
      validateSignaturesFrom messageHash signers threshold (index + 1) signatures totalWeight
  | index, some signature :: signatures, totalWeight => do
      let signer ← orFail signers[index]? "ManagedVec index out of range"
      require (crypto.verifyEd25519 signer.signer.1 messageHash.1 signature.1)
        "invalid signature"
      if totalWeight + signer.weight.1 ≥ threshold then
        return ()
      else
        validateSignaturesFrom messageHash signers threshold (index + 1) signatures
          (totalWeight + signer.weight.1)

def validateSignatures (messageHash : Hash) (weightedSigners : WeightedSigners)
    (signatures : Vec (Option (FixedBytes 64))) : Outcome Unit := do
  require (signatures.1 ≠ [] ∧ weightedSigners.signers.1.length = signatures.1.length)
    "Low signatures weight"
  validateSignaturesFrom crypto messageHash weightedSigners.signers.1
    weightedSigners.threshold.1 0 signatures.1 0

/-- Subtraction of unsigned big integers stops when the result would be
negative. -/
def bigUintSub (left right : ℕ) : Outcome ℕ :=
  if right ≤ left then .ok (left - right)
  else .error "cannot subtract because result would be negative"

def validateProof (dataHash : Hash) (proof : Proof) (state : State) : Outcome Bool := do
  let signersHash := getSignersHash crypto proof.signers
  let signerEpoch := state.epochBySignerHash signersHash
  let currentEpoch := state.epoch
  let isLatestSigners := decide (signerEpoch = currentEpoch)
  require (signerEpoch > 0) "Invalid signers"
  let age ← bigUintSub currentEpoch signerEpoch
  require (age ≤ state.previousSignersRetention) "Invalid signers"
  let messageHash := messageHashToSign crypto state signersHash dataHash
  validateSignatures crypto messageHash proof.signers proof.signatures
  return isLatestSigners

/-- The loop of `validate_signers`: keys strictly increase as numbers, weights
are positive; the result is the total weight. -/
def validateSignersFrom : (signers : List WeightedSigner) → (prevSigner totalWeight : ℕ) →
    Outcome ℕ
  | [], _, totalWeight => return totalWeight
  | weightedSigner :: signers, prevSigner, totalWeight => do
      let currSigner := Bytes.toNatBE weightedSigner.signer.1
      require (currSigner > prevSigner) "Invalid signers"
      require (weightedSigner.weight.1 > 0) "Invalid weights"
      validateSignersFrom signers currSigner (totalWeight + weightedSigner.weight.1)

def validateSigners (weightedSigners : WeightedSigners) : Outcome Unit := do
  require (weightedSigners.signers.1 ≠ []) "Invalid signers"
  let totalWeight ← validateSignersFrom weightedSigners.signers.1 0 0
  require (weightedSigners.threshold.1 > 0 ∧ totalWeight ≥ weightedSigners.threshold.1)
    "Invalid threshold"

/-- The subtraction of timestamps is on machine words. -/
def updateRotationTimestamp (ctx : CallContext) (enforceRotationDelay : Bool)
    (state : State) : Outcome State := do
  require (¬ enforceRotationDelay ∨
    ctx.blockTimestamp - state.lastRotationTimestamp ≥ state.minimumRotationDelay)
    "Insufficient rotation delay"
  return { state with lastRotationTimestamp := ctx.blockTimestamp }

/-- The new hash is stored by epoch before the duplicate check looks at it. -/
def rotateSignersRaw (ctx : CallContext) (newSigners : WeightedSigners)
    (enforceRotationDelay : Bool) (state : State) : Outcome (State × List Event) := do
  validateSigners newSigners
  let state ← updateRotationTimestamp ctx enforceRotationDelay state
  let newSignersHash := getSignersHash crypto newSigners
  let newEpoch := state.epoch + 1
  let state := { state with
    epoch := newEpoch
    signerHashByEpoch := Function.update state.signerHashByEpoch newEpoch
      (some newSignersHash) }
  require (state.epochBySignerHash newSignersHash = 0) "Duplicate signers"
  let state := { state with
    epochBySignerHash := Function.update state.epochBySignerHash newSignersHash newEpoch }
  return (state, [.signersRotated newEpoch newSignersHash newSigners])

/-- The loop of `upgrade`. -/
def rotateEach (ctx : CallContext) : List WeightedSigners → State →
    Outcome (State × List Event)
  | [], state => return (state, [])
  | signers :: others, state => do
      let (state, events) ← rotateSignersRaw crypto ctx signers false state
      let (state, more) ← rotateEach ctx others state
      return (state, events ++ more)

/-! ## Operator -/

def transferOperatorshipRaw (newOperator : Address) (state : State) : State × List Event :=
  ({ state with operator := some newOperator }, [.operatorshipTransferred newOperator])

/-- Reading an operator that was never set fails to decode. -/
def operatorGet (state : State) : Outcome Address :=
  orFail state.operator "storage decode error: bad array length"

def onlyOperatorOrOwner (ctx : CallContext) (state : State) : Outcome Unit := do
  let operator ← operatorGet state
  require (ctx.caller = operator ∨ ctx.caller = ctx.ownerAddress) "Invalid sender"

/-! ## Endpoints -/

def upgrade (ctx : CallContext) (operator : Address) (signers : List WeightedSigners)
    (state : State) : Outcome (State × List Event) := do
  let (state, events) :=
    if !operator.isZero then transferOperatorshipRaw operator state else (state, [])
  let (state, more) ← rotateEach crypto ctx signers state
  return (state, events ++ more)

def init (ctx : CallContext) (previousSignersRetention : ℕ) (domainSeparator : Hash)
    (minimumRotationDelay : UInt64) (operator : Address) (signers : List WeightedSigners) :
    Outcome (State × List Event) :=
  upgrade crypto ctx operator signers { State.blank with
    previousSignersRetention
    domainSeparator
    minimumRotationDelay }

def approveMessages (messages : ManagedBuffer) (proof : Proof) (state : State) :
    Outcome (State × List Event) := do
  let dataHash := getDataHash crypto .approveMessages messages
  let messages ← orFail (topDecodeVec (A := Message) messages.1) "Could not decode messages"
  require (messages ≠ []) "Invalid messages"
  let _ ← validateProof crypto dataHash proof state
  approveEach crypto messages state

def rotateSigners (ctx : CallContext) (newSigners : ManagedBuffer) (proof : Proof)
    (state : State) : Outcome (State × List Event) := do
  let dataHash := getDataHash crypto .rotateSigners newSigners
  let newSigners ← orFail (topDecode (A := WeightedSigners) newSigners.1)
    "Could not decode new signers"
  let operator ← operatorGet state
  let enforceRotationDelay := decide (ctx.caller ≠ operator)
  let isLatestSigners ← validateProof crypto dataHash proof state
  require (¬ enforceRotationDelay ∨ isLatestSigners) "Not latest signers"
  rotateSignersRaw crypto ctx newSigners enforceRotationDelay state

def callContract (ctx : CallContext) (destinationChain destinationContractAddress
    payload : ManagedBuffer) (state : State) : State × List Event :=
  (state, [.contractCall ctx.caller destinationChain destinationContractAddress
    (crypto.keccak256 payload.1) payload])

def transferOperatorship (ctx : CallContext) (newOperator : Address) (state : State) :
    Outcome (State × List Event) := do
  onlyOperatorOrOwner ctx state
  require (¬ newOperator.isZero) "Invalid operator"
  return transferOperatorshipRaw newOperator state

/-! ## The contract as a machine -/

inductive Call where
  | upgrade (operator : Address) (signers : List WeightedSigners)
  | approveMessages (messages : ManagedBuffer) (proof : Proof)
  | rotateSigners (newSigners : ManagedBuffer) (proof : Proof)
  | callContract (destinationChain destinationContractAddress payload : ManagedBuffer)
  | validateMessage (sourceChain messageId sourceAddress : ManagedBuffer)
      (payloadHash : Hash)
  | transferOperatorship (newOperator : Address)

/-- What a call returned, and the events it emitted. -/
structure Reply where
  valid : Bool
  events : List Event

/-- A reply of an endpoint that returns nothing. -/
def reply (result : State × List Event) : State × Reply :=
  (result.1, ⟨false, result.2⟩)

def perform (ctx : CallContext) (call : Call) (state : State) : Outcome (State × Reply) := do
  requireNotPayable ctx
  match call with
  | .upgrade operator signers => reply <$> upgrade crypto ctx operator signers state
  | .approveMessages messages proof => reply <$> approveMessages crypto messages proof state
  | .rotateSigners newSigners proof => reply <$> rotateSigners crypto ctx newSigners proof state
  | .callContract chain address payload =>
      return reply (callContract crypto ctx chain address payload state)
  | .validateMessage chain messageId address payloadHash => do
      let (state, valid, events) ←
        validateMessage crypto ctx chain messageId address payloadHash state
      return (state, ⟨valid, events⟩)
  | .transferOperatorship newOperator => reply <$> transferOperatorship ctx newOperator state

/-- Calls reach the contract one at a time, each in its own context. -/
def machine : Machine State (CallContext × Call) Reply where
  step state input := perform crypto input.1 input.2 state

end AxelarCgp.Gateway
