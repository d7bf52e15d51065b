import AxelarCgp.Core.Agreement
import AxelarCgp.Gateway.Signing

/-!
# The ideal gateway

A board that keeps what the contract only keeps hashes of: the approved messages themselves, under
their ids, and all signer sets that were ever in office, in their order.  It reads no storage, so
no value can fail to decode, and it compares messages and signer sets, not hashes.  What is signed
is still a digest, and events still tell the hash of a signer set.
-/

namespace AxelarCgp.Gateway

open NestedCodec

/-- Where a message stands on the board. -/
inductive Standing where
  | unknown
  | approved (message : Message)
  | executed
  deriving DecidableEq

structure Board where
  operator : Option Address
  standing : CrossChainId → Standing
  /-- The signer sets in the order of their epochs. -/
  signerSets : List WeightedSigners
  lastRotationTimestamp : UInt64
  previousSignersRetention : ℕ
  domainSeparator : Hash
  minimumRotationDelay : UInt64
  nodup_signerSets : signerSets.Nodup
  crossChainId_eq : ∀ id message, standing id = .approved message → message.crossChainId = id

namespace Board

variable (crypto : Crypto)

def blank (previousSignersRetention : ℕ) (domainSeparator : Hash)
    (minimumRotationDelay : UInt64) : Board where
  operator := none
  standing _ := .unknown
  signerSets := []
  lastRotationTimestamp := 0
  previousSignersRetention
  domainSeparator
  minimumRotationDelay
  nodup_signerSets := List.nodup_nil
  crossChainId_eq := by simp

/-! ## Messages -/

def approve (message : Message) (board : Board) : Board :=
  { board with
    standing := Function.update board.standing message.crossChainId (.approved message)
    crossChainId_eq := by
      intro id other hother
      by_cases hid : id = message.crossChainId
      · subst hid
        rw [Function.update_self] at hother
        rw [Standing.approved.inj hother]
      · rw [Function.update_of_ne hid] at hother
        exact board.crossChainId_eq id other hother }

def execute (id : CrossChainId) (board : Board) : Board :=
  { board with
    standing := Function.update board.standing id .executed
    crossChainId_eq := by
      intro other message hmessage
      by_cases hid : other = id
      · subst hid
        simp at hmessage
      · rw [Function.update_of_ne hid] at hmessage
        exact board.crossChainId_eq other message hmessage }

def approveMessage (message : Message) (board : Board) : Board × List Event :=
  if board.standing message.crossChainId = .unknown then
    (board.approve message, [.messageApproved message.sourceChain message.messageId
      message.sourceAddress message.contractAddress message.payloadHash])
  else (board, [])

def approveEach : List Message → Board → Board × List Event
  | [], board => (board, [])
  | message :: messages, board =>
      let (board, events) := approveMessage message board
      let (board, others) := approveEach messages board
      (board, events ++ others)

def validateMessage (message : Message) (board : Board) : Board × Bool × List Event :=
  if board.standing message.crossChainId = .approved message then
    (board.execute message.crossChainId, true,
      [.messageExecuted message.sourceChain message.messageId])
  else (board, false, [])

/-! ## Signers -/

/-- A proof is by a signer set that was in office, not too many rotations ago, and for the very
command it comes with. -/
def validateProof (commandType : CommandType) (buffer : ManagedBuffer) (proof : Proof)
    (board : Board) : Outcome Bool := do
  require (proof.signers ∈ board.signerSets) "Invalid signers"
  let epoch := board.signerSets.idxOf proof.signers + 1
  require (board.signerSets.length - epoch ≤ board.previousSignersRetention) "Invalid signers"
  let command : SignedCommand := ⟨board.domainSeparator, proof.signers, commandType, buffer⟩
  validateSignatures crypto (command.hashToSign crypto) proof.signers proof.signatures
  return decide (epoch = board.signerSets.length)

def seat (newSigners : WeightedSigners) (timestamp : UInt64) (board : Board)
    (hfresh : newSigners ∉ board.signerSets) : Board :=
  { board with
    signerSets := board.signerSets ++ [newSigners]
    lastRotationTimestamp := timestamp
    nodup_signerSets := by
      rw [← List.concat_eq_append]
      exact board.nodup_signerSets.concat hfresh }

def rotateSignersRaw (ctx : CallContext) (newSigners : WeightedSigners)
    (enforceRotationDelay : Bool) (board : Board) : Outcome (Board × List Event) := do
  validateSigners newSigners
  require (¬ enforceRotationDelay ∨
    ctx.blockTimestamp - board.lastRotationTimestamp ≥ board.minimumRotationDelay)
    "Insufficient rotation delay"
  if hfresh : newSigners ∈ board.signerSets then
    .error "Duplicate signers"
  else
    return (board.seat newSigners ctx.blockTimestamp hfresh, [.signersRotated
      (board.signerSets.length + 1) (getSignersHash crypto newSigners) newSigners])

def rotateEach (ctx : CallContext) : List WeightedSigners → Board →
    Outcome (Board × List Event)
  | [], board => return (board, [])
  | signers :: others, board => do
      let (board, events) ← rotateSignersRaw crypto ctx signers false board
      let (board, more) ← rotateEach ctx others board
      return (board, events ++ more)

/-! ## Endpoints -/

def upgrade (ctx : CallContext) (operator : Address) (signers : List WeightedSigners)
    (board : Board) : Outcome (Board × List Event) := do
  let (board, events) :=
    if !operator.isZero then
      ({ board with operator := some operator }, [.operatorshipTransferred operator])
    else (board, [])
  let (board, more) ← rotateEach crypto ctx signers board
  return (board, events ++ more)

def init (ctx : CallContext) (previousSignersRetention : ℕ) (domainSeparator : Hash)
    (minimumRotationDelay : UInt64) (operator : Address) (signers : List WeightedSigners) :
    Outcome (Board × List Event) :=
  upgrade crypto ctx operator signers
    (blank previousSignersRetention domainSeparator minimumRotationDelay)

def approveMessages (messages : ManagedBuffer) (proof : Proof) (board : Board) :
    Outcome (Board × List Event) := do
  let batch ← orFail (topDecodeVec (A := Message) messages.1) "Could not decode messages"
  require (batch ≠ []) "Invalid messages"
  let _ ← validateProof crypto .approveMessages messages proof board
  return approveEach batch board

def rotateSigners (ctx : CallContext) (newSigners : ManagedBuffer) (proof : Proof)
    (board : Board) : Outcome (Board × List Event) := do
  let signers ← orFail (topDecode (A := WeightedSigners) newSigners.1)
    "Could not decode new signers"
  let operator ← orFail board.operator "storage decode error: bad array length"
  let enforceRotationDelay := decide (ctx.caller ≠ operator)
  let isLatestSigners ← validateProof crypto .rotateSigners newSigners proof board
  require (¬ enforceRotationDelay ∨ isLatestSigners) "Not latest signers"
  rotateSignersRaw crypto ctx signers enforceRotationDelay board

def transferOperatorship (ctx : CallContext) (newOperator : Address) (board : Board) :
    Outcome (Board × List Event) := do
  let operator ← orFail board.operator "storage decode error: bad array length"
  require (ctx.caller = operator ∨ ctx.caller = ctx.ownerAddress) "Invalid sender"
  require (¬ newOperator.isZero) "Invalid operator"
  return ({ board with operator := some newOperator }, [.operatorshipTransferred newOperator])

/-- A reply of an endpoint that returns nothing. -/
def reply (result : Board × List Event) : Board × Reply :=
  (result.1, ⟨false, result.2⟩)

def perform (ctx : CallContext) (call : Call) (board : Board) : Outcome (Board × Reply) := do
  requireNotPayable ctx
  match call with
  | .upgrade operator signers => reply <$> upgrade crypto ctx operator signers board
  | .approveMessages messages proof => reply <$> approveMessages crypto messages proof board
  | .rotateSigners newSigners proof => reply <$> rotateSigners crypto ctx newSigners proof board
  | .callContract chain address payload =>
      return reply (board, [.contractCall ctx.caller chain address
        (crypto.keccak256 payload.1) payload])
  | .validateMessage chain messageId address payloadHash =>
      let (board, valid, events) :=
        validateMessage ⟨chain, messageId, address, ctx.caller, payloadHash⟩ board
      return (board, ⟨valid, events⟩)
  | .transferOperatorship newOperator => reply <$> transferOperatorship ctx newOperator board

def machine : Machine Board (CallContext × Call) Reply where
  step board input := perform crypto input.1 input.2 board

end Board

end AxelarCgp.Gateway
