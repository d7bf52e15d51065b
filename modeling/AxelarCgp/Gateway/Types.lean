import AxelarCgp.Platform.Types

/-!
# Gateway data

The values of `gateway/src/constants.rs` and `events.rs`, their nested
encodings, and the hand-written storage encoding of a message state: nothing
for a message never seen, the 32 bytes of its hash once approved, and the
single character `1` once executed.
-/

namespace AxelarCgp.Gateway

inductive CommandType where
  | approveMessages
  | rotateSigners
  deriving DecidableEq

/-- Enumerations encode as the index of their variant in one byte. -/
def CommandType.depEncode : CommandType → Bytes
  | approveMessages => [0]
  | rotateSigners => [1]

structure CrossChainId where
  sourceChain : ManagedBuffer
  messageId : ManagedBuffer
  deriving DecidableEq

instance : NestedCodec CrossChainId :=
  NestedCodec.via (fun id => (id.sourceChain, id.messageId))
    (fun fields => ⟨fields.1, fields.2⟩) (fun _ => rfl)

structure Message where
  sourceChain : ManagedBuffer
  messageId : ManagedBuffer
  sourceAddress : ManagedBuffer
  contractAddress : Address
  payloadHash : Hash
  deriving DecidableEq

instance : NestedCodec Message :=
  NestedCodec.via
    (fun message => (message.sourceChain, message.messageId, message.sourceAddress,
      message.contractAddress, message.payloadHash))
    (fun fields => ⟨fields.1, fields.2.1, fields.2.2.1, fields.2.2.2.1, fields.2.2.2.2⟩)
    (fun _ => rfl)

def Message.crossChainId (message : Message) : CrossChainId :=
  ⟨message.sourceChain, message.messageId⟩

structure WeightedSigner where
  signer : FixedBytes 32
  weight : BigUint
  deriving DecidableEq

instance : NestedCodec WeightedSigner :=
  NestedCodec.via (fun signer => (signer.signer, signer.weight))
    (fun fields => ⟨fields.1, fields.2⟩) (fun _ => rfl)

structure WeightedSigners where
  signers : Vec WeightedSigner
  threshold : BigUint
  nonce : Hash
  deriving DecidableEq

instance : NestedCodec WeightedSigners :=
  NestedCodec.via (fun signers => (signers.signers, signers.threshold, signers.nonce))
    (fun fields => ⟨fields.1, fields.2.1, fields.2.2⟩) (fun _ => rfl)

structure Proof where
  signers : WeightedSigners
  signatures : Vec (Option (FixedBytes 64))
  deriving DecidableEq

inductive MessageState where
  | nonExistent
  | approved (hash : Hash)
  | executed
  deriving DecidableEq

/-- The storage value of an executed message. -/
def messageExecuted : Bytes := Bytes.ascii ['1']

namespace MessageState

def topEncode : MessageState → Bytes
  | nonExistent => []
  | approved hash => hash.1
  | executed => messageExecuted

def topDecode (input : Bytes) : Outcome MessageState :=
  if input.isEmpty then .ok nonExistent
  else if input = messageExecuted then .ok executed
  else if h : input.length = 32 then .ok (approved ⟨input, h⟩)
  else .error "storage decode error: Invalid hash"

/-- The three storage shapes are told apart: what was stored is read back. -/
@[simp]
theorem topDecode_topEncode (state : MessageState) :
    topDecode state.topEncode = .ok state := by
  cases state with
  | nonExistent => rfl
  | executed => rfl
  | approved hash =>
      obtain ⟨bytes, hlength⟩ := hash
      have hnonempty : bytes.isEmpty = false := by
        cases bytes with
        | nil => simp at hlength
        | cons byte bytes => rfl
      have hother : bytes ≠ messageExecuted := by
        rintro rfl
        simp [messageExecuted, Bytes.ascii] at hlength
      simp [topDecode, topEncode, hnonempty, hother, hlength]

end MessageState

inductive Event where
  | contractCall (sender : Address) (destinationChain : ManagedBuffer)
      (destinationContractAddress : ManagedBuffer) (payloadHash : Hash)
      (payload : ManagedBuffer)
  | messageApproved (sourceChain messageId sourceAddress : ManagedBuffer)
      (contractAddress : Address) (payloadHash : Hash)
  | messageExecuted (sourceChain messageId : ManagedBuffer)
  | signersRotated (epoch : ℕ) (signersHash : Hash) (signers : WeightedSigners)
  | operatorshipTransferred (newOperator : Address)
  deriving DecidableEq

end AxelarCgp.Gateway
