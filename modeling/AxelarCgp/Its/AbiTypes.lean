import AxelarCgp.Its.Abi
import AxelarCgp.TokenManager.Constants

/-!
# Payload types

`interchain-token-service/src/abi_types.rs`: every payload lists its fields as
tokens, and is read back by popping them off in reverse.
-/

namespace AxelarCgp.Its

abbrev TokenId := Hash

class AbiEncodeDecode (Payload : Type) where
  toTokens : Payload → List Token
  paramTypes : List ParamType
  ofTokens : List Token → Outcome Payload
  paramTypes_toTokens : ∀ payload, (toTokens payload).map Token.paramType = paramTypes
  ofTokens_toTokens : ∀ payload, ofTokens (toTokens payload) = .ok payload

section Codec

variable {Payload : Type} [AbiEncodeDecode Payload]

def abiEncode (payload : Payload) : Outcome ManagedBuffer :=
  rawAbiEncode (AbiEncodeDecode.toTokens payload)

def abiDecode (payload : ManagedBuffer) : Outcome Payload := do
  let result ← rawAbiDecode (AbiEncodeDecode.paramTypes Payload) payload 0
  AbiEncodeDecode.ofTokens result

/-- A payload that was encoded is decoded field for field. -/
theorem abiDecode_abiEncode {payload : Payload} {data : ManagedBuffer}
    (h : abiEncode payload = .ok data) : abiDecode data = .ok payload := by
  have hdecode := rawAbiDecode_rawAbiEncode h
  rw [AbiEncodeDecode.paramTypes_toTokens] at hdecode
  rw [abiDecode, hdecode, Outcome.ok_bind, AbiEncodeDecode.ofTokens_toTokens]

end Codec

structure InterchainTransferPayload where
  messageType : BigUint
  tokenId : TokenId
  sourceAddress : ManagedBuffer
  destinationAddress : ManagedBuffer
  amount : BigUint
  data : ManagedBuffer
  deriving DecidableEq

instance : AbiEncodeDecode InterchainTransferPayload where
  toTokens payload := [.uint256 payload.messageType, .bytes32 payload.tokenId,
    .bytes payload.sourceAddress, .bytes payload.destinationAddress, .uint256 payload.amount,
    .bytes payload.data]
  paramTypes := [.uint256, .bytes32, .bytes, .bytes, .uint256, .bytes]
  ofTokens
    | [messageType, tokenId, sourceAddress, destinationAddress, amount, data] => do
        let data ← data.intoManagedBuffer
        let amount ← amount.intoBiguint
        let destinationAddress ← destinationAddress.intoManagedBuffer
        let sourceAddress ← sourceAddress.intoManagedBuffer
        let tokenId ← tokenId.intoManagedByteArray
        let messageType ← messageType.intoBiguint
        return { messageType, tokenId, sourceAddress, destinationAddress, amount, data }
    | _ => .error "panic occurred"
  paramTypes_toTokens _ := rfl
  ofTokens_toTokens _ := rfl

structure DeployInterchainTokenPayload where
  messageType : BigUint
  tokenId : TokenId
  name : ManagedBuffer
  symbol : ManagedBuffer
  decimals : UInt8
  minter : ManagedBuffer
  deriving DecidableEq

instance : AbiEncodeDecode DeployInterchainTokenPayload where
  toTokens payload := [.uint256 payload.messageType, .bytes32 payload.tokenId,
    .string payload.name, .string payload.symbol, .uint8 payload.decimals,
    .bytes payload.minter]
  paramTypes := [.uint256, .bytes32, .string, .string, .uint8, .bytes]
  ofTokens
    | [messageType, tokenId, name, symbol, decimals, minter] => do
        let minter ← minter.intoManagedBuffer
        let decimals ← decimals.intoU8
        let symbol ← symbol.intoManagedBuffer
        let name ← name.intoManagedBuffer
        let tokenId ← tokenId.intoManagedByteArray
        let messageType ← messageType.intoBiguint
        return { messageType, tokenId, name, symbol, decimals, minter }
    | _ => .error "panic occurred"
  paramTypes_toTokens _ := rfl
  ofTokens_toTokens _ := rfl

structure SendToHubPayload where
  messageType : BigUint
  destinationChain : ManagedBuffer
  payload : ManagedBuffer
  deriving DecidableEq

instance : AbiEncodeDecode SendToHubPayload where
  toTokens payload := [.uint256 payload.messageType, .string payload.destinationChain,
    .bytes payload.payload]
  paramTypes := [.uint256, .string, .bytes]
  ofTokens
    | [messageType, destinationChain, payload] => do
        let payload ← payload.intoManagedBuffer
        let destinationChain ← destinationChain.intoManagedBuffer
        let messageType ← messageType.intoBiguint
        return { messageType, destinationChain, payload }
    | _ => .error "panic occurred"
  paramTypes_toTokens _ := rfl
  ofTokens_toTokens _ := rfl

structure ReceiveFromHubPayload where
  messageType : BigUint
  originalSourceChain : ManagedBuffer
  payload : ManagedBuffer
  deriving DecidableEq

instance : AbiEncodeDecode ReceiveFromHubPayload where
  toTokens payload := [.uint256 payload.messageType, .string payload.originalSourceChain,
    .bytes payload.payload]
  paramTypes := [.uint256, .string, .bytes]
  ofTokens
    | [messageType, originalSourceChain, payload] => do
        let payload ← payload.intoManagedBuffer
        let originalSourceChain ← originalSourceChain.intoManagedBuffer
        let messageType ← messageType.intoBiguint
        return { messageType, originalSourceChain, payload }
    | _ => .error "panic occurred"
  paramTypes_toTokens _ := rfl
  ofTokens_toTokens _ := rfl

structure RegisterTokenMetadataPayload where
  messageType : BigUint
  tokenIdentifier : ManagedBuffer
  decimals : UInt8
  deriving DecidableEq

instance : AbiEncodeDecode RegisterTokenMetadataPayload where
  toTokens payload := [.uint256 payload.messageType, .bytes payload.tokenIdentifier,
    .uint8 payload.decimals]
  paramTypes := [.uint256, .bytes, .uint8]
  ofTokens
    | [messageType, tokenIdentifier, decimals] => do
        let decimals ← decimals.intoU8
        let tokenIdentifier ← tokenIdentifier.intoManagedBuffer
        let messageType ← messageType.intoBiguint
        return { messageType, tokenIdentifier, decimals }
    | _ => .error "panic occurred"
  paramTypes_toTokens _ := rfl
  ofTokens_toTokens _ := rfl

structure LinkTokenPayload where
  messageType : BigUint
  tokenId : TokenId
  tokenManagerType : TokenManagerType
  sourceTokenAddress : ManagedBuffer
  destinationTokenAddress : ManagedBuffer
  linkParams : ManagedBuffer
  deriving DecidableEq

instance : AbiEncodeDecode LinkTokenPayload where
  toTokens payload := [.uint256 payload.messageType, .bytes32 payload.tokenId,
    .uint8 payload.tokenManagerType.toU8, .bytes payload.sourceTokenAddress,
    .bytes payload.destinationTokenAddress, .bytes payload.linkParams]
  paramTypes := [.uint256, .bytes32, .uint8, .bytes, .bytes, .bytes]
  ofTokens
    | [messageType, tokenId, tokenManagerType, sourceTokenAddress, destinationTokenAddress,
        linkParams] => do
        let linkParams ← linkParams.intoManagedBuffer
        let destinationTokenAddress ← destinationTokenAddress.intoManagedBuffer
        let sourceTokenAddress ← sourceTokenAddress.intoManagedBuffer
        let tokenManagerType ← tokenManagerType.intoU8
        let tokenId ← tokenId.intoManagedByteArray
        let messageType ← messageType.intoBiguint
        let tokenManagerType ← TokenManagerType.ofU8 tokenManagerType
        return ⟨messageType, tokenId, tokenManagerType, sourceTokenAddress,
          destinationTokenAddress, linkParams⟩
    | _ => .error "panic occurred"
  paramTypes_toTokens _ := rfl
  ofTokens_toTokens payload := by
    obtain ⟨_, _, managerType, _, _, _⟩ := payload
    cases managerType <;> rfl

/-! ## Round trips -/

/-- Everything short enough is encoded and decoded again field for field, and a number
that has no word is refused. -/
structure RoundTrips {Payload : Type} [AbiEncodeDecode Payload] (payload : Payload) : Prop where
  decodes : (∀ value, .uint256 value ∈ AbiEncodeDecode.toTokens payload → value.1 < 2 ^ 256) →
    encodedLength (AbiEncodeDecode.toTokens payload) < 2 ^ 32 →
    ∃ data, abiEncode payload = .ok data ∧ abiDecode data = .ok payload
  refuses : ∀ value, .uint256 value ∈ AbiEncodeDecode.toTokens payload → 2 ^ 256 ≤ value.1 →
    ∃ message, abiEncode payload = .error message

theorem roundTrips {Payload : Type} [AbiEncodeDecode Payload] (payload : Payload) :
    RoundTrips payload where
  decodes hvalues hlength := by
    have hfits : ∀ token ∈ AbiEncodeDecode.toTokens payload, token.fits := by
      intro token hmem
      cases token with
      | uint256 value => exact Token.fits_uint256.mpr (hvalues value hmem)
      | _ => rfl
    obtain ⟨data, hdata⟩ := rawAbiEncode_isOk hfits hlength
    exact ⟨data, hdata, abiDecode_abiEncode hdata⟩
  refuses value hmem hlarge := by
    have hunfit : Token.fits (.uint256 value) = false := by
      rw [← Bool.not_eq_true, Token.fits_uint256]
      omega
    exact rawAbiEncode_error hmem hunfit

/-- What is wrapped for the hub, or comes wrapped from it, is unwrapped unchanged. -/
structure Unwraps (messageType : BigUint) (chain inner : ManagedBuffer) : Prop where
  sendToHub : ∀ data, abiEncode (⟨messageType, chain, inner⟩ : SendToHubPayload) = .ok data →
    SendToHubPayload.payload <$> abiDecode data = .ok inner
  receiveFromHub : ∀ data,
    abiEncode (⟨messageType, chain, inner⟩ : ReceiveFromHubPayload) = .ok data →
    ReceiveFromHubPayload.payload <$> abiDecode data = .ok inner

theorem unwraps (messageType : BigUint) (chain inner : ManagedBuffer) :
    Unwraps messageType chain inner where
  sendToHub data h := by
    rw [abiDecode_abiEncode h]
    rfl
  receiveFromHub data h := by
    rw [abiDecode_abiEncode h]
    rfl

/-- The six types of payloads are decoded as they were encoded, and whatever is wrapped
comes out of its wrapping. -/
theorem payloadsRoundTrip :
    (∀ payload : InterchainTransferPayload, RoundTrips payload) ∧
    (∀ payload : DeployInterchainTokenPayload, RoundTrips payload) ∧
    (∀ payload : SendToHubPayload, RoundTrips payload) ∧
    (∀ payload : ReceiveFromHubPayload, RoundTrips payload) ∧
    (∀ payload : RegisterTokenMetadataPayload, RoundTrips payload) ∧
    (∀ payload : LinkTokenPayload, RoundTrips payload) ∧
    ∀ messageType chain inner, Unwraps messageType chain inner :=
  ⟨roundTrips, roundTrips, roundTrips, roundTrips, roundTrips, roundTrips, unwraps⟩

end AxelarCgp.Its
