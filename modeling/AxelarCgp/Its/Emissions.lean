import AxelarCgp.Its.AbiReading
import AxelarCgp.Its.Transfers

/-!
# What the hub is told of transfers

A payload starts with the type of its message, so that a transfer that is wrapped for the
hub is told from everything else that the hub is sent.
-/

namespace AxelarCgp.Its

open Transaction

/-! ## Message types -/

section MessageTypes

variable {data : ManagedBuffer}

/-- What starts with a number is decoded as the first word. -/
theorem rawAbiDecode_uint256 {params : List ParamType} {tokens : List Token}
    (h : rawAbiDecode (.uint256 :: params) data 0 = .ok tokens) :
    ∃ value rest, tokens = .uint256 value :: rest ∧ value.1 = wordAt data 0 := by
  simp only [rawAbiDecode, Outcome.bind_eq_ok, Prod.exists, abiDecode_eq_ok,
    Outcome.pure_eq_ok] at h
  obtain ⟨token, _, ⟨_, _, hreads, _⟩, others, _, rfl⟩ := h
  cases token with
  | uint256 value => exact ⟨value, others, rfl, hreads⟩
  | _ => exact hreads.elim

theorem sendToHub_messageType {payload : SendToHubPayload} (h : abiDecode data = .ok payload) :
    payload.messageType.1 = wordAt data 0 := by
  obtain ⟨tokens, hraw, hof⟩ := Outcome.bind_eq_ok.mp h
  obtain ⟨value, rest, rfl, hvalue⟩ := rawAbiDecode_uint256 hraw
  simp only [AbiEncodeDecode.ofTokens] at hof
  split at hof
  · rename_i htokens
    obtain ⟨rfl, _⟩ := List.cons.inj htokens
    simp only [Outcome.bind_eq_ok, Outcome.pure_eq_ok, Token.intoBiguint] at hof
    obtain ⟨_, _, _, _, messageType, htype, rfl⟩ := hof
    obtain rfl := Except.ok.inj htype
    exact hvalue
  · simp at hof

theorem interchainTransfer_messageType {payload : InterchainTransferPayload}
    (h : abiDecode data = .ok payload) : payload.messageType.1 = wordAt data 0 := by
  obtain ⟨tokens, hraw, hof⟩ := Outcome.bind_eq_ok.mp h
  obtain ⟨value, rest, rfl, hvalue⟩ := rawAbiDecode_uint256 hraw
  simp only [AbiEncodeDecode.ofTokens] at hof
  split at hof
  · rename_i htokens
    obtain ⟨rfl, _⟩ := List.cons.inj htokens
    simp only [Outcome.bind_eq_ok, Outcome.pure_eq_ok, Token.intoBiguint] at hof
    obtain ⟨_, _, _, _, _, _, _, _, _, _, messageType, htype, rfl⟩ := hof
    obtain rfl := Except.ok.inj htype
    exact hvalue
  · simp at hof

theorem wordAt_abiEncode {Payload : Type} [AbiEncodeDecode Payload] {payload : Payload}
    {messageType : BigUint} {rest : List Token}
    (htokens : AbiEncodeDecode.toTokens payload = .uint256 messageType :: rest)
    (h : abiEncode payload = .ok data) : wordAt data 0 = messageType.1 := by
  rw [abiEncode, htokens] at h
  obtain ⟨value, others, hsame, hvalue⟩ := rawAbiDecode_uint256 (rawAbiDecode_rawAbiEncode h)
  obtain ⟨hnumber, _⟩ := List.cons.inj hsame
  rw [← hvalue, Token.uint256.inj hnumber]

end MessageTypes

/-! ## Transfers that are wrapped -/

theorem toOption_eq_some {A : Type} {x : Outcome A} {a : A} : x.toOption = some a ↔ x = .ok a := by
  cases x <;> simp [Except.toOption]

/-- The transfer of a token that a payload for the hub wraps. -/
def wrappedTransfer (tokenId : TokenId) (payload : ManagedBuffer) : Option ManagedBuffer :=
  let inner : Outcome ManagedBuffer := do
    let sendToHub ← (abiDecode payload : Outcome SendToHubPayload)
    require (sendToHub.messageType.1 = MESSAGE_TYPE_SEND_TO_HUB) "Invalid message type"
    let transfer ← (abiDecode sendToHub.payload : Outcome InterchainTransferPayload)
    require (transfer.messageType.1 = MESSAGE_TYPE_INTERCHAIN_TRANSFER ∧
      transfer.tokenId = tokenId) "Invalid message type"
    return sendToHub.payload
  inner.toOption

/-- How much a transfer transfers. -/
def transferredAmount (inner : ManagedBuffer) : ℕ :=
  match (abiDecode inner : Outcome InterchainTransferPayload) with
  | .ok transfer => transfer.amount.1
  | .error _ => 0

section Wrapped

variable {tokenId : TokenId} {payload inner : ManagedBuffer}

theorem wrappedTransfer_eq_some : wrappedTransfer tokenId payload = some inner ↔
    ∃ (sendToHub : SendToHubPayload) (transfer : InterchainTransferPayload),
      abiDecode payload = .ok sendToHub ∧ sendToHub.messageType.1 = MESSAGE_TYPE_SEND_TO_HUB ∧
      abiDecode sendToHub.payload = .ok transfer ∧
      transfer.messageType.1 = MESSAGE_TYPE_INTERCHAIN_TRANSFER ∧ transfer.tokenId = tokenId ∧
      sendToHub.payload = inner := by
  simp only [wrappedTransfer, toOption_eq_some, Outcome.bind_eq_ok, Outcome.exists_unit,
    Outcome.require_eq_ok, Outcome.pure_eq_ok]
  constructor
  · rintro ⟨sendToHub, hpayload, hhub, transfer, hinner, ⟨htype, htoken⟩, hsame⟩
    exact ⟨sendToHub, transfer, hpayload, hhub, hinner, htype, htoken, hsame⟩
  · rintro ⟨sendToHub, transfer, hpayload, hhub, hinner, htype, htoken, hsame⟩
    exact ⟨sendToHub, hpayload, hhub, transfer, hinner, ⟨htype, htoken⟩, hsame⟩

/-- A transfer that is announced for a token is wrapped for it alone. -/
theorem Announces.wrappedTransfer {destinationChain sourceAddress destinationAddress data :
      ManagedBuffer} {amount : ℕ} (other : TokenId)
    (h : Announces payload destinationChain tokenId sourceAddress destinationAddress amount data) :
    ((wrappedTransfer other payload).map transferredAmount).getD 0 =
      if tokenId = other then amount else 0 := by
  obtain ⟨sendToHub, transfer, hpayload, hhub, _, hinner, htype, rfl, _, _, rfl, _⟩ := h
  split
  · rename_i hsame
    have hwrapped := wrappedTransfer_eq_some.mpr
      ⟨sendToHub, transfer, hpayload, hhub, hinner, htype, hsame, rfl⟩
    rw [hwrapped, Option.map_some, Option.getD_some, transferredAmount, hinner]
  · rename_i hother
    have hnone : Its.wrappedTransfer other payload = none := by
      rw [Option.eq_none_iff_forall_ne_some]
      intro inner hsome
      obtain ⟨wrapping, wrapped, hwrapping, _, hwrapped, _, htoken, _⟩ :=
        wrappedTransfer_eq_some.mp hsome
      obtain rfl := Except.ok.inj (hpayload.symm.trans hwrapping)
      obtain rfl := Except.ok.inj (hinner.symm.trans hwrapped)
      exact hother htoken
    rw [hnone]
    rfl

/-- No other message of the service is taken for a transfer. -/
theorem Control.wrappedTransfer (h : Control payload) (tokenId : TokenId) :
    wrappedTransfer tokenId payload = none := by
  rw [Option.eq_none_iff_forall_ne_some]
  intro inner hsome
  obtain ⟨sendToHub, transfer, hpayload, hhub, hinner, htransfer, _⟩ :=
    wrappedTransfer_eq_some.mp hsome
  have houter := sendToHub_messageType hpayload
  have hwrapped := interchainTransfer_messageType hinner
  cases h with
  | registerTokenMetadata htype hencoded =>
    rw [wordAt_abiEncode rfl hencoded, biguint_eq_ok htype, hhub] at houter
    contradiction
  | deployInterchainToken htype hencoded _ hwrapping =>
    obtain rfl := Except.ok.inj ((abiDecode_abiEncode hwrapping).symm.trans hpayload)
    rw [wordAt_abiEncode rfl hencoded, biguint_eq_ok htype, htransfer] at hwrapped
    contradiction
  | linkToken htype hencoded _ hwrapping =>
    obtain rfl := Except.ok.inj ((abiDecode_abiEncode hwrapping).symm.trans hpayload)
    rw [wordAt_abiEncode rfl hencoded, biguint_eq_ok htype, htransfer] at hwrapped
    contradiction

end Wrapped

/-! ## Emissions -/

/-- The transfers of a token that the service hands the gateway for the hub. -/
def emissions (service : Address) (tokenId : TokenId) (trace : List Action) :
    List ManagedBuffer :=
  trace.filterMap fun
    | .gateway ctx (.callContract destinationChain _ payload) _ =>
        if ctx.caller = service ∧ destinationChain = ITS_HUB_CHAIN_NAME then
          wrappedTransfer tokenId payload
        else none
    | _ => none

@[simp]
theorem emissions_append (service : Address) (tokenId : TokenId) (first second : List Action) :
    emissions service tokenId (first ++ second) =
      emissions service tokenId first ++ emissions service tokenId second :=
  List.filterMap_append

theorem emissions_hubTrace {crypto : Crypto} {env : Environment} {ctx : CallContext}
    (its : State) (tokenId : TokenId) (payload : ManagedBuffer) (gasValue : ℕ) :
    emissions ctx.scAddress tokenId (hubTrace crypto env ctx its payload gasValue) =
      (wrappedTransfer tokenId payload).toList := by
  have hmessage : ∀ reply, emissions ctx.scAddress tokenId [.gateway
      (nested env ctx its.gateway .none)
      (.callContract ITS_HUB_CHAIN_NAME its.itsHubAddress payload) reply] =
      (wrappedTransfer tokenId payload).toList := by
    intro reply
    cases hwrapped : wrappedTransfer tokenId payload <;>
      simp [emissions, nested, Environment.context, hwrapped]
  rw [hubTrace, emissions_append, hmessage]
  split <;> simp [emissions]

end AxelarCgp.Its
