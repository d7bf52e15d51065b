import AxelarCgp.Its.GasRefunds
import AxelarCgp.Its.Metadata
import AxelarCgp.Its.Registry
import AxelarCgp.Its.Solvency
import AxelarCgp.Its.Transfers

/-!
# Answers to property lookups

A request for the properties of a token leaves its gas value with the service until the
answer comes.  The callback returns it to whoever asked or sends a message with it;
an answer that it cannot go through with leaves the gas value behind.
-/

namespace AxelarCgp.Its

open Machine Transaction

/-! ## What the platform answers -/

/-- `NumDecimals-` and a number without padding. -/
def decimalsEntry (decimals : Fin 19) : ManagedBuffer :=
  ⟨Bytes.ascii (['N', 'u', 'm', 'D', 'e', 'c', 'i', 'm', 'a', 'l', 's', '-'] ++
    Nat.toDigits 10 decimals), by revert decimals; decide⟩

/-- An error, or the properties of a token in their order. -/
inductive Lookup where
  | failed (errCode : UInt32) (errMsg : ManagedBuffer)
  | found (tokenName tokenType ownerAddress minted burnt : ManagedBuffer) (decimals : Fin 19)
      (flags : List ManagedBuffer)

namespace Lookup

def result : Lookup → AsyncResult
  | failed errCode errMsg => .err errCode errMsg
  | found tokenName tokenType ownerAddress minted burnt decimals flags =>
      .ok (tokenName :: tokenType :: ownerAddress :: minted :: burnt :: decimalsEntry decimals ::
        flags)

def decimals : Lookup → Option UInt8
  | failed _ _ => none
  | found _ _ _ _ _ decimals _ => some (UInt8.ofNat decimals)

end Lookup

/-- Two digits are read, so that numbers of one digit are not. -/
theorem decimalsOf_decimalsEntry (decimals : Fin 19) : decimalsOf (decimalsEntry decimals) =
    if 10 ≤ decimals then .ok (UInt8.ofNat decimals) else .error "panic occurred" := by
  revert decimals
  decide +kernel

/-! ## Messages that deploy tokens -/

/-- The payload that deploys a token on another chain, wrapped for the hub. -/
def deployMessage (payload : DeployInterchainTokenPayload) (destinationChain : ManagedBuffer) :
    Outcome ManagedBuffer := do
  let inner ← abiEncode payload
  let messageType ← biguint MESSAGE_TYPE_SEND_TO_HUB
  abiEncode (⟨messageType, destinationChain, inner⟩ : SendToHubPayload)

/-- The length of the message, whether or not it can be built. -/
def deployMessageLength (payload : DeployInterchainTokenPayload)
    (destinationChain : ManagedBuffer) : ℕ :=
  128 + (Token.padBytes destinationChain).length +
    encodedLength (AbiEncodeDecode.toTokens payload)

theorem encodedLength_sendToHub {messageType : BigUint} {destinationChain inner : ManagedBuffer}
    (haligned : 32 ∣ inner.1.length) :
    encodedLength (AbiEncodeDecode.toTokens (⟨messageType, destinationChain, inner⟩ :
      SendToHubPayload)) = 128 + (Token.padBytes destinationChain).length + inner.1.length := by
  have hinner : (Token.padBytes inner).length = 32 + inner.1.length := by
    obtain ⟨count, hcount⟩ := haligned
    rw [Token.length_padBytes, hcount]
    omega
  simp only [AbiEncodeDecode.toTokens, encodedLength, List.length_cons, List.length_nil,
    List.flatMap_cons, List.flatMap_nil, Token.tail, List.length_append, hinner]
  ring

theorem dvd_encodedLength (payload : DeployInterchainTokenPayload) :
    32 ∣ encodedLength (AbiEncodeDecode.toTokens payload) := by
  simp only [AbiEncodeDecode.toTokens, encodedLength, List.length_cons, List.length_nil,
    List.flatMap_cons, List.flatMap_nil, Token.tail, List.length_append, Token.length_padBytes]
  omega

theorem deployMessage_isOk_iff {payload : DeployInterchainTokenPayload}
    (htype : payload.messageType.1 < 2 ^ 256) (destinationChain : ManagedBuffer) :
    (∃ message, deployMessage payload destinationChain = .ok message) ↔
      deployMessageLength payload destinationChain < lengthLimit := by
  have hhub : biguint MESSAGE_TYPE_SEND_TO_HUB = .ok ⟨3, by decide⟩ := rfl
  simp only [deployMessage, Outcome.bind_eq_ok, hhub, Except.ok.injEq, exists_eq_left']
  constructor
  · rintro ⟨message, inner, hinner, hmessage⟩
    have hlength := length_rawAbiEncode hinner
    have haligned := hlength ▸ dvd_encodedLength payload
    have houter := length_rawAbiEncode hmessage
    rw [encodedLength_sendToHub haligned, hlength] at houter
    rw [deployMessageLength, ← houter]
    exact message.2
  · intro hlimit
    rw [deployMessageLength] at hlimit
    obtain ⟨inner, hinner, _⟩ := (roundTrips payload).decodes (by
      intro value hmem
      simp only [AbiEncodeDecode.toTokens, List.mem_cons, List.not_mem_nil, or_false,
        Token.uint256.injEq, reduceCtorEq] at hmem
      rw [hmem]
      exact htype) (by simp only [lengthLimit] at hlimit; omega)
    have hlength := length_rawAbiEncode hinner
    have haligned := hlength ▸ dvd_encodedLength payload
    obtain ⟨message, hmessage, _⟩ := (roundTrips (⟨⟨3, by decide⟩, destinationChain, inner⟩ :
      SendToHubPayload)).decodes (by
        intro value hmem
        simp only [AbiEncodeDecode.toTokens, List.mem_cons, List.not_mem_nil, or_false,
          Token.uint256.injEq, reduceCtorEq] at hmem
        rw [hmem]
        norm_num) (by
          rw [encodedLength_sendToHub haligned, hlength]
          exact hlimit)
    exact ⟨message, inner, hinner, hmessage⟩

section Calls

variable {crypto : Crypto} {env : Environment} {ctx : CallContext}
variable {world last : World} {trace : List Action}

/-- The message that deploys a token under a salt. -/
def remoteDeployment (crypto : Crypto) (deploySalt : Hash) (name symbol : ManagedBuffer)
    (decimals : UInt8) (minter : ManagedBuffer) : DeployInterchainTokenPayload :=
  ⟨⟨MESSAGE_TYPE_DEPLOY_INTERCHAIN_TOKEN, by decide⟩, interchainTokenIdRaw crypto deploySalt,
    name, symbol, decimals, minter⟩

theorem deployRemoteInterchainTokenBase_eq_ok {deploySalt : Hash}
    {destinationChain name symbol minter : ManagedBuffer} {decimals : UInt8} {gasValue : ℕ} :
    deployRemoteInterchainTokenBase crypto env ctx (interchainTokenIdRaw crypto deploySalt) name
        symbol decimals minter destinationChain gasValue world = .ok ⟨(), last, trace⟩ ↔
      name.isEmpty = false ∧ symbol.isEmpty = false ∧
      (world.its.tokenManagerAddress (interchainTokenIdRaw crypto deploySalt)).isSome ∧
      destinationChain ≠ ITS_HUB_CHAIN_NAME ∧
      world.its.trustedChains destinationChain = true ∧
      ∃ message, deployMessage (remoteDeployment crypto deploySalt name symbol decimals minter)
          destinationChain = .ok message ∧
        Pays ctx.scAddress world.its.gasService gasValue world last ∧
        trace = hubTrace crypto env ctx world.its message gasValue ++
          [.event (.interchainTokenDeploymentStarted (interchainTokenIdRaw crypto deploySalt)
            name symbol decimals minter destinationChain)] := by
  have htype : biguint MESSAGE_TYPE_DEPLOY_INTERCHAIN_TOKEN =
      .ok ⟨MESSAGE_TYPE_DEPLOY_INTERCHAIN_TOKEN, by decide⟩ := rfl
  simp only [deployRemoteInterchainTokenBase, emits, deployMessage, remoteDeployment,
    Transaction.bind_eq_ok, Outcome.bind_eq_ok, Outcome.exists_unit, performs_eq_ok, lift_eq_ok,
    Outcome.require_eq_ok, deployedTokenManager_eq_ok, routeMessageThroughItsHub_iff,
    Option.isSome_iff_exists, Bool.not_eq_true]
  constructor
  · rintro ⟨_, _, _, ⟨hname, rfl, rfl⟩, ⟨_, _, _, ⟨hsymbol, rfl, rfl⟩, ⟨address, _, _, _,
      ⟨haddress, rfl, rfl⟩, ⟨messageType, _, _, _, ⟨hmessageType, rfl, rfl⟩, ⟨inner, _, _, _,
        ⟨hinner, rfl, rfl⟩, ⟨_, _, _, ⟨hnotHub, htrusted, hubType, message, hhub, hmessage, hpays,
          rfl⟩, ⟨rfl, rfl⟩, rfl⟩, rfl⟩, rfl⟩, rfl⟩, rfl⟩, rfl⟩
    obtain rfl := Except.ok.inj (htype.symm.trans hmessageType)
    exact ⟨hname, hsymbol, ⟨address, haddress⟩, hnotHub, htrusted, message,
      ⟨inner, hinner, hubType, hhub, hmessage⟩, hpays, rfl⟩
  · rintro ⟨hname, hsymbol, ⟨address, haddress⟩, hnotHub, htrusted, message,
      ⟨inner, hinner, hubType, hhub, hmessage⟩, hpays, rfl⟩
    exact ⟨_, _, _, ⟨hname, rfl, rfl⟩, ⟨_, _, _, ⟨hsymbol, rfl, rfl⟩, ⟨address, _, _, _,
      ⟨haddress, rfl, rfl⟩, ⟨_, _, _, _, ⟨htype, rfl, rfl⟩, ⟨inner, _, _, _,
        ⟨hinner, rfl, rfl⟩, ⟨_, _, _, ⟨hnotHub, htrusted, hubType, message, hhub, hmessage, hpays,
          rfl⟩, ⟨rfl, rfl⟩, rfl⟩, rfl⟩, rfl⟩, rfl⟩, rfl⟩, by simp⟩

/-- On another chain a deployment is a message and two events. -/
theorem deployInterchainTokenRaw_remote {deploySalt : Hash}
    {destinationChain name symbol minter : ManagedBuffer} {decimals : UInt8} {gasValue : ℕ}
    {caller : Address} (hremote : destinationChain.isEmpty = false) :
    (∃ tokenId, deployInterchainTokenRaw crypto env ctx deploySalt destinationChain name symbol
        decimals minter gasValue caller world = .ok ⟨tokenId, last, trace⟩) ↔
      world.its.chainName ≠ destinationChain ∧
      ∃ rest, deployRemoteInterchainTokenBase crypto env ctx
          (interchainTokenIdRaw crypto deploySalt) name symbol decimals minter destinationChain
          gasValue world = .ok ⟨(), last, rest⟩ ∧
        trace = .event (.interchainTokenIdClaimed (interchainTokenIdRaw crypto deploySalt)
          deploySalt) :: rest := by
  simp only [deployInterchainTokenRaw, hremote, Bool.false_eq_true, if_false, emits,
    Transaction.bind_eq_ok, Outcome.exists_unit, performs_eq_ok, reads_eq_ok, lift_eq_ok,
    Outcome.require_eq_ok, Transaction.pure_eq_ok]
  constructor
  · rintro ⟨_, _, _, _, ⟨rfl, rfl⟩, ⟨_, _, _, _, ⟨rfl, rfl, rfl⟩, ⟨_, _, _, ⟨hself, rfl, rfl⟩,
      ⟨_, _, _, hbase, ⟨rfl, rfl, rfl⟩, rfl⟩, rfl⟩, rfl⟩, rfl⟩
    exact ⟨hself, _, hbase, by simp⟩
  · rintro ⟨hself, rest, hbase, rfl⟩
    exact ⟨_, _, _, _, ⟨rfl, rfl⟩, ⟨_, _, _, _, ⟨rfl, rfl, rfl⟩, ⟨_, _, _, ⟨hself, rfl, rfl⟩,
      ⟨_, _, _, hbase, ⟨rfl, rfl, rfl⟩, rfl⟩, rfl⟩, rfl⟩, by simp⟩

/-! ## Callbacks -/

/-- The trace of a gas value that is returned. -/
def returnTrace (receiver : Address) (amount : ℕ) : List Action :=
  if amount > 0 then [.send receiver .egld amount] else []

theorem directNonZeroEgld_eq_ok {receiver : Address} {amount : ℕ} :
    directNonZeroEgld ctx receiver amount world = .ok ⟨(), last, trace⟩ ↔
      Pays ctx.scAddress receiver amount world last ∧ trace = returnTrace receiver amount := by
  unfold directNonZeroEgld Pays returnTrace
  split
  · exact send_eq_ok
  · simp only [Transaction.pure_eq_ok, true_and]
    constructor
    · rintro ⟨rfl, rfl⟩
      exact ⟨rfl, rfl⟩
    · rintro ⟨rfl, rfl⟩
      exact ⟨rfl, rfl⟩

/-- A request that the callback cannot go on with. -/
def Lookup.Returns (lookup : Lookup) (its : State) (request : Request) : Prop :=
  match lookup with
  | .failed _ _ => True
  | .found _ tokenType _ _ _ _ _ => tokenType.1 ≠ fungibleTypeName ∨
      match request.callback with
      | .deployRemoteToken _ destinationChain _ _ =>
          its.trustedChains destinationChain = false
      | .registerTokenMetadata _ => False

theorem callbackCode_returns {request : Request} {lookup : Lookup}
    (h : lookup.Returns world.its request) :
    request.callbackCode crypto env ctx lookup.result world =
      directNonZeroEgld ctx request.caller request.gasValue world := by
  cases lookup with
  | failed errCode errMsg =>
    unfold Request.callbackCode
    cases request.callback <;> rfl
  | found tokenName tokenType ownerAddress minted burnt decimals flags =>
    unfold Request.callbackCode
    unfold Lookup.Returns at h
    cases hcallback : request.callback with
    | registerTokenMetadata token =>
      simp only [hcallback, or_false] at h
      simp only [registerTokenMetadataCallback, Lookup.result, vecGet,
        ESDT_PROPERTIES_TOKEN_TYPE_INDEX, ESDT_PROPERTIES_DECIMALS_BUFFER_INDEX,
        List.getElem?_cons_succ, List.getElem?_cons_zero, orFail, lift_ok_bind, h,
        ne_eq, not_false_eq_true, if_true]
    | deployRemoteToken deploySalt destinationChain tokenSymbol minter =>
      simp only [hcallback] at h
      simp only [deployRemoteTokenCallback, Lookup.result, isTrustedChain, reads_bind, vecGet,
        ESDT_PROPERTIES_TOKEN_NAME_INDEX, ESDT_PROPERTIES_TOKEN_TYPE_INDEX,
        ESDT_PROPERTIES_DECIMALS_BUFFER_INDEX, List.getElem?_cons_succ,
        List.getElem?_cons_zero, orFail, lift_ok_bind]
      rcases h with h | h
      · rw [if_pos h, ite_self]
      · rw [h]
        rfl

/-- What is left of a lookup that is gone on with. -/
theorem not_returns {lookup : Lookup} {request : Request} {its : State}
    (h : ¬ lookup.Returns its request) :
    ∃ tokenName tokenType ownerAddress minted burnt decimals flags,
      lookup = .found tokenName tokenType ownerAddress minted burnt decimals flags ∧
      tokenType.1 = fungibleTypeName ∧
      ∀ deploySalt destinationChain tokenSymbol minter,
        request.callback = .deployRemoteToken deploySalt destinationChain tokenSymbol minter →
        its.trustedChains destinationChain = true := by
  cases lookup with
  | failed errCode errMsg => exact absurd trivial h
  | found tokenName tokenType ownerAddress minted burnt decimals flags =>
    unfold Lookup.Returns at h
    push Not at h
    refine ⟨_, _, _, _, _, _, _, rfl, h.1, ?_⟩
    intro deploySalt destinationChain tokenSymbol minter hcallback
    have htrusted := h.2
    rw [hcallback] at htrusted
    simpa using htrusted

/-- The metadata of a fungible token go out with its decimals. -/
theorem callbackCode_registerTokenMetadata {request : Request} {token : TokenIdentifier}
    {tokenName tokenType ownerAddress minted burnt : ManagedBuffer} {decimals : Fin 19}
    {flags : List ManagedBuffer} (hcallback : request.callback = .registerTokenMetadata token)
    (hfungible : tokenType.1 = fungibleTypeName) :
    request.callbackCode crypto env ctx
        (Lookup.found tokenName tokenType ownerAddress minted burnt decimals flags).result =
      (do
        let tokenDecimals ← decimalsOf (decimalsEntry decimals)
        registerTokenMetadataRaw crypto env ctx (.esdt token) tokenDecimals request.gasValue) := by
  rw [Request.callbackCode, hcallback]
  simp only [registerTokenMetadataCallback, Lookup.result, vecGet,
    ESDT_PROPERTIES_TOKEN_TYPE_INDEX, ESDT_PROPERTIES_DECIMALS_BUFFER_INDEX,
    List.getElem?_cons_succ, List.getElem?_cons_zero, orFail, lift_ok_bind, hfungible, ne_eq,
    not_true_eq_false, if_false]

/-- A fungible token is deployed on a chain that is still trusted. -/
theorem callbackCode_deployRemoteToken {request : Request} {deploySalt : Hash}
    {destinationChain tokenSymbol minter : ManagedBuffer}
    {tokenName tokenType ownerAddress minted burnt : ManagedBuffer} {decimals : Fin 19}
    {flags : List ManagedBuffer}
    (hcallback : request.callback =
      .deployRemoteToken deploySalt destinationChain tokenSymbol minter)
    (hfungible : tokenType.1 = fungibleTypeName)
    (htrusted : world.its.trustedChains destinationChain = true) :
    request.callbackCode crypto env ctx
        (Lookup.found tokenName tokenType ownerAddress minted burnt decimals flags).result world =
      (do
        let tokenDecimals ← decimalsOf (decimalsEntry decimals)
        let _ ← deployInterchainTokenRaw crypto env ctx deploySalt destinationChain tokenName
          tokenSymbol tokenDecimals minter request.gasValue request.caller : Tx Unit) world := by
  rw [Request.callbackCode, hcallback]
  simp only [deployRemoteTokenCallback, Lookup.result, isTrustedChain, reads_bind, vecGet,
    ESDT_PROPERTIES_TOKEN_NAME_INDEX, ESDT_PROPERTIES_TOKEN_TYPE_INDEX,
    ESDT_PROPERTIES_DECIMALS_BUFFER_INDEX, List.getElem?_cons_succ, List.getElem?_cons_zero,
    orFail, lift_ok_bind, hfungible, htrusted, ne_eq, not_true_eq_false, if_false]

/-! ## What becomes of the gas value -/

/-- The message to the hub that an action is. -/
def Action.hubMessage : Action → Option ManagedBuffer
  | .gateway _ (.callContract destinationChain _ payload) _ =>
      if destinationChain = ITS_HUB_CHAIN_NAME then some payload else none
  | _ => none

def hubMessages (trace : List Action) : List ManagedBuffer :=
  trace.filterMap Action.hubMessage

theorem hubMessages_append (first second : List Action) :
    hubMessages (first ++ second) = hubMessages first ++ hubMessages second :=
  List.filterMap_append

theorem hubMessages_event (event : Event) (trace : List Action) :
    hubMessages (.event event :: trace) = hubMessages trace := rfl

theorem hubMessages_hubTrace (its : State) (payload : ManagedBuffer) (gasValue : ℕ) :
    hubMessages (hubTrace crypto env ctx its payload gasValue) = [payload] := by
  unfold hubTrace
  split <;> rfl

theorem hubMessages_returnTrace (receiver : Address) (amount : ℕ) :
    hubMessages (returnTrace receiver amount) = [] := by
  unfold returnTrace
  split <;> rfl

/-- The decimals that a message tells the hub, for a request of its kind. -/
def TellsDecimals (request : Request) (message : ManagedBuffer) (decimals : UInt8) : Prop :=
  match request.callback with
  | .registerTokenMetadata _ => ∃ data : RegisterTokenMetadataPayload,
      abiDecode message = .ok data ∧
      data.messageType.1 = MESSAGE_TYPE_REGISTER_TOKEN_METADATA ∧ data.decimals = decimals
  | .deployRemoteToken _ _ _ _ =>
      ∃ (sendToHub : SendToHubPayload) (data : DeployInterchainTokenPayload),
        abiDecode message = .ok sendToHub ∧
        sendToHub.messageType.1 = MESSAGE_TYPE_SEND_TO_HUB ∧
        abiDecode sendToHub.payload = .ok data ∧
        data.messageType.1 = MESSAGE_TYPE_DEPLOY_INTERCHAIN_TOKEN ∧ data.decimals = decimals

/-- The gas value goes back to whoever asked, and nothing else happens. -/
structure Returned (request : Request) (before : World) (trace : List Action) (after : World) :
    Prop where
  pays : Pays before.itsAddress request.caller request.gasValue before after
  trace : trace = returnTrace request.caller request.gasValue

/-- The gas value goes to the gas service, and one message tells the hub the decimals. -/
structure Sent (request : Request) (decimals : UInt8) (before : World) (trace : List Action)
    (after : World) : Prop where
  pays : Pays before.itsAddress before.its.gasService request.gasValue before after
  message : ∃ message, hubMessages trace = [message] ∧ TellsDecimals request message decimals

/-- What a message needs beside the token being fungible and the chain being trusted. -/
def Lookup.Sends (lookup : Lookup) (crypto : Crypto) (request : Request) : Prop :=
  match lookup with
  | .failed _ _ => False
  | .found tokenName _ _ _ _ decimals _ => 10 ≤ decimals ∧
      match request.callback with
      | .registerTokenMetadata _ => True
      | .deployRemoteToken deploySalt destinationChain tokenSymbol minter =>
          tokenName.isEmpty = false ∧ destinationChain ≠ ITS_HUB_CHAIN_NAME ∧
          deployMessageLength (remoteDeployment crypto deploySalt tokenName tokenSymbol
            (UInt8.ofNat decimals) minter) destinationChain < lengthLimit

theorem tellsDecimals_metadata {request : Request} {token : TokenIdentifier}
    (hcallback : request.callback = .registerTokenMetadata token) {decimals : UInt8}
    {message : ManagedBuffer} (h : metadataPayload (.esdt token) decimals = .ok message) :
    TellsDecimals request message decimals := by
  simp only [metadataPayload, Outcome.bind_eq_ok] at h
  obtain ⟨messageType, htype, hmessage⟩ := h
  rw [TellsDecimals, hcallback]
  exact ⟨_, abiDecode_abiEncode hmessage, biguint_eq_ok htype, rfl⟩

theorem tellsDecimals_deployment {request : Request} {deploySalt : Hash}
    {destinationChain tokenSymbol minter name : ManagedBuffer}
    (hcallback : request.callback =
      .deployRemoteToken deploySalt destinationChain tokenSymbol minter) {decimals : UInt8}
    {message : ManagedBuffer}
    (h : deployMessage (remoteDeployment crypto deploySalt name tokenSymbol decimals minter)
      destinationChain = .ok message) : TellsDecimals request message decimals := by
  simp only [deployMessage, Outcome.bind_eq_ok] at h
  obtain ⟨inner, hinner, messageType, htype, hmessage⟩ := h
  rw [TellsDecimals, hcallback]
  exact ⟨_, _, abiDecode_abiEncode hmessage, biguint_eq_ok htype, abiDecode_abiEncode hinner,
    rfl, rfl⟩

theorem named_of_trusted {its : State} (hnamed : its.trustedChains .new = false)
    {chain : ManagedBuffer} (htrusted : its.trustedChains chain = true) :
    chain.isEmpty = false := by
  by_contra hempty
  have hnew : chain = .new := isEmpty_iff_new.mp (by simpa using hempty)
  rw [hnew, hnamed] at htrusted
  cases htrusted

/-- A callback that goes on with a lookup sends, and had what it needs for that. -/
theorem sent_of_completed {request : Request} {lookup : Lookup}
    (hnamed : world.its.trustedChains .new = false) (hself : ctx.scAddress = world.itsAddress)
    (hreturns : ¬ lookup.Returns world.its request)
    (h : request.callbackCode crypto env ctx lookup.result world = .ok ⟨(), last, trace⟩) :
    lookup.Sends crypto request ∧
      ∃ decimals, lookup.decimals = some decimals ∧ Sent request decimals world trace last := by
  obtain ⟨tokenName, tokenType, ownerAddress, minted, burnt, decimals, flags, rfl, hfungible,
    htrusted⟩ := not_returns hreturns
  cases hcallback : request.callback with
  | registerTokenMetadata token =>
    rw [callbackCode_registerTokenMetadata hcallback hfungible, decimalsOf_decimalsEntry] at h
    split at h
    · rename_i hdigits
      rw [lift_ok_bind, registerTokenMetadataRaw_eq_ok] at h
      obtain ⟨payload, hpayload, hpays, rfl⟩ := h
      rw [hself] at hpays
      refine ⟨⟨hdigits, by rw [hcallback]; trivial⟩, _, rfl, hpays, payload, ?_,
        tellsDecimals_metadata hcallback hpayload⟩
      exact hubMessages_hubTrace _ _ _
    · cases h
  | deployRemoteToken deploySalt destinationChain tokenSymbol minter =>
    have hchain := htrusted _ _ _ _ hcallback
    have hremote := named_of_trusted hnamed hchain
    rw [callbackCode_deployRemoteToken hcallback hfungible hchain, decimalsOf_decimalsEntry] at h
    split at h
    · rename_i hdigits
      simp only [lift_ok_bind, Transaction.bind_eq_ok, Transaction.pure_eq_ok, true_and] at h
      obtain ⟨tokenId, _, first, _, hraw, ⟨rfl, rfl⟩, rfl⟩ := h
      obtain ⟨_, rest, hbase, rfl⟩ :=
        (deployInterchainTokenRaw_remote hremote).mp ⟨tokenId, hraw⟩
      obtain ⟨hname, _, _, hnotHub, _, message, hmessage, hpays, rfl⟩ :=
        deployRemoteInterchainTokenBase_eq_ok.mp hbase
      rw [hself] at hpays
      have hlength := (deployMessage_isOk_iff (by norm_num [remoteDeployment,
        MESSAGE_TYPE_DEPLOY_INTERCHAIN_TOKEN]) _).mp ⟨message, hmessage⟩
      refine ⟨⟨hdigits, by rw [hcallback]; exact ⟨hname, hnotHub, hlength⟩⟩, _, rfl, hpays,
        message, ?_, tellsDecimals_deployment hcallback hmessage⟩
      rw [List.append_nil, hubMessages_event, hubMessages_append, hubMessages_hubTrace]
      rfl
    · cases h

/-- With what it needs, a callback completes. -/
theorem completed_of_sends {request : Request} {lookup : Lookup}
    (hready : request.Ready crypto world.its) (hnamed : world.its.trustedChains .new = false)
    (hcovered : request.gasValue ≤ world.ledger.balance ctx.scAddress .egld)
    (hreturns : ¬ lookup.Returns world.its request) (hsends : lookup.Sends crypto request) :
    ∃ last trace,
      request.callbackCode crypto env ctx lookup.result world = .ok ⟨(), last, trace⟩ := by
  obtain ⟨tokenName, tokenType, ownerAddress, minted, burnt, decimals, flags, rfl, hfungible,
    htrusted⟩ := not_returns hreturns
  obtain ⟨hdigits, hneeds⟩ := hsends
  obtain ⟨last, hpays⟩ := exists_pays world.its.gasService hcovered
  cases hcallback : request.callback with
  | registerTokenMetadata token =>
    rw [Request.Ready, hcallback] at hready
    have hvalid : isValid (.esdt token) := hready
    obtain ⟨payload, hpayload⟩ := exists_metadataPayload hvalid (UInt8.ofNat decimals)
    rw [callbackCode_registerTokenMetadata hcallback hfungible, decimalsOf_decimalsEntry,
      if_pos hdigits, lift_ok_bind]
    exact ⟨last, _, registerTokenMetadataRaw_eq_ok.mpr ⟨payload, hpayload, hpays, rfl⟩⟩
  | deployRemoteToken deploySalt destinationChain tokenSymbol minter =>
    rw [hcallback] at hneeds
    rw [Request.Ready, hcallback] at hready
    obtain ⟨hname, hnotHub, hlength⟩ := hneeds
    obtain ⟨hsymbol, hmanager, hother⟩ := hready
    have hchain := htrusted _ _ _ _ hcallback
    obtain ⟨message, hmessage⟩ := (deployMessage_isOk_iff (by norm_num [remoteDeployment,
      MESSAGE_TYPE_DEPLOY_INTERCHAIN_TOKEN]) _).mpr hlength
    obtain ⟨trace, tokenId, hraw⟩ : ∃ trace tokenId, deployInterchainTokenRaw crypto env ctx
        deploySalt destinationChain tokenName tokenSymbol (UInt8.ofNat decimals) minter
        request.gasValue request.caller world = .ok ⟨tokenId, last, trace⟩ := by
      exact ⟨_, (deployInterchainTokenRaw_remote (named_of_trusted hnamed hchain)).mpr
        ⟨hother, _, deployRemoteInterchainTokenBase_eq_ok.mpr ⟨hname, hsymbol, hmanager, hnotHub,
          hchain, message, hmessage, hpays, rfl⟩, rfl⟩⟩
    rw [callbackCode_deployRemoteToken hcallback hfungible hchain, decimalsOf_decimalsEntry,
      if_pos hdigits]
    simp only [lift_ok_bind, Transaction.bind_eq_ok, Transaction.pure_eq_ok]
    exact ⟨last, _, tokenId, _, _, _, hraw, ⟨trivial, rfl, rfl⟩, rfl⟩

end Calls

/-! ## Answers in a run -/

/-- The world in which the callback of a call runs. -/
def World.answered (world : World) (index : ℕ) : World :=
  { world with pending := world.pending.eraseIdx index }

/-- The callback completes and either returns the gas value or sends the message, but not
both. -/
def Handled (crypto : Crypto) (env : Environment) (world : World) (index : ℕ)
    (request : Request) (lookup : Lookup) : Prop :=
  ∃ next trace, (machine crypto).step world ⟨env, .answer index lookup.result⟩ =
      .ok (next, trace ++ [.answered (.tokenProperties request) true]) ∧
    Xor (Returned request (world.answered index) trace next)
      (∃ decimals, lookup.decimals = some decimals ∧
        Sent request decimals (world.answered index) trace next)

/-- What the callback can deal with. -/
def Lookup.Accepted (lookup : Lookup) (crypto : Crypto) (its : State) (request : Request) :
    Prop :=
  lookup.Returns its request ∨ lookup.Sends crypto request

theorem step_answer_completed {crypto : Crypto} {env : Environment} {world next : World}
    {index : ℕ} {request : Request} {result : AsyncResult} {trace : List Action}
    (hcall : world.pending[index]? = some (.tokenProperties request)) :
    (machine crypto).step world ⟨env, .answer index result⟩ =
        .ok (next, trace ++ [.answered (.tokenProperties request) true]) ↔
      request.callbackCode crypto env (env.context ESDTSystemSCAddress world.itsAddress .none)
        result (world.answered index) = .ok ⟨(), next, trace⟩ := by
  rw [step_eq_ok, Operation.run, answer_eq_ok]
  constructor
  · rintro (⟨other, completed, inner, hother, hattempt, htrace⟩ |
      ⟨_, _, _, _, _, hother, _, _, _⟩)
    · obtain ⟨hinner, hlast⟩ := List.append_inj' htrace rfl
      simp only [List.cons.injEq, Action.answered.injEq, Pending.tokenProperties.injEq,
        and_true] at hlast
      obtain ⟨rfl, rfl⟩ := hlast
      subst hinner
      rcases attempt_eq_ok.mp hattempt with ⟨_, hcode⟩ | ⟨hfalse, _⟩
      · exact hcode
      · cases hfalse
    · rw [hcall] at hother
      cases hother
  · intro hcode
    exact .inl ⟨request, true, trace, hcall, attempt_eq_ok.mpr (.inl ⟨rfl, hcode⟩), rfl⟩

/-- A gas value that is returned is not sent as well. -/
theorem Returned.not_sent {request : Request} {before after : World} {trace : List Action}
    (h : Returned request before trace after) (decimals : UInt8) :
    ¬ Sent request decimals before trace after := by
  rintro ⟨_, message, hmessage, _⟩
  rw [h.trace, hubMessages_returnTrace] at hmessage
  cases hmessage

theorem handled_iff {crypto : Crypto} {env : Environment} {world : World} {index : ℕ}
    {request : Request} (hsolvent : Solvent crypto 0 world)
    (hcall : world.pending[index]? = some (.tokenProperties request)) (lookup : Lookup) :
    Handled crypto env world index request lookup ↔
      lookup.Accepted crypto world.its request := by
  have hcovered : request.gasValue ≤ world.ledger.balance world.itsAddress .egld := by
    have hfree := (hsolvent.eraseIdx hcall).covered
    simp only [Pending.gasValue] at hfree
    exact Nat.le_trans (by omega) hfree
  have hready := hsolvent.ready request (World.mem_requests.mpr (List.mem_of_getElem? hcall))
  have hnamed : (world.answered index).its.trustedChains .new = false := hsolvent.nameless
  by_cases hreturns : lookup.Returns (world.answered index).its request
  · obtain ⟨last, hpays⟩ : ∃ last,
        Pays world.itsAddress request.caller request.gasValue (world.answered index) last :=
      exists_pays _ hcovered
    have hcode : request.callbackCode crypto env
        (env.context ESDTSystemSCAddress world.itsAddress .none) lookup.result
        (world.answered index) = .ok ⟨(), last, returnTrace request.caller request.gasValue⟩ := by
      rw [callbackCode_returns hreturns, directNonZeroEgld_eq_ok]
      exact ⟨hpays, rfl⟩
    have hreturned : Returned request (world.answered index)
        (returnTrace request.caller request.gasValue) last := ⟨hpays, rfl⟩
    apply iff_of_true _ (.inl hreturns)
    refine ⟨last, _, (step_answer_completed hcall).mpr hcode, .inl ⟨hreturned, ?_⟩⟩
    rintro ⟨decimals, _, hsent⟩
    exact hreturned.not_sent decimals hsent
  · constructor
    · rintro ⟨next, trace, hstep, _⟩
      have hcode := (step_answer_completed hcall).mp hstep
      exact .inr (sent_of_completed hnamed rfl hreturns hcode).1
    · intro haccepted
      have hsends := haccepted.resolve_left hreturns
      obtain ⟨last, trace, hcode⟩ : ∃ last trace, request.callbackCode crypto env
          (env.context ESDTSystemSCAddress world.itsAddress .none) lookup.result
          (world.answered index) = .ok ⟨(), last, trace⟩ :=
        completed_of_sends hready hnamed hcovered hreturns hsends
      obtain ⟨_, decimals, hdecimals, hsent⟩ := sent_of_completed hnamed rfl hreturns hcode
      refine ⟨last, trace, (step_answer_completed hcall).mpr hcode,
        .inr ⟨⟨decimals, hdecimals, hsent⟩, ?_⟩⟩
      intro hreturned
      exact hreturned.not_sent decimals hsent

/-- A service that has just been deployed owes nothing. -/
theorem Launched.solvent {crypto : Crypto} {start : World} (hlaunched : Launched crypto start)
    (hdistinct : start.itsAddress ≠ ESDTSystemSCAddress) : Solvent crypto 0 start where
  covered := by simp [World.gasOwed, World.requests, hlaunched.pending]
  ready := by simp [World.requests, hlaunched.pending]
  nameless := hlaunched.isNew.nameless
  alone := by rw [hlaunched.managers]
  distinct := hdistinct

/-- In every run the answer to every request is dealt with exactly when it is one of those
that the callback accepts. -/
theorem lookupsHandled {crypto : Crypto} {start : World} (hlaunched : Launched crypto start)
    (hdistinct : start.itsAddress ≠ ESDTSystemSCAddress) {history : History} {world : World}
    (hrun : Run (machine crypto) start history world) {index : ℕ} {request : Request}
    (hcall : world.pending[index]? = some (.tokenProperties request)) (env : Environment)
    (lookup : Lookup) :
    Asked history request ∧ (Handled crypto env world index request lookup ↔
      lookup.Accepted crypto world.its request) := by
  have hsolvent := (hlaunched.solvent hdistinct).run hrun
  have hpending := World.mem_requests.mpr (List.mem_of_getElem? hcall)
  constructor
  · exact asked_of_run hlaunched.pending hrun request hpending
  · exact handled_iff hsolvent hcall lookup

/-! ## A token with six decimals -/

def sampleLookup (decimals : Fin 19) : Lookup :=
  .found (sampleBuffer (Bytes.ascii ['A', 'b', 'c'])) (sampleBuffer fungibleTypeName)
    (.ofFixed sampleUser) (sampleBuffer (Bytes.ascii ['0'])) (sampleBuffer (Bytes.ascii ['0']))
    decimals []

def Action.completes : Action → Bool
  | .answered _ completed => completed
  | _ => false

/-- The request of the user, and what is left with the service once it is answered. -/
theorem sampleLookup_steps : (do
    let start ← sampleWorld sampleCrypto
    let (asked, _) ← (machine sampleCrypto).step start sampleAsk
    let (last, trace) ← (machine sampleCrypto).step asked
      ⟨sampleEnvironment, .answer 0 (sampleLookup 6).result⟩
    return (start.itsAddress, asked.pending, last.pending, trace.any Action.completes,
      last.ledger.balance last.itsAddress .egld)) =
      .ok (sampleItsAddress, [.tokenProperties sampleRequest], [], false, 5) := by
  decide +kernel

theorem sampleLookup_run : ∃ start trace world last answers, Launched sampleCrypto start ∧
    start.itsAddress ≠ ESDTSystemSCAddress ∧
    Run (machine sampleCrypto) start [⟨sampleAsk, .ok trace⟩] world ∧
    world.pending[0]? = some (.tokenProperties sampleRequest) ∧
    (machine sampleCrypto).step world ⟨sampleEnvironment, .answer 0 (sampleLookup 6).result⟩ =
      .ok (last, answers) ∧
    last.pending = [] ∧ answers.any Action.completes = false ∧
    last.ledger.balance last.itsAddress .egld = 5 := by
  have hsteps := sampleLookup_steps
  simp only [Outcome.bind_eq_ok, Prod.exists, Outcome.pure_eq_ok, Prod.mk.injEq] at hsteps
  obtain ⟨start, hstart, world, trace, hask, last, answers, hanswer, haddress, hpending, hempty,
    hfailed, hbalance⟩ := hsteps
  refine ⟨start, trace, world, last, answers, sampleWorld_launched hstart, ?_,
    Run.start.completed hask, by rw [hpending]; rfl, hanswer, hempty, hfailed, hbalance⟩
  rw [haddress]
  decide

/-- A token with six decimals leaves the gas value with the service. -/
theorem sample_lookup_stranded : ∃ start history world last answers,
    Launched sampleCrypto start ∧ Run (machine sampleCrypto) start history world ∧
    world.pending[0]? = some (.tokenProperties sampleRequest) ∧
    (machine sampleCrypto).step world ⟨sampleEnvironment, .answer 0 (sampleLookup 6).result⟩ =
      .ok (last, answers) ∧
    last.pending = [] ∧ last.ledger.balance last.itsAddress .egld = sampleRequest.gasValue ∧
    ¬ Handled sampleCrypto sampleEnvironment world 0 sampleRequest (sampleLookup 6) := by
  obtain ⟨start, trace, world, last, answers, hlaunched, _, hrun, hcall, hanswer, hempty, hfailed,
    hbalance⟩ := sampleLookup_run
  refine ⟨start, _, world, last, answers, hlaunched, hrun, hcall, hanswer, hempty, hbalance, ?_⟩
  rintro ⟨next, inner, hstep, _⟩
  obtain ⟨_, hsame⟩ := Prod.mk.inj (Except.ok.inj (hanswer.symm.trans hstep))
  rw [hsame] at hfailed
  simp [Action.completes] at hfailed

/-- Eighteen decimals are read, and the message goes out. -/
theorem sample_lookupsHandled : ∃ start history world,
    Launched sampleCrypto start ∧ Run (machine sampleCrypto) start history world ∧
    Asked history sampleRequest ∧
    Handled sampleCrypto sampleEnvironment world 0 sampleRequest (sampleLookup 18) := by
  obtain ⟨start, trace, world, last, answers, hlaunched, hdistinct, hrun, hcall, _⟩ :=
    sampleLookup_run
  have haccepted : (sampleLookup 18).Accepted sampleCrypto world.its sampleRequest :=
    .inr ⟨by decide, trivial⟩
  obtain ⟨hasked, hhandled⟩ :=
    lookupsHandled hlaunched hdistinct hrun hcall sampleEnvironment (sampleLookup 18)
  exact ⟨start, _, world, hlaunched, hrun, hasked, hhandled.mpr haccepted⟩

end AxelarCgp.Its
