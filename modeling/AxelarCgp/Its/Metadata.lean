import AxelarCgp.Its.Effects
import AxelarCgp.TokenManager.Effects

/-!
# Metadata of tokens

Whoever registers the metadata of EGLD sends the message at once.  For any other
token the service asks for its properties first and sends the message when they
arrive.  The message is always short enough to be encoded, so only the gas
value can stop it.
-/

namespace AxelarCgp.Its

open Transaction

/-! ## The message -/

/-- The payload that tells the hub the decimals of a token. -/
def metadataPayload (tokenIdentifier : EgldOrEsdtTokenIdentifier) (decimals : UInt8) :
    Outcome ManagedBuffer := do
  let messageType ← biguint MESSAGE_TYPE_REGISTER_TOKEN_METADATA
  abiEncode (⟨messageType, tokenIdentifier.intoName, decimals⟩ : RegisterTokenMetadataPayload)

/-- The longest name is a ticker of 10 characters with its suffix. -/
theorem length_intoName_le {tokenIdentifier : EgldOrEsdtTokenIdentifier}
    (hvalid : isValid tokenIdentifier) : tokenIdentifier.intoName.1.length ≤ 17 := by
  cases tokenIdentifier with
  | egld => decide
  | esdt identifier =>
    have hparts : isValidEsdtIdentifier identifier = true := hvalid
    simp only [isValidEsdtIdentifier, tickerSuffixLength, Bool.and_eq_true] at hparts
    obtain ⟨⟨⟨⟨_, hlength⟩, _⟩, _⟩, _⟩ := hparts
    exact Nat.sub_le_iff_le_add.mp (of_decide_eq_true hlength)

theorem exists_metadataPayload {tokenIdentifier : EgldOrEsdtTokenIdentifier}
    (hvalid : isValid tokenIdentifier) (decimals : UInt8) :
    ∃ payload, metadataPayload tokenIdentifier decimals = .ok payload := by
  have htype : biguint MESSAGE_TYPE_REGISTER_TOKEN_METADATA = .ok ⟨6, by decide⟩ := rfl
  have hlength : encodedLength (AbiEncodeDecode.toTokens (⟨⟨6, by decide⟩,
      tokenIdentifier.intoName, decimals⟩ : RegisterTokenMetadataPayload)) < lengthLimit := by
    have hname := length_intoName_le hvalid
    simp only [AbiEncodeDecode.toTokens, encodedLength, List.length_cons, List.length_nil,
      List.flatMap_cons, List.flatMap_nil, Token.tail, List.length_append, Token.length_padBytes,
      lengthLimit]
    omega
  have hfits : ∀ token ∈ AbiEncodeDecode.toTokens (⟨⟨6, by decide⟩, tokenIdentifier.intoName,
      decimals⟩ : RegisterTokenMetadataPayload), token.fits := by
    intro token hmem
    simp only [AbiEncodeDecode.toTokens, List.mem_cons, List.not_mem_nil, or_false] at hmem
    rcases hmem with rfl | rfl | rfl <;> rfl
  obtain ⟨payload, hpayload⟩ := rawAbiEncode_isOk hfits hlength
  exact ⟨payload, Outcome.bind_eq_ok.mpr ⟨_, htype, hpayload⟩⟩

/-! ## The endpoint -/

section Calls

variable {crypto : Crypto} {env : Environment} {ctx : CallContext}
variable {world last : World} {trace : List Action}

theorem registerTokenMetadataRaw_eq_ok {tokenIdentifier : EgldOrEsdtTokenIdentifier}
    {decimals : UInt8} {gasValue : ℕ} :
    registerTokenMetadataRaw crypto env ctx tokenIdentifier decimals gasValue world =
        .ok ⟨(), last, trace⟩ ↔
      ∃ payload, metadataPayload tokenIdentifier decimals = .ok payload ∧
        Pays ctx.scAddress world.its.gasService gasValue world last ∧
        trace = .event (.tokenMetadataRegistered tokenIdentifier decimals) ::
          hubTrace crypto env ctx world.its payload gasValue := by
  simp only [registerTokenMetadataRaw, metadataPayload, emits, Transaction.bind_eq_ok,
    Outcome.bind_eq_ok, Outcome.exists_unit, performs_eq_ok, lift_eq_ok, callContractItsHub_eq_ok]
  constructor
  · rintro ⟨_, _, _, ⟨rfl, rfl⟩, ⟨messageType, _, _, _, ⟨htype, rfl, rfl⟩, ⟨payload, _, _, _,
      ⟨hpayload, rfl, rfl⟩, ⟨hpays, rfl⟩, rfl⟩, rfl⟩, rfl⟩
    exact ⟨payload, ⟨messageType, htype, hpayload⟩, hpays, rfl⟩
  · rintro ⟨payload, ⟨messageType, htype, hpayload⟩, hpays, rfl⟩
    exact ⟨_, _, _, ⟨rfl, rfl⟩, ⟨messageType, _, _, _, ⟨htype, rfl, rfl⟩, ⟨payload, _, _, _,
      ⟨hpayload, rfl, rfl⟩, ⟨hpays, rfl⟩, rfl⟩, rfl⟩, rfl⟩

/-- The request of an account for the decimals of a token. -/
def metadataRequest (identifier : TokenIdentifier) (gasValue : ℕ) (caller : Address) : Request where
  token := identifier
  callback := .registerTokenMetadata identifier
  gasValue
  caller

/-- What the endpoint goes on with once it has looked at the token and the payment. -/
inductive RegistersMetadata (crypto : Crypto) (env : Environment) (ctx : CallContext)
    (gasValue : ℕ) (world : World) :
    EgldOrEsdtTokenIdentifier → World → List Action → Prop where
  | egld {last : World} {trace : List Action} :
      registerTokenMetadataRaw crypto env ctx .egld EGLD_DECIMALS gasValue world =
        .ok ⟨(), last, trace⟩ →
      RegistersMetadata crypto env ctx gasValue world .egld last trace
  | esdt {identifier : TokenIdentifier} :
      RegistersMetadata crypto env ctx gasValue world (.esdt identifier)
        { world with
          pending := world.pending ++
            [.tokenProperties (metadataRequest identifier gasValue ctx.caller)] }
        [.request (metadataRequest identifier gasValue ctx.caller)]

theorem registerTokenMetadata_eq_ok {tokenIdentifier : EgldOrEsdtTokenIdentifier} :
    registerTokenMetadata crypto env ctx tokenIdentifier world = .ok ⟨(), last, trace⟩ ↔
      isValid tokenIdentifier ∧ ∃ gasValue, ctx.callValue = .egld gasValue ∧
        RegistersMetadata crypto env ctx gasValue world tokenIdentifier last trace := by
  simp only [registerTokenMetadata, Transaction.bind_eq_ok, Outcome.exists_unit, lift_eq_ok,
    Outcome.require_eq_ok, TokenManager.egldValue_eq_ok]
  constructor
  · rintro ⟨_, _, _, ⟨hvalid, rfl, rfl⟩, ⟨gasValue, _, _, _, ⟨hvalue, rfl, rfl⟩, h, rfl⟩, rfl⟩
    refine ⟨hvalid, gasValue, hvalue, ?_⟩
    cases tokenIdentifier with
    | egld => exact .egld h
    | esdt identifier =>
      simp only [registerTokenMetadataAsyncCall, esdtGetTokenProperties, register,
        Transaction.bind_eq_ok, modifies_eq_ok, performs_eq_ok] at h
      obtain ⟨_, _, _, _, ⟨rfl, rfl⟩, ⟨rfl, rfl⟩, rfl⟩ := h
      exact .esdt
  · rintro ⟨hvalid, gasValue, hvalue, hregisters⟩
    refine ⟨_, _, _, ⟨hvalid, rfl, rfl⟩, ⟨gasValue, _, _, _, ⟨hvalue, rfl, rfl⟩, ?_, rfl⟩, rfl⟩
    cases hregisters with
    | egld h => exact h
    | esdt =>
      simp only [registerTokenMetadataAsyncCall, esdtGetTokenProperties, register,
        Transaction.bind_eq_ok, modifies_eq_ok, performs_eq_ok]
      exact ⟨(), _, _, _, ⟨rfl, rfl⟩, ⟨rfl, rfl⟩, rfl⟩

/-! ## The answer -/

/-- The properties of a fungible token are as good as its decimals. -/
theorem registerTokenMetadataCallback_fungible {identifier : TokenIdentifier} {gasValue : ℕ}
    {caller : Address} {values : List ManagedBuffer} {tokenType decimalsBuffer : ManagedBuffer}
    {decimals : UInt8}
    (htype : vecGet values ESDT_PROPERTIES_TOKEN_TYPE_INDEX = .ok tokenType)
    (hfungible : tokenType.1 = fungibleTypeName)
    (hbuffer : vecGet values ESDT_PROPERTIES_DECIMALS_BUFFER_INDEX = .ok decimalsBuffer)
    (hdecimals : decimalsOf decimalsBuffer = .ok decimals) :
    registerTokenMetadataCallback crypto env ctx identifier gasValue caller (.ok values) =
      registerTokenMetadataRaw crypto env ctx (.esdt identifier) decimals gasValue := by
  rw [registerTokenMetadataCallback, htype, lift_ok_bind, hbuffer, lift_ok_bind,
    if_neg (not_not_intro hfungible), hdecimals, lift_ok_bind]

end Calls

end AxelarCgp.Its
