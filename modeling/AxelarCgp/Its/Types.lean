import AxelarCgp.Its.AbiTypes

/-!
# Interchain token service data

The storage of the service, its events, and the closures its asynchronous calls
come back to.
-/

namespace AxelarCgp.Its

open NestedCodec

def MESSAGE_TYPE_INTERCHAIN_TRANSFER : ℕ := 0
def MESSAGE_TYPE_DEPLOY_INTERCHAIN_TOKEN : ℕ := 1
def MESSAGE_TYPE_SEND_TO_HUB : ℕ := 3
def MESSAGE_TYPE_RECEIVE_FROM_HUB : ℕ := 4
def MESSAGE_TYPE_LINK_TOKEN : ℕ := 5
def MESSAGE_TYPE_REGISTER_TOKEN_METADATA : ℕ := 6

/-- The chain of the hub that all messages are routed through. -/
def ITS_HUB_CHAIN_NAME : ManagedBuffer :=
  ⟨Bytes.ascii ['a', 'x', 'e', 'l', 'a', 'r'], by decide⟩

def EGLD_DECIMALS : UInt8 := 18

def PREFIX_INTERCHAIN_TOKEN_ID : Bytes :=
  Bytes.ascii ['i', 't', 's', '-', 'i', 'n', 't', 'e', 'r', 'c', 'h', 'a', 'i', 'n', '-', 't',
    'o', 'k', 'e', 'n', '-', 'i', 'd']

def PREFIX_CANONICAL_TOKEN_SALT : Bytes :=
  Bytes.ascii ['c', 'a', 'n', 'o', 'n', 'i', 'c', 'a', 'l', '-', 't', 'o', 'k', 'e', 'n', '-',
    's', 'a', 'l', 't']

def PREFIX_INTERCHAIN_TOKEN_SALT : Bytes :=
  Bytes.ascii ['i', 'n', 't', 'e', 'r', 'c', 'h', 'a', 'i', 'n', '-', 't', 'o', 'k', 'e', 'n',
    '-', 's', 'a', 'l', 't']

def PREFIX_DEPLOY_APPROVAL : Bytes :=
  Bytes.ascii ['d', 'e', 'p', 'l', 'o', 'y', '-', 'a', 'p', 'p', 'r', 'o', 'v', 'a', 'l']

def PREFIX_CUSTOM_TOKEN_SALT : Bytes :=
  Bytes.ascii ['c', 'u', 's', 't', 'o', 'm', '-', 't', 'o', 'k', 'e', 'n', '-', 's', 'a', 'l',
    't']

structure TransferAndGasTokens where
  transferToken : EgldOrEsdtTokenIdentifier
  transferAmount : ℕ
  gasAmount : ℕ
  deriving DecidableEq

structure DeployApproval where
  minter : Address
  tokenId : TokenId
  destinationChain : ManagedBuffer
  deriving DecidableEq

instance : NestedCodec DeployApproval :=
  via (fun approval => (approval.minter, approval.tokenId, approval.destinationChain))
    (fun fields => ⟨fields.1, fields.2.1, fields.2.2⟩) (fun _ => rfl)

/-- The first value is also how unset storage reads. -/
inductive InterchainTokenStatus where
  | none
  | noMint
  | needsMint
  | alreadyMinted
  deriving DecidableEq

structure State where
  gateway : Address
  gasService : Address
  tokenManager : Address
  chainName : ManagedBuffer
  chainNameHash : Hash
  trustedChains : ManagedBuffer → Bool
  itsHubAddress : ManagedBuffer
  paused : Bool
  roles : RoleTable
  tokenManagerAddress : TokenId → Option Address
  approvedDestinationMinters : Hash → Option Hash
  interchainTokenStatus : TokenId → InterchainTokenStatus

inductive Event where
  | trustedChainAdded (sourceChain : ManagedBuffer)
  | trustedChainRemoved (sourceChain : ManagedBuffer)
  | tokenManagerDeployed (tokenId : TokenId) (tokenManager : Address)
      (tokenManagerType : TokenManagerType) (params : DeployTokenManagerParams)
  | interchainTokenDeploymentStarted (tokenId : TokenId) (name symbol : ManagedBuffer)
      (decimals : UInt8) (minter destinationChain : ManagedBuffer)
  | interchainTokenIdClaimed (tokenId : TokenId) (deploySalt : Hash)
  | tokenMetadataRegistered (tokenIdentifier : EgldOrEsdtTokenIdentifier) (decimals : UInt8)
  | linkTokenStarted (tokenId : TokenId) (destinationChain sourceTokenAddress
      destinationTokenAddress : ManagedBuffer) (tokenManagerType : TokenManagerType)
      (params : ManagedBuffer)
  | interchainTransfer (tokenId : TokenId) (sourceAddress : Address) (dataHash : Hash)
      (destinationChain destinationAddress : ManagedBuffer) (amount : ℕ)
  | interchainTransferReceived (tokenId : TokenId) (sourceChain messageId sourceAddress :
      ManagedBuffer) (destinationAddress : Address) (dataHash : Hash) (amount : BigUint)
  | deployRemoteInterchainTokenApproval (minter deployer : Address) (tokenId : TokenId)
      (destinationChain destinationMinter : ManagedBuffer)
  | revokedDeployRemoteInterchainTokenApproval (minter deployer : Address)
      (tokenId : TokenId) (destinationChain : ManagedBuffer)
  | roles (event : RoleEvent)
  deriving DecidableEq

/-- The closures that wait for the properties of a token. -/
inductive Callback where
  | deployRemoteToken (deploySalt : Hash) (destinationChain tokenSymbol
      destinationMinter : ManagedBuffer)
  | registerTokenMetadata (tokenIdentifier : TokenIdentifier)
  deriving DecidableEq

/-- A call of `getTokenProperties` in flight: the token it asks for, its
closure, and the gas value and caller that both closures capture. -/
structure Request where
  token : TokenIdentifier
  callback : Callback
  gasValue : ℕ
  caller : Address
  deriving DecidableEq

/-- What an asynchronous call comes back with. -/
inductive AsyncResult where
  | ok (values : List ManagedBuffer)
  | err (errCode : UInt32) (errMsg : ManagedBuffer)
  deriving DecidableEq

/-! ## Token identifiers -/

/-- The dash and the random characters behind a ticker. -/
def tickerSuffixLength : ℕ := 7

def isRandomCharacter (byte : UInt8) : Bool :=
  isAsciiDigit byte || (97 ≤ byte && byte ≤ 102)

/-- A ticker of 3 to 10 digits and upper-case letters, a dash, and six random
characters. -/
def isValidEsdtIdentifier (identifier : TokenIdentifier) : Bool :=
  let tickerLength := identifier.1.length - tickerSuffixLength
  let ticker := identifier.1.take tickerLength
  let suffix := identifier.1.drop tickerLength
  3 ≤ tickerLength && tickerLength ≤ 10 &&
    ticker.all (fun byte => isAsciiDigit byte || isAsciiUppercase byte) &&
    suffix.head? = some 45 && suffix.tail.all isRandomCharacter

def isValid : EgldOrEsdtTokenIdentifier → Bool
  | .egld => true
  | .esdt identifier => isValidEsdtIdentifier identifier

def ticker (identifier : TokenIdentifier) : ManagedBuffer :=
  ⟨identifier.1.take (identifier.1.length - tickerSuffixLength), by
    have h := identifier.2
    rw [List.length_take]
    omega⟩

/-- A valid identifier has a ticker. -/
theorem ticker_isEmpty_of_isValid {identifier : TokenIdentifier}
    (h : isValidEsdtIdentifier identifier) : (ticker identifier).isEmpty = false := by
  simp only [isValidEsdtIdentifier, Bool.and_eq_true, decide_eq_true_eq] at h
  obtain ⟨⟨⟨⟨hlength, _⟩, _⟩, _⟩, _⟩ := h
  rw [ticker, ManagedBuffer.isEmpty, List.isEmpty_eq_false_iff, ← List.length_pos_iff,
    List.length_take]
  omega

end AxelarCgp.Its
