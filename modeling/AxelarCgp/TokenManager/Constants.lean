import AxelarCgp.Platform.Roles

/-!
# Token manager constants

`token-manager/src/constants.rs`: the types of managers, the parameters they
are deployed with, and the normalisation of token names and tickers.
-/

namespace AxelarCgp

inductive TokenManagerType where
  | nativeInterchainToken
  | mintBurnFrom
  | lockUnlock
  | lockUnlockFee
  | mintBurn
  deriving DecidableEq

namespace TokenManagerType

def ofU8 : UInt8 → Outcome TokenManagerType
  | 0 => .ok nativeInterchainToken
  | 1 => .ok mintBurnFrom
  | 2 => .ok lockUnlock
  | 3 => .ok lockUnlockFee
  | 4 => .ok mintBurn
  | _ => .error "Unsupported type"

def toU8 : TokenManagerType → UInt8
  | nativeInterchainToken => 0
  | mintBurnFrom => 1
  | lockUnlock => 2
  | lockUnlockFee => 3
  | mintBurn => 4

@[simp]
theorem ofU8_toU8 (managerType : TokenManagerType) : ofU8 managerType.toU8 = .ok managerType := by
  cases managerType <;> rfl

end TokenManagerType

structure DeployTokenManagerParams where
  operator : Option Address
  tokenIdentifier : Option EgldOrEsdtTokenIdentifier
  deriving DecidableEq

/-- 0.05 EGLD. -/
def DEFAULT_ESDT_ISSUE_COST : ℕ := 50000000000000000

def TOKEN_NAME_MIN : ℕ := 3
def TOKEN_NAME_MAX : ℕ := 20
def TOKEN_TICKER_MIN : ℕ := 3
def TOKEN_TICKER_MAX : ℕ := 10

/-- The letter that fills up names that are too short. -/
def TOKEN_MIN_PLACEHOLDER : UInt8 := 48

def isAsciiDigit (byte : UInt8) : Bool :=
  48 ≤ byte && byte ≤ 57

def isAsciiUppercase (byte : UInt8) : Bool :=
  65 ≤ byte && byte ≤ 90

def isAsciiLowercase (byte : UInt8) : Bool :=
  97 ≤ byte && byte ≤ 122

def isAsciiAlphanumeric (byte : UInt8) : Bool :=
  isAsciiDigit byte || isAsciiUppercase byte || isAsciiLowercase byte

def toAsciiUppercase (byte : UInt8) : UInt8 :=
  if isAsciiLowercase byte then byte - 32 else byte

/-- The loops of both normalisations, byte by byte: a full result stays as it
is, and bytes that are not alphanumeric are left out. -/
def normalizeBytes (maximum : ℕ) (convert : UInt8 → UInt8) (data : Bytes) : Bytes :=
  data.foldl (fun result byte =>
    if result.length = maximum then result
    else if isAsciiAlphanumeric byte then result ++ [convert byte]
    else result) []

def fillUp (minimum : ℕ) (result : Bytes) : Bytes :=
  result ++ List.replicate (minimum - result.length) TOKEN_MIN_PLACEHOLDER

def toNormalizedTokenName (data : Bytes) : Bytes :=
  fillUp TOKEN_NAME_MIN (normalizeBytes TOKEN_NAME_MAX id data)

def toNormalizedTokenTicker (data : Bytes) : Bytes :=
  fillUp TOKEN_TICKER_MIN (normalizeBytes TOKEN_TICKER_MAX toAsciiUppercase data)

end AxelarCgp
