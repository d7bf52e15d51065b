import AxelarCgp.Core.NestedCodec
import AxelarCgp.Core.Ledger
import AxelarCgp.Core.Purse

/-!
# Values of the platform

Addresses, token identifiers, payments and the context of a call, as the
contract framework hands them to an endpoint.  The cryptographic primitives
are host functions and stay abstract.
-/

namespace AxelarCgp

abbrev Address := FixedBytes 32
abbrev Hash := FixedBytes 32
abbrev ManagedBuffer := Buffer
abbrev TokenIdentifier := Buffer

/-- The host functions the contracts call on raw bytes. -/
structure Crypto where
  keccak256 : Bytes → Hash
  verifyEd25519 : (key message signature : Bytes) → Bool

/-- Primitives known at finitely many points: the listed hashes, and the listed
signatures as the only valid ones. -/
def Crypto.tabulated (hashes : List (Bytes × Hash)) (signatures : List (Bytes × Bytes × Bytes)) :
    Crypto where
  keccak256 input :=
    ((hashes.find? fun entry => entry.1 = input).map Prod.snd).getD
      (NestedCodec.writeNat 32 0)
  verifyEd25519 key message signature := decide ((key, message, signature) ∈ signatures)

/-- No two of the strings have one hash. -/
def Crypto.apart (crypto : Crypto) (strings : List Bytes) : Bool :=
  strings.all fun first => strings.all fun second =>
    crypto.keccak256 first = crypto.keccak256 second → first = second

theorem Crypto.injOn_of_apart {crypto : Crypto} {strings : List Bytes}
    (h : crypto.apart strings = true) :
    Set.InjOn crypto.keccak256 {bytes | bytes ∈ strings} := by
  intro first hfirst second hsecond
  have hall := List.all_eq_true.mp (List.all_eq_true.mp h first hfirst) second hsecond
  exact of_decide_eq_true hall

namespace Address

def zero : Address := ⟨List.replicate 32 0, by simp⟩

/-- The address that repeats one byte. -/
def ofByte (byte : UInt8) : Address := ⟨List.replicate 32 byte, by simp⟩

def isZero (address : Address) : Bool :=
  address = zero

end Address

namespace ManagedBuffer

def new : ManagedBuffer := ⟨[], by simp [lengthLimit]⟩

def isEmpty (buffer : ManagedBuffer) : Bool :=
  buffer.1.isEmpty

/-- A buffer of more than 32-bit length cannot be built. -/
def ofBytes (bytes : Bytes) : Outcome ManagedBuffer :=
  if h : bytes.length < lengthLimit then .ok ⟨bytes, h⟩
  else .error "execution failed"

theorem ofBytes_eq_ok {bytes : Bytes} {buffer : ManagedBuffer} :
    ofBytes bytes = .ok buffer ↔ buffer.1 = bytes := by
  unfold ofBytes
  split
  · simp [Subtype.ext_iff, eq_comm]
  · rename_i hlong
    simp only [reduceCtorEq, false_iff]
    rintro rfl
    exact hlong buffer.2

/-- The bytes of an address or a hash as a buffer. -/
def ofFixed (value : FixedBytes 32) : ManagedBuffer :=
  ⟨value.1, by rw [value.2]; norm_num [lengthLimit]⟩

@[simp]
theorem ofFixed_val (value : FixedBytes 32) : (ofFixed value).1 = value.1 := rfl

/-- `ManagedAddress::try_from`: a buffer is an address when it has 32 bytes. -/
def toAddress (buffer : ManagedBuffer) : Option Address :=
  if h : buffer.1.length = 32 then some ⟨buffer.1, h⟩ else none

@[simp]
theorem toAddress_ofFixed (address : Address) : toAddress (ofFixed address) = some address := by
  have h := address.2
  simp [toAddress, h]

end ManagedBuffer

/-- A byte as a number of any size. -/
def BigUint.ofByte (byte : UInt8) : BigUint :=
  ⟨byte.toNat, lt_of_le_of_lt (Bytes.byteLength_le_iff.mpr (by simpa using byte.toNat_lt))
    (by norm_num [lengthLimit] : 1 < lengthLimit)⟩

/-! ## Tokens -/

inductive EgldOrEsdtTokenIdentifier where
  | egld
  | esdt (identifier : TokenIdentifier)
  deriving DecidableEq

/-- The name under which multi-transfers carry EGLD. -/
def esdtEgldIdentifier : Bytes :=
  Bytes.ascii ['E', 'G', 'L', 'D', '-', '0', '0', '0', '0', '0', '0']

/-- What the protocol keeps a balance of. -/
inductive Asset where
  | egld
  | esdt (identifier : TokenIdentifier) (nonce : UInt64)
  deriving DecidableEq

namespace EgldOrEsdtTokenIdentifier

def egldName : Bytes :=
  Bytes.ascii ['E', 'G', 'L', 'D']

/-- `into_name`: EGLD is written out, an ESDT is its identifier. -/
def intoName : EgldOrEsdtTokenIdentifier → ManagedBuffer
  | egld => ⟨egldName, by decide⟩
  | esdt identifier => identifier

/-- `parse`: the inverse reading of `intoName`. -/
def parse (data : ManagedBuffer) : EgldOrEsdtTokenIdentifier :=
  if data.1 = egldName then egld else esdt data

def isEgld : EgldOrEsdtTokenIdentifier → Bool
  | egld => true
  | esdt _ => false

def isEsdt (identifier : EgldOrEsdtTokenIdentifier) : Bool :=
  !identifier.isEgld

/-- The balance a token with a nonce is kept in. -/
def asset (identifier : EgldOrEsdtTokenIdentifier) (nonce : UInt64) : Asset :=
  match identifier with
  | egld => .egld
  | esdt identifier =>
      if identifier.1 = esdtEgldIdentifier then .egld else .esdt identifier nonce

end EgldOrEsdtTokenIdentifier

structure EsdtTokenPayment where
  tokenIdentifier : TokenIdentifier
  tokenNonce : UInt64
  amount : ℕ
  deriving DecidableEq

namespace EsdtTokenPayment

def asset (payment : EsdtTokenPayment) : Asset :=
  EgldOrEsdtTokenIdentifier.asset (.esdt payment.tokenIdentifier) payment.tokenNonce

end EsdtTokenPayment

/-- `any_payment`: a call brings EGLD or a list of ESDT payments. -/
inductive EgldOrMultiEsdtPayment where
  | egld (value : ℕ)
  | multiEsdt (payments : List EsdtTokenPayment)
  deriving DecidableEq

namespace EgldOrMultiEsdtPayment

/-- The value of a call that brings nothing. -/
def none : EgldOrMultiEsdtPayment := egld 0

def isEmpty : EgldOrMultiEsdtPayment → Bool
  | egld value => value = 0
  | multiEsdt payments => payments.isEmpty

/-- The amounts brought, by asset and in order. -/
def amounts : EgldOrMultiEsdtPayment → List (Asset × ℕ)
  | egld value => [(.egld, value)]
  | multiEsdt payments => payments.map fun payment => (payment.asset, payment.amount)

/-- The total brought of one asset. -/
def total (payment : EgldOrMultiEsdtPayment) (asset : Asset) : ℕ :=
  Purse.total payment.amounts asset

@[simp]
theorem total_egld (value : ℕ) : (egld value).total .egld = value := by
  simp [total, amounts]

theorem total_eq_zero_of_isEmpty {payment : EgldOrMultiEsdtPayment} (h : payment.isEmpty)
    (asset : Asset) : payment.total asset = 0 := by
  cases payment with
  | egld value =>
    have hzero : value = 0 := by simpa [isEmpty] using h
    simp [total, amounts, hzero]
  | multiEsdt payments =>
    have hnil : payments = [] := by simpa [isEmpty] using h
    simp [total, amounts, hnil]

end EgldOrMultiEsdtPayment

/-! ## Call context -/

/-- What the framework tells an endpoint about the call it is in. -/
structure CallContext where
  caller : Address
  scAddress : Address
  ownerAddress : Address
  blockTimestamp : UInt64
  callValue : EgldOrMultiEsdtPayment
  gasLeft : UInt64

/-- Endpoints without a payable annotation refuse any payment. -/
def requireNotPayable (ctx : CallContext) : Outcome Unit :=
  require (ctx.callValue = .egld 0) "function does not accept payment"

/-- Endpoints payable in EGLD only: the EGLD that was sent. -/
def egldValue (ctx : CallContext) : Outcome ℕ :=
  match ctx.callValue with
  | .egld value => .ok value
  | .multiEsdt _ => .error "function does not accept ESDT payment"

/-! ## Sample values -/

def sampleAddress (byte : UInt8) : Address := Address.ofByte byte

def sampleBuffer (bytes : Bytes) : ManagedBuffer :=
  if h : bytes.length < lengthLimit then ⟨bytes, h⟩ else .new

end AxelarCgp
