import AxelarCgp.Platform.Types

/-!
# The ABI of interchain payloads

`interchain-token-service/src/abi.rs`: a payload is one 32-byte head for each
token, followed by the tails of the tokens of variable length.  Offsets and
lengths are 32-bit words and wrap, as they do in the compiled contract.  Reading
back an encoding gives the tokens it was made of.
-/

namespace AxelarCgp.Its

open NestedCodec

abbrev Word := FixedBytes 32

inductive Token where
  | uint256 (value : BigUint)
  | bytes32 (value : Word)
  | bytes (value : ManagedBuffer)
  | string (value : ManagedBuffer)
  | uint8 (value : UInt8)
  deriving DecidableEq

namespace Token

def intoBiguint : Token → Outcome BigUint
  | uint256 value => .ok value
  | _ => .error "Unsupported type"

def intoManagedByteArray : Token → Outcome Word
  | bytes32 value => .ok value
  | _ => .error "Unsupported type"

def intoManagedBuffer : Token → Outcome ManagedBuffer
  | bytes value => .ok value
  | string value => .ok value
  | _ => .error "Unsupported type"

def intoU8 : Token → Outcome UInt8
  | uint8 value => .ok value
  | _ => .error "Unsupported type"

def headLen : Token → UInt32
  | _ => 32

/-- One word more than the bytes take, for the length in front of them. -/
def padBytesLen (bytes : ManagedBuffer) : UInt32 :=
  (UInt32.ofNat bytes.1.length + 31) / 32 + 1

def tailLen : Token → UInt32
  | uint256 _ | bytes32 _ | uint8 _ => 0
  | bytes data | string data => padBytesLen data * 32

def padU32 (value : UInt32) : Bytes :=
  List.replicate 28 0 ++ (writeNat 4 value.toNat).1

/-- The batches of 32 bytes, the last one filled up with zeros. -/
def padBatches : (count : ℕ) → Bytes → Bytes
  | 0, _ => []
  | count + 1, data =>
      data.take 32 ++ List.replicate (32 - (data.take 32).length) 0 ++
        padBatches count (data.drop 32)

def fixedBytes (data : Bytes) : Bytes :=
  padBatches ((data.length + 31) / 32) data

def padBytes (bytes : ManagedBuffer) : Bytes :=
  padU32 (UInt32.ofNat bytes.1.length) ++ fixedBytes bytes.1

/-- Only numbers of at most 32 bytes have a word. -/
def padBiguint (value : BigUint) : Outcome Bytes := do
  let bytes := Bytes.minimalBE value.1
  require (bytes.length ≤ 32) "Unsupported number size"
  return List.replicate (32 - bytes.length) 0 ++ bytes

def head (suffixOffset : UInt32) : Token → Outcome Bytes
  | uint256 data => padBiguint data
  | bytes32 data => .ok data.1
  | bytes _ | string _ => .ok (padU32 suffixOffset)
  | uint8 data => .ok (padU32 data.toUInt32)

def tail : Token → Bytes
  | bytes data | string data => padBytes data
  | _ => []

end Token

/-- The heads of the tokens, the tail of the first one being at `offset`. -/
def heads (offset : UInt32) : List Token → Outcome Bytes
  | [] => .ok []
  | token :: tokens => do
      let head ← token.head offset
      let others ← heads (offset + token.tailLen) tokens
      return head ++ others

def rawAbiEncode (tokens : List Token) : Outcome ManagedBuffer := do
  let headsLen := tokens.foldl (fun length token => length + token.headLen) 0
  let heads ← heads headsLen tokens
  ManagedBuffer.ofBytes (heads ++ tokens.flatMap Token.tail)

/-! ## Reading -/

inductive ParamType where
  | uint256
  | bytes32
  | bytes
  | string
  | uint8
  deriving DecidableEq

/-- `ManagedBuffer::copy_slice`. -/
def copySlice (data : ManagedBuffer) (offset length : ℕ) : Option ManagedBuffer :=
  if offset + length ≤ data.1.length then
    some ⟨(data.1.drop offset).take length, by
      have h := data.2
      simp only [List.length_take, List.length_drop]
      omega⟩
  else none

def peek32Bytes (data : ManagedBuffer) (offset : UInt32) : Outcome Word :=
  if h : offset.toNat + 32 ≤ data.1.length then
    .ok ⟨(data.1.drop offset.toNat).take 32, by
      simp only [List.length_take, List.length_drop]
      omega⟩
  else .error "panic occurred"

def takeBytes (data : ManagedBuffer) (offset length : UInt32) : Outcome ManagedBuffer :=
  orFail (copySlice data offset.toNat length.toNat) "panic occurred"

def takeUsize (word : Word) : Outcome UInt32 := do
  require ((word.1.take 28).all (· = 0)) "Invalid data"
  return UInt32.ofNat (Bytes.toNatBE (word.1.drop 28))

def takeU8 (word : Word) : Outcome UInt8 := do
  require ((word.1.take 31).all (· = 0)) "Invalid data"
  return UInt8.ofNat (Bytes.toNatBE (word.1.drop 31))

/-- `BigUint::from_bytes_be` of a word. -/
def wordToBiguint (word : Word) : BigUint :=
  ⟨Bytes.toNatBE word.1, (Bytes.byteLength_toNatBE_le word.1).trans_lt (by
    rw [word.2]
    norm_num [lengthLimit])⟩

/-- The bytes that the head at `offset` points to. -/
def decodeDynamic (data : ManagedBuffer) (offset : UInt32) : Outcome ManagedBuffer := do
  let pointer ← peek32Bytes data offset
  let dynamicOffset ← takeUsize pointer
  let size ← peek32Bytes data dynamicOffset
  let length ← takeUsize size
  takeBytes data (dynamicOffset + 32) length

/-- `ParamType::abi_decode`: the token at an offset and the offset after it. -/
def ParamType.abiDecode (param : ParamType) (data : ManagedBuffer) (offset : UInt32) :
    Outcome (Token × UInt32) :=
  match param with
  | uint256 => do
      let word ← peek32Bytes data offset
      return (.uint256 (wordToBiguint word), offset + 32)
  | bytes32 => do
      let word ← peek32Bytes data offset
      return (.bytes32 word, offset + 32)
  | bytes => do
      let value ← decodeDynamic data offset
      return (.bytes value, offset + 32)
  | string => do
      let value ← decodeDynamic data offset
      return (.string value, offset + 32)
  | uint8 => do
      let word ← peek32Bytes data offset
      let value ← takeU8 word
      return (.uint8 value, offset + 32)

def rawAbiDecode : List ParamType → ManagedBuffer → (offset : UInt32) → Outcome (List Token)
  | [], _, _ => .ok []
  | param :: params, data, offset => do
      let (token, newOffset) ← param.abiDecode data offset
      let others ← rawAbiDecode params data newOffset
      return token :: others

def Token.paramType : Token → ParamType
  | uint256 _ => .uint256
  | bytes32 _ => .bytes32
  | bytes _ => .bytes
  | string _ => .string
  | uint8 _ => .uint8

/-! ## Lengths -/

namespace Token

@[simp]
theorem length_padU32 (value : UInt32) : (padU32 value).length = 32 := by
  simp [padU32, writeNat]

theorem length_padBatches {count : ℕ} {data : Bytes} (h : count = (data.length + 31) / 32) :
    (padBatches count data).length = 32 * count := by
  induction count generalizing data with
  | zero => rfl
  | succ count ih =>
      have hrest : count = ((data.drop 32).length + 31) / 32 := by
        rw [List.length_drop]
        omega
      simp only [padBatches, List.length_append, List.length_replicate, ih hrest,
        List.length_take]
      omega

/-- The padding comes after the data. -/
theorem padBatches_eq_append {count : ℕ} {data : Bytes} (h : count = (data.length + 31) / 32) :
    ∃ padding, padBatches count data = data ++ padding := by
  induction count generalizing data with
  | zero =>
      have hempty : data = [] := List.length_eq_zero_iff.mp (by omega)
      exact ⟨[], by rw [hempty]; rfl⟩
  | succ count ih =>
      have hrest : count = ((data.drop 32).length + 31) / 32 := by
        rw [List.length_drop]
        omega
      obtain ⟨padding, hpadding⟩ := ih hrest
      by_cases hlong : 32 ≤ data.length
      · refine ⟨padding, ?_⟩
        rw [padBatches, hpadding, List.length_take, Nat.min_eq_left hlong, Nat.sub_self,
          List.replicate_zero, List.append_nil, ← List.append_assoc, List.take_append_drop]
      · refine ⟨List.replicate (32 - data.length) 0 ++ padding, ?_⟩
        have htake : data.take 32 = data := List.take_of_length_le (by omega)
        have hdrop : data.drop 32 = [] := List.drop_eq_nil_of_le (by omega)
        rw [padBatches, hpadding, htake, hdrop, List.nil_append, List.append_assoc]

theorem length_padBytes (bytes : ManagedBuffer) :
    (padBytes bytes).length = 32 * ((bytes.1.length + 31) / 32 + 1) := by
  rw [padBytes, List.length_append, length_padU32, fixedBytes, length_padBatches rfl]
  ring

/-- A tail that fits in 32 bits has the length that was reckoned for it. -/
theorem toNat_tailLen {token : Token} (h : token.tail.length < lengthLimit) :
    token.tailLen.toNat = token.tail.length := by
  have hbytes : ∀ bytes : ManagedBuffer, (padBytes bytes).length < lengthLimit →
      (padBytesLen bytes * 32).toNat = (padBytes bytes).length := by
    intro bytes hfits
    rw [length_padBytes] at hfits ⊢
    have hlength := bytes.2
    simp only [lengthLimit] at hfits hlength
    simp only [padBytesLen, UInt32.toNat_mul, UInt32.toNat_add, UInt32.toNat_div,
      UInt32.toNat_ofNat', UInt32.reduceToNat]
    omega
  cases token with
  | uint256 | bytes32 | uint8 => rfl
  | bytes data | string data => exact hbytes data h

theorem length_head {token : Token} {offset : UInt32} {word : Bytes}
    (h : token.head offset = .ok word) : word.length = 32 := by
  cases token with
  | uint256 data =>
      simp only [head, padBiguint, Outcome.bind_eq_ok, Outcome.exists_unit,
        Outcome.require_eq_ok, Outcome.pure_eq_ok] at h
      obtain ⟨hfits, rfl⟩ := h
      rw [List.length_append, List.length_replicate]
      omega
  | bytes32 data =>
      obtain rfl := Except.ok.inj h
      exact data.2
  | bytes | string | uint8 =>
      obtain rfl := Except.ok.inj h
      exact length_padU32 _

end Token

/-! ## Reading back -/

theorem toNat_add_32 {offset : UInt32} (h : offset.toNat + 32 < 2 ^ 32) :
    (offset + 32).toNat = offset.toNat + 32 := by
  have h32 : (32 : UInt32).toNat = 32 := rfl
  rw [UInt32.toNat_add, h32, Nat.mod_eq_of_lt h]

section Reading

variable {data : ManagedBuffer} {before after : Bytes} {offset : UInt32}

/-- The word that stands at an offset. -/
theorem peek32Bytes_append {word : Word} (hdata : data.1 = before ++ word.1 ++ after)
    (hoffset : offset.toNat = before.length) : peek32Bytes data offset = .ok word := by
  have hfits : offset.toNat + 32 ≤ data.1.length := by
    rw [hdata, hoffset, List.length_append, List.length_append, word.2]
    omega
  have hword : (data.1.drop offset.toNat).take 32 = word.1 := by
    rw [hdata, hoffset, List.append_assoc, List.drop_left, List.take_left' word.2]
  rw [peek32Bytes, dif_pos hfits]
  exact congrArg Except.ok (Subtype.ext hword)

theorem takeUsize_padU32 (value : UInt32) :
    takeUsize ⟨Token.padU32 value, Token.length_padU32 value⟩ = .ok value := by
  have htake : (Token.padU32 value).take 28 = List.replicate 28 0 :=
    List.take_left' (by simp)
  have hdrop : (Token.padU32 value).drop 28 = (writeNat 4 value.toNat).1 :=
    List.drop_left' (by simp)
  have hvalue : Bytes.toNatBE (writeNat 4 value.toNat).1 = value.toNat :=
    toNatBE_writeNat value.toNat_lt
  simp only [takeUsize, htake, hdrop, hvalue, Outcome.bind_eq_ok, Outcome.exists_unit,
    Outcome.require_eq_ok, Outcome.pure_eq_ok, UInt32.ofNat_toNat, and_true]
  decide

theorem takeU8_padU32 (value : UInt8) :
    takeU8 ⟨Token.padU32 value.toUInt32, Token.length_padU32 _⟩ = .ok value := by
  have hbyte : (writeNat 4 value.toUInt32.toNat).1 = List.replicate 3 0 ++ [value] := by
    have hvalue : Bytes.toNatBE (writeNat 4 value.toUInt32.toNat).1 = value.toUInt32.toNat :=
      toNatBE_writeNat value.toUInt32.toNat_lt
    apply Bytes.toNatBE_injOn (by simp [writeNat])
    rw [hvalue, Bytes.toNatBE_replicate_zero_append]
    simp [Bytes.toNatBE]
  have hword : Token.padU32 value.toUInt32 = List.replicate 31 0 ++ [value] := by
    rw [Token.padU32, hbyte, ← List.append_assoc, List.replicate_append_replicate]
  simp only [takeU8, hword, Outcome.bind_eq_ok, Outcome.exists_unit, Outcome.require_eq_ok,
    Outcome.pure_eq_ok]
  exact ⟨by simp, by simp [Bytes.toNatBE]⟩

/-- A tail is read back from the offset it stands at. -/
theorem decodeDynamic_append {value : ManagedBuffer} {dynamicOffset : UInt32}
    {middle rest : Bytes}
    (hdata : data.1 = before ++ Token.padU32 dynamicOffset ++ middle ++ Token.padBytes value ++
      rest)
    (hoffset : offset.toNat = before.length)
    (hdynamic : dynamicOffset.toNat = (before ++ Token.padU32 dynamicOffset ++ middle).length) :
    decodeDynamic data offset = .ok value := by
  obtain ⟨padding, hpadding⟩ : ∃ padding, Token.fixedBytes value.1 = value.1 ++ padding :=
    Token.padBatches_eq_append rfl
  have hpointer : peek32Bytes data offset =
      .ok ⟨Token.padU32 dynamicOffset, Token.length_padU32 _⟩ :=
    peek32Bytes_append (by rw [hdata]; simp only [List.append_assoc]; rfl) hoffset
  have hsize : peek32Bytes data dynamicOffset =
      .ok ⟨Token.padU32 (UInt32.ofNat value.1.length), Token.length_padU32 _⟩ :=
    peek32Bytes_append (by
      rw [hdata, Token.padBytes]
      simp only [List.append_assoc]
      rfl) hdynamic
  have hlength : (UInt32.ofNat value.1.length).toNat = value.1.length := by
    rw [UInt32.toNat_ofNat']
    exact Nat.mod_eq_of_lt value.2
  have htotal : dynamicOffset.toNat + 32 + value.1.length ≤ data.1.length := by
    rw [hdata, hdynamic, Token.padBytes, hpadding]
    simp only [List.length_append, Token.length_padU32]
    omega
  have hnext : (dynamicOffset + 32).toNat = dynamicOffset.toNat + 32 := by
    have hlimit := data.2
    simp only [lengthLimit] at hlimit
    exact toNat_add_32 (by omega)
  have hvalue : (data.1.drop (dynamicOffset.toNat + 32)).take value.1.length = value.1 := by
    have hsplit : data.1 = (before ++ Token.padU32 dynamicOffset ++ middle ++
        Token.padU32 (UInt32.ofNat value.1.length)) ++ (value.1 ++ (padding ++ rest)) := by
      rw [hdata, Token.padBytes, hpadding]
      simp only [List.append_assoc]
    rw [hsplit, List.drop_left' (by
      rw [List.length_append, Token.length_padU32, hdynamic]), List.take_left]
  simp only [decodeDynamic, hpointer, Outcome.ok_bind, takeUsize_padU32, hsize, takeBytes,
    Outcome.orFail_eq_ok]
  rw [hnext, hlength, copySlice, if_pos htotal]
  exact congrArg some (Subtype.ext hvalue)

/-- A number that has a word is read back from it. -/
theorem wordToBiguint_padBiguint {value : BigUint} (word : Word)
    (h : Token.padBiguint value = .ok word.1) : wordToBiguint word = value := by
  simp only [Token.padBiguint, Outcome.bind_eq_ok, Outcome.exists_unit,
    Outcome.require_eq_ok, Outcome.pure_eq_ok] at h
  obtain ⟨_, hword⟩ := h
  have hvalue : Bytes.toNatBE word.1 = value.1 := by
    rw [← hword, Bytes.toNatBE_replicate_zero_append, Bytes.toNatBE_minimalBE]
  exact Subtype.ext hvalue

/-- A token is read back from its head and its tail. -/
theorem abiDecode_append {token : Token} {suffixOffset : UInt32} {word middle rest : Bytes}
    (hhead : token.head suffixOffset = .ok word)
    (hdata : data.1 = before ++ word ++ middle ++ token.tail ++ rest)
    (hoffset : offset.toNat = before.length)
    (hsuffix : suffixOffset.toNat = (before ++ word ++ middle).length) :
    token.paramType.abiDecode data offset = .ok (token, offset + 32) := by
  have hlength := Token.length_head hhead
  have hpeek : peek32Bytes data offset = .ok ⟨word, hlength⟩ :=
    peek32Bytes_append (by rw [hdata]; simp only [List.append_assoc]; rfl) hoffset
  cases token with
  | uint256 value =>
      simp only [Token.paramType, ParamType.abiDecode, hpeek, Outcome.ok_bind]
      rw [wordToBiguint_padBiguint ⟨word, hlength⟩ hhead]
      rfl
  | bytes32 value =>
      obtain rfl := Except.ok.inj hhead
      simp only [Token.paramType, ParamType.abiDecode, hpeek, Outcome.ok_bind]
      rfl
  | bytes value =>
      obtain rfl := Except.ok.inj hhead
      simp only [Token.paramType, ParamType.abiDecode,
        decodeDynamic_append hdata hoffset hsuffix, Outcome.ok_bind]
      rfl
  | string value =>
      obtain rfl := Except.ok.inj hhead
      simp only [Token.paramType, ParamType.abiDecode,
        decodeDynamic_append hdata hoffset hsuffix, Outcome.ok_bind]
      rfl
  | uint8 value =>
      obtain rfl := Except.ok.inj hhead
      simp only [Token.paramType, ParamType.abiDecode, hpeek, Outcome.ok_bind, takeU8_padU32]
      rfl

/-- The tokens are read back one after the other: `middle` is made of the tails
of those already read. -/
theorem rawAbiDecode_append {tokens : List Token} {suffixOffset : UInt32}
    {words middle : Bytes}
    (hheads : heads suffixOffset tokens = .ok words)
    (hdata : data.1 = before ++ words ++ middle ++ tokens.flatMap Token.tail)
    (hoffset : offset.toNat = before.length)
    (hsuffix : suffixOffset.toNat = (before ++ words ++ middle).length) :
    rawAbiDecode (tokens.map Token.paramType) data offset = .ok tokens := by
  have hlimit := data.2
  simp only [lengthLimit] at hlimit
  induction tokens generalizing before words middle suffixOffset offset with
  | nil => rfl
  | cons token tokens ih =>
      simp only [heads, Outcome.bind_eq_ok, Outcome.pure_eq_ok] at hheads
      obtain ⟨word, hhead, others, hothers, rfl⟩ := hheads
      have hlength := Token.length_head hhead
      have htotal := congrArg List.length hdata
      simp only [List.flatMap_cons, List.length_append, hlength] at htotal hsuffix
      have hdecode : token.paramType.abiDecode data offset = .ok (token, offset + 32) := by
        have hsplit : data.1 = before ++ word ++ (others ++ middle) ++ token.tail ++
            tokens.flatMap Token.tail := by
          rw [hdata]
          simp only [List.flatMap_cons, List.append_assoc]
        refine abiDecode_append hhead hsplit hoffset ?_
        simp only [List.length_append, hlength]
        omega
      have hnext : (offset + 32).toNat = (before ++ word).length := by
        rw [toNat_add_32 (by omega), List.length_append, hlength, hoffset]
      have htail : token.tailLen.toNat = token.tail.length :=
        Token.toNat_tailLen (by simp only [lengthLimit]; omega)
      have hrest : rawAbiDecode (tokens.map Token.paramType) data (offset + 32) =
          .ok tokens := by
        have hsplit : data.1 = before ++ word ++ others ++ (middle ++ token.tail) ++
            tokens.flatMap Token.tail := by
          rw [hdata]
          simp only [List.flatMap_cons, List.append_assoc]
        refine ih hothers hsplit hnext ?_
        rw [UInt32.toNat_add, htail]
        simp only [List.length_append, hlength]
        omega
      simp only [List.map_cons, rawAbiDecode, hdecode, Outcome.ok_bind, hrest]
      rfl

end Reading

theorem length_heads {tokens : List Token} {offset : UInt32} {words : Bytes}
    (h : heads offset tokens = .ok words) : words.length = 32 * tokens.length := by
  induction tokens generalizing offset words with
  | nil =>
      obtain rfl := Except.ok.inj h
      rfl
  | cons token tokens ih =>
      simp only [heads, Outcome.bind_eq_ok, Outcome.pure_eq_ok] at h
      obtain ⟨word, hhead, others, hothers, rfl⟩ := h
      rw [List.length_append, Token.length_head hhead, ih hothers, List.length_cons]
      ring

theorem headsLen_eq {tokens : List Token} (length : UInt32)
    (h : length.toNat + 32 * tokens.length < lengthLimit) :
    (tokens.foldl (fun length token => length + token.headLen) length).toNat =
      length.toNat + 32 * tokens.length := by
  simp only [lengthLimit] at h
  induction tokens generalizing length with
  | nil => rfl
  | cons token tokens ih =>
      rw [List.length_cons] at h
      have hnext : (length + token.headLen).toNat = length.toNat + 32 :=
        toNat_add_32 (by omega)
      rw [List.foldl_cons, ih _ (by omega), hnext, List.length_cons]
      ring

/-- A number of more than 32 bytes has no word. -/
def Token.fits : Token → Bool
  | .uint256 value => Bytes.byteLength value.1 ≤ 32
  | _ => true

theorem Token.fits_uint256 {value : BigUint} :
    Token.fits (.uint256 value) ↔ value.1 < 2 ^ 256 := by
  rw [Token.fits, decide_eq_true_iff, Bytes.byteLength_le_iff]
  norm_num

/-- A number without a word has no head, so nothing it is in can be encoded. -/
theorem heads_error {token : Token} (hunfit : token.fits = false) {tokens : List Token}
    (hmem : token ∈ tokens) (offset : UInt32) :
    ∃ message, heads offset tokens = .error message := by
  induction tokens generalizing offset with
  | nil => simp at hmem
  | cons other tokens ih =>
      cases hhead : other.head offset with
      | error message => exact ⟨message, by simp [heads, hhead]⟩
      | ok word =>
          rcases List.mem_cons.mp hmem with rfl | hmem
          · cases token with
            | uint256 value =>
                simp only [Token.fits, decide_eq_false_iff_not] at hunfit
                simp only [Token.head, Token.padBiguint, Bytes.length_minimalBE,
                  Outcome.bind_eq_ok, Outcome.exists_unit, Outcome.require_eq_ok] at hhead
                exact absurd hhead.1 hunfit
            | _ => simp [Token.fits] at hunfit
          · obtain ⟨message, hothers⟩ := ih hmem (offset + other.tailLen)
            exact ⟨message, by simp [heads, hhead, hothers]⟩

theorem heads_isOk {tokens : List Token} (hfits : ∀ token ∈ tokens, token.fits)
    (offset : UInt32) : ∃ words, heads offset tokens = .ok words := by
  induction tokens generalizing offset with
  | nil => exact ⟨[], rfl⟩
  | cons token tokens ih =>
      obtain ⟨others, hothers⟩ := ih (fun other hmem => hfits other (List.mem_cons_of_mem _ hmem))
        (offset + token.tailLen)
      obtain ⟨word, hword⟩ : ∃ word, token.head offset = .ok word := by
        have hfit := hfits token List.mem_cons_self
        cases token with
        | uint256 value =>
            simpa [Token.head, Token.padBiguint, Token.fits, Bytes.length_minimalBE] using hfit
        | _ => exact ⟨_, rfl⟩
      exact ⟨word ++ others, by simp [heads, hword, hothers]⟩

def encodedLength (tokens : List Token) : ℕ :=
  32 * tokens.length + (tokens.flatMap Token.tail).length

theorem length_rawAbiEncode {tokens : List Token} {data : ManagedBuffer}
    (h : rawAbiEncode tokens = .ok data) : data.1.length = encodedLength tokens := by
  simp only [rawAbiEncode, Outcome.bind_eq_ok, ManagedBuffer.ofBytes_eq_ok] at h
  obtain ⟨words, hheads, hdata⟩ := h
  rw [hdata, List.length_append, length_heads hheads, encodedLength]

/-- Everything short enough can be encoded. -/
theorem rawAbiEncode_isOk {tokens : List Token} (hfits : ∀ token ∈ tokens, token.fits)
    (hlength : encodedLength tokens < lengthLimit) :
    ∃ data, rawAbiEncode tokens = .ok data := by
  obtain ⟨words, hwords⟩ := heads_isOk hfits
    (tokens.foldl (fun length token => length + token.headLen) 0)
  have hdata : (words ++ tokens.flatMap Token.tail).length < lengthLimit := by
    rwa [List.length_append, length_heads hwords]
  refine ⟨⟨_, hdata⟩, ?_⟩
  simp only [rawAbiEncode, Outcome.bind_eq_ok]
  exact ⟨words, hwords, ManagedBuffer.ofBytes_eq_ok.mpr rfl⟩

theorem rawAbiEncode_error {token : Token} {tokens : List Token} (hmem : token ∈ tokens)
    (hunfit : token.fits = false) : ∃ message, rawAbiEncode tokens = .error message := by
  obtain ⟨message, hheads⟩ := heads_error hunfit hmem
    (tokens.foldl (fun length token => length + token.headLen) 0)
  exact ⟨message, by rw [rawAbiEncode, hheads, Outcome.error_bind]⟩

/-- Decoding an encoding gives back the tokens. -/
theorem rawAbiDecode_rawAbiEncode {tokens : List Token} {data : ManagedBuffer}
    (h : rawAbiEncode tokens = .ok data) :
    rawAbiDecode (tokens.map Token.paramType) data 0 = .ok tokens := by
  simp only [rawAbiEncode, Outcome.bind_eq_ok, ManagedBuffer.ofBytes_eq_ok] at h
  obtain ⟨words, hheads, hdata⟩ := h
  have hlength := length_heads hheads
  have hlimit := data.2
  have htotal := congrArg List.length hdata
  rw [List.length_append] at htotal
  have hfits : (0 : UInt32).toNat + 32 * tokens.length < lengthLimit := by
    simp only [UInt32.toNat_zero]
    omega
  have hsplit : data.1 = [] ++ words ++ [] ++ tokens.flatMap Token.tail := by
    simpa using hdata
  refine rawAbiDecode_append hheads hsplit rfl ?_
  rw [headsLen_eq 0 hfits]
  simp [hlength]

end AxelarCgp.Its
