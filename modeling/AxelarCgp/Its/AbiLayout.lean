import AxelarCgp.Core.HeadTail
import AxelarCgp.Its.Abi

/-!
# The layout of encodings

The encoder finds offsets by adding up lengths that it works out beforehand, and
pads the tails later and by other code.  Both agree, so that an encoding is laid
out as the tuple of its tokens is in Solidity.
-/

namespace AxelarCgp.Its

open HeadTail

namespace Token

/-- What a token is as a part of a tuple in Solidity. -/
def part : Token → Part
  | uint256 value => .static (word value.1)
  | bytes32 value => .static value.1
  | bytes value | string value => .dynamic (word value.1.length ++ padRight value.1)
  | uint8 value => .static (word value.toNat)

theorem part_aligned (token : Token) : token.part.Aligned := by
  cases token with
  | bytes value | string value =>
    refine ⟨fun _ => length_word _, ?_⟩
    rw [part, Part.tail, List.length_append, length_word]
    exact Nat.dvd_add (Nat.dvd_refl 32) (dvd_length_padRight _)
  | bytes32 value => exact ⟨fun _ => value.2, Nat.dvd_zero 32⟩
  | uint256 | uint8 => exact ⟨fun _ => length_word _, Nat.dvd_zero 32⟩

/-! ## Words -/

theorem padU32_eq_word (value : UInt32) : padU32 value = word value.toNat := by
  apply eq_word (length_padU32 value)
  rw [padU32, Bytes.toNatBE_replicate_zero_append]
  exact NestedCodec.toNatBE_writeNat value.toNat_lt

theorem padU32_ofNat {value : ℕ} (hvalue : value < 2 ^ 32) :
    padU32 (UInt32.ofNat value) = word value := by
  rw [padU32_eq_word, UInt32.toNat_ofNat', Nat.mod_eq_of_lt hvalue]

theorem padBiguint_eq_word {value : BigUint} (hfits : fits (.uint256 value)) :
    padBiguint value = .ok (word value.1) := by
  have hlength : Bytes.byteLength value.1 ≤ 32 := of_decide_eq_true hfits
  have hword : List.replicate (32 - Bytes.byteLength value.1) 0 ++ Bytes.minimalBE value.1 =
      word value.1 := by
    apply eq_word
    · rw [List.length_append, List.length_replicate, Bytes.length_minimalBE]
      omega
    · rw [Bytes.toNatBE_replicate_zero_append, Bytes.toNatBE_minimalBE]
  simp only [padBiguint, Bytes.length_minimalBE, Outcome.bind_eq_ok, Outcome.exists_unit,
    Outcome.require_eq_ok, Outcome.pure_eq_ok]
  exact ⟨hlength, hword⟩

/-! ## Tails -/

/-- Batch by batch the bytes are padded as they are all at once. -/
theorem padBatches_eq_padRight {count : ℕ} {data : Bytes}
    (hcount : count = (data.length + 31) / 32) : padBatches count data = padRight data := by
  induction count generalizing data with
  | zero =>
    have hempty : data = [] := List.length_eq_zero_iff.mp (by omega)
    rw [hempty]
    rfl
  | succ count ih =>
    have hrest : padBatches count (data.drop 32) = padRight (data.drop 32) := by
      apply ih
      rw [List.length_drop]
      omega
    rw [padBatches, hrest, padRight, List.length_drop]
    by_cases hlong : 32 ≤ data.length
    · have hfull : 32 - (data.take 32).length = 0 := by
        rw [List.length_take]
        omega
      have hmod : (data.length - 32) % 32 = data.length % 32 := by omega
      rw [hfull, hmod, List.replicate_zero, List.append_nil, ← List.append_assoc,
        List.take_append_drop]
      rfl
    · have htake : data.take 32 = data := List.take_of_length_le (by omega)
      have hdrop : data.drop 32 = [] := List.drop_eq_nil_of_le (by omega)
      have hnone : (32 - (data.length - 32) % 32) % 32 = 0 := by omega
      have hfill : 32 - data.length = (32 - data.length % 32) % 32 := by omega
      rw [htake, hdrop, hnone, List.replicate_zero, List.append_nil, List.append_nil, hfill]
      rfl

theorem padBytes_eq (data : ManagedBuffer) :
    padBytes data = word data.1.length ++ padRight data.1 := by
  rw [padBytes, padU32_ofNat data.2, fixedBytes, padBatches_eq_padRight rfl]

theorem tail_eq_part_tail (token : Token) : token.tail = token.part.tail := by
  cases token with
  | bytes data | string data => exact padBytes_eq data
  | uint256 | bytes32 | uint8 => rfl

/-- The length that is reckoned for a tail is the one it has. -/
theorem tailLen_eq {token : Token} (hlength : token.tail.length ≤ 2 ^ 32) :
    token.tailLen = UInt32.ofNat token.tail.length := by
  have hbytes : ∀ data : ManagedBuffer, (padBytes data).length ≤ 2 ^ 32 →
      padBytesLen data * 32 = UInt32.ofNat (padBytes data).length := by
    intro data hfits
    have hdata := data.2
    rw [length_padBytes] at hfits ⊢
    simp only [lengthLimit] at hdata
    apply UInt32.toNat_inj.mp
    simp only [padBytesLen, UInt32.toNat_mul, UInt32.toNat_add, UInt32.toNat_div,
      UInt32.toNat_ofNat', UInt32.reduceToNat]
    omega
  cases token with
  | bytes data | string data => exact hbytes data hlength
  | uint256 | bytes32 | uint8 => rfl

/-! ## Heads -/

theorem head_eq_part_head {token : Token} {position : ℕ} (hfits : token.fits)
    (hposition : position + token.tail.length ≤ 2 ^ 32) :
    token.head (UInt32.ofNat position) = .ok (token.part.head position) := by
  cases token with
  | uint256 value => exact padBiguint_eq_word hfits
  | bytes32 value => rfl
  | uint8 value =>
    have hvalue := value.toNat_lt
    rw [head, padU32_eq_word, UInt8.toNat_toUInt32]
    rfl
  | bytes data | string data =>
    have hbefore : position < 2 ^ 32 := by
      rw [tail, length_padBytes] at hposition
      omega
    rw [head, padU32_ofNat hbefore]
    rfl

end Token

/-- The running offset of the encoder is the position of the next tail. -/
theorem heads_eq_headsFrom {tokens : List Token} {position : ℕ}
    (hfits : ∀ token ∈ tokens, token.fits)
    (hposition : position + (tokens.flatMap Token.tail).length ≤ 2 ^ 32) :
    heads (UInt32.ofNat position) tokens =
      .ok (headsFrom position (tokens.map Token.part)) := by
  induction tokens generalizing position with
  | nil => rfl
  | cons token tokens ih =>
    rw [List.flatMap_cons, List.length_append] at hposition
    have hhead : token.head (UInt32.ofNat position) = .ok (token.part.head position) :=
      Token.head_eq_part_head (hfits token List.mem_cons_self) (by omega)
    have hlength : token.tailLen = UInt32.ofNat token.tail.length := Token.tailLen_eq (by omega)
    have hothers : heads (UInt32.ofNat (position + token.tail.length)) tokens =
        .ok (headsFrom (position + token.tail.length) (tokens.map Token.part)) :=
      ih (fun other hmem => hfits other (List.mem_cons_of_mem _ hmem)) (by omega)
    rw [UInt32.ofNat_add, ← hlength, Token.tail_eq_part_tail] at hothers
    simp only [heads, hhead, hothers, Outcome.ok_bind]
    rfl

theorem headsLen_eq_ofNat (tokens : List Token) (length : ℕ) :
    tokens.foldl (fun length token => length + token.headLen) (UInt32.ofNat length) =
      UInt32.ofNat (length + 32 * tokens.length) := by
  induction tokens generalizing length with
  | nil => rfl
  | cons token tokens ih =>
    have hnext : UInt32.ofNat length + token.headLen = UInt32.ofNat (length + 32) :=
      (UInt32.ofNat_add length 32).symm
    rw [List.foldl_cons, hnext, ih, List.length_cons]
    congr 1
    ring

/-- The encoding of the tokens is that of the tuple of their parts. -/
def solidityEncode (tokens : List Token) : Bytes :=
  HeadTail.encode (tokens.map Token.part)

theorem solidityEncode_eq (tokens : List Token) : solidityEncode tokens =
    headsFrom (32 * tokens.length) (tokens.map Token.part) ++ tokens.flatMap Token.tail := by
  have htails : (tokens.map Token.part).flatMap Part.tail = tokens.flatMap Token.tail := by
    rw [List.flatMap_map]
    congr 1
    funext token
    exact token.tail_eq_part_tail.symm
  rw [solidityEncode, HeadTail.encode_eq_headsFrom, List.length_map, htails]

theorem aligned_parts (tokens : List Token) : ∀ part ∈ tokens.map Token.part, part.Aligned := by
  intro part hmem
  obtain ⟨token, _, rfl⟩ := List.mem_map.mp hmem
  exact token.part_aligned

theorem length_solidityEncode (tokens : List Token) :
    (solidityEncode tokens).length = encodedLength tokens := by
  rw [solidityEncode_eq, List.length_append, length_headsFrom (aligned_parts tokens),
    List.length_map, encodedLength]

/-- How the encoder lays out tokens: as Solidity does, wherever these have words. -/
structure LaidOut (tokens : List Token) : Prop where
  encodes : (∀ token ∈ tokens, token.fits) →
    rawAbiEncode tokens = ManagedBuffer.ofBytes (solidityEncode tokens)
  refuses : ¬ (∀ token ∈ tokens, token.fits) → ∃ message, rawAbiEncode tokens = .error message
  aligned : ∀ data, rawAbiEncode tokens = .ok data → 32 ∣ data.1.length

/-- The encoder is that of Solidity for all tokens that fit in 32 bits together. -/
theorem encodesLikeSolidity (tokens : List Token)
    (hlength : (solidityEncode tokens).length ≤ 2 ^ 32) : LaidOut tokens := by
  rw [length_solidityEncode, encodedLength] at hlength
  refine ⟨?encodes, ?refuses, ?aligned⟩
  case encodes =>
    intro hfits
    have hheads := heads_eq_headsFrom hfits hlength
    have hzero : tokens.foldl (fun length token => length + token.headLen) 0 =
        UInt32.ofNat (32 * tokens.length) := by
      have hsum := headsLen_eq_ofNat tokens 0
      rwa [Nat.zero_add] at hsum
    rw [rawAbiEncode, hzero, hheads, Outcome.ok_bind, solidityEncode_eq]
  case refuses =>
    intro hunfit
    push Not at hunfit
    obtain ⟨token, hmem, htoken⟩ := hunfit
    exact rawAbiEncode_error hmem (by simpa using htoken)
  case aligned =>
    intro data hdata
    rw [length_rawAbiEncode hdata, ← length_solidityEncode]
    exact dvd_length_encode (aligned_parts tokens)

/-- A number, a text of three letters, and no bytes at all. -/
def sampleTokens : List Token :=
  [.uint256 ⟨5, by decide⟩, .string ⟨Bytes.ascii ['a', 'b', 'c'], by decide⟩, .bytes .new]

theorem sample_encodesLikeSolidity : LaidOut sampleTokens ∧
    (solidityEncode sampleTokens).length = 192 := by
  have hlength : (solidityEncode sampleTokens).length = 192 := by
    decide +kernel
  exact ⟨encodesLikeSolidity sampleTokens (by rw [hlength]; norm_num), hlength⟩

end AxelarCgp.Its
