import AxelarCgp.Its.AbiTypes

/-!
# What the decoder accepts

The decoder follows offsets that whoever sends a payload may choose, and adds to
them without looking for overflows.  It reads a buffer exactly when all that the
heads point to lies in the buffer, and then no sum overflows.
-/

namespace AxelarCgp.Its

/-- The number that stands in the word at an offset. -/
def wordAt (data : ManagedBuffer) (offset : ℕ) : ℕ :=
  Bytes.toNatBE ((data.1.drop offset).take 32)

def bytesAt (data : ManagedBuffer) (offset length : ℕ) : Bytes :=
  (data.1.drop offset).take length

namespace ParamType

def isDynamic : ParamType → Bool
  | bytes | string => true
  | uint256 | bytes32 | uint8 => false

/-- What has to stand at the head of a parameter, and where it points to. -/
def WellFormed (data : ManagedBuffer) (offset : ℕ) : ParamType → Prop
  | uint256 | bytes32 => True
  | uint8 => wordAt data offset < 256
  | bytes | string =>
      wordAt data offset < 2 ^ 32 ∧ wordAt data (wordAt data offset) < 2 ^ 32 ∧
        wordAt data offset + 32 + wordAt data (wordAt data offset) ≤ data.1.length

/-- The token that stands there. -/
def Reads (data : ManagedBuffer) (offset : ℕ) : ParamType → Token → Prop
  | uint256, .uint256 value => value.1 = wordAt data offset
  | bytes32, .bytes32 word => word.1 = bytesAt data offset 32
  | uint8, .uint8 value => value.toNat = wordAt data offset
  | bytes, .bytes value | string, .string value =>
      value.1 = bytesAt data (wordAt data offset + 32) (wordAt data (wordAt data offset))
  | _, _ => False

end ParamType

/-- A head for every parameter, and what every one of them needs. -/
structure WellFormed (params : List ParamType) (data : ManagedBuffer) : Prop where
  heads : 32 * params.length ≤ data.1.length
  params : ∀ (index : ℕ) (param : ParamType), params[index]? = some param →
    param.WellFormed data (32 * index)

/-! ## Words -/

section Words

variable {data : ManagedBuffer} {offset : UInt32} {word : Word}

theorem peek32Bytes_eq_ok : peek32Bytes data offset = .ok word ↔
    offset.toNat + 32 ≤ data.1.length ∧ word.1 = bytesAt data offset.toNat 32 := by
  unfold peek32Bytes
  split
  · rename_i hfits
    simp [hfits, Subtype.ext_iff, bytesAt, eq_comm]
  · rename_i hshort
    simp [hshort]

theorem takeUsize_eq_ok {value : UInt32} : takeUsize word = .ok value ↔
    Bytes.toNatBE word.1 < 2 ^ 32 ∧ value = UInt32.ofNat (Bytes.toNatBE word.1) := by
  have hsmall := Bytes.toNatBE_lt_iff word.1 28
  rw [word.2] at hsmall
  simp only [takeUsize, Outcome.bind_eq_ok, Outcome.exists_unit, Outcome.require_eq_ok,
    Outcome.pure_eq_ok]
  constructor
  · rintro ⟨hzeros, rfl⟩
    exact ⟨hsmall.mpr hzeros, by rw [Bytes.toNatBE_drop hzeros]⟩
  · rintro ⟨hvalue, rfl⟩
    have hzeros := hsmall.mp hvalue
    exact ⟨hzeros, by rw [Bytes.toNatBE_drop hzeros]⟩

theorem takeU8_eq_ok {value : UInt8} : takeU8 word = .ok value ↔
    Bytes.toNatBE word.1 < 256 ∧ value.toNat = Bytes.toNatBE word.1 := by
  have hsmall := Bytes.toNatBE_lt_iff word.1 31
  rw [word.2] at hsmall
  simp only [takeU8, Outcome.bind_eq_ok, Outcome.exists_unit, Outcome.require_eq_ok,
    Outcome.pure_eq_ok]
  constructor
  · rintro ⟨hzeros, rfl⟩
    have hvalue := hsmall.mpr hzeros
    refine ⟨hvalue, ?_⟩
    rw [Bytes.toNatBE_drop hzeros, UInt8.toNat_ofNat']
    exact Nat.mod_eq_of_lt hvalue
  · rintro ⟨hvalue, hread⟩
    have hzeros := hsmall.mp hvalue
    refine ⟨hzeros, ?_⟩
    rw [Bytes.toNatBE_drop hzeros, ← hread, UInt8.ofNat_toNat]

theorem takeBytes_eq_ok {length : UInt32} {value : ManagedBuffer} :
    takeBytes data offset length = .ok value ↔
      offset.toNat + length.toNat ≤ data.1.length ∧
      value.1 = bytesAt data offset.toNat length.toNat := by
  rw [takeBytes, Outcome.orFail_eq_ok, copySlice]
  split
  · rename_i hfits
    simp [hfits, Subtype.ext_iff, bytesAt, eq_comm]
  · rename_i hshort
    simp [hshort]

theorem length_bytesAt {position length : ℕ} (hfits : position + length ≤ data.1.length) :
    (bytesAt data position length).length = length := by
  rw [bytesAt, List.length_take, List.length_drop]
  omega

/-- An offset at which a word stands can be advanced by one. -/
theorem toNat_add_32_of_fits (hfits : offset.toNat + 32 ≤ data.1.length) :
    (offset + 32).toNat = offset.toNat + 32 := by
  have hlimit := data.2
  simp only [lengthLimit] at hlimit
  exact toNat_add_32 (by omega)

end Words

/-! ## One parameter -/

section Parameter

variable {data : ManagedBuffer} {offset : UInt32} {param : ParamType}

/-- What stands where a head points to is read without an overflow. -/
theorem decodeDynamic_eq_ok {value : ManagedBuffer} : decodeDynamic data offset = .ok value ↔
    offset.toNat + 32 ≤ data.1.length ∧ ParamType.bytes.WellFormed data offset.toNat ∧
      ParamType.bytes.Reads data offset.toNat (.bytes value) := by
  simp only [decodeDynamic, Outcome.bind_eq_ok, peek32Bytes_eq_ok, takeUsize_eq_ok,
    takeBytes_eq_ok]
  constructor
  · rintro ⟨pointer, ⟨hhead, hpointer⟩, dynamicOffset, ⟨hdynamic, rfl⟩, size, ⟨htail, hsize⟩,
      length, ⟨hlength, rfl⟩, hfits, hvalue⟩
    rw [toNat_add_32_of_fits htail] at hfits hvalue
    rw [hpointer] at hdynamic
    rw [hpointer, UInt32.toNat_ofNat', Nat.mod_eq_of_lt hdynamic] at hfits hvalue hsize
    rw [hsize] at hlength
    rw [hsize, UInt32.toNat_ofNat', Nat.mod_eq_of_lt hlength] at hfits hvalue
    exact ⟨hhead, ⟨hdynamic, hlength, hfits⟩, hvalue⟩
  · rintro ⟨hhead, ⟨hdynamic, hlength, hfits⟩, hvalue⟩
    have hoffset : (UInt32.ofNat (wordAt data offset.toNat)).toNat = wordAt data offset.toNat := by
      rw [UInt32.toNat_ofNat', Nat.mod_eq_of_lt hdynamic]
    have hsize : (UInt32.ofNat (wordAt data (wordAt data offset.toNat))).toNat =
        wordAt data (wordAt data offset.toNat) := by
      rw [UInt32.toNat_ofNat', Nat.mod_eq_of_lt hlength]
    have htail : (UInt32.ofNat (wordAt data offset.toNat)).toNat + 32 ≤ data.1.length := by
      rw [hoffset]
      omega
    have hnext := toNat_add_32_of_fits htail
    rw [hoffset] at hnext
    obtain ⟨pointer, hpointer⟩ : ∃ word : Word, word.1 = bytesAt data offset.toNat 32 :=
      ⟨⟨_, length_bytesAt hhead⟩, rfl⟩
    obtain ⟨size, hword⟩ : ∃ word : Word, word.1 = bytesAt data (wordAt data offset.toNat) 32 :=
      ⟨⟨_, length_bytesAt (by omega)⟩, rfl⟩
    have hpointed : Bytes.toNatBE pointer.1 = wordAt data offset.toNat := by
      rw [hpointer]
      rfl
    have hsized : Bytes.toNatBE size.1 = wordAt data (wordAt data offset.toNat) := by
      rw [hword]
      rfl
    refine ⟨pointer, ⟨hhead, hpointer⟩, _, ⟨hpointed ▸ hdynamic, rfl⟩, size, ⟨?_, ?_⟩, _,
      ⟨hsized ▸ hlength, rfl⟩, ?_, ?_⟩
    · rw [hpointed]
      exact htail
    · rw [hpointed, hoffset]
      exact hword
    · rw [hpointed, hsized, hnext, hsize]
      exact hfits
    · rw [hpointed, hsized, hnext, hsize]
      exact hvalue

/-- A parameter is read exactly when it is well formed, and then as what stands there. -/
theorem abiDecode_eq_ok {token : Token} {next : UInt32} :
    param.abiDecode data offset = .ok (token, next) ↔
      offset.toNat + 32 ≤ data.1.length ∧ param.WellFormed data offset.toNat ∧
        param.Reads data offset.toNat token ∧ next = offset + 32 := by
  cases param with
  | uint256 =>
    simp only [ParamType.abiDecode, Outcome.bind_eq_ok, peek32Bytes_eq_ok, Outcome.pure_eq_ok,
      Prod.mk.injEq]
    constructor
    · rintro ⟨word, ⟨hhead, hword⟩, rfl, rfl⟩
      refine ⟨hhead, trivial, ?_, rfl⟩
      change Bytes.toNatBE word.1 = _
      rw [hword]
      rfl
    · rintro ⟨hhead, _, hreads, rfl⟩
      cases token with
      | uint256 value =>
        refine ⟨⟨_, length_bytesAt hhead⟩, ⟨hhead, rfl⟩, ?_, rfl⟩
        exact congrArg Token.uint256 (Subtype.ext hreads.symm)
      | _ => exact hreads.elim
  | bytes32 =>
    simp only [ParamType.abiDecode, Outcome.bind_eq_ok, peek32Bytes_eq_ok, Outcome.pure_eq_ok,
      Prod.mk.injEq]
    constructor
    · rintro ⟨word, ⟨hhead, hword⟩, rfl, rfl⟩
      exact ⟨hhead, trivial, hword, rfl⟩
    · rintro ⟨hhead, _, hreads, rfl⟩
      cases token with
      | bytes32 word => exact ⟨word, ⟨hhead, hreads⟩, rfl, rfl⟩
      | _ => exact hreads.elim
  | uint8 =>
    simp only [ParamType.abiDecode, Outcome.bind_eq_ok, peek32Bytes_eq_ok, takeU8_eq_ok,
      Outcome.pure_eq_ok, Prod.mk.injEq]
    constructor
    · rintro ⟨word, ⟨hhead, hword⟩, value, ⟨hsmall, hvalue⟩, rfl, rfl⟩
      rw [hword] at hsmall hvalue
      exact ⟨hhead, hsmall, hvalue, rfl⟩
    · rintro ⟨hhead, hsmall, hreads, rfl⟩
      cases token with
      | uint8 value =>
        exact ⟨⟨_, length_bytesAt hhead⟩, ⟨hhead, rfl⟩, value, ⟨hsmall, hreads⟩, rfl, rfl⟩
      | _ => exact hreads.elim
  | bytes =>
    simp only [ParamType.abiDecode, Outcome.bind_eq_ok, decodeDynamic_eq_ok, Outcome.pure_eq_ok,
      Prod.mk.injEq]
    constructor
    · rintro ⟨value, ⟨hhead, hformed, hreads⟩, rfl, rfl⟩
      exact ⟨hhead, hformed, hreads, rfl⟩
    · rintro ⟨hhead, hformed, hreads, rfl⟩
      cases token with
      | bytes value => exact ⟨value, ⟨hhead, hformed, hreads⟩, rfl, rfl⟩
      | _ => exact hreads.elim
  | string =>
    simp only [ParamType.abiDecode, Outcome.bind_eq_ok, decodeDynamic_eq_ok, Outcome.pure_eq_ok,
      Prod.mk.injEq]
    constructor
    · rintro ⟨value, ⟨hhead, hformed, hreads⟩, rfl, rfl⟩
      exact ⟨hhead, hformed, hreads, rfl⟩
    · rintro ⟨hhead, hformed, hreads, rfl⟩
      cases token with
      | string value => exact ⟨value, ⟨hhead, hformed, hreads⟩, rfl, rfl⟩
      | _ => exact hreads.elim

/-- Something stands wherever the buffer is well formed. -/
theorem exists_reads {position : ℕ} (hhead : position + 32 ≤ data.1.length)
    (hformed : param.WellFormed data position) : ∃ token, param.Reads data position token := by
  have hbuffer : ∀ start length, ∃ value : ManagedBuffer, value.1 = bytesAt data start length := by
    intro start length
    refine ⟨⟨bytesAt data start length, ?_⟩, rfl⟩
    have hlimit := data.2
    simp only [bytesAt, List.length_take, List.length_drop]
    omega
  cases param with
  | uint256 => exact ⟨.uint256 (wordToBiguint ⟨_, length_bytesAt hhead⟩), rfl⟩
  | bytes32 => exact ⟨.bytes32 ⟨_, length_bytesAt hhead⟩, rfl⟩
  | uint8 =>
    refine ⟨.uint8 (UInt8.ofNat (wordAt data position)), ?_⟩
    rw [ParamType.Reads, UInt8.toNat_ofNat']
    exact Nat.mod_eq_of_lt hformed
  | bytes =>
    obtain ⟨value, hvalue⟩ := hbuffer (wordAt data position + 32)
      (wordAt data (wordAt data position))
    exact ⟨.bytes value, hvalue⟩
  | string =>
    obtain ⟨value, hvalue⟩ := hbuffer (wordAt data position + 32)
      (wordAt data (wordAt data position))
    exact ⟨.string value, hvalue⟩

end Parameter

/-! ## All parameters -/

section Parameters

variable {data : ManagedBuffer} {offset : UInt32} {params : List ParamType} {tokens : List Token}

/-- The parameters are read one after the other, from heads that follow each other. -/
theorem rawAbiDecode_eq_ok : rawAbiDecode params data offset = .ok tokens ↔
    tokens.length = params.length ∧ ∀ (index : ℕ) (param : ParamType) (token : Token),
      params[index]? = some param → tokens[index]? = some token →
      offset.toNat + 32 * index + 32 ≤ data.1.length ∧
      param.WellFormed data (offset.toNat + 32 * index) ∧
      param.Reads data (offset.toNat + 32 * index) token := by
  induction params generalizing offset tokens with
  | nil => simp [rawAbiDecode, eq_comm]
  | cons param params ih =>
    simp only [rawAbiDecode, Outcome.bind_eq_ok, Prod.exists, abiDecode_eq_ok, ih,
      Outcome.pure_eq_ok]
    constructor
    · rintro ⟨token, _, ⟨hhead, hformed, hreads, rfl⟩, others, ⟨hlength, hothers⟩, rfl⟩
      refine ⟨congrArg (· + 1) hlength, ?_⟩
      intro index other otherToken hparam htoken
      rw [toNat_add_32_of_fits hhead] at hothers
      cases index with
      | zero =>
        obtain rfl := Option.some.inj hparam
        obtain rfl := Option.some.inj htoken
        exact ⟨hhead, hformed, hreads⟩
      | succ index =>
        have hother := hothers index other otherToken hparam htoken
        rw [Nat.mul_succ, Nat.add_comm (32 * index), ← Nat.add_assoc]
        exact hother
    · rintro ⟨hlength, hall⟩
      cases tokens with
      | nil => simp at hlength
      | cons token others =>
        obtain ⟨hhead, hformed, hreads⟩ := hall 0 param token rfl rfl
        refine ⟨token, _, ⟨hhead, hformed, hreads, rfl⟩, others,
          ⟨Nat.succ.inj hlength, ?_⟩, rfl⟩
        intro index other otherToken hparam htoken
        have hother := hall (index + 1) other otherToken hparam htoken
        rw [toNat_add_32_of_fits hhead]
        rw [Nat.mul_succ, Nat.add_comm (32 * index), ← Nat.add_assoc] at hother
        exact hother

/-- The decoder accepts the well-formed buffers. -/
theorem rawAbiDecode_accepts :
    (∃ tokens, rawAbiDecode params data 0 = .ok tokens) ↔ WellFormed params data := by
  simp only [rawAbiDecode_eq_ok, UInt32.toNat_zero, Nat.zero_add]
  constructor
  · rintro ⟨tokens, hlength, hall⟩
    have hpaired : ∀ index < params.length, ∃ param token, params[index]? = some param ∧
        tokens[index]? = some token := fun index hindex =>
      ⟨_, _, List.getElem?_eq_getElem hindex, List.getElem?_eq_getElem (hlength ▸ hindex)⟩
    constructor
    · cases hcount : params.length with
      | zero => exact Nat.zero_le _
      | succ count =>
        obtain ⟨param, token, hparam, htoken⟩ := hpaired count (by omega)
        have hlast := (hall count param token hparam htoken).1
        omega
    · intro index param hparam
      have hindex := (List.getElem?_eq_some_iff.mp hparam).1
      obtain ⟨_, token, _, htoken⟩ := hpaired index hindex
      exact (hall index param token hparam htoken).2.1
  · rintro ⟨hheads, hparams⟩
    have hreads : ∀ index : Fin params.length, ∃ token,
        params[index].Reads data (32 * index) token := by
      intro index
      have hindex := index.2
      exact exists_reads (by omega)
        (hparams index params[index] (List.getElem?_eq_getElem hindex))
    choose token htoken using hreads
    refine ⟨List.ofFn token, List.length_ofFn, ?_⟩
    intro index param other hparam hother
    obtain ⟨hindex, rfl⟩ := List.getElem?_eq_some_iff.mp hparam
    obtain ⟨_, rfl⟩ := List.getElem?_eq_some_iff.mp hother
    refine ⟨by omega, hparams index _ hparam, ?_⟩
    rw [List.getElem_ofFn]
    exact htoken ⟨index, hindex⟩

/-- The offset of the head at `index`, as the decoder adds it up. -/
def headOffset (index : ℕ) : UInt32 :=
  (· + 32)^[index] 0

theorem toNat_headOffset {index : ℕ} (hfits : 32 * index < 2 ^ 32) :
    (headOffset index).toNat = 32 * index := by
  induction index with
  | zero => rfl
  | succ index ih =>
    have hbefore := ih (by omega)
    have hnext : headOffset (index + 1) = headOffset index + 32 :=
      Function.iterate_succ_apply' _ _ _
    rw [hnext, toNat_add_32 (by omega), hbefore, Nat.mul_succ]

/-- The decoder on one buffer: what it accepts, what it reads there, and that none of the
offsets it reckons overflows. -/
structure ReadsExactly (params : List ParamType) (data : ManagedBuffer) : Prop where
  accepts : (∃ tokens, rawAbiDecode params data 0 = .ok tokens) ↔ WellFormed params data
  reads : ∀ tokens, rawAbiDecode params data 0 = .ok tokens → tokens.length = params.length ∧
    ∀ (index : ℕ) (param : ParamType) (token : Token),
      params[index]? = some param → tokens[index]? = some token →
      param.abiDecode data (headOffset index) = .ok (token, headOffset (index + 1)) ∧
      param.Reads data (32 * index) token
  heads : ∀ tokens, rawAbiDecode params data 0 = .ok tokens → ∀ index ≤ params.length,
    (headOffset index).toNat = 32 * index
  tails : ∀ tokens, rawAbiDecode params data 0 = .ok tokens →
    ∀ (index : ℕ) (param : ParamType) (pointer : Word) (dynamicOffset : UInt32),
      params[index]? = some param → param.isDynamic →
      peek32Bytes data (headOffset index) = .ok pointer → takeUsize pointer = .ok dynamicOffset →
      (dynamicOffset + 32).toNat = dynamicOffset.toNat + 32

theorem rawAbiDecode_readsExactly (params : List ParamType) (data : ManagedBuffer) :
    ReadsExactly params data := by
  have hlimit := data.2
  simp only [lengthLimit] at hlimit
  have hoffset : ∀ tokens, rawAbiDecode params data 0 = .ok tokens → ∀ index ≤ params.length,
      (headOffset index).toNat = 32 * index := by
    intro tokens hdecodes index hindex
    have hheads := (rawAbiDecode_accepts.mp ⟨tokens, hdecodes⟩).heads
    exact toNat_headOffset (by omega)
  refine ⟨rawAbiDecode_accepts, ?reads, hoffset, ?tails⟩
  case reads =>
    intro tokens hdecodes
    obtain ⟨hlength, hall⟩ := rawAbiDecode_eq_ok.mp hdecodes
    refine ⟨hlength, ?_⟩
    intro index param token hparam htoken
    have hindex := (List.getElem?_eq_some_iff.mp hparam).1
    obtain ⟨hhead, hformed, hreads⟩ := hall index param token hparam htoken
    rw [UInt32.toNat_zero, Nat.zero_add] at hhead hformed hreads
    refine ⟨?_, hreads⟩
    rw [abiDecode_eq_ok, hoffset tokens hdecodes index hindex.le]
    exact ⟨hhead, hformed, hreads, Function.iterate_succ_apply' _ _ _⟩
  case tails =>
    intro tokens hdecodes index param pointer dynamicOffset hparam hdynamic hpointer htaken
    have hindex := (List.getElem?_eq_some_iff.mp hparam).1
    have hformed := (rawAbiDecode_accepts.mp ⟨tokens, hdecodes⟩).params index param hparam
    obtain ⟨_, hword⟩ := peek32Bytes_eq_ok.mp hpointer
    obtain ⟨hsmall, rfl⟩ := takeUsize_eq_ok.mp htaken
    rw [hoffset tokens hdecodes index hindex.le] at hword
    have hvalue : Bytes.toNatBE pointer.1 = wordAt data (32 * index) := by
      rw [hword]
      rfl
    have hpointed : wordAt data (32 * index) + 32 ≤ data.1.length := by
      cases param with
      | bytes | string => exact (Nat.le_add_right _ _).trans hformed.2.2
      | uint256 | bytes32 | uint8 => simp [ParamType.isDynamic] at hdynamic
    apply toNat_add_32
    rw [UInt32.toNat_ofNat', Nat.mod_eq_of_lt hsmall, hvalue]
    omega

end Parameters

/-! ## Links -/

section Links

variable {data : ManagedBuffer} {tokens : List Token}

theorem ofU8_isOk {byte : UInt8} :
    (∃ managerType, TokenManagerType.ofU8 byte = .ok managerType) ↔ byte.toNat ≤ 4 := by
  constructor
  · rintro ⟨managerType, h⟩
    unfold TokenManagerType.ofU8 at h
    split at h
    all_goals first | decide | simp at h
  · intro hbyte
    obtain rfl | rfl | rfl | rfl | rfl : byte = 0 ∨ byte = 1 ∨ byte = 2 ∨ byte = 3 ∨ byte = 4 := by
      simp only [← UInt8.toNat_inj]
      simp only [UInt8.reduceToNat]
      omega
    all_goals exact ⟨_, rfl⟩

/-- The tokens of a payload that links, of which the third is the type of the manager. -/
theorem linkTokens (h : rawAbiDecode (AbiEncodeDecode.paramTypes LinkTokenPayload) data 0 =
      .ok tokens) :
    ∃ messageType tokenId managerType source destination params,
      tokens = [.uint256 messageType, .bytes32 tokenId, .uint8 managerType, .bytes source,
        .bytes destination, .bytes params] ∧ managerType.toNat = wordAt data 64 := by
  obtain ⟨hlength, hall⟩ := rawAbiDecode_eq_ok.mp h
  obtain ⟨first, second, third, fourth, fifth, sixth, rfl⟩ : ∃ first second third fourth fifth
      sixth, tokens = [first, second, third, fourth, fifth, sixth] := by
    match tokens, hlength with
    | [first, second, third, fourth, fifth, sixth], _ =>
      exact ⟨first, second, third, fourth, fifth, sixth, rfl⟩
  have hfirst := (hall 0 _ _ rfl rfl).2.2
  have hsecond := (hall 1 _ _ rfl rfl).2.2
  have hthird := (hall 2 _ _ rfl rfl).2.2
  have hfourth := (hall 3 _ _ rfl rfl).2.2
  have hfifth := (hall 4 _ _ rfl rfl).2.2
  have hsixth := (hall 5 _ _ rfl rfl).2.2
  cases first with
  | uint256 messageType =>
    cases second with
    | bytes32 tokenId =>
      cases third with
      | uint8 managerType =>
        cases fourth with
        | bytes source =>
          cases fifth with
          | bytes destination =>
            cases sixth with
            | bytes params => exact ⟨_, _, _, _, _, _, rfl, hthird⟩
            | _ => exact hsixth.elim
          | _ => exact hfifth.elim
        | _ => exact hfourth.elim
      | _ => exact hthird.elim
    | _ => exact hsecond.elim
  | _ => exact hfirst.elim

/-- A payload that links is accepted when it is well formed and names a type of manager. -/
theorem linkToken_accepts : (∃ payload : LinkTokenPayload, abiDecode data = .ok payload) ↔
    WellFormed (AbiEncodeDecode.paramTypes LinkTokenPayload) data ∧ wordAt data 64 ≤ 4 := by
  simp only [abiDecode, Outcome.bind_eq_ok]
  constructor
  · rintro ⟨payload, tokens, hdecodes, hpayload⟩
    refine ⟨rawAbiDecode_accepts.mp ⟨tokens, hdecodes⟩, ?_⟩
    obtain ⟨_, _, managerType, _, _, _, rfl, hbyte⟩ := linkTokens hdecodes
    rw [← hbyte, ← ofU8_isOk]
    simp only [AbiEncodeDecode.ofTokens, Token.intoManagedBuffer, Token.intoU8,
      Token.intoManagedByteArray, Token.intoBiguint, Outcome.ok_bind,
      Outcome.bind_eq_ok] at hpayload
    obtain ⟨read, hread, _⟩ := hpayload
    exact ⟨read, hread⟩
  · rintro ⟨hformed, hsmall⟩
    obtain ⟨tokens, hdecodes⟩ := rawAbiDecode_accepts.mpr hformed
    obtain ⟨messageType, tokenId, managerType, source, destination, params, rfl, hbyte⟩ :=
      linkTokens hdecodes
    obtain ⟨read, hread⟩ := ofU8_isOk.mpr (hbyte.trans_le hsmall)
    refine ⟨⟨messageType, tokenId, read, source, destination, params⟩, _, hdecodes, ?_⟩
    simp only [AbiEncodeDecode.ofTokens, Token.intoManagedBuffer, Token.intoU8,
      Token.intoManagedByteArray, Token.intoBiguint, Outcome.ok_bind, hread]
    rfl

/-- The decoder accepts the well-formed buffers and no others, for all types of parameters,
and reads there what stands there. -/
theorem decodesExactly : (∀ params data, ReadsExactly params data) ∧
    ∀ data, (∃ payload : LinkTokenPayload, abiDecode data = .ok payload) ↔
      WellFormed (AbiEncodeDecode.paramTypes LinkTokenPayload) data ∧ wordAt data 64 ≤ 4 :=
  ⟨rawAbiDecode_readsExactly, fun _ => linkToken_accepts⟩

end Links

end AxelarCgp.Its
