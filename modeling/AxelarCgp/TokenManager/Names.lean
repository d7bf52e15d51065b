import AxelarCgp.TokenManager.Constants

/-!
# Token names and tickers

The normalisation keeps the first alphanumeric bytes of a name, up to a maximum, and fills
up what is too short.  It does not depend on how the name is read in batches, it only gives
names that the system contract takes, and it leaves those, and no others, as they are.
-/

namespace AxelarCgp

/-! ## The loops as they are written -/

/-- How many bytes of a buffer are loaded at a time. -/
def BATCH_SIZE : ℕ := 32

/-- `for_each_batch`: the last batch is as long as what remains. -/
def forEachBatch {A : Type} (f : A → Bytes → A) (result : A) (data : Bytes) : A :=
  match data with
  | [] => result
  | byte :: rest =>
      forEachBatch f (f result ((byte :: rest).take BATCH_SIZE))
        ((byte :: rest).drop BATCH_SIZE)
termination_by data.length
decreasing_by
  rw [List.length_drop, List.length_cons, BATCH_SIZE]
  omega

/-- The loop over a batch: a full result ends it, and other bytes are left out. -/
def appendBatch (maximum : ℕ) (convert : UInt8 → UInt8) : (result batch : Bytes) → Bytes
  | result, [] => result
  | result, byte :: batch =>
      if result.length = maximum then
        result
      else if ¬ isAsciiAlphanumeric byte then
        appendBatch maximum convert result batch
      else
        appendBatch maximum convert (result ++ [convert byte]) batch

/-- The closure that every batch is given to. -/
def normalizeBatch (maximum : ℕ) (convert : UInt8 → UInt8) (result batch : Bytes) : Bytes :=
  if result.length = maximum then result else appendBatch maximum convert result batch

/-- Append the placeholder while the result is too short. -/
def fillLoop (minimum : ℕ) (result : Bytes) : Bytes :=
  if result.length < minimum then
    fillLoop minimum (result ++ [TOKEN_MIN_PLACEHOLDER])
  else
    result
termination_by minimum - result.length
decreasing_by
  rw [List.length_append, List.length_singleton]
  omega

def normalizeLoop (minimum maximum : ℕ) (convert : UInt8 → UInt8) (data : Bytes) : Bytes :=
  fillLoop minimum (forEachBatch (normalizeBatch maximum convert) [] data)

def toNormalizedTokenNameLoop : Bytes → Bytes :=
  normalizeLoop TOKEN_NAME_MIN TOKEN_NAME_MAX id

def toNormalizedTokenTickerLoop : Bytes → Bytes :=
  normalizeLoop TOKEN_TICKER_MIN TOKEN_TICKER_MAX toAsciiUppercase

/-! ## What the loops compute -/

/-- What has the same effect on the parts as on the whole does not depend on the batches. -/
theorem forEachBatch_eq {A : Type} {f : A → Bytes → A} (hnil : ∀ result, f result [] = result)
    (happend : ∀ result first second, f result (first ++ second) = f (f result first) second)
    (result : A) (data : Bytes) : forEachBatch f result data = f result data := by
  induction result, data using forEachBatch.induct f with
  | case1 result => rw [forEachBatch, hnil]
  | case2 result byte rest ih => rw [forEachBatch, ih, ← happend, List.take_append_drop]

section Normalization

variable {minimum maximum : ℕ} {convert : UInt8 → UInt8} {result data : Bytes}

theorem appendBatch_full (hfull : result.length = maximum) (data : Bytes) :
    appendBatch maximum convert result data = result := by
  cases data with
  | nil => rfl
  | cons byte data => rw [appendBatch, if_pos hfull]

theorem normalizeBatch_eq : normalizeBatch maximum convert = appendBatch maximum convert := by
  funext result data
  unfold normalizeBatch
  split
  · rename_i hfull
    exact (appendBatch_full hfull data).symm
  · rfl

theorem appendBatch_append (first second : Bytes) :
    appendBatch maximum convert result (first ++ second) =
      appendBatch maximum convert (appendBatch maximum convert result first) second := by
  induction first generalizing result with
  | nil => rfl
  | cons byte first ih =>
      rw [List.cons_append, appendBatch, appendBatch]
      split
      · rename_i hfull
        exact (appendBatch_full hfull second).symm
      · split <;> exact ih

theorem appendBatch_foldl : appendBatch maximum convert result data =
    data.foldl (fun result byte =>
      if result.length = maximum then result
      else if isAsciiAlphanumeric byte then result ++ [convert byte]
      else result) result := by
  induction data generalizing result with
  | nil => rfl
  | cons byte data ih =>
      rw [appendBatch, List.foldl_cons]
      split
      · rename_i hfull
        rw [← ih, appendBatch_full hfull]
      · rw [ih, ih, ite_not]
        split <;> rfl

theorem fillLoop_eq : fillLoop minimum result = fillUp minimum result := by
  induction result using fillLoop.induct minimum with
  | case1 result hshort ih =>
      have hone : minimum - result.length = minimum - (result.length + 1) + 1 := by
        omega
      rw [fillLoop, if_pos hshort, ih, fillUp, fillUp, List.length_append, List.length_singleton,
        hone, List.replicate_succ, List.append_assoc, List.singleton_append]
  | case2 result hlong =>
      have hnone : minimum - result.length = 0 := by
        omega
      rw [fillLoop, if_neg hlong, fillUp, hnone, List.replicate_zero, List.append_nil]

/-- The loops over batches do what one loop over the bytes does. -/
theorem normalizeLoop_eq : normalizeLoop minimum maximum convert data =
    fillUp minimum (normalizeBytes maximum convert data) := by
  rw [normalizeLoop, normalizeBatch_eq, forEachBatch_eq (fun _ => rfl), fillLoop_eq,
    appendBatch_foldl]
  · rfl
  · exact fun _ => appendBatch_append

/-- The first alphanumeric bytes, up to a maximum. -/
def firstAlphanumeric (maximum : ℕ) (data : Bytes) : Bytes :=
  (data.filter isAsciiAlphanumeric).take maximum

theorem appendBatch_eq (hresult : result.length ≤ maximum) :
    appendBatch maximum convert result data =
      result ++ (firstAlphanumeric (maximum - result.length) data).map convert := by
  induction data generalizing result with
  | nil => simp [appendBatch, firstAlphanumeric]
  | cons byte data ih =>
      rw [appendBatch]
      split
      · rename_i hfull
        simp [firstAlphanumeric, hfull]
      · rename_i hroom
        have hlonger : (result ++ [convert byte]).length ≤ maximum := by
          rw [List.length_append, List.length_singleton]
          omega
        split
        · rename_i hother
          rw [ih hresult]
          simp [firstAlphanumeric, hother]
        · rename_i halphanumeric
          have hone : maximum - result.length =
              maximum - (result ++ [convert byte]).length + 1 := by
            rw [List.length_append, List.length_singleton]
            omega
          rw [ih hlonger, hone]
          simp [firstAlphanumeric, not_not.mp halphanumeric]

theorem normalizeBytes_eq :
    normalizeBytes maximum convert data = (firstAlphanumeric maximum data).map convert := by
  have happend : appendBatch maximum convert [] data =
      [] ++ (firstAlphanumeric (maximum - 0) data).map convert :=
    appendBatch_eq (Nat.zero_le maximum)
  rw [appendBatch_foldl] at happend
  exact happend

/-! ## Names that are taken -/

/-- A name of a length and of the bytes that are allowed. -/
structure Normal (minimum maximum : ℕ) (allowed : UInt8 → Bool) (data : Bytes) : Prop where
  long : minimum ≤ data.length
  short : data.length ≤ maximum
  bytes : ∀ byte ∈ data, allowed byte

/-- The conversion turns alphanumeric bytes into allowed ones, and keeps those. -/
structure Converts (convert : UInt8 → UInt8) (allowed : UInt8 → Bool) : Prop where
  allows : ∀ byte, isAsciiAlphanumeric byte → allowed (convert byte)
  alphanumeric : ∀ byte, allowed byte → isAsciiAlphanumeric byte
  keeps : ∀ byte, allowed byte → convert byte = byte
  placeholder : allowed TOKEN_MIN_PLACEHOLDER

variable {allowed : UInt8 → Bool}

theorem normal_fillUp (hconverts : Converts convert allowed) (hlengths : minimum ≤ maximum) :
    Normal minimum maximum allowed (fillUp minimum (normalizeBytes maximum convert data)) := by
  rw [normalizeBytes_eq, fillUp]
  have hcount : (firstAlphanumeric maximum data).length ≤ maximum := List.length_take_le _ _
  refine { long := ?_, short := ?_, bytes := ?_ }
  · rw [List.length_append, List.length_replicate]
    omega
  · rw [List.length_append, List.length_replicate, List.length_map]
    omega
  · intro byte hbyte
    rcases List.mem_append.mp hbyte with hkept | hfilled
    · obtain ⟨letter, hletter, rfl⟩ := List.mem_map.mp hkept
      have hfound := List.mem_of_mem_take hletter
      exact hconverts.allows letter (List.mem_filter.mp hfound).2
    · rw [List.eq_of_mem_replicate hfilled]
      exact hconverts.placeholder

theorem Normal.fixed (hconverts : Converts convert allowed)
    (h : Normal minimum maximum allowed data) :
    fillUp minimum (normalizeBytes maximum convert data) = data := by
  have hall : data.filter isAsciiAlphanumeric = data :=
    List.filter_eq_self.mpr fun byte hbyte =>
      hconverts.alphanumeric byte (h.bytes byte hbyte)
  have hkept : data.map convert = data := by
    conv_rhs => rw [← List.map_id data]
    apply List.map_congr_left
    exact fun byte hbyte => hconverts.keeps byte (h.bytes byte hbyte)
  rw [normalizeBytes_eq, firstAlphanumeric, hall, List.take_of_length_le h.short, hkept, fillUp,
    Nat.sub_eq_zero_of_le h.long, List.replicate_zero, List.append_nil]

end Normalization

/-- What the system contract takes for the name of a token. -/
def ValidTokenName : Bytes → Prop :=
  Normal TOKEN_NAME_MIN TOKEN_NAME_MAX isAsciiAlphanumeric

def isTickerByte (byte : UInt8) : Bool :=
  isAsciiDigit byte || isAsciiUppercase byte

/-- What the system contract takes for the ticker of a token. -/
def ValidTokenTicker : Bytes → Prop :=
  Normal TOKEN_TICKER_MIN TOKEN_TICKER_MAX isTickerByte

theorem converts_id : Converts id isAsciiAlphanumeric where
  allows _ h := h
  alphanumeric _ h := h
  keeps _ _ := rfl
  placeholder := by decide

theorem isTickerByte_toAsciiUppercase {byte : UInt8} (h : isAsciiAlphanumeric byte) :
    isTickerByte (toAsciiUppercase byte) := by
  revert byte
  decide +kernel

theorem isAsciiLowercase_of_isTickerByte {byte : UInt8} (h : isTickerByte byte) :
    isAsciiLowercase byte = false := by
  revert byte
  decide +kernel

theorem converts_toAsciiUppercase : Converts toAsciiUppercase isTickerByte where
  allows _ h := isTickerByte_toAsciiUppercase h
  alphanumeric byte h := by
    rw [isAsciiAlphanumeric, Bool.or_eq_true]
    exact .inl h
  keeps byte h := by
    rw [toAsciiUppercase, isAsciiLowercase_of_isTickerByte h]
    rfl
  placeholder := by decide

section Names

variable {data : Bytes}

theorem validTokenName_toNormalizedTokenName : ValidTokenName (toNormalizedTokenName data) :=
  normal_fillUp converts_id (by decide)

theorem validTokenTicker_toNormalizedTokenTicker :
    ValidTokenTicker (toNormalizedTokenTicker data) :=
  normal_fillUp converts_toAsciiUppercase (by decide)

/-- Names that the system contract takes, and no others, stay as they are. -/
theorem toNormalizedTokenName_eq_self :
    toNormalizedTokenName data = data ↔ ValidTokenName data := by
  constructor
  · intro h
    rw [← h]
    exact validTokenName_toNormalizedTokenName
  · exact fun h => Normal.fixed converts_id h

theorem toNormalizedTokenTicker_eq_self :
    toNormalizedTokenTicker data = data ↔ ValidTokenTicker data := by
  constructor
  · intro h
    rw [← h]
    exact validTokenTicker_toNormalizedTokenTicker
  · exact fun h => Normal.fixed converts_toAsciiUppercase h

end Names

end AxelarCgp
