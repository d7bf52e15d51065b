import Mathlib

/-!
# Byte strings and big-endian numbers

Numbers travel as big-endian bytes, either at a fixed width or with the least
number of bytes that holds them.  This file proves that both readings recover
the number, and that a fixed-length prefix of a byte string can be split off.
-/

namespace AxelarCgp

abbrev Bytes := List UInt8

namespace Bytes

/-- The number whose big-endian digits in base 256 are `bytes`. -/
def toNatBE (bytes : Bytes) : ℕ :=
  bytes.foldl (fun value byte => value * 256 + byte.toNat) 0

/-- The `width` low-order bytes of `value`, most significant first. -/
def ofNatBE : (width : ℕ) → (value : ℕ) → Bytes
  | 0, _ => []
  | width + 1, value =>
      ofNatBE width (value / 256) ++ [UInt8.ofNat (value % 256)]

/-- The least number of bytes that holds `value`; zero takes none. -/
def byteLength (value : ℕ) : ℕ :=
  if value = 0 then 0 else value.log2 / 8 + 1

/-- Big-endian bytes without leading zeros. -/
def minimalBE (value : ℕ) : Bytes :=
  ofNatBE (byteLength value) value

/-- The bytes of an ASCII text. -/
def ascii (text : List Char) : Bytes :=
  text.map fun letter => UInt8.ofNat letter.toNat

@[simp]
theorem toNatBE_nil : toNatBE [] = 0 := rfl

theorem toNatBE_concat (bytes : Bytes) (byte : UInt8) :
    toNatBE (bytes ++ [byte]) = toNatBE bytes * 256 + byte.toNat := by
  simp [toNatBE]

@[simp]
theorem length_ofNatBE (width value : ℕ) :
    (ofNatBE width value).length = width := by
  induction width generalizing value with
  | zero => rfl
  | succ width ih => simp [ofNatBE, ih]

theorem toNatBE_lt (bytes : Bytes) : toNatBE bytes < 256 ^ bytes.length := by
  induction bytes using List.reverseRecOn with
  | nil => simp
  | append_singleton bytes byte ih =>
      have hbyte : byte.toNat < 256 := byte.toNat_lt
      rw [toNatBE_concat, List.length_append, List.length_singleton, pow_succ]
      omega

theorem toNatBE_ofNatBE (width value : ℕ) :
    toNatBE (ofNatBE width value) = value % 256 ^ width := by
  induction width generalizing value with
  | zero => simp [ofNatBE, Nat.mod_one]
  | succ width ih =>
      have hbyte : (UInt8.ofNat (value % 256)).toNat = value % 256 := by
        simp
      rw [ofNatBE, toNatBE_concat, ih, hbyte, pow_succ, Nat.mul_comm (256 ^ width),
        Nat.mod_mul]
      ring

theorem toNatBE_ofNatBE_of_lt {width value : ℕ} (h : value < 256 ^ width) :
    toNatBE (ofNatBE width value) = value := by
  rw [toNatBE_ofNatBE, Nat.mod_eq_of_lt h]

/-- Writing back a number read from `width` bytes gives the same bytes. -/
theorem ofNatBE_toNatBE (bytes : Bytes) :
    ofNatBE bytes.length (toNatBE bytes) = bytes := by
  induction bytes using List.reverseRecOn with
  | nil => rfl
  | append_singleton bytes byte ih =>
      have hbyte : byte.toNat < 256 := byte.toNat_lt
      have hdiv : (toNatBE bytes * 256 + byte.toNat) / 256 = toNatBE bytes := by
        omega
      have hmod : (toNatBE bytes * 256 + byte.toNat) % 256 = byte.toNat := by
        omega
      rw [List.length_append, List.length_singleton, ofNatBE, toNatBE_concat, hdiv, hmod, ih,
        UInt8.ofNat_toNat]

theorem toNatBE_injOn {left right : Bytes} (hlength : left.length = right.length)
    (heq : toNatBE left = toNatBE right) : left = right := by
  rw [← ofNatBE_toNatBE left, ← ofNatBE_toNatBE right, hlength, heq]

theorem byteLength_le_iff {value width : ℕ} :
    byteLength value ≤ width ↔ value < 256 ^ width := by
  have hpow : (256 : ℕ) ^ width = 2 ^ (8 * width) := by
    rw [pow_mul]
    norm_num
  by_cases hzero : value = 0
  · simp [byteLength, hzero]
  · rw [byteLength, if_neg hzero, hpow, ← Nat.log2_lt hzero]
    omega

@[simp]
theorem length_minimalBE (value : ℕ) :
    (minimalBE value).length = byteLength value :=
  length_ofNatBE _ _

@[simp]
theorem toNatBE_minimalBE (value : ℕ) : toNatBE (minimalBE value) = value :=
  toNatBE_ofNatBE_of_lt (byteLength_le_iff.mp le_rfl)

/-- A number never needs more bytes than it was read from. -/
theorem byteLength_toNatBE_le (bytes : Bytes) :
    byteLength (toNatBE bytes) ≤ bytes.length :=
  byteLength_le_iff.mpr (toNatBE_lt bytes)

theorem toNatBE_replicate_zero_append (count : ℕ) (bytes : Bytes) :
    toNatBE (List.replicate count 0 ++ bytes) = toNatBE bytes := by
  have hzero : ∀ count : ℕ, toNatBE (List.replicate count 0) = 0 := by
    intro count
    induction count with
    | zero => rfl
    | succ count ih =>
        rw [List.replicate_succ', toNatBE_concat, ih]
        rfl
  induction bytes using List.reverseRecOn with
  | nil => simpa using hzero count
  | append_singleton bytes byte ih =>
      rw [← List.append_assoc, toNatBE_concat, toNatBE_concat, ih]

theorem toNatBE_append (left right : Bytes) :
    toNatBE (left ++ right) = toNatBE left * 256 ^ right.length + toNatBE right := by
  induction right using List.reverseRecOn with
  | nil => simp
  | append_singleton right byte ih =>
      rw [← List.append_assoc, toNatBE_concat, toNatBE_concat, ih, List.length_append,
        List.length_singleton, pow_succ]
      ring

theorem toNatBE_eq_zero {bytes : Bytes} : toNatBE bytes = 0 ↔ bytes.all (· = 0) := by
  induction bytes using List.reverseRecOn with
  | nil => simp
  | append_singleton bytes byte ih =>
      rw [toNatBE_concat, Nat.add_eq_zero_iff, Nat.mul_eq_zero, ih, List.all_append]
      simp [← UInt8.toNat_inj]

/-- A number is small when the bytes in front are zeros. -/
theorem toNatBE_lt_iff (bytes : Bytes) (count : ℕ) :
    toNatBE bytes < 256 ^ (bytes.length - count) ↔ (bytes.take count).all (· = 0) := by
  have hsplit := toNatBE_append (bytes.take count) (bytes.drop count)
  rw [List.take_append_drop, List.length_drop] at hsplit
  have hrest := toNatBE_lt (bytes.drop count)
  rw [List.length_drop] at hrest
  rw [← toNatBE_eq_zero, hsplit]
  constructor
  · intro hsmall
    by_contra hnonzero
    have hlarge := Nat.le_mul_of_pos_left (256 ^ (bytes.length - count))
      (Nat.pos_of_ne_zero hnonzero)
    omega
  · intro hzero
    rw [hzero, Nat.zero_mul, Nat.zero_add]
    exact hrest

/-- Zeros in front do not count. -/
theorem toNatBE_drop {bytes : Bytes} {count : ℕ} (hzeros : (bytes.take count).all (· = 0)) :
    toNatBE (bytes.drop count) = toNatBE bytes := by
  have hsplit := toNatBE_append (bytes.take count) (bytes.drop count)
  rw [List.take_append_drop, toNatBE_eq_zero.mpr hzeros, Nat.zero_mul, Nat.zero_add] at hsplit
  exact hsplit.symm

end Bytes

end AxelarCgp
