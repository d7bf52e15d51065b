import AxelarCgp.Core.Bytes

/-!
# Nested serialization

Values that are written one after another into a buffer must be recoverable
without separators: numbers of a machine width and fixed arrays by their
width, everything else by a four-byte length in front.  A codec is a writer, a
reader, and the law that the reader takes exactly the written value off the
front of any buffer.  Unambiguity of every concatenation of such values, which
is what hash preimages built from them rely on, follows from the law alone.
-/

namespace AxelarCgp

/-- Lengths are written in 32 bits. -/
def lengthLimit : ℕ := 2 ^ 32

abbrev FixedBytes (length : ℕ) := { bytes : Bytes // bytes.length = length }

/-- A byte string whose length fits in 32 bits. -/
abbrev Buffer := { bytes : Bytes // bytes.length < lengthLimit }

/-- An unbounded number that some buffer can hold. -/
abbrev BigUint := { value : ℕ // Bytes.byteLength value < lengthLimit }

/-- A list whose item count fits in 32 bits. -/
abbrev Vec (A : Type*) := { items : List A // items.length < lengthLimit }

def Vec.nil {A : Type*} : Vec A := ⟨[], Nat.two_pow_pos 32⟩

class NestedCodec (A : Type*) where
  depEncode : A → Bytes
  depDecode : Bytes → Option (A × Bytes)
  depDecode_depEncode_append : ∀ value rest,
    depDecode (depEncode value ++ rest) = some (value, rest)

namespace NestedCodec

variable {A B : Type*} [NestedCodec A] [NestedCodec B]

theorem depEncode_append_inj {left right : A} {leftRest rightRest : Bytes}
    (heq : depEncode left ++ leftRest = depEncode right ++ rightRest) :
    left = right ∧ leftRest = rightRest := by
  have hread := depDecode_depEncode_append left leftRest
  rw [heq, depDecode_depEncode_append] at hread
  simpa [eq_comm] using hread

theorem depEncode_injective : Function.Injective (depEncode : A → Bytes) := by
  intro left right heq
  have happend : depEncode left ++ [] = depEncode right ++ [] := by simpa using heq
  exact (depEncode_append_inj happend).1

/-! ## Fixed widths -/

/-- Take `width` bytes off the front. -/
def takeBytes (width : ℕ) (bytes : Bytes) : Option (FixedBytes width × Bytes) :=
  if h : width ≤ bytes.length then
    some (⟨bytes.take width, by simpa using h⟩, bytes.drop width)
  else none

theorem takeBytes_append {width : ℕ} (value : FixedBytes width) (rest : Bytes) :
    takeBytes width (value.1 ++ rest) = some (value, rest) := by
  obtain ⟨bytes, rfl⟩ := value
  simp [takeBytes]

instance {width : ℕ} : NestedCodec (FixedBytes width) where
  depEncode value := value.1
  depDecode := takeBytes width
  depDecode_depEncode_append := takeBytes_append

/-- A number written in `width` bytes. -/
def writeNat (width value : ℕ) : FixedBytes width :=
  ⟨Bytes.ofNatBE width value, Bytes.length_ofNatBE width value⟩

theorem toNatBE_writeNat {width value : ℕ} (h : value < 256 ^ width) :
    Bytes.toNatBE (writeNat width value).1 = value :=
  Bytes.toNatBE_ofNatBE_of_lt h

/-- The codec of a type whose values are read from and written to another. -/
@[reducible]
def via {C : Type*} (toFields : C → A) (ofFields : A → C)
    (h : ∀ value, ofFields (toFields value) = value) : NestedCodec C where
  depEncode value := depEncode (toFields value)
  depDecode bytes := (depDecode bytes).map fun read => (ofFields read.1, read.2)
  depDecode_depEncode_append value rest := by
    simp [depDecode_depEncode_append, h]

instance : NestedCodec UInt8 :=
  via (fun value => writeNat 1 value.toNat)
    (fun bytes => UInt8.ofNat (Bytes.toNatBE bytes.1)) (by
      intro value
      rw [toNatBE_writeNat value.toNat_lt, UInt8.ofNat_toNat])

instance : NestedCodec UInt32 :=
  via (fun value => writeNat 4 value.toNat)
    (fun bytes => UInt32.ofNat (Bytes.toNatBE bytes.1)) (by
      intro value
      rw [toNatBE_writeNat value.toNat_lt, UInt32.ofNat_toNat])

instance : NestedCodec UInt64 :=
  via (fun value => writeNat 8 value.toNat)
    (fun bytes => UInt64.ofNat (Bytes.toNatBE bytes.1)) (by
      intro value
      rw [toNatBE_writeNat value.toNat_lt, UInt64.ofNat_toNat])

/-! ## Length prefixes -/

/-- Read a four-byte length. -/
def readLength (bytes : Bytes) : Option ({ length : ℕ // length < lengthLimit } × Bytes) :=
  (takeBytes 4 bytes).map fun read =>
    (⟨Bytes.toNatBE read.1.1, by
      have h := Bytes.toNatBE_lt read.1.1
      rw [read.1.2] at h
      simpa [lengthLimit] using h⟩, read.2)

theorem readLength_append {length : ℕ} (h : length < lengthLimit) (rest : Bytes) :
    readLength ((writeNat 4 length).1 ++ rest) = some (⟨length, h⟩, rest) := by
  have hfits : length < 256 ^ 4 := by simpa [lengthLimit] using h
  simp [readLength, takeBytes_append, toNatBE_writeNat hfits]

/-- Write a byte string behind its length. -/
def encodeBuffer (buffer : Buffer) : Bytes :=
  (writeNat 4 buffer.1.length).1 ++ buffer.1

/-- Read a length and then as many bytes. -/
def decodeBuffer (bytes : Bytes) : Option (Buffer × Bytes) :=
  (readLength bytes).bind fun read =>
    (takeBytes read.1.1 read.2).map fun content =>
      (⟨content.1.1, by rw [content.1.2]; exact read.1.2⟩, content.2)

theorem decodeBuffer_append (buffer : Buffer) (rest : Bytes) :
    decodeBuffer (encodeBuffer buffer ++ rest) = some (buffer, rest) := by
  have htake : takeBytes buffer.1.length (buffer.1 ++ rest) =
      some (⟨buffer.1, rfl⟩, rest) := takeBytes_append ⟨buffer.1, rfl⟩ rest
  rw [decodeBuffer, encodeBuffer, List.append_assoc, readLength_append buffer.2]
  simp [htake]

instance : NestedCodec Buffer where
  depEncode := encodeBuffer
  depDecode := decodeBuffer
  depDecode_depEncode_append := decodeBuffer_append

instance : NestedCodec BigUint :=
  via (fun value => (⟨Bytes.minimalBE value.1, by simpa using value.2⟩ : Buffer))
    (fun buffer => ⟨Bytes.toNatBE buffer.1,
      (Bytes.byteLength_toNatBE_le buffer.1).trans_lt buffer.2⟩)
    (by intro value; simp)

/-! ## Products, options and vectors -/

instance : NestedCodec (A × B) where
  depEncode value := depEncode value.1 ++ depEncode value.2
  depDecode bytes := (depDecode bytes).bind fun first =>
    (depDecode first.2).map fun second => ((first.1, second.1), second.2)
  depDecode_depEncode_append value rest := by
    simp [List.append_assoc, depDecode_depEncode_append]

/-- Absence is the byte 0, presence the byte 1 and then the value. -/
instance : NestedCodec (Option A) where
  depEncode
    | none => [0]
    | some value => 1 :: depEncode value
  depDecode
    | 0 :: rest => some (none, rest)
    | 1 :: rest => (depDecode rest).map fun read => (some read.1, read.2)
    | _ => none
  depDecode_depEncode_append value rest := by
    cases value with
    | none => rfl
    | some value =>
        simp only [List.cons_append, depDecode_depEncode_append]
        rfl

/-- The items one after another, without a count. -/
def encodeItems (items : List A) : Bytes :=
  items.flatMap depEncode

/-- Read `count` items. -/
def decodeItems : (count : ℕ) → Bytes → Option ({ items : List A // items.length = count } × Bytes)
  | 0, bytes => some (⟨[], rfl⟩, bytes)
  | count + 1, bytes =>
      (depDecode bytes).bind fun first =>
        (decodeItems count first.2).map fun others =>
          (⟨first.1 :: others.1.1, by simp [others.1.2]⟩, others.2)

theorem decodeItems_append (items : List A) (rest : Bytes) :
    decodeItems items.length (encodeItems items ++ rest) = some (⟨items, rfl⟩, rest) := by
  induction items with
  | nil => rfl
  | cons item items ih =>
      have hsplit : encodeItems (item :: items) ++ rest =
          depEncode item ++ (encodeItems items ++ rest) := by
        simp [encodeItems, List.append_assoc]
      simp only [hsplit, List.length_cons, decodeItems, depDecode_depEncode_append,
        Option.bind_some, ih, Option.map_some]

instance : NestedCodec (Vec A) where
  depEncode vec := (writeNat 4 vec.1.length).1 ++ encodeItems vec.1
  depDecode bytes := (readLength bytes).bind fun read =>
    (decodeItems read.1.1 read.2).map fun items =>
      (⟨items.1.1, by rw [items.1.2]; exact read.1.2⟩, items.2)
  depDecode_depEncode_append vec rest := by
    rw [List.append_assoc, readLength_append vec.2]
    simp [decodeItems_append]

/-! ## Whole buffers -/

/-- Read one value that must use up the whole buffer. -/
def topDecode (bytes : Bytes) : Option A :=
  match depDecode bytes with
  | some (value, []) => some value
  | _ => none

@[simp]
theorem topDecode_depEncode (value : A) : topDecode (depEncode value) = some value := by
  have h := depDecode_depEncode_append value []
  rw [List.append_nil] at h
  simp [topDecode, h]

/-- Read items until the buffer is used up; `fuel` bounds their number. -/
def decodeUntilDepleted : (fuel : ℕ) → Bytes → Option (List A)
  | _, [] => some []
  | 0, _ :: _ => none
  | fuel + 1, bytes =>
      (depDecode bytes).bind fun first =>
        (decodeUntilDepleted fuel first.2).map fun others => first.1 :: others

/-- A vector at top level carries no count: items follow until the end.  Items
take at least one byte, so the length bounds their number. -/
def topDecodeVec (bytes : Bytes) : Option (List A) :=
  decodeUntilDepleted bytes.length bytes

end NestedCodec

end AxelarCgp
