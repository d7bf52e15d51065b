import AxelarCgp.Core.Bytes

/-!
# Heads and tails

A tuple is written as one word for each of its parts, followed by what does not
fit into a word: the word of such a part is the position at which the rest of it
begins, counted from the first byte of the tuple.
-/

namespace AxelarCgp.HeadTail

/-- The number as a word of 32 bytes, filled up with zeros on the left. -/
def word (value : ℕ) : Bytes :=
  Bytes.ofNatBE 32 value

/-- The bytes, filled up with zeros on the right to whole words. -/
def padRight (bytes : Bytes) : Bytes :=
  bytes ++ List.replicate ((32 - bytes.length % 32) % 32) 0

/-- A part that is one word, or one that has a tail. -/
inductive Part where
  | static (word : Bytes)
  | dynamic (tail : Bytes)

namespace Part

/-- The head of a part whose tail begins at `position`. -/
def head (position : ℕ) : Part → Bytes
  | static value => value
  | dynamic _ => HeadTail.word position

def tail : Part → Bytes
  | static _ => []
  | dynamic bytes => bytes

/-- Heads are words, and tails are made of words. -/
structure Aligned (part : Part) : Prop where
  head : ∀ position, (part.head position).length = 32
  tail : 32 ∣ part.tail.length

end Part

/-- Where the tail of the part at `index` begins. -/
def tailPosition (parts : List Part) (index : ℕ) : ℕ :=
  32 * parts.length + ((parts.take index).flatMap Part.tail).length

def encode (parts : List Part) : Bytes :=
  (parts.zipIdx.flatMap fun entry => entry.1.head (tailPosition parts entry.2)) ++
    parts.flatMap Part.tail

/-- The heads of the parts, the tail of the first one beginning at `position`. -/
def headsFrom (position : ℕ) : List Part → Bytes
  | [] => []
  | part :: parts => part.head position ++ headsFrom (position + part.tail.length) parts

theorem tailPosition_next (before : List Part) (part : Part) (after : List Part) :
    tailPosition (before ++ part :: after) (before.length + 1) =
      tailPosition (before ++ part :: after) before.length + part.tail.length := by
  have htake : (before ++ part :: after).take (before.length + 1) = before ++ [part] := by
    rw [List.append_cons, List.take_left' (by simp)]
  simp only [tailPosition, htake, List.take_left, List.flatMap_append, List.flatMap_singleton,
    List.length_append, Nat.add_assoc]

/-- The heads of the last parts of a tuple. -/
theorem heads_eq_headsFrom (before after : List Part) :
    ((after.zipIdx before.length).flatMap fun entry =>
      entry.1.head (tailPosition (before ++ after) entry.2)) =
        headsFrom (tailPosition (before ++ after) before.length) after := by
  induction after generalizing before with
  | nil => rfl
  | cons part after ih =>
    have hrest := ih (before ++ [part])
    rw [List.append_assoc, List.singleton_append, List.length_append, List.length_singleton,
      tailPosition_next] at hrest
    rw [List.zipIdx_cons, List.flatMap_cons, hrest, headsFrom]

theorem encode_eq_headsFrom (parts : List Part) :
    encode parts = headsFrom (32 * parts.length) parts ++ parts.flatMap Part.tail := by
  have hheads := heads_eq_headsFrom [] parts
  rw [List.nil_append, List.length_nil] at hheads
  rw [encode, hheads, tailPosition, List.take_zero, List.flatMap_nil, List.length_nil,
    Nat.add_zero]

theorem length_headsFrom {parts : List Part} (haligned : ∀ part ∈ parts, part.Aligned)
    (position : ℕ) : (headsFrom position parts).length = 32 * parts.length := by
  induction parts generalizing position with
  | nil => rfl
  | cons part parts ih =>
    have hhead := (haligned part List.mem_cons_self).head position
    have hothers := ih (fun other hmem => haligned other (List.mem_cons_of_mem _ hmem))
      (position + part.tail.length)
    rw [headsFrom, List.length_append, hhead, hothers, List.length_cons]
    ring

theorem dvd_length_tails {parts : List Part} (haligned : ∀ part ∈ parts, part.Aligned) :
    32 ∣ (parts.flatMap Part.tail).length := by
  induction parts with
  | nil => exact Nat.dvd_zero 32
  | cons part parts ih =>
    rw [List.flatMap_cons, List.length_append]
    exact Nat.dvd_add (haligned part List.mem_cons_self).tail
      (ih fun other hmem => haligned other (List.mem_cons_of_mem _ hmem))

/-- A tuple takes whole words. -/
theorem dvd_length_encode {parts : List Part} (haligned : ∀ part ∈ parts, part.Aligned) :
    32 ∣ (encode parts).length := by
  rw [encode_eq_headsFrom, List.length_append, length_headsFrom haligned]
  exact Nat.dvd_add (Nat.dvd_mul_right 32 _) (dvd_length_tails haligned)

@[simp]
theorem length_word (value : ℕ) : (word value).length = 32 :=
  Bytes.length_ofNatBE 32 value

theorem dvd_length_padRight (bytes : Bytes) : 32 ∣ (padRight bytes).length := by
  rw [padRight, List.length_append, List.length_replicate]
  omega

/-- A word is known by its number. -/
theorem eq_word {bytes : Bytes} {value : ℕ} (hlength : bytes.length = 32)
    (hvalue : Bytes.toNatBE bytes = value) : bytes = word value := by
  rw [word, ← hvalue, ← hlength, Bytes.ofNatBE_toNatBE]

end AxelarCgp.HeadTail
