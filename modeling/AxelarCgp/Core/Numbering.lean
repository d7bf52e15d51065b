import Mathlib

/-!
# Numbered keys

A growing list of keys kept as a counter and two maps, from numbers to keys
and from keys to numbers.  Numbers start at one, so that zero says a key is
not there.  The maps of such a list are inverse to one another, and no key
occurs in it twice.
-/

namespace AxelarCgp

variable {Key : Type*}

/-- The counter and the two maps hold exactly `keys`, in order. -/
structure Numbering (keys : List Key) (count : ℕ) (keyAt : ℕ → Option Key)
    (numberOf : Key → ℕ) : Prop where
  count_eq : count = keys.length
  keyAt_zero : keyAt 0 = none
  keyAt_succ : ∀ index, keyAt (index + 1) = keys[index]?
  numberOf_eq : ∀ key index, numberOf key = index + 1 ↔ keys[index]? = some key

namespace Numbering

variable {keys : List Key} {count : ℕ} {keyAt : ℕ → Option Key} {numberOf : Key → ℕ}

theorem nil : Numbering [] 0 (fun _ => none) (fun _ : Key => 0) where
  count_eq := rfl
  keyAt_zero := rfl
  keyAt_succ := by simp
  numberOf_eq := by simp

theorem keyAt_eq_some_iff (h : Numbering keys count keyAt numberOf) {key : Key}
    {number : ℕ} : keyAt number = some key ↔ 0 < number ∧ numberOf key = number := by
  cases number with
  | zero => simp [h.keyAt_zero]
  | succ index => simp [h.keyAt_succ, h.numberOf_eq]

theorem mem_iff (h : Numbering keys count keyAt numberOf) {key : Key} :
    key ∈ keys ↔ 0 < numberOf key := by
  rw [List.mem_iff_getElem?]
  constructor
  · rintro ⟨index, hindex⟩
    rw [(h.numberOf_eq key index).mpr hindex]
    exact Nat.succ_pos index
  · intro hpos
    refine ⟨numberOf key - 1, (h.numberOf_eq key _).mp ?_⟩
    omega

theorem numberOf_le (h : Numbering keys count keyAt numberOf) (key : Key) :
    numberOf key ≤ count := by
  cases hnumber : numberOf key with
  | zero => exact Nat.zero_le _
  | succ index =>
      rw [h.count_eq]
      exact (List.getElem?_eq_some_iff.mp ((h.numberOf_eq key index).mp hnumber)).1

/-- Every number up to the counter has a key, and that key has the number. -/
theorem exists_keyAt (h : Numbering keys count keyAt numberOf) {number : ℕ}
    (hpos : 0 < number) (hle : number ≤ count) :
    ∃ key, keyAt number = some key ∧ numberOf key = number := by
  obtain ⟨index, rfl⟩ := Nat.exists_eq_add_of_lt hpos
  rw [Nat.zero_add] at *
  have hindex : index < keys.length := h.count_eq ▸ hle
  have hkey : keys[index]? = some keys[index] := List.getElem?_eq_getElem hindex
  exact ⟨keys[index], (h.keyAt_succ index).trans hkey, (h.numberOf_eq _ _).mpr hkey⟩

theorem keyAt_of_lt (h : Numbering keys count keyAt numberOf) {number : ℕ}
    (hlt : count < number) : keyAt number = none := by
  rw [Option.eq_none_iff_forall_ne_some]
  intro key hkey
  have hnumber := (h.keyAt_eq_some_iff.mp hkey).2
  have hle := h.numberOf_le key
  omega

/-- No key occurs twice: its number would have to be both positions. -/
theorem nodup (h : Numbering keys count keyAt numberOf) : keys.Nodup := by
  rw [List.nodup_iff_injective_get]
  intro left right heq
  have hleft : keys[left.1]? = some (keys.get left) := List.getElem?_eq_getElem left.2
  have hright : keys[right.1]? = some (keys.get left) := by
    rw [heq]
    exact List.getElem?_eq_getElem right.2
  have hnumbers : left.1 + 1 = right.1 + 1 :=
    ((h.numberOf_eq _ _).mpr hleft).symm.trans ((h.numberOf_eq _ _).mpr hright)
  exact Fin.ext (by omega)

/-- A key that is not there may be appended under the next number. -/
theorem snoc [DecidableEq Key] (h : Numbering keys count keyAt numberOf) {key : Key}
    (hfresh : numberOf key = 0) :
    Numbering (keys ++ [key]) (count + 1) (Function.update keyAt (count + 1) (some key))
      (Function.update numberOf key (count + 1)) where
  count_eq := by simp [h.count_eq]
  keyAt_zero := by simp [Function.update, h.keyAt_zero]
  keyAt_succ index := by
    by_cases hlast : index = count
    · subst hlast
      simp [h.count_eq]
    · rw [Function.update_of_ne (by omega), h.keyAt_succ, h.count_eq] at *
      rcases Nat.lt_or_gt_of_ne hlast with hlt | hgt
      · rw [List.getElem?_append_left hlt]
      · rw [List.getElem?_eq_none (by omega), List.getElem?_eq_none (by simp; omega)]
  numberOf_eq other index := by
    have hcount := h.count_eq
    by_cases hkey : other = key
    · subst hkey
      have habsent : keys[index]? ≠ some other := by
        intro hindex
        have hnumber := (h.numberOf_eq other index).mpr hindex
        omega
      rw [Function.update_self]
      rcases Nat.lt_trichotomy index count with hlt | heq | hgt
      · rw [List.getElem?_append_left (by omega)]
        simp only [habsent, iff_false]
        omega
      · simp [heq, hcount]
      · rw [List.getElem?_eq_none (by simp; omega)]
        simp only [reduceCtorEq, iff_false]
        omega
    · rw [Function.update_of_ne hkey, h.numberOf_eq]
      rcases Nat.lt_trichotomy index count with hlt | heq | hgt
      · rw [List.getElem?_append_left (by omega)]
      · simp [heq, hcount, Ne.symm hkey]
      · rw [List.getElem?_eq_none (by omega), List.getElem?_eq_none (by simp; omega)]

end Numbering

end AxelarCgp
