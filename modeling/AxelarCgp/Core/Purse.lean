import Mathlib
import AxelarCgp.Core.Outcome

/-!
# Purses

What one account holds of each asset, and lists of amounts that are put in or
taken out together.  Taking out a list stops unless the purse covers the total
of every asset in it.
-/

namespace AxelarCgp

abbrev Purse (Asset : Type) := Asset → ℕ

namespace Purse

variable {Asset : Type} [DecidableEq Asset]

/-- The total of one asset in a list of amounts. -/
def total (amounts : List (Asset × ℕ)) (asset : Asset) : ℕ :=
  ((amounts.filter fun entry => entry.1 = asset).map Prod.snd).sum

def deposit (purse : Purse Asset) (amounts : List (Asset × ℕ)) : Purse Asset :=
  fun asset => purse asset + total amounts asset

/-- Take out the amounts one after the other. -/
def withdraw : Purse Asset → List (Asset × ℕ) → Outcome (Purse Asset)
  | purse, [] => .ok purse
  | purse, (asset, amount) :: amounts => do
      require (amount ≤ purse asset) "insufficient funds"
      withdraw (Function.update purse asset (purse asset - amount)) amounts

@[simp]
theorem total_nil (asset : Asset) : total [] asset = 0 := rfl

@[simp]
theorem total_cons (entry : Asset × ℕ) (amounts : List (Asset × ℕ)) (asset : Asset) :
    total (entry :: amounts) asset =
      (if entry.1 = asset then entry.2 else 0) + total amounts asset := by
  by_cases h : entry.1 = asset <;> simp [total, h]

@[simp]
theorem total_append (first second : List (Asset × ℕ)) (asset : Asset) :
    total (first ++ second) asset = total first asset + total second asset := by
  simp [total]

theorem total_perm {first second : List (Asset × ℕ)} (h : first.Perm second) (asset : Asset) :
    total first asset = total second asset :=
  ((h.filter _).map _).sum_eq

@[simp]
theorem deposit_apply (purse : Purse Asset) (amounts : List (Asset × ℕ)) (asset : Asset) :
    deposit purse amounts asset = purse asset + total amounts asset := rfl

/-- A withdrawal completes exactly when every total is covered. -/
theorem withdraw_eq_ok {amounts : List (Asset × ℕ)} {purse after : Purse Asset} :
    withdraw purse amounts = .ok after ↔
      (∀ asset, total amounts asset ≤ purse asset) ∧
      after = fun asset => purse asset - total amounts asset := by
  induction amounts generalizing purse with
  | nil => simp [withdraw, eq_comm]
  | cons entry amounts ih =>
      obtain ⟨asset, amount⟩ := entry
      have hupdate : ∀ other, Function.update purse asset (purse asset - amount) other =
          purse other - if asset = other then amount else 0 := by
        intro other
        by_cases h : asset = other
        · subst h
          simp
        · simp [Function.update_of_ne (Ne.symm h), h]
      simp only [withdraw, Outcome.bind_eq_ok, Outcome.exists_unit, Outcome.require_eq_ok, ih,
        hupdate, total_cons]
      constructor
      · rintro ⟨hfirst, hrest, rfl⟩
        refine ⟨fun other => ?_, funext fun other => by omega⟩
        have hother := hrest other
        by_cases heq : asset = other
        · subst heq
          rw [if_pos rfl] at *
          omega
        · rw [if_neg heq] at *
          omega
      · rintro ⟨hall, rfl⟩
        have hasset := hall asset
        rw [if_pos rfl] at hasset
        refine ⟨by omega, fun other => ?_, funext fun other => by omega⟩
        have hother := hall other
        omega

theorem withdraw_isOk {amounts : List (Asset × ℕ)} {purse : Purse Asset}
    (h : ∀ asset, total amounts asset ≤ purse asset) :
    ∃ after, withdraw purse amounts = .ok after :=
  ⟨_, withdraw_eq_ok.mpr ⟨h, rfl⟩⟩

end Purse

end AxelarCgp
