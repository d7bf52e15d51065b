import Mathlib
import AxelarCgp.Core.Outcome

/-!
# Asset ledgers

Balances of accounts in several assets, with the supply of each asset.  The
ledger carries the fact that no set of accounts holds more than the supply, so
a burn never takes more than was issued and a balance bounds nothing but
itself.
-/

namespace AxelarCgp

structure Ledger (Account Asset : Type*) where
  balance : Account → Asset → ℕ
  supply : Asset → ℕ
  backed : ∀ (asset : Asset) (accounts : Finset Account),
    ∑ account ∈ accounts, balance account asset ≤ supply asset

namespace Ledger

variable {Account Asset : Type*} [DecidableEq Account] [DecidableEq Asset]

/-- Nobody holds anything. -/
def empty : Ledger Account Asset where
  balance _ _ := 0
  supply _ := 0
  backed _ _ := by simp

/-- `amount` at one account and asset, nothing elsewhere. -/
def single (account : Account) (asset : Asset) (amount : ℕ)
    (otherAccount : Account) (otherAsset : Asset) : ℕ :=
  if otherAccount = account ∧ otherAsset = asset then amount else 0

@[simp]
theorem single_self (account : Account) (asset : Asset) (amount : ℕ) :
    single account asset amount account asset = amount := by
  simp [single]

theorem single_of_account_ne {account otherAccount : Account}
    (h : otherAccount ≠ account) (asset otherAsset : Asset) (amount : ℕ) :
    single account asset amount otherAccount otherAsset = 0 := by
  simp [single, h]

theorem single_of_asset_ne {asset otherAsset : Asset}
    (h : otherAsset ≠ asset) (account otherAccount : Account) (amount : ℕ) :
    single account asset amount otherAccount otherAsset = 0 := by
  simp [single, h]

theorem single_le (account otherAccount : Account) (asset otherAsset : Asset)
    (amount : ℕ) : single account asset amount otherAccount otherAsset ≤ amount := by
  unfold single
  split <;> omega

/-- Over any set of accounts that contains `account`, the single entry adds
up to its amount. -/
theorem sum_single {accounts : Finset Account} {account : Account}
    (h : account ∈ accounts) (asset : Asset) (amount : ℕ) :
    ∑ other ∈ accounts, single account asset amount other asset = amount := by
  simp [single, h]

/-- Move `amount` between two accounts. -/
def transfer (ledger : Ledger Account Asset) (sender receiver : Account)
    (asset : Asset) (amount : ℕ) : Outcome (Ledger Account Asset) :=
  if h : amount ≤ ledger.balance sender asset then
    .ok {
      balance := fun account other =>
        ledger.balance account other - single sender asset amount account other +
          single receiver asset amount account other
      supply := ledger.supply
      backed := by
        intro other accounts
        by_cases hasset : other = asset
        · subst hasset
          let all := insert sender (insert receiver accounts)
          have hsubset : accounts ⊆ all := by
            intro account haccount
            simp [all, haccount]
          have hbalance : ∀ account ∈ all,
              single sender other amount account other ≤ ledger.balance account other := by
            intro account _
            by_cases haccount : account = sender
            · subst haccount
              simpa using h
            · simp [single_of_account_ne haccount]
          calc
            ∑ account ∈ accounts, (ledger.balance account other -
                  single sender other amount account other +
                  single receiver other amount account other)
              ≤ ∑ account ∈ all, (ledger.balance account other -
                  single sender other amount account other +
                  single receiver other amount account other) :=
                Finset.sum_le_sum_of_subset hsubset
            _ = ∑ account ∈ all, ledger.balance account other - amount + amount := by
                rw [Finset.sum_add_distrib, Finset.sum_tsub_distrib _ hbalance,
                  sum_single (by simp [all]), sum_single (by simp [all])]
            _ = ∑ account ∈ all, ledger.balance account other := by
                apply Nat.sub_add_cancel
                calc
                  amount ≤ ledger.balance sender other := h
                  _ ≤ ∑ account ∈ all, ledger.balance account other :=
                    Finset.single_le_sum (f := fun account => ledger.balance account other)
                      (fun _ _ => Nat.zero_le _) (by simp [all])
            _ ≤ ledger.supply other := ledger.backed other all
        · simpa [single_of_asset_ne hasset] using ledger.backed other accounts }
  else .error "insufficient funds"

/-- Issue `amount` of an asset to an account. -/
def mint (ledger : Ledger Account Asset) (receiver : Account) (asset : Asset)
    (amount : ℕ) : Ledger Account Asset where
  balance account other :=
    ledger.balance account other + single receiver asset amount account other
  supply other := ledger.supply other + if other = asset then amount else 0
  backed other accounts := by
    rw [Finset.sum_add_distrib]
    apply Nat.add_le_add (ledger.backed other accounts)
    by_cases hasset : other = asset
    · subst hasset
      calc
        ∑ account ∈ accounts, single receiver other amount account other
          ≤ ∑ account ∈ insert receiver accounts,
              single receiver other amount account other :=
            Finset.sum_le_sum_of_subset (Finset.subset_insert _ _)
        _ = amount := sum_single (Finset.mem_insert_self _ _) _ _
        _ ≤ if other = other then amount else 0 := by simp
    · simp [single_of_asset_ne hasset]

/-- Destroy `amount` of what an account holds. -/
def burn (ledger : Ledger Account Asset) (holder : Account) (asset : Asset)
    (amount : ℕ) : Outcome (Ledger Account Asset) :=
  if h : amount ≤ ledger.balance holder asset then
    .ok {
      balance := fun account other =>
        ledger.balance account other - single holder asset amount account other
      supply := fun other => ledger.supply other - if other = asset then amount else 0
      backed := by
        intro other accounts
        by_cases hasset : other = asset
        · subst hasset
          let all := insert holder accounts
          have hbalance : ∀ account ∈ all,
              single holder other amount account other ≤ ledger.balance account other := by
            intro account _
            by_cases haccount : account = holder
            · subst haccount
              simpa using h
            · simp [single_of_account_ne haccount]
          calc
            ∑ account ∈ accounts, (ledger.balance account other -
                  single holder other amount account other)
              ≤ ∑ account ∈ all, (ledger.balance account other -
                  single holder other amount account other) :=
                Finset.sum_le_sum_of_subset (Finset.subset_insert _ _)
            _ = ∑ account ∈ all, ledger.balance account other - amount := by
                rw [Finset.sum_tsub_distrib _ hbalance, sum_single (by simp [all])]
            _ ≤ ledger.supply other - if other = other then amount else 0 := by
                simpa using Nat.sub_le_sub_right (ledger.backed other all) amount
        · simpa [single_of_asset_ne hasset, hasset] using ledger.backed other accounts }
  else .error "insufficient funds"

section Effects

variable {ledger after : Ledger Account Asset} {sender receiver account : Account}
variable {asset other : Asset} {amount : ℕ}

/-- What a completed transfer did to every balance and supply. -/
theorem transfer_eq_ok (h : ledger.transfer sender receiver asset amount = .ok after) :
    amount ≤ ledger.balance sender asset ∧
    (∀ account other, after.balance account other =
      ledger.balance account other - single sender asset amount account other +
        single receiver asset amount account other) ∧
    after.supply = ledger.supply := by
  unfold transfer at h
  split at h
  · rename_i henough
    obtain rfl := Except.ok.inj h
    exact ⟨henough, fun _ _ => rfl, rfl⟩
  · simp at h

theorem transfer_isOk (h : amount ≤ ledger.balance sender asset) :
    ∃ after, ledger.transfer sender receiver asset amount = .ok after := by
  simp [transfer, h]

@[simp]
theorem transfer_zero (ledger : Ledger Account Asset) (sender receiver : Account)
    (asset : Asset) : ledger.transfer sender receiver asset 0 = .ok ledger := by
  simp [transfer, single]

theorem burn_eq_ok (h : ledger.burn sender asset amount = .ok after) :
    amount ≤ ledger.balance sender asset ∧
    (∀ account other, after.balance account other =
      ledger.balance account other - single sender asset amount account other) ∧
    (∀ other, after.supply other =
      ledger.supply other - if other = asset then amount else 0) := by
  unfold burn at h
  split at h
  · rename_i henough
    obtain rfl := Except.ok.inj h
    exact ⟨henough, fun _ _ => rfl, fun _ => rfl⟩
  · simp at h

@[simp]
theorem balance_mint (account : Account) (other : Asset) :
    (ledger.mint receiver asset amount).balance account other =
      ledger.balance account other + single receiver asset amount account other := rfl

@[simp]
theorem supply_mint (other : Asset) :
    (ledger.mint receiver asset amount).supply other =
      ledger.supply other + if other = asset then amount else 0 := rfl

omit [DecidableEq Account] [DecidableEq Asset] in
theorem balance_le_supply (ledger : Ledger Account Asset) (account : Account)
    (asset : Asset) : ledger.balance account asset ≤ ledger.supply asset := by
  simpa using ledger.backed asset {account}

/-- The receiver gains the amount when somebody else sent it. -/
theorem balance_transfer_receiver
    (h : ledger.transfer sender receiver asset amount = .ok after)
    (hne : receiver ≠ sender) :
    after.balance receiver asset = ledger.balance receiver asset + amount := by
  obtain ⟨_, hbalance, _⟩ := transfer_eq_ok h
  rw [hbalance, single_of_account_ne hne, single_self, Nat.sub_zero]

end Effects

end Ledger

end AxelarCgp
