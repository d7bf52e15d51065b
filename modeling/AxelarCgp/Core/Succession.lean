import Mathlib.Data.Set.Card
import AxelarCgp.Core.Machine

/-!
# Succession

An authority that its holders hand on: whoever gives it loses it to whoever takes it,
and the two may be the same.  The holders are never more than before and never
none, and an authority with one holder has one in every state of a run.
-/

namespace AxelarCgp.Succession

variable {Account : Type*} {holders next : Set Account} {giver taker account : Account}

/-- The holders once one account has handed on what it held. -/
def handOn (holders : Set Account) (giver taker : Account) : Set Account :=
  insert taker (holders \ {giver})

/-- The holders are the same, or one of them has handed on what it held. -/
inductive Passes (holders : Set Account) : Set Account → Prop where
  | stays : Passes holders holders
  | hands {giver taker : Account} : giver ∈ holders → Passes holders (handOn holders giver taker)

/-- Who gains the authority is the one that takes it. -/
theorem eq_taker_of_gains (hlacks : account ∉ holders)
    (hholds : account ∈ handOn holders giver taker) : account = taker := by
  rcases hholds with htaker | hkept
  · exact htaker
  · exact absurd hkept.1 hlacks

/-- Who gives the authority to another loses it. -/
theorem giver_loses (hother : giver ≠ taker) : giver ∉ handOn holders giver taker := by
  rintro (htaker | hkept)
  · exact hother htaker
  · exact hkept.2 rfl

@[simp]
theorem handOn_singleton (giver taker : Account) : handOn {giver} giver taker = {taker} := by
  ext account
  simp [handOn]

theorem Passes.nonempty (h : Passes holders next) (hsome : holders.Nonempty) : next.Nonempty := by
  cases h with
  | stays => exact hsome
  | hands => exact Set.insert_nonempty _ _

theorem Passes.finite (h : Passes holders next) (hfinite : holders.Finite) : next.Finite := by
  cases h with
  | stays => exact hfinite
  | hands => exact hfinite.sdiff.insert _

theorem Passes.ncard_le (h : Passes holders next) (hfinite : holders.Finite) :
    next.ncard ≤ holders.ncard := by
  cases h with
  | stays => exact le_rfl
  | @hands giver taker hgiver =>
    calc
      (handOn holders giver taker).ncard ≤ (holders \ {giver}).ncard + 1 :=
        Set.ncard_insert_le _ _
      _ = holders.ncard := Set.ncard_sdiff_singleton_add_one hgiver hfinite

/-! ## Runs -/

section Runs

variable {State Input Output : Type*} {machine : Machine State Input Output}
variable {start state : State} {history : List (Entry Input Output)}

/-- What a run keeps of an authority that every completed step passes on. -/
structure Kept (before after : Set Account) : Prop where
  finite : after.Finite
  nonempty : after.Nonempty
  ncard_le : after.ncard ≤ before.ncard

/-- Who was the only one has one successor. -/
theorem Kept.singleton {after : Set Account} (h : Kept {account} after) :
    ∃ successor, after = {successor} := by
  have hle := h.ncard_le
  have hpos := (Set.ncard_pos h.finite).mpr h.nonempty
  rw [Set.ncard_singleton] at hle
  exact Set.ncard_eq_one.mp (by omega)

theorem kept_run (view : State → Set Account) (hfinite : (view start).Finite)
    (hsome : (view start).Nonempty)
    (hpasses : ∀ history state input next output, machine.Run start history state →
      machine.step state input = .ok (next, output) → Passes (view state) (view next))
    (hrun : machine.Run start history state) : Kept (view start) (view state) := by
  induction hrun with
  | start => exact ⟨hfinite, hsome, le_rfl⟩
  | stopped _ _ ih => exact ih
  | completed hbefore hok ih =>
    have hstep := hpasses _ _ _ _ _ hbefore hok
    exact ⟨hstep.finite ih.finite, hstep.nonempty ih.nonempty,
      (hstep.ncard_le ih.finite).trans ih.ncard_le⟩

/-- From every state of a run the holders only become fewer. -/
theorem kept_between (view : State → Set Account) (hfinite : (view start).Finite)
    (hsome : (view start).Nonempty)
    (hpasses : ∀ history state input next output, machine.Run start history state →
      machine.step state input = .ok (next, output) → Passes (view state) (view next))
    {before after : List (Entry Input Output)} {reached : State}
    (hrun : machine.Run start (before ++ after) state)
    (hreached : machine.Run start before reached) : Kept (view reached) (view state) := by
  obtain ⟨middle, hbefore, hafter⟩ := hrun.split
  obtain rfl := hreached.unique hbefore
  have hkept := kept_run view hfinite hsome hpasses hreached
  apply kept_run view hkept.finite hkept.nonempty _ hafter
  intro later middle input next output hlater hok
  exact hpasses _ _ _ _ _ (hreached.trans hlater) hok

end Runs

end AxelarCgp.Succession
