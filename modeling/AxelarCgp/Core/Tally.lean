import Mathlib.Algebra.Order.Monoid.Canonical.Defs
import Mathlib.Algebra.BigOperators.Group.List.Basic

/-!
# Tallies that stop at a quota

Ballots are gone through in order.  A void one ends the vote, an absent one is passed over,
and the vote is won as soon as the weights counted so far reach the quota.
-/

namespace AxelarCgp.Tally

inductive Ballot (Weight : Type*) where
  | absent
  | counted (weight : Weight)
  | void

variable {Weight : Type*}

def Ballot.weight [Zero Weight] : Ballot Weight → Weight
  | counted weight => weight
  | _ => 0

def total [AddMonoid Weight] (ballots : List (Ballot Weight)) : Weight :=
  (ballots.map Ballot.weight).sum

/-- Whether the ballots win the vote once `sum` was counted. -/
def wins [Add Weight] [LE Weight] [DecidableLE Weight] (quota : Weight) :
    (sum : Weight) → List (Ballot Weight) → Bool
  | _, [] => false
  | sum, .absent :: ballots => wins quota sum ballots
  | sum, .counted weight :: ballots =>
      decide (quota ≤ sum + weight) || wins quota (sum + weight) ballots
  | _, .void :: _ => false

/-- No ballot is void, and all of them together reach the quota. -/
structure Suffices [AddMonoid Weight] [LE Weight] (quota sum : Weight)
    (ballots : List (Ballot Weight)) : Prop where
  no_void : Ballot.void ∉ ballots
  reached : quota ≤ sum + total ballots

section Totals

variable [AddMonoid Weight] {ballots : List (Ballot Weight)} {ballot : Ballot Weight}

@[simp]
theorem total_nil : total ([] : List (Ballot Weight)) = 0 := rfl

@[simp]
theorem total_cons : total (ballot :: ballots) = ballot.weight + total ballots :=
  List.sum_cons

end Totals

section Quotas

variable [AddMonoid Weight] [LinearOrder Weight]
variable {quota sum weight : Weight} {ballots others : List (Ballot Weight)}

theorem suffices_cons_absent :
    Suffices quota sum (.absent :: ballots) ↔ Suffices quota sum ballots := by
  constructor
  · intro h
    refine ⟨fun hvoid => h.no_void (List.mem_cons_of_mem _ hvoid), ?_⟩
    simpa [Ballot.weight] using h.reached
  · intro h
    refine ⟨by simpa using h.no_void, ?_⟩
    simpa [Ballot.weight] using h.reached

theorem suffices_cons_counted :
    Suffices quota sum (.counted weight :: ballots) ↔ Suffices quota (sum + weight) ballots := by
  constructor
  · intro h
    refine ⟨fun hvoid => h.no_void (List.mem_cons_of_mem _ hvoid), ?_⟩
    simpa [Ballot.weight, add_assoc] using h.reached
  · intro h
    refine ⟨by simpa using h.no_void, ?_⟩
    simpa [Ballot.weight, add_assoc] using h.reached

/-- Ballots that suffice win, whatever follows them. -/
theorem wins_append (hquota : sum < quota) (h : Suffices quota sum ballots) :
    wins quota sum (ballots ++ others) = true := by
  induction ballots generalizing sum with
  | nil => exact absurd (by simpa using h.reached) hquota.not_ge
  | cons ballot ballots ih =>
      cases ballot with
      | absent => exact ih hquota (suffices_cons_absent.mp h)
      | counted weight =>
          rw [List.cons_append, wins, Bool.or_eq_true, decide_eq_true_iff]
          by_cases hreached : quota ≤ sum + weight
          · exact .inl hreached
          · exact .inr (ih (not_le.mp hreached) (suffices_cons_counted.mp h))
      | void => exact absurd (List.mem_cons_self ..) h.no_void

/-- A vote that is won is won by the ballots up to some position. -/
theorem exists_suffices (h : wins quota sum ballots = true) :
    ∃ count ≤ ballots.length, Suffices quota sum (ballots.take count) := by
  induction ballots generalizing sum with
  | nil => contradiction
  | cons ballot ballots ih =>
      cases ballot with
      | absent =>
          obtain ⟨count, hcount, hsuffices⟩ := ih h
          refine ⟨count + 1, Nat.succ_le_succ hcount, ?_⟩
          exact suffices_cons_absent.mpr hsuffices
      | counted weight =>
          rw [wins, Bool.or_eq_true, decide_eq_true_iff] at h
          rcases h with hreached | hrest
          · refine ⟨1, Nat.succ_le_succ (Nat.zero_le _), ?_⟩
            apply suffices_cons_counted.mpr
            exact ⟨List.not_mem_nil, by simpa using hreached⟩
          · obtain ⟨count, hcount, hsuffices⟩ := ih hrest
            refine ⟨count + 1, Nat.succ_le_succ hcount, ?_⟩
            exact suffices_cons_counted.mpr hsuffices
      | void => contradiction

theorem wins_iff (hquota : sum < quota) : wins quota sum ballots = true ↔
    ∃ count ≤ ballots.length, Suffices quota sum (ballots.take count) := by
  constructor
  · exact exists_suffices
  · rintro ⟨count, _, hsuffices⟩
    rw [← List.take_append_drop count ballots]
    exact wins_append hquota hsuffices

end Quotas

section Monotone

variable [AddCommMonoid Weight] [LinearOrder Weight] [IsOrderedAddMonoid Weight]
variable {quota sum more weight : Weight} {ballots : List (Ballot Weight)}

theorem wins_mono (hsum : sum ≤ more) (h : wins quota sum ballots = true) :
    wins quota more ballots = true := by
  induction ballots generalizing sum more with
  | nil => contradiction
  | cons ballot ballots ih =>
      cases ballot with
      | absent => exact ih hsum h
      | counted weight =>
          have hcounted : sum + weight ≤ more + weight := add_le_add_left hsum weight
          rw [wins, Bool.or_eq_true, decide_eq_true_iff] at h ⊢
          exact h.imp (fun hreached => hreached.trans hcounted) (ih hcounted)
      | void => contradiction

variable [CanonicallyOrderedAdd Weight]

/-- A ballot that was absent never loses a vote. -/
theorem wins_set_counted {position : ℕ} (habsent : ballots[position]? = some .absent)
    (h : wins quota sum ballots = true) :
    wins quota sum (ballots.set position (.counted weight)) = true := by
  induction ballots generalizing sum position with
  | nil => contradiction
  | cons ballot ballots ih =>
      cases position with
      | zero =>
          obtain rfl := Option.some.inj habsent
          rw [List.set_cons_zero, wins, Bool.or_eq_true]
          exact .inr (wins_mono le_self_add h)
      | succ position =>
          cases ballot with
          | absent => exact ih habsent h
          | counted other =>
              rw [wins, Bool.or_eq_true] at h
              rw [List.set_cons_succ, wins, Bool.or_eq_true]
              exact h.imp_right (ih habsent)
          | void => contradiction

omit [IsOrderedAddMonoid Weight] in
/-- Where no ballot is void only the total matters. -/
theorem wins_iff_total (hquota : sum < quota) (hvoid : Ballot.void ∉ ballots) :
    wins quota sum ballots = true ↔ quota ≤ sum + total ballots := by
  rw [wins_iff hquota]
  constructor
  · rintro ⟨count, _, hsuffices⟩
    have htotal : total ballots = total (ballots.take count) + total (ballots.drop count) := by
      rw [total, total, total, ← List.sum_append, ← List.map_append, List.take_append_drop]
    calc
      quota ≤ sum + total (ballots.take count) := hsuffices.reached
      _ ≤ sum + total (ballots.take count) + total (ballots.drop count) := le_self_add
      _ = sum + total ballots := by rw [htotal, add_assoc]
  · intro hreached
    refine ⟨ballots.length, le_rfl, ?_⟩
    rw [List.take_length]
    exact ⟨hvoid, hreached⟩

end Monotone

end AxelarCgp.Tally
