import Mathlib.Data.List.Basic
import Mathlib.Logic.Function.Basic
import Mathlib.Tactic.Common

/-!
# Accounts that come in once and leave once

Every account is first outside, may come in, and may leave, and then it is gone.  A history
of such moves lets nobody leave twice, and nobody leave who was not in; the accounts inside
are counted by those that came in and those that left.
-/

namespace AxelarCgp.Passage

variable {Account : Type*} [DecidableEq Account]

inductive Stage where
  | outside
  | inside
  | gone
  deriving DecidableEq

inductive Event (Account : Type*) where
  | enters (account : Account)
  | leaves (account : Account)
  deriving DecidableEq

def leaving (events : List (Event Account)) : List Account :=
  events.filterMap fun
    | .enters _ => none
    | .leaves account => some account

/-- The events move the accounts from some stages to others, one after the other. -/
inductive Moves : (Account → Stage) → List (Event Account) → (Account → Stage) → Prop
  | nil (stages : Account → Stage) : Moves stages [] stages
  | enters {stages last : Account → Stage} {account : Account}
      {events : List (Event Account)} :
      stages account = .outside →
      Moves (Function.update stages account .inside) events last →
      Moves stages (.enters account :: events) last
  | leaves {stages last : Account → Stage} {account : Account}
      {events : List (Event Account)} :
      stages account = .inside →
      Moves (Function.update stages account .gone) events last →
      Moves stages (.leaves account :: events) last

section Lists

variable {account : Account} {events first second : List (Event Account)}

omit [DecidableEq Account] in
@[simp]
theorem mem_leaving : account ∈ leaving events ↔ .leaves account ∈ events := by
  rw [leaving, List.mem_filterMap]
  constructor
  · rintro ⟨event, hevent, haccount⟩
    cases event with
    | enters other => simp at haccount
    | leaves other =>
        obtain rfl := Option.some.inj haccount
        exact hevent
  · intro hleaves
    exact ⟨_, hleaves, rfl⟩

omit [DecidableEq Account] in
theorem leaving_append : leaving (first ++ second) = leaving first ++ leaving second :=
  List.filterMap_append

omit [DecidableEq Account] in
theorem leaving_map_leaves (accounts : List Account) :
    leaving (accounts.map Event.leaves) = accounts := by
  rw [leaving, List.filterMap_map]
  exact List.filterMap_some

end Lists

namespace Moves

variable {stages middle last : Account → Stage} {account : Account}
variable {events first second : List (Event Account)}

theorem trans (hfirst : Moves stages first middle) (hsecond : Moves middle second last) :
    Moves stages (first ++ second) last := by
  induction hfirst with
  | nil _ => exact hsecond
  | enters houtside _ ih => exact .enters houtside (ih hsecond)
  | leaves hinside _ ih => exact .leaves hinside (ih hsecond)

/-- Whoever is gone stays so, and does not leave. -/
theorem frozen (h : Moves stages events last) (hgone : stages account = .gone) :
    last account = .gone ∧ .leaves account ∉ events := by
  induction h with
  | nil _ => simp [hgone]
  | @enters stages _ other _ houtside _ ih =>
      have hother : account ≠ other := by
        rintro rfl
        rw [hgone] at houtside
        contradiction
      have hrest := ih ((Function.update_of_ne hother _ _).trans hgone)
      simpa using hrest
  | @leaves stages _ other _ hinside _ ih =>
      have hother : account ≠ other := by
        rintro rfl
        rw [hgone] at hinside
        contradiction
      have hrest := ih ((Function.update_of_ne hother _ _).trans hgone)
      simpa [hother] using hrest

/-- Those who are gone were, or left. -/
theorem gone_iff (h : Moves stages events last) :
    last account = .gone ↔ stages account = .gone ∨ .leaves account ∈ events := by
  induction h with
  | nil _ => simp
  | @enters stages _ other _ houtside _ ih =>
      rw [ih]
      by_cases hother : account = other
      · subst hother
        simp [houtside]
      · simp [Function.update_of_ne hother]
  | @leaves stages _ other _ hinside _ ih =>
      rw [ih]
      by_cases hother : account = other
      · simp [hother]
      · simp [hother]

/-- Nobody leaves twice. -/
theorem nodup_leaving (h : Moves stages events last) : (leaving events).Nodup := by
  induction h with
  | nil _ => exact List.nodup_nil
  | enters _ _ ih => exact ih
  | leaves _ hrest ih =>
      have hagain := (hrest.frozen (Function.update_self ..)).2
      exact List.nodup_cons.mpr ⟨fun hmem => hagain (mem_leaving.mp hmem), ih⟩

/-- Whoever leaves came in before, or was in. -/
theorem entered {before after : List (Event Account)}
    (h : Moves stages (before ++ .leaves account :: after) last) :
    stages account = .inside ∨ .enters account ∈ before := by
  induction before generalizing stages with
  | nil =>
      cases h with
      | leaves hinside _ => exact .inl hinside
  | cons event before ih =>
      cases h with
      | @enters _ _ other _ _ hrest =>
          by_cases hother : account = other
          · exact .inr (by simp [hother])
          · have hbefore := ih hrest
            rw [Function.update_of_ne hother] at hbefore
            exact hbefore.imp_right (List.mem_cons_of_mem _)
      | @leaves _ _ other _ hinside hrest =>
          by_cases hother : account = other
          · exact .inl (hother ▸ hinside)
          · have hbefore := ih hrest
            rw [Function.update_of_ne hother] at hbefore
            exact hbefore.imp_right (List.mem_cons_of_mem _)

end Moves

end AxelarCgp.Passage
