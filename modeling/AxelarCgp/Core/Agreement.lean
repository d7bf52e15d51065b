import Mathlib.Data.Option.Basic
import AxelarCgp.Core.Machine

/-!
# Agreement

Two calls agree when both stop with the same message, or both complete with related values.
Agreement follows the structure of the programs, statement by statement.  Two machines that agree
at every step mirror one another: from related states on, the same inputs get the same answers.
-/

namespace AxelarCgp

universe u v

namespace Outcome

variable {A C : Type u} {B D : Type v}

/-- Both stop with one message, or both complete with related values. -/
inductive Agree (related : A → B → Prop) : Outcome A → Outcome B → Prop
  | stopped (message : String) : Agree related (.error message) (.error message)
  | completed {a : A} {b : B} : related a b → Agree related (.ok a) (.ok b)

namespace Agree

variable {related : A → B → Prop} {other : C → D → Prop} {x : Outcome A} {y : Outcome B}

theorem bind {f : A → Outcome C} {g : B → Outcome D} (h : Agree related x y)
    (hnext : ∀ a b, related a b → Agree other (f a) (g b)) :
    Agree other (x >>= f) (y >>= g) := by
  cases h with
  | stopped message => exact .stopped message
  | completed hrelated => exact hnext _ _ hrelated

/-- One side computes what the other side has. -/
theorem bind_left {b : B} {f : A → Outcome C} {z : Outcome D} (h : Agree related x (.ok b))
    (hnext : ∀ a, related a b → Agree other (f a) z) : Agree other (x >>= f) z := by
  cases h with
  | completed hrelated => exact hnext _ hrelated

theorem map {f : A → C} {g : B → D} (h : Agree related x y)
    (hnext : ∀ a b, related a b → other (f a) (g b)) : Agree other (f <$> x) (g <$> y) := by
  cases h with
  | stopped message => exact .stopped message
  | completed hrelated => exact .completed (hnext _ _ hrelated)

/-- A computation that both sides make. -/
theorem same (x : Outcome A) : Agree Eq x x := by
  cases x with
  | error message => exact .stopped message
  | ok a => exact .completed rfl

/-- Both sides first make one computation, and go on with what it gave. -/
theorem shared {E : Type u} {related : C → E → Prop} {x : Outcome A} {f : A → Outcome C}
    {g : A → Outcome E} (hnext : ∀ a, x = .ok a → Agree related (f a) (g a)) :
    Agree related (x >>= f) (x >>= g) := by
  cases x with
  | error message => exact .stopped message
  | ok a => exact hnext a rfl

theorem require {left right : Prop} [Decidable left] [Decidable right] (h : left ↔ right)
    (message : String) :
    Agree Eq (AxelarCgp.require left message) (AxelarCgp.require right message) := by
  simp only [AxelarCgp.require, h]
  exact same _

/-- What completed on one side completed on the other. -/
theorem of_ok {a : A} (h : Agree related x y) (hx : x = .ok a) :
    ∃ b, y = .ok b ∧ related a b := by
  subst hx
  cases h with
  | completed hrelated => exact ⟨_, rfl, hrelated⟩

theorem of_error {message : String} (h : Agree related x y) (hx : x = .error message) :
    y = .error message := by
  subst hx
  cases h with
  | stopped => rfl

end Agree

end Outcome

namespace Machine

variable {Left : Type u} {Right : Type v} {Input Output : Type*}

/-- Both machines answer alike in related states, and stay in related states. -/
def Mirrors (related : Left → Right → Prop) (Allowed : Input → Prop)
    (left : Machine Left Input Output) (right : Machine Right Input Output) : Prop :=
  ∀ state image input, related state image → Allowed input →
    Outcome.Agree (fun first second => related first.1 second.1 ∧ first.2 = second.2)
      (left.step state input) (right.step image input)

/-- A run is a run of the mirror, entry by entry. -/
theorem Mirrors.run {related : Left → Right → Prop} {Allowed : Input → Prop}
    {left : Machine Left Input Output} {right : Machine Right Input Output} {start state : Left}
    {opened : Right} {history : List (Entry Input Output)} (h : Mirrors related Allowed left right)
    (hstart : related start opened) (hrun : Run left start history state)
    (hallowed : ∀ entry ∈ history, Allowed entry.input) :
    ∃ image, Run right opened history image ∧ related state image := by
  induction hrun with
  | start => exact ⟨opened, .start, hstart⟩
  | completed _ hok ih =>
      obtain ⟨hbefore, hlast⟩ := List.forall_mem_append.mp hallowed
      obtain ⟨image, himage, hrelated⟩ := ih hbefore
      have hagree := h _ _ _ hrelated (hlast _ (List.mem_singleton_self _))
      obtain ⟨⟨next, output⟩, hstep, hnext, rfl⟩ := hagree.of_ok hok
      exact ⟨next, himage.completed hstep, hnext⟩
  | stopped _ herror ih =>
      obtain ⟨hbefore, hlast⟩ := List.forall_mem_append.mp hallowed
      obtain ⟨image, himage, hrelated⟩ := ih hbefore
      have hagree := h _ _ _ hrelated (hlast _ (List.mem_singleton_self _))
      exact ⟨image, himage.stopped (hagree.of_error herror), hrelated⟩

end Machine

end AxelarCgp
