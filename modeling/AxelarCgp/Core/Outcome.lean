import Mathlib.Data.Nat.Notation
import Mathlib.Tactic.Common

/-!
# Outcomes of transactional calls

A call of a transactional program either completes with a value or stops with
a message, and then nothing it did remains.  These are the inversion rules by
which a completed call is taken apart into the completed calls it is made of.
-/

namespace AxelarCgp

universe u v

variable {A : Type u} {B : Type u}

abbrev Outcome (A : Type u) := Except String A

/-- Stop the call with `message` unless `condition` holds. -/
def require (condition : Prop) [Decidable condition] (message : String) :
    Outcome Unit :=
  if condition then .ok () else .error message

/-- Read a value that may be absent, stopping with `message` when it is. -/
def orFail (value : Option A) (message : String) : Outcome A :=
  match value with
  | some value => .ok value
  | none => .error message

namespace Outcome

@[simp]
theorem bind_eq_ok {x : Outcome A} {f : A → Outcome B} {b : B} :
    x >>= f = .ok b ↔ ∃ a, x = .ok a ∧ f a = .ok b := by
  cases x with
  | error message => simp [bind, Except.bind]
  | ok a => simp [bind, Except.bind]

/-- A check returns nothing, so there is nothing to choose. -/
@[simp]
theorem exists_unit {P : Unit → Prop} : (∃ result, P result) ↔ P () :=
  ⟨fun ⟨_, h⟩ => h, fun h => ⟨(), h⟩⟩

@[simp]
theorem map_eq_ok {x : Outcome A} {f : A → B} {b : B} :
    f <$> x = .ok b ↔ ∃ a, x = .ok a ∧ f a = b := by
  cases x with
  | error message => simp [Functor.map, Except.map]
  | ok a => simp [Functor.map, Except.map]

@[simp]
theorem pure_eq_ok {a b : A} : (pure a : Outcome A) = .ok b ↔ a = b := by
  simp [pure, Except.pure]

@[simp]
theorem ok_bind {a : A} {f : A → Outcome B} :
    ((.ok a : Outcome A) >>= f) = f a := rfl

@[simp]
theorem error_bind {message : String} {f : A → Outcome B} :
    ((.error message : Outcome A) >>= f) = .error message := rfl

@[simp]
theorem require_eq_ok {condition : Prop} [Decidable condition]
    {message : String} {result : Unit} :
    require condition message = .ok result ↔ condition := by
  unfold require
  split <;> simp_all

@[simp]
theorem orFail_eq_ok {value : Option A} {message : String} {a : A} :
    orFail value message = .ok a ↔ value = some a := by
  cases value <;> simp [orFail]

theorem require_of {condition : Prop} [Decidable condition]
    {message : String} (h : condition) : require condition message = .ok () :=
  require_eq_ok.mpr h

/-- What was computed of a call's result holds of the result. -/
theorem apply_of_map {x : Outcome A} {f : A → B} {a : A} {b : B} (hmap : f <$> x = .ok b)
    (hx : x = .ok a) : f a = b := by
  rw [hx] at hmap
  exact Except.ok.inj hmap

/-- Whether a call completes can be computed. -/
theorem exists_eq_ok {x : Outcome A} (h : x.isOk) : ∃ a, x = .ok a := by
  cases x with
  | error message => simp [Except.isOk, Except.toBool] at h
  | ok a => exact ⟨a, rfl⟩

end Outcome

end AxelarCgp
