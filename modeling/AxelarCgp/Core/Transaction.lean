import Mathlib.Algebra.Order.Monoid.Defs
import AxelarCgp.Core.Outcome

/-!
# Transactions

A transaction reads and changes a state, leaves a trace of the actions it
performs, and may stop at any point, and then nothing it did remains.  A
completed transaction is taken apart into the completed transactions it is made
of; a relation between state, trace and state that composes holds of a
transaction when it holds of every one of its parts.
-/

namespace AxelarCgp

/-- What a completed transaction returns, the state it leaves, and its trace. -/
structure Completed (State Action A : Type) where
  value : A
  state : State
  trace : List Action

def Transaction (State Action A : Type) :=
  State → Outcome (Completed State Action A)

namespace Transaction

variable {State Action Inner Event A B : Type}

instance : Monad (Transaction State Action) where
  pure value state := .ok ⟨value, state, []⟩
  bind x f state := do
    let first ← x state
    let second ← f first.value first.state
    return ⟨second.value, second.state, first.trace ++ second.trace⟩

/-- A computation that does not touch the state. -/
instance : MonadLift (Except String) (Transaction State Action) where
  monadLift x state := (fun value => ⟨value, state, []⟩) <$> x

/-- Read the state, or a part of it. -/
def reads (part : State → A) : Transaction State Action A :=
  fun state => .ok ⟨part state, state, []⟩

def modifies (change : State → State) : Transaction State Action Unit :=
  fun state => .ok ⟨(), change state, []⟩

def performs (action : Action) : Transaction State Action Unit :=
  fun state => .ok ⟨(), state, [action]⟩

/-- Run a transaction on a part of the state. -/
def within (part : State → Inner) (replace : Inner → State → State) (name : Event → Action)
    (x : Transaction Inner Event A) : Transaction State Action A :=
  fun state => do
    let result ← x (part state)
    return ⟨result.value, replace result.state state, result.trace.map name⟩

/-- Run a transaction for every item, in order. -/
def forEach {Item : Type} (f : Item → Transaction State Action Unit) :
    List Item → Transaction State Action Unit
  | [] => pure ()
  | item :: items => do
      f item
      forEach f items

/-! ## Inversion -/

section Inversion

variable {state last : State} {trace : List Action}

@[simp]
theorem bind_eq_ok {x : Transaction State Action A} {f : A → Transaction State Action B}
    {value : B} :
    (x >>= f) state = .ok ⟨value, last, trace⟩ ↔
      ∃ a middle first second, x state = .ok ⟨a, middle, first⟩ ∧
        f a middle = .ok ⟨value, last, second⟩ ∧ first ++ second = trace := by
  constructor
  · intro h
    obtain ⟨⟨a, middle, first⟩, hx, h⟩ := Outcome.bind_eq_ok.mp h
    obtain ⟨⟨b, final, second⟩, hf, h⟩ := Outcome.bind_eq_ok.mp h
    obtain ⟨rfl, rfl, rfl⟩ := Completed.mk.inj (Outcome.pure_eq_ok.mp h)
    exact ⟨a, middle, first, second, hx, hf, rfl⟩
  · rintro ⟨a, middle, first, second, hx, hf, rfl⟩
    exact Outcome.bind_eq_ok.mpr ⟨_, hx, Outcome.bind_eq_ok.mpr ⟨_, hf, rfl⟩⟩

@[simp]
theorem pure_eq_ok {a value : A} :
    (pure a : Transaction State Action A) state = .ok ⟨value, last, trace⟩ ↔
      a = value ∧ state = last ∧ [] = trace := by
  change (Except.ok (⟨a, state, []⟩ : Completed State Action A) : Outcome _) = _ ↔ _
  simp

@[simp]
theorem lift_eq_ok {x : Outcome A} {value : A} :
    (liftM x : Transaction State Action A) state = .ok ⟨value, last, trace⟩ ↔
      x = .ok value ∧ state = last ∧ [] = trace := by
  change (fun a => (⟨a, state, []⟩ : Completed State Action A)) <$> x = _ ↔ _
  simp only [Outcome.map_eq_ok, Completed.mk.injEq]
  constructor
  · rintro ⟨a, hx, rfl, hstate, htrace⟩
    exact ⟨hx, hstate, htrace⟩
  · rintro ⟨hx, hstate, htrace⟩
    exact ⟨value, hx, rfl, hstate, htrace⟩

/-- What follows a computation that only looked starts where that started. -/
theorem bind_of_ok {x : Transaction State Action A} {f : A → Transaction State Action B} {a : A}
    {middle : State} (hx : x state = .ok ⟨a, middle, []⟩) : (x >>= f) state = f a middle := by
  change (do
    let first ← x state
    let second ← f first.value first.state
    return (⟨second.value, second.state, first.trace ++ second.trace⟩ : Completed _ _ _)) = _
  rw [hx]
  change (do
    let second ← f a middle
    return ⟨second.value, second.state, [] ++ second.trace⟩) = f a middle
  cases f a middle with
  | error message => rfl
  | ok second => rfl

theorem bind_of_error {x : Transaction State Action A} {f : A → Transaction State Action B}
    {message : String} (hx : x state = .error message) : (x >>= f) state = .error message := by
  change (do
    let first ← x state
    let second ← f first.value first.state
    return (⟨second.value, second.state, first.trace ++ second.trace⟩ : Completed _ _ _)) = _
  rw [hx]
  rfl

/-- A computation whose result is known may be left out. -/
theorem lift_ok_bind {a : A} {f : A → Transaction State Action B} :
    (liftM (.ok a : Outcome A) >>= f) = f a := by
  funext state
  exact bind_of_ok rfl

theorem reads_bind {part : State → A} {f : A → Transaction State Action B} {state : State} :
    (reads part >>= f) state = f (part state) state :=
  bind_of_ok rfl

theorem modifies_bind {change : State → State} {f : Unit → Transaction State Action B} :
    (modifies change >>= f) state = f () (change state) :=
  bind_of_ok rfl

theorem lift_require_ok {condition : Prop} [Decidable condition] {message : String}
    (h : condition) :
    (liftM (require condition message) : Transaction State Action Unit) state =
      .ok ⟨(), state, []⟩ := by
  rw [require, if_pos h]
  rfl

theorem lift_require_error {condition : Prop} [Decidable condition] {message : String}
    (h : ¬ condition) :
    (liftM (require condition message) : Transaction State Action Unit) state =
      .error message := by
  rw [require, if_neg h]
  rfl

/-- What comes after a computation outside the state completes with what that returned. -/
theorem lift_bind_eq_ok {x : Outcome A} {f : A → Transaction State Action B}
    {done : Completed State Action B} :
    (liftM x >>= f) state = .ok done ↔ ∃ a, x = .ok a ∧ f a state = .ok done := by
  cases x with
  | error message =>
      have hstops : (liftM (.error message : Outcome A) >>= f) state = .error message :=
        bind_of_error rfl
      simp [hstops]
  | ok a => simp [lift_ok_bind]

/-- What comes after a check completes if the check holds. -/
theorem require_bind_eq_ok {condition : Prop} [Decidable condition] {message : String}
    {f : Unit → Transaction State Action B} {done : Completed State Action B} :
    (liftM (require condition message) >>= f) state = .ok done ↔
      condition ∧ f () state = .ok done := by
  rw [lift_bind_eq_ok, Outcome.exists_unit, Outcome.require_eq_ok]

@[simp]
theorem reads_eq_ok {part : State → A} {value : A} :
    (reads part : Transaction State Action A) state = .ok ⟨value, last, trace⟩ ↔
      part state = value ∧ state = last ∧ [] = trace := by
  simp [reads]

@[simp]
theorem modifies_eq_ok {change : State → State} {value : Unit} :
    (modifies change : Transaction State Action Unit) state = .ok ⟨value, last, trace⟩ ↔
      change state = last ∧ [] = trace := by
  simp [modifies]

@[simp]
theorem performs_eq_ok {action : Action} {value : Unit} :
    (performs action : Transaction State Action Unit) state = .ok ⟨value, last, trace⟩ ↔
      state = last ∧ [action] = trace := by
  simp [performs]

/-- An action is performed, and then the state is changed. -/
theorem performs_modifies_eq_ok {action : Action} {change : State → State} {value : Unit} :
    (do performs action; modifies change : Transaction State Action Unit) state =
        .ok ⟨value, last, trace⟩ ↔ change state = last ∧ [action] = trace := by
  simp only [bind_eq_ok, performs_eq_ok, modifies_eq_ok]
  constructor
  · rintro ⟨_, _, _, _, ⟨rfl, rfl⟩, ⟨rfl, rfl⟩, rfl⟩
    exact ⟨rfl, rfl⟩
  · rintro ⟨rfl, rfl⟩
    exact ⟨(), _, _, _, ⟨rfl, rfl⟩, ⟨rfl, rfl⟩, rfl⟩

/-- A part of the state is read, computed anew, and written back. -/
theorem replaces_eq_ok {part : State → A} {compute : A → Outcome B} {write : B → State → State}
    {value : Unit} :
    (do
        let current ← reads part
        let computed ← compute current
        modifies (write computed) : Transaction State Action Unit) state =
        .ok ⟨value, last, trace⟩ ↔
      ∃ computed, compute (part state) = .ok computed ∧ last = write computed state ∧
        trace = [] := by
  rw [reads_bind, lift_bind_eq_ok]
  constructor
  · rintro ⟨computed, hcompute, hwrite⟩
    obtain ⟨rfl, rfl⟩ := modifies_eq_ok.mp hwrite
    exact ⟨computed, hcompute, rfl, rfl⟩
  · rintro ⟨computed, hcompute, rfl, rfl⟩
    exact ⟨computed, hcompute, rfl⟩

theorem within_eq_ok {part : State → Inner} {replace : Inner → State → State}
    {name : Event → Action} {x : Transaction Inner Event A} {value : A} :
    within part replace name x state = .ok ⟨value, last, trace⟩ ↔
      ∃ inner events, x (part state) = .ok ⟨value, inner, events⟩ ∧
        replace inner state = last ∧ events.map name = trace := by
  constructor
  · intro h
    obtain ⟨⟨a, inner, events⟩, hx, h⟩ := Outcome.bind_eq_ok.mp h
    obtain ⟨rfl, hlast, htrace⟩ := Completed.mk.inj (Outcome.pure_eq_ok.mp h)
    exact ⟨inner, events, hx, hlast, htrace⟩
  · rintro ⟨inner, events, hx, rfl, rfl⟩
    exact Outcome.bind_eq_ok.mpr ⟨_, hx, rfl⟩

end Inversion

/-! ## Relations that compose -/

/-- A relation between two states and a trace, graded by what may be spent: doing
nothing is free, and what two things spend in turn adds up. -/
structure Composes {Cost : Type} [AddMonoid Cost] [Preorder Cost]
    (Rel : Cost → State → List Action → State → Prop) : Prop where
  nil : ∀ state, Rel 0 state [] state
  append : ∀ {m n state middle last first second}, Rel m state first middle →
    Rel n middle second last → Rel (m + n) state (first ++ second) last
  mono : ∀ {m n state trace last}, m ≤ n → Rel m state trace last → Rel n state trace last

/-- Every completed run of the transaction is in the relation. -/
def Satisfies (Rel : State → List Action → State → Prop) (x : Transaction State Action A) :
    Prop :=
  ∀ state value last trace, x state = .ok ⟨value, last, trace⟩ → Rel state trace last

namespace Satisfies

section Plain

variable {Rel : State → List Action → State → Prop}

theorem mono {Stronger : State → List Action → State → Prop}
    (himp : ∀ {state trace last}, Stronger state trace last → Rel state trace last)
    {x : Transaction State Action A} (hx : Satisfies Stronger x) : Satisfies Rel x :=
  fun _ _ _ _ h => himp (hx _ _ _ _ h)

/-- A computation that does not touch the state only tells its result. -/
theorem lift_bind {x : Outcome A} {f : A → Transaction State Action B}
    (hf : ∀ a, x = .ok a → Satisfies Rel (f a)) : Satisfies Rel (liftM x >>= f) := by
  intro state value last trace h
  obtain ⟨a, _, _, _, hfirst, hsecond, rfl⟩ := bind_eq_ok.mp h
  obtain ⟨hx, rfl, rfl⟩ := lift_eq_ok.mp hfirst
  exact hf a hx _ _ _ _ hsecond

theorem error {message : String} :
    Satisfies Rel (liftM (Except.error message : Outcome A) : Transaction State Action A) := by
  intro state value last trace h
  exact absurd (lift_eq_ok.mp h).1 (by simp)

theorem modifies {change : State → State} (h : ∀ state, Rel state [] (change state)) :
    Satisfies Rel (Transaction.modifies change) := by
  intro state value last trace hok
  obtain ⟨rfl, rfl⟩ := modifies_eq_ok.mp hok
  exact h _

theorem performs {action : Action} (h : ∀ state, Rel state [action] state) :
    Satisfies Rel (Transaction.performs action) := by
  intro state value last trace hok
  obtain ⟨rfl, rfl⟩ := performs_eq_ok.mp hok
  exact h _

theorem ite {condition : Prop} [Decidable condition] {x y : Transaction State Action A}
    (hx : condition → Satisfies Rel x) (hy : ¬ condition → Satisfies Rel y) :
    Satisfies Rel (if condition then x else y) := by
  split
  · rename_i h
    exact hx h
  · rename_i h
    exact hy h

end Plain

section Graded

variable {Cost : Type} [AddMonoid Cost] [Preorder Cost]
variable {Rel : Cost → State → List Action → State → Prop} {m n : Cost}

theorem bind (hcomposes : Composes Rel) {x : Transaction State Action A}
    {f : A → Transaction State Action B} (hx : Satisfies (Rel m) x)
    (hf : ∀ a, Satisfies (Rel n) (f a)) : Satisfies (Rel (m + n)) (x >>= f) := by
  intro state value last trace h
  obtain ⟨a, middle, first, second, hfirst, hsecond, rfl⟩ := bind_eq_ok.mp h
  exact hcomposes.append (hx _ _ _ _ hfirst) (hf _ _ _ _ _ hsecond)

/-- What comes first is free. -/
theorem andThen (hcomposes : Composes Rel) {x : Transaction State Action A}
    {f : A → Transaction State Action B} (hx : Satisfies (Rel 0) x)
    (hf : ∀ a, Satisfies (Rel n) (f a)) : Satisfies (Rel n) (x >>= f) := by
  rw [← zero_add n]
  exact .bind hcomposes hx hf

/-- What comes afterwards is free. -/
theorem thenFree (hcomposes : Composes Rel) {x : Transaction State Action A}
    {f : A → Transaction State Action B} (hx : Satisfies (Rel n) x)
    (hf : ∀ a, Satisfies (Rel 0) (f a)) : Satisfies (Rel n) (x >>= f) := by
  rw [← add_zero n]
  exact .bind hcomposes hx hf

theorem pure (hcomposes : Composes Rel) (a : A) :
    Satisfies (Rel 0) (Pure.pure a : Transaction State Action A) := by
  intro state value last trace h
  obtain ⟨_, rfl, rfl⟩ := pure_eq_ok.mp h
  exact hcomposes.nil _

theorem forEach (hcomposes : Composes Rel) {Item : Type}
    {f : Item → Transaction State Action Unit} (hf : ∀ item, Satisfies (Rel 0) (f item))
    (items : List Item) : Satisfies (Rel 0) (Transaction.forEach f items) := by
  induction items with
  | nil => exact .pure hcomposes ()
  | cons item items ih => exact .andThen hcomposes (hf item) fun _ => ih

theorem weaken (hcomposes : Composes Rel) (hle : m ≤ n) {x : Transaction State Action A}
    (hx : Satisfies (Rel m) x) : Satisfies (Rel n) x :=
  hx.mono (hcomposes.mono hle)

end Graded

end Satisfies

/-! ## Transactions that only look -/

/-- Every completed run leaves the state as it was, and no trace. -/
def Inspects (x : Transaction State Action A) : Prop :=
  Satisfies (fun state trace last => state = last ∧ [] = trace) x

namespace Inspects

theorem bind {x : Transaction State Action A} {f : A → Transaction State Action B}
    (hx : Inspects x) (hf : ∀ a, Inspects (f a)) : Inspects (x >>= f) := by
  intro state value last trace h
  obtain ⟨a, _, _, _, hfirst, hsecond, rfl⟩ := bind_eq_ok.mp h
  obtain ⟨rfl, rfl⟩ := hx _ _ _ _ hfirst
  exact hf a _ _ _ _ hsecond

theorem pure (a : A) : Inspects (Pure.pure a : Transaction State Action A) :=
  fun _ _ _ _ h => (pure_eq_ok.mp h).2

theorem lift (x : Outcome A) : Inspects (liftM x : Transaction State Action A) :=
  fun _ _ _ _ h => (lift_eq_ok.mp h).2

theorem reads (part : State → A) :
    Inspects (Transaction.reads part : Transaction State Action A) :=
  fun _ _ _ _ h => (reads_eq_ok.mp h).2

end Inspects

namespace Satisfies

/-- Only what comes after looking counts. -/
theorem inspect_bind {Rel : State → List Action → State → Prop}
    {x : Transaction State Action A} {f : A → Transaction State Action B}
    (hx : Inspects x) (hf : ∀ a, Satisfies Rel (f a)) : Satisfies Rel (x >>= f) := by
  intro state value last trace h
  obtain ⟨a, _, _, _, hfirst, hsecond, rfl⟩ := bind_eq_ok.mp h
  obtain ⟨rfl, rfl⟩ := hx _ _ _ _ hfirst
  exact hf a _ _ _ _ hsecond

/-- What was seen by looking is known afterwards. -/
theorem inspect_bind_of {Rel : State → List Action → State → Prop}
    {x : Transaction State Action A} {f : A → Transaction State Action B}
    (hx : Inspects x)
    (hf : ∀ a, (∃ state, x state = .ok ⟨a, state, []⟩) → Satisfies Rel (f a)) :
    Satisfies Rel (x >>= f) := by
  intro state value last trace h
  obtain ⟨a, _, _, _, hfirst, hsecond, rfl⟩ := bind_eq_ok.mp h
  obtain ⟨rfl, rfl⟩ := hx _ _ _ _ hfirst
  exact hf a ⟨_, hfirst⟩ _ _ _ _ hsecond

theorem inspect {Cost : Type} [AddMonoid Cost] [Preorder Cost]
    {Rel : Cost → State → List Action → State → Prop} (hcomposes : Composes Rel)
    {x : Transaction State Action A} (hx : Inspects x) : Satisfies (Rel 0) x := by
  intro state value last trace h
  obtain ⟨rfl, rfl⟩ := hx _ _ _ _ h
  exact hcomposes.nil _

end Satisfies

end Transaction

end AxelarCgp
