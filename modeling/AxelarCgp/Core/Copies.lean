import AxelarCgp.Core.Projection
import Mathlib.Logic.Function.Basic

/-!
# Copies of a machine

Many copies of one machine run side by side, and every input names the copy that it is for.
What happens at a copy is a run of the machine, whatever happens at the others in between.
-/

namespace AxelarCgp.Machine

variable {Name State Input Output : Type*} [DecidableEq Name]

/-- One copy takes a step at a time. -/
def copies (machine : Machine State Input Output) (Name : Type*) [DecidableEq Name] :
    Machine (Name → State) (Name × Input) Output where
  step states input :=
    match machine.step (states input.1) input.2 with
    | .ok (next, output) => .ok (Function.update states input.1 next, output)
    | .error message => .error message

/-- The entry, where it is of the copy. -/
def viewOf (name : Name) (entry : Entry (Name × Input) Output) : List (Entry Input Output) :=
  if entry.input.1 = name then [⟨entry.input.2, entry.result⟩] else []

/-- What happened at a copy. -/
def historyOf (name : Name) (history : List (Entry (Name × Input) Output)) :
    List (Entry Input Output) :=
  history.flatMap (viewOf name)

variable {machine : Machine State Input Output} {start states next : Name → State}
variable {input : Name × Input} {output : Output}

theorem copies_step_eq_ok :
    (machine.copies Name).step states input = .ok (next, output) ↔
      ∃ state, machine.step (states input.1) input.2 = .ok (state, output) ∧
        Function.update states input.1 state = next := by
  simp only [copies]
  cases machine.step (states input.1) input.2 with
  | ok result => simp [Prod.ext_iff, and_comm]
  | error message => simp

theorem copies_step_eq_error {message : String} :
    (machine.copies Name).step states input = .error message ↔
      machine.step (states input.1) input.2 = .error message := by
  simp only [copies]
  cases machine.step (states input.1) input.2 <;> simp

theorem mem_historyOf {name : Name} {history : List (Entry (Name × Input) Output)}
    {entry : Entry Input Output} : entry ∈ historyOf name history ↔
      ⟨(name, entry.input), entry.result⟩ ∈ history := by
  simp only [historyOf, viewOf, List.mem_flatMap]
  constructor
  · rintro ⟨⟨⟨other, input⟩, result⟩, hmem, hentry⟩
    split at hentry
    · rename_i hsame
      obtain rfl := hsame
      rw [List.mem_singleton.mp hentry]
      exact hmem
    · simp at hentry
  · intro hmem
    exact ⟨_, hmem, by simp⟩

/-- What happens at one copy in a run of all of them is a run. -/
theorem Run.copy {history : List (Entry (Name × Input) Output)}
    (hrun : (machine.copies Name).Run start history states) (name : Name) :
    machine.Run (start name) (historyOf name history) (states name) := by
  apply hrun.project (fun states => states name) (viewOf name)
  · intro before reached input output next _ hok
    obtain ⟨state, hstep, rfl⟩ := copies_step_eq_ok.mp hok
    unfold viewOf
    by_cases hname : input.1 = name
    · subst hname
      rw [if_pos rfl, Function.update_self]
      exact Run.start.completed hstep
    · rw [if_neg hname, Function.update_of_ne (Ne.symm hname)]
      exact .start
  · intro before reached input message _ herror
    have hstep := copies_step_eq_error.mp herror
    unfold viewOf
    by_cases hname : input.1 = name
    · subst hname
      rw [if_pos rfl]
      exact Run.start.stopped hstep
    · rw [if_neg hname]
      exact .start

end AxelarCgp.Machine
