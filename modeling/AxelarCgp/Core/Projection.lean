import AxelarCgp.Core.Machine

/-!
# Runs of a part

A whole is made of parts that are machines themselves.  Where each step of the whole is a run
of a part, so is every run of the whole, with the history that the whole's entries show of it.
-/

namespace AxelarCgp.Machine

variable {State Input Output PartState PartInput PartOutput : Type*}
variable {whole : Machine State Input Output} {part : Machine PartState PartInput PartOutput}
variable {start last : State} {history : List (Entry Input Output)}

/-- What a whole's run does to a part is a run of the part. -/
theorem Run.project (state : State → PartState)
    (view : Entry Input Output → List (Entry PartInput PartOutput))
    (hcompleted : ∀ {history reached input output next}, Run whole start history reached →
      whole.step reached input = .ok (next, output) →
      Run part (state reached) (view ⟨input, .ok output⟩) (state next))
    (hstopped : ∀ {history reached input message}, Run whole start history reached →
      whole.step reached input = .error message →
      Run part (state reached) (view ⟨input, .error message⟩) (state reached))
    (hrun : Run whole start history last) :
    Run part (state start) (history.flatMap view) (state last) := by
  induction hrun with
  | start => exact .start
  | completed hbefore hok ih =>
      rw [List.flatMap_append, List.flatMap_singleton]
      exact ih.trans (hcompleted hbefore hok)
  | stopped hbefore herror ih =>
      rw [List.flatMap_append, List.flatMap_singleton]
      exact ih.trans (hstopped hbefore herror)

/-- Give a part all of these inputs, for one transaction, which stops where the part does. -/
def complete (part : Machine PartState PartInput PartOutput) (state : PartState) :
    List PartInput → Outcome (PartState × List (Entry PartInput PartOutput))
  | [] => .ok (state, [])
  | input :: inputs =>
      match part.step state input with
      | .ok (next, output) =>
          (part.complete next inputs).map fun (last, entries) =>
            (last, ⟨input, .ok output⟩ :: entries)
      | .error message => .error message

/-- What completes is a run with the inputs that were given. -/
theorem complete_eq_ok {first next : PartState} {inputs : List PartInput}
    {entries : List (Entry PartInput PartOutput)}
    (h : part.complete first inputs = .ok (next, entries)) :
    Run part first entries next ∧ entries.map Entry.input = inputs ∧
      ∀ entry ∈ entries, ∃ output, entry.result = .ok output := by
  induction inputs generalizing first entries with
  | nil =>
      obtain ⟨rfl, rfl⟩ := Prod.mk.inj (Except.ok.inj h)
      exact ⟨.start, rfl, by simp⟩
  | cons input inputs ih =>
      unfold complete at h
      split at h
      · rename_i middle output hstep
        cases hrest : part.complete middle inputs with
        | error message => simp [hrest, Except.map] at h
        | ok rest =>
            simp only [hrest, Except.map, Except.ok.injEq, Prod.mk.injEq] at h
            obtain ⟨rfl, rfl⟩ := h
            obtain ⟨hrun, hinputs, hok⟩ := ih hrest
            refine ⟨(Run.start.completed hstep).trans hrun, by simp [hinputs], ?_⟩
            intro entry hentry
            rcases List.mem_cons.mp hentry with rfl | hlater
            · exact ⟨output, rfl⟩
            · exact hok entry hlater
      · simp at h

end AxelarCgp.Machine

namespace AxelarCgp

variable {Input Output PartInput PartOutput : Type*}

/-- A cut of what is seen of a history is a cut of the history. -/
theorem flatMap_eq_append_cons {A B : Type*} {view : A → List B} {whole : List A}
    {first second : List B} {part : B} (h : whole.flatMap view = first ++ part :: second) :
    ∃ earlier entry later left right, whole = earlier ++ entry :: later ∧
      view entry = left ++ part :: right ∧ first = earlier.flatMap view ++ left ∧
      second = right ++ later.flatMap view := by
  induction whole generalizing first with
  | nil => simp at h
  | cons entry whole ih =>
      rw [List.flatMap_cons] at h
      rcases List.append_eq_append_iff.mp h with ⟨rest, rfl, hrest⟩ | ⟨rest, hview, hrest⟩
      · obtain ⟨earlier, other, later, left, right, rfl, hother, rfl, rfl⟩ := ih hrest
        exact ⟨entry :: earlier, other, later, left, right, rfl, hother, by simp, rfl⟩
      · cases rest with
        | nil =>
            rw [List.append_nil] at hview
            obtain ⟨earlier, other, later, left, right, rfl, hother, hleft, rfl⟩ :=
              @ih [] hrest.symm
            obtain ⟨hnone, rfl⟩ := List.append_eq_nil_iff.mp hleft.symm
            exact ⟨entry :: earlier, other, later, [], right, rfl, hother,
              by simp [hview, hnone], rfl⟩
        | cons other rest =>
            obtain ⟨rfl, rfl⟩ := List.cons.inj hrest
            exact ⟨[], entry, whole, first, rest, rfl, hview, rfl, rfl⟩

/-- What a part's history says about the past, the whole's history says. -/
theorem Since.of_flatMap {opens closes : Entry PartInput PartOutput → Prop}
    {view : Entry Input Output → List (Entry PartInput PartOutput)}
    {history : List (Entry Input Output)} (h : Since opens closes (history.flatMap view)) :
    ∃ earlier entry later, history = earlier ++ entry :: later ∧
      (∃ part ∈ view entry, opens part) ∧ ∀ other ∈ later.flatMap view, ¬ closes other := by
  obtain ⟨before, part, after, hcut, hopens, hcloses⟩ := h
  obtain ⟨earlier, entry, later, left, right, rfl, hview, rfl, rfl⟩ := flatMap_eq_append_cons hcut
  refine ⟨earlier, entry, later, rfl, ⟨part, by simp [hview], hopens⟩, ?_⟩
  intro other hother
  exact hcloses other (List.mem_append_right _ hother)

end AxelarCgp
