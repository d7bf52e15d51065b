import AxelarCgp.Core.Outcome

/-!
# Runs of transactional machines

A machine answers each input either with a new state and an output, or with a
message and no change at all.  A run pairs the state it reaches with the whole
history of inputs and answers, so that statements about the past ("this was
preceded by that, and nothing revoked it since") are statements about a list.
-/

namespace AxelarCgp

structure Machine (State Input Output : Type*) where
  step : State → Input → Outcome (State × Output)

/-- One input and the answer it got. -/
structure Entry (Input Output : Type*) where
  input : Input
  result : Outcome Output

variable {State Input Output : Type*}

namespace Machine

/-- The histories, oldest entry first, and states reachable from `start`. -/
inductive Run (machine : Machine State Input Output) (start : State) :
    List (Entry Input Output) → State → Prop
  | start : Run machine start [] start
  | completed {history : List (Entry Input Output)} {state next : State}
      {input : Input} {output : Output} :
      Run machine start history state →
      machine.step state input = .ok (next, output) →
      Run machine start (history ++ [⟨input, .ok output⟩]) next
  | stopped {history : List (Entry Input Output)} {state : State}
      {input : Input} {message : String} :
      Run machine start history state →
      machine.step state input = .error message →
      Run machine start (history ++ [⟨input, .error message⟩]) state

variable {machine : Machine State Input Output} {start : State}

namespace Run

/-- What holds at the start and survives every completed step holds in every
state a run reaches. -/
theorem invariant {P : State → Prop} (hstart : P start)
    (hstep : ∀ state input next output, P state →
      machine.step state input = .ok (next, output) → P next)
    {history : List (Entry Input Output)} {state : State}
    (hrun : Run machine start history state) : P state := by
  induction hrun with
  | start => exact hstart
  | completed _ hok ih => exact hstep _ _ _ _ ih hok
  | stopped _ _ ih => exact ih

/-- Every step of a history was taken from a state that allowed its input. -/
def Meets (machine : Machine State Input Output) (start : State)
    (Allowed : State → Input → Prop) (history : List (Entry Input Output)) : Prop :=
  ∀ before entry after reached, history = before ++ entry :: after →
    Run machine start before reached → Allowed reached entry.input

theorem Meets.of_append {Allowed : State → Input → Prop}
    {first second : List (Entry Input Output)}
    (h : Meets machine start Allowed (first ++ second)) : Meets machine start Allowed first := by
  rintro before entry after reached rfl hreached
  exact h before entry (after ++ second) reached (by simp) hreached

/-- What holds at the start and survives every allowed step holds in every
state a run of allowed steps reaches. -/
theorem invariant_of_meets {P : State → Prop} {Allowed : State → Input → Prop}
    (hstart : P start)
    (hstep : ∀ state input next output, P state → Allowed state input →
      machine.step state input = .ok (next, output) → P next)
    {history : List (Entry Input Output)} {state : State}
    (hrun : Run machine start history state)
    (hmeets : Meets machine start Allowed history) : P state := by
  induction hrun with
  | start => exact hstart
  | completed hbefore hok ih =>
      exact hstep _ _ _ _ (ih hmeets.of_append) (hmeets _ _ [] _ rfl hbefore) hok
  | stopped _ _ ih => exact ih hmeets.of_append

/-- A run of a run is a run. -/
theorem trans {first second : List (Entry Input Output)} {middle state : State}
    (hfirst : Run machine start first middle)
    (hsecond : Run machine middle second state) :
    Run machine start (first ++ second) state := by
  induction hsecond with
  | start => simpa using hfirst
  | completed _ hok ih =>
      rw [← List.append_assoc]
      exact .completed ih hok
  | stopped _ herror ih =>
      rw [← List.append_assoc]
      exact .stopped ih herror

/-- A run can be cut at every point of its history. -/
theorem split {first second : List (Entry Input Output)} {state : State}
    (hrun : Run machine start (first ++ second) state) :
    ∃ middle, Run machine start first middle ∧ Run machine middle second state := by
  generalize hhistory : first ++ second = history at hrun
  induction hrun generalizing second with
  | start =>
      obtain ⟨rfl, rfl⟩ := List.append_eq_nil_iff.mp hhistory
      exact ⟨start, .start, .start⟩
  | completed hprefix hok ih =>
      rcases List.eq_nil_or_concat second with rfl | ⟨others, last, rfl⟩
      · rw [List.append_nil] at hhistory
        subst hhistory
        exact ⟨_, .completed hprefix hok, .start⟩
      · rw [List.concat_eq_append, ← List.append_assoc] at hhistory
        obtain ⟨hothers, hlast⟩ := List.append_inj' hhistory rfl
        obtain ⟨middle, hleft, hright⟩ := ih hothers
        rw [List.concat_eq_append, hlast]
        exact ⟨middle, hleft, .completed hright hok⟩
  | stopped hprefix herror ih =>
      rcases List.eq_nil_or_concat second with rfl | ⟨others, last, rfl⟩
      · rw [List.append_nil] at hhistory
        subst hhistory
        exact ⟨_, .stopped hprefix herror, .start⟩
      · rw [List.concat_eq_append, ← List.append_assoc] at hhistory
        obtain ⟨hothers, hlast⟩ := List.append_inj' hhistory rfl
        obtain ⟨middle, hleft, hright⟩ := ih hothers
        rw [List.concat_eq_append, hlast]
        exact ⟨middle, hleft, .stopped hright herror⟩

/-- The last entry of a history that completed was a step of the machine. -/
theorem completed_inv {history : List (Entry Input Output)} {state : State}
    {input : Input} {output : Output}
    (hrun : Run machine start (history ++ [⟨input, .ok output⟩]) state) :
    ∃ before, Run machine start history before ∧
      machine.step before input = .ok (state, output) := by
  generalize hentries : history ++ [(⟨input, .ok output⟩ : Entry Input Output)] = entries at hrun
  cases hrun with
  | start => simp at hentries
  | completed hbefore hok =>
      obtain ⟨rfl, hentry⟩ := List.append_inj' hentries rfl
      obtain ⟨rfl, hresult⟩ := Entry.mk.inj (List.singleton_inj.mp hentry)
      obtain rfl := Except.ok.inj hresult
      exact ⟨_, hbefore, hok⟩
  | stopped _ _ =>
      obtain ⟨_, hentry⟩ := List.append_inj' hentries rfl
      simp at hentry

/-- The last entry of a history that stopped changed nothing. -/
theorem stopped_inv {history : List (Entry Input Output)} {state : State}
    {input : Input} {message : String}
    (hrun : Run machine start (history ++ [⟨input, .error message⟩]) state) :
    Run machine start history state ∧ machine.step state input = .error message := by
  generalize hentries : history ++ [(⟨input, .error message⟩ : Entry Input Output)] = entries
    at hrun
  cases hrun with
  | start => simp at hentries
  | completed _ _ =>
      obtain ⟨_, hentry⟩ := List.append_inj' hentries rfl
      simp at hentry
  | stopped hbefore herror =>
      obtain ⟨rfl, hentry⟩ := List.append_inj' hentries rfl
      obtain ⟨rfl, hresult⟩ := Entry.mk.inj (List.singleton_inj.mp hentry)
      rw [Except.error.inj hresult]
      exact ⟨hbefore, herror⟩

/-- A history determines the state it reaches. -/
theorem unique {history : List (Entry Input Output)} {left right : State}
    (hleft : Run machine start history left) (hright : Run machine start history right) :
    left = right := by
  induction hleft generalizing right with
  | start =>
      generalize hnil : ([] : List (Entry Input Output)) = history at hright
      cases hright with
      | start => rfl
      | completed | stopped => simp at hnil
  | completed _ hok ih =>
      obtain ⟨before, hbefore, hstep⟩ := hright.completed_inv
      rw [ih hbefore, hstep] at hok
      exact (Prod.mk.inj (Except.ok.inj hok)).1.symm
  | stopped _ _ ih => exact ih hright.stopped_inv.1

/-- A history meets what its steps before the last meet and what the last one does. -/
theorem meets_concat {Allowed : State → Input → Prop} {history : List (Entry Input Output)}
    {entry : Entry Input Output} {state : State} (hrun : Run machine start history state) :
    Meets machine start Allowed (history ++ [entry]) ↔
      Meets machine start Allowed history ∧ Allowed state entry.input := by
  constructor
  · intro h
    exact ⟨h.of_append, h history entry [] state rfl hrun⟩
  · rintro ⟨hall, hlast⟩ before other after reached heq hreached
    rcases List.eq_nil_or_concat after with rfl | ⟨others, last, rfl⟩
    · obtain ⟨rfl, hentry⟩ := List.append_inj' heq rfl
      obtain rfl := List.singleton_inj.mp hentry
      rw [hreached.unique hrun]
      exact hlast
    · rw [List.concat_eq_append, ← List.cons_append, ← List.append_assoc] at heq
      obtain ⟨hbefore, _⟩ := List.append_inj' heq rfl
      exact hall before other others reached hbefore hreached

end Run

/-- A step that a history records: what came before it, the state it was taken from, and
the state it led to. -/
structure Took (machine : Machine State Input Output) (start : State)
    (history before : List (Entry Input Output)) (reached : State) (input : Input)
    (output : Output) (next : State) : Prop where
  recorded : ∃ after, history = before ++ ⟨input, .ok output⟩ :: after
  run : Run machine start before reached
  step : machine.step reached input = .ok (next, output)

theorem Took.snoc {history before : List (Entry Input Output)} {reached next : State}
    {input : Input} {output : Output}
    (h : Took machine start history before reached input output next)
    (entry : Entry Input Output) :
    Took machine start (history ++ [entry]) before reached input output next where
  recorded := by
    obtain ⟨after, rfl⟩ := h.recorded
    exact ⟨after ++ [entry], by simp⟩
  run := h.run
  step := h.step

/-- Give the machine some inputs, one after the other. -/
def replay (machine : Machine State Input Output) (state : State) :
    List Input → List (Entry Input Output) × State
  | [] => ([], state)
  | input :: inputs =>
      match machine.step state input with
      | .ok (next, output) =>
          let (history, last) := machine.replay next inputs
          (⟨input, .ok output⟩ :: history, last)
      | .error message =>
          let (history, last) := machine.replay state inputs
          (⟨input, .error message⟩ :: history, last)

theorem run_replay (machine : Machine State Input Output) (state : State)
    (inputs : List Input) :
    Run machine state (machine.replay state inputs).1 (machine.replay state inputs).2 := by
  induction inputs generalizing state with
  | nil => exact .start
  | cons input inputs ih =>
      unfold replay
      split
      · rename_i next output hok
        exact (Run.start.completed hok).trans (ih next)
      · rename_i message herror
        exact (Run.start.stopped herror).trans (ih state)

theorem replay_inputs (machine : Machine State Input Output) (state : State)
    (inputs : List Input) : (machine.replay state inputs).1.map Entry.input = inputs := by
  induction inputs generalizing state with
  | nil => rfl
  | cons input inputs ih =>
      unfold replay
      split <;> simp [ih]

end Machine

/-! ## Statements about the past -/

/-- Some entry satisfies `opens`, and no later entry satisfies `closes`. -/
def Since (opens closes : Entry Input Output → Prop)
    (history : List (Entry Input Output)) : Prop :=
  ∃ before entry after, history = before ++ entry :: after ∧
    opens entry ∧ ∀ later ∈ after, ¬ closes later

namespace Since

variable {opens closes : Entry Input Output → Prop}
variable {history : List (Entry Input Output)} {entry : Entry Input Output}

theorem of_last (h : opens entry) : Since opens closes (history ++ [entry]) :=
  ⟨history, entry, [], rfl, h, by simp⟩

theorem snoc (h : Since opens closes history) (hentry : ¬ closes entry) :
    Since opens closes (history ++ [entry]) := by
  obtain ⟨before, opening, after, rfl, hopens, hafter⟩ := h
  refine ⟨before, opening, after ++ [entry], by simp, hopens, ?_⟩
  intro later hlater
  rcases List.mem_append.mp hlater with hlater | hlater
  · exact hafter later hlater
  · rw [List.mem_singleton.mp hlater]
    exact hentry

/-- The last entry either opens, or leaves open what was. -/
theorem snoc_iff : Since opens closes (history ++ [entry]) ↔
    opens entry ∨ Since opens closes history ∧ ¬ closes entry := by
  constructor
  · rintro ⟨before, opening, after, heq, hopens, hafter⟩
    rcases List.eq_nil_or_concat after with rfl | ⟨others, last, rfl⟩
    · obtain ⟨_, hentry⟩ := List.append_inj' heq rfl
      rw [List.singleton_inj.mp hentry]
      exact .inl hopens
    · rw [List.concat_eq_append, ← List.cons_append, ← List.append_assoc] at heq
      obtain ⟨hbefore, hentry⟩ := List.append_inj' heq rfl
      obtain rfl := List.singleton_inj.mp hentry
      refine .inr ⟨⟨before, opening, others, hbefore, hopens, ?_⟩, hafter entry (by simp)⟩
      intro later hlater
      exact hafter later (by simp [hlater])
  · rintro (hopens | ⟨hsince, hentry⟩)
    · exact .of_last hopens
    · exact hsince.snoc hentry

/-- Both predicates may be replaced by ones that say the same of the entries of
the history. -/
theorem imp {opensToo closesToo : Entry Input Output → Prop} (h : Since opens closes history)
    (hopens : ∀ before entry after, history = before ++ entry :: after → opens entry →
      opensToo entry)
    (hcloses : ∀ entry ∈ history, closesToo entry → closes entry) :
    Since opensToo closesToo history := by
  obtain ⟨before, opening, after, rfl, hopening, hafter⟩ := h
  refine ⟨before, opening, after, rfl, hopens _ _ _ rfl hopening, ?_⟩
  intro later hlater hcloser
  have hmem : later ∈ before ++ opening :: after :=
    List.mem_append_right _ (List.mem_cons_of_mem _ hlater)
  exact hafter later hlater (hcloses later hmem hcloser)

end Since

namespace Machine

variable {machine : Machine State Input Output} {start : State}

/-- When one step leaves the state disarmed and a later one needs it armed, a
step in between is one that arms. -/
theorem Run.armed_between (armed : State → Prop)
    (quiets needs arms : Entry Input Output → Prop)
    (hquiets : ∀ history state input next output, Run machine start history state →
      machine.step state input = .ok (next, output) →
      quiets ⟨input, .ok output⟩ → ¬ armed next)
    (hneeds : ∀ history state input next output, Run machine start history state →
      machine.step state input = .ok (next, output) →
      needs ⟨input, .ok output⟩ → armed state)
    (harms : ∀ history state input next output, Run machine start history state →
      machine.step state input = .ok (next, output) →
      ¬ armed state → armed next → arms ⟨input, .ok output⟩)
    {before between after : List (Entry Input Output)}
    {first second : Input} {firstOutput secondOutput : Output} {state : State}
    (hrun : Run machine start
      (before ++ ⟨first, .ok firstOutput⟩ :: between ++
        ⟨second, .ok secondOutput⟩ :: after) state)
    (hfirst : quiets ⟨first, .ok firstOutput⟩)
    (hsecond : needs ⟨second, .ok secondOutput⟩) :
    ∃ entry ∈ between, arms entry := by
  by_contra hnone
  push Not at hnone
  have hcut : before ++ ⟨first, .ok firstOutput⟩ :: between ++
      ⟨second, .ok secondOutput⟩ :: after =
      (before ++ [⟨first, .ok firstOutput⟩]) ++
        (between ++ ([⟨second, .ok secondOutput⟩] ++ after)) := by
    simp
  rw [hcut] at hrun
  obtain ⟨afterFirst, hbefore, hrest⟩ := hrun.split
  obtain ⟨_, hreached, hfirstStep⟩ := hbefore.completed_inv
  have hquiet := hquiets _ _ _ _ _ hreached hfirstStep hfirst
  rw [← List.append_assoc] at hrest
  obtain ⟨_, hsecondRun, _⟩ := hrest.split
  obtain ⟨beforeSecond, hbetween, hsecondStep⟩ := hsecondRun.completed_inv
  have hall := hbefore.trans hbetween
  -- Nothing in `between` arms, so the second step meets a disarmed state.
  have hstill : ¬ armed beforeSecond := by
    clear hcut hrun hrest hsecondRun hsecondStep hall
    induction hbetween with
    | start => exact hquiet
    | @completed history previous next input output hprevious hok ih =>
        intro harmed
        have hdisarmed := ih fun entry hentry =>
          hnone entry (List.mem_append_left _ hentry)
        exact hnone _ (List.mem_append_right _ (List.mem_singleton_self _))
          (harms _ _ _ _ _ (hbefore.trans hprevious) hok hdisarmed harmed)
    | stopped _ _ ih =>
        exact ih fun entry hentry => hnone entry (List.mem_append_left _ hentry)
  exact hstill (hneeds _ _ _ _ _ hall hsecondStep hsecond)

/-- The entry in the middle of a history was a step from a reachable state. -/
theorem Run.step_at {before after : List (Entry Input Output)} {input : Input}
    {output : Output} {state : State}
    (hrun : Run machine start (before ++ ⟨input, .ok output⟩ :: after) state) :
    ∃ reached next, Run machine start before reached ∧
      machine.step reached input = .ok (next, output) ∧
      Run machine start (before ++ [⟨input, .ok output⟩]) next := by
  rw [List.append_cons] at hrun
  obtain ⟨next, hfirst, _⟩ := hrun.split
  obtain ⟨reached, hbefore, hstep⟩ := hfirst.completed_inv
  exact ⟨reached, next, hbefore, hstep, hfirst⟩

/-- A stopped entry in the middle of a history was refused in the state reached
before it. -/
theorem Run.refused_at {before after : List (Entry Input Output)} {input : Input}
    {message : String} {state reached : State}
    (hrun : Run machine start (before ++ ⟨input, .error message⟩ :: after) state)
    (hreached : Run machine start before reached) :
    machine.step reached input = .error message := by
  rw [List.append_cons] at hrun
  obtain ⟨_, hfirst, _⟩ := hrun.split
  obtain ⟨hbefore, herror⟩ := hfirst.stopped_inv
  exact hbefore.unique hreached ▸ herror

end Machine

end AxelarCgp
