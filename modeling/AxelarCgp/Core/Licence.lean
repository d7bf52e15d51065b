import AxelarCgp.Core.Machine

/-!
# Licences

A licence is granted under some terms, may be revoked, and lets one attempt at
a time be made; an attempt ends later, in success, which uses the licence up,
or in failure, which does not.  Any machine whose steps act on a licence in
this way attempts only what was granted and not revoked or used up since, and
succeeds at most once for each grant.
-/

namespace AxelarCgp

/-- The terms while granted, and whether an attempt is under way. -/
structure Licence (Terms : Type*) where
  granted : Option Terms
  inFlight : Bool

namespace Licence

inductive Act (Terms : Type*) where
  | grant (terms : Terms)
  | revoke
  | attempt
  | succeed
  | fail

variable {Terms State Input Output : Type*}

/-- How an act changes a licence.  There is no grant while a licence is held or
an attempt under way, and no attempt without a licence. -/
inductive Step : Licence Terms → Act Terms → Licence Terms → Prop
  | grant (terms : Terms) : Step ⟨none, false⟩ (.grant terms) ⟨some terms, false⟩
  | revoke (granted : Option Terms) (inFlight : Bool) :
      Step ⟨granted, inFlight⟩ .revoke ⟨none, inFlight⟩
  | attempt (terms : Terms) : Step ⟨some terms, false⟩ .attempt ⟨some terms, true⟩
  | succeed (granted : Option Terms) : Step ⟨granted, true⟩ .succeed ⟨none, false⟩
  | fail (granted : Option Terms) : Step ⟨granted, true⟩ .fail ⟨granted, false⟩

namespace Step

variable {licence result : Licence Terms} {which : Act Terms}

theorem granted_of_attempt (h : Step licence .attempt result) :
    ∃ terms, licence.granted = some terms := by
  cases h with
  | attempt terms => exact ⟨terms, rfl⟩

theorem granted_of_grant {terms : Terms} (h : Step licence (.grant terms) result) :
    result.granted = some terms := by
  cases h
  rfl

/-- What neither revokes nor uses up a licence that is held leaves it in place. -/
theorem granted_of_stands (h : Step licence which result) {terms : Terms}
    (hgranted : licence.granted = some terms) (hrevoke : which ≠ .revoke)
    (hsucceed : which ≠ .succeed) : result.granted = licence.granted := by
  cases h with
  | grant => simp at hgranted
  | revoke => exact absurd rfl hrevoke
  | succeed => exact absurd rfl hsucceed
  | attempt | fail => rfl

theorem granted_of_revoke (h : Step licence .revoke result) : result.granted = none := by
  cases h
  rfl

theorem inFlight_of_succeed (h : Step licence .succeed result) :
    licence.inFlight = true ∧ result = ⟨none, false⟩ := by
  cases h
  exact ⟨rfl, rfl⟩

/-- Only a grant makes a licence out of none. -/
theorem eq_grant (h : Step licence which result) (hnone : licence.granted = none)
    (hsome : result.granted ≠ none) : ∃ terms, which = .grant terms := by
  cases h with
  | grant terms => exact ⟨terms, rfl⟩
  | revoke | succeed => exact absurd rfl hsome
  | attempt => simp at hnone
  | fail => exact absurd hnone hsome

/-- An attempt that begins leaves the licence in place. -/
theorem granted_of_inFlight (h : Step licence which result) (hidle : licence.inFlight = false)
    (hflight : result.inFlight = true) : result.granted ≠ none := by
  cases h with
  | attempt => simp
  | revoke => exact absurd (hidle.symm.trans hflight) Bool.false_ne_true
  | grant | succeed | fail => simp at hflight

end Step

variable (act : Input → Output → Option (Act Terms))

/-- The entry completed and was this act. -/
def Did (which : Act Terms) (entry : Entry Input Output) : Prop :=
  ∃ output, entry.result = .ok output ∧ act entry.input output = some which

/-- The entry ended the licence. -/
def Ends (entry : Entry Input Output) : Prop :=
  Did act .revoke entry ∨ Did act .succeed entry

/-- The acts of a machine, as `act` reads them off its inputs and outputs, are
steps of the licence that `view` sees in its states. -/
structure Simulates (machine : Machine State Input Output) (start : State)
    (view : State → Licence Terms) : Prop where
  starts : view start = ⟨none, false⟩
  steps : ∀ history state input next output, machine.Run start history state →
    machine.step state input = .ok (next, output) →
    match act input output with
    | none => view next = view state
    | some which => Step (view state) which (view next)

variable {act} {machine : Machine State Input Output} {start : State}
variable {view : State → Licence Terms}

@[simp]
theorem did_ok {which : Act Terms} {input : Input} {output : Output} :
    Did act which ⟨input, .ok output⟩ ↔ act input output = some which := by
  simp [Did]

@[simp]
theorem not_did_error {which : Act Terms} {input : Input} {message : String} :
    ¬ Did act which ⟨input, (.error message : Outcome Output)⟩ := by
  simp [Did]

namespace Simulates

variable {history before between after : List (Entry Input Output)}
variable {state : State} {first second : Input} {firstOutput secondOutput : Output}

theorem step_of_act (h : Simulates act machine start view) {input : Input} {next : State}
    {output : Output} {which : Act Terms} (hrun : machine.Run start history state)
    (hok : machine.step state input = .ok (next, output))
    (hact : act input output = some which) : Step (view state) which (view next) := by
  have hstep := h.steps _ _ _ _ _ hrun hok
  rwa [hact] at hstep

/-- A licence that is held was granted on its terms and has not ended since. -/
theorem granted_since (h : Simulates act machine start view)
    (hrun : machine.Run start history state) {terms : Terms}
    (hgranted : (view state).granted = some terms) :
    Since (Did act (.grant terms)) (Ends act) history := by
  induction hrun with
  | start => simp [h.starts] at hgranted
  | @completed history state next input output hrun hok ih =>
      have hstep := h.steps _ _ _ _ _ hrun hok
      cases hact : act input output with
      | none =>
          rw [hact] at hstep
          exact (ih (hstep ▸ hgranted)).snoc (by simp [Ends, hact])
      | some which =>
          rw [hact] at hstep
          generalize hbefore : view state = licence at hstep ih
          generalize hafter : view next = result at hstep hgranted
          cases hstep with
          | grant other =>
              obtain rfl := Option.some.inj hgranted
              exact .of_last (by simp [hact])
          | revoke | succeed => simp at hgranted
          | attempt | fail => exact (ih hgranted).snoc (by simp [Ends, hact])
  | stopped _ _ ih => exact (ih hgranted).snoc (by simp [Ends])

/-- A licence that was granted and has not ended since is held, on its terms. -/
theorem granted_of_since (h : Simulates act machine start view)
    (hrun : machine.Run start history state) {terms : Terms}
    (hsince : Since (Did act (.grant terms)) (Ends act) history) :
    (view state).granted = some terms := by
  induction hrun with
  | start =>
      obtain ⟨before, entry, after, hnil, _⟩ := hsince
      simp at hnil
  | @completed history state next input output hrun hok ih =>
      have hstep := h.steps _ _ _ _ _ hrun hok
      rcases Since.snoc_iff.mp hsince with hgrant | ⟨hbefore, hstands⟩
      · rw [did_ok.mp hgrant] at hstep
        exact hstep.granted_of_grant
      · have hgranted := ih hbefore
        cases hact : act input output with
        | none =>
            rw [hact] at hstep
            rwa [hstep]
        | some which =>
            rw [hact] at hstep
            rw [Ends, did_ok, did_ok, hact, not_or, Option.some_inj, Option.some_inj] at hstands
            rw [hstep.granted_of_stands hgranted hstands.1 hstands.2]
            exact hgranted
  | stopped _ _ ih =>
      rcases Since.snoc_iff.mp hsince with hgrant | ⟨hbefore, _⟩
      · exact absurd hgrant not_did_error
      · exact ih hbefore

/-- An attempt is made under a licence that is held. -/
theorem attempt_since (h : Simulates act machine start view)
    (hrun : machine.Run start history state) {input : Input} {next : State} {output : Output}
    (hok : machine.step state input = .ok (next, output))
    (hattempt : act input output = some .attempt) :
    ∃ terms, (view state).granted = some terms ∧
      Since (Did act (.grant terms)) (Ends act) history := by
  obtain ⟨terms, hgranted⟩ := (h.step_of_act hrun hok hattempt).granted_of_attempt
  exact ⟨terms, hgranted, h.granted_since hrun hgranted⟩

/-- Steps that bring a licence about are grants. -/
theorem did_grant_of_ne (h : Simulates act machine start view)
    {input : Input} {next : State} {output : Output} (hrun : machine.Run start history state)
    (hok : machine.step state input = .ok (next, output))
    (hnone : (view state).granted = none) (hsome : (view next).granted ≠ none) :
    ∃ terms, Did act (.grant terms) ⟨input, .ok output⟩ := by
  have hstep := h.steps _ _ _ _ _ hrun hok
  cases hact : act input output with
  | none =>
      rw [hact] at hstep
      exact absurd (hstep ▸ hnone) hsome
  | some which =>
      rw [hact] at hstep
      obtain ⟨terms, rfl⟩ := hstep.eq_grant hnone hsome
      exact ⟨terms, did_ok.mpr hact⟩

/-- After a revocation there is no attempt before the next grant, whatever
becomes of an attempt under way. -/
theorem granted_between_revoke_attempt (h : Simulates act machine start view)
    (hrun : machine.Run start (before ++ ⟨first, .ok firstOutput⟩ :: between ++
      ⟨second, .ok secondOutput⟩ :: after) state)
    (hfirst : act first firstOutput = some .revoke)
    (hsecond : act second secondOutput = some .attempt) :
    ∃ entry ∈ between, ∃ terms, Did act (.grant terms) entry := by
  refine hrun.armed_between (fun state => (view state).granted ≠ none)
    (Did act .revoke) (Did act .attempt) (fun entry => ∃ terms, Did act (.grant terms) entry)
    ?_ ?_ ?_ (did_ok.mpr hfirst) (did_ok.mpr hsecond)
  · intro history state input next output hreached hok hrevoke hsome
    exact hsome (h.step_of_act hreached hok (did_ok.mp hrevoke)).granted_of_revoke
  · intro history state input next output hreached hok hattempt hnone
    obtain ⟨terms, hgranted⟩ :=
      (h.step_of_act hreached hok (did_ok.mp hattempt)).granted_of_attempt
    simp [hgranted] at hnone
  · intro history state input next output hreached hok hnone hsome
    exact h.did_grant_of_ne hreached hok (not_not.mp hnone) hsome

/-- Between two successes lies a grant. -/
theorem granted_between_successes (h : Simulates act machine start view)
    (hrun : machine.Run start (before ++ ⟨first, .ok firstOutput⟩ :: between ++
      ⟨second, .ok secondOutput⟩ :: after) state)
    (hfirst : act first firstOutput = some .succeed)
    (hsecond : act second secondOutput = some .succeed) :
    ∃ entry ∈ between, ∃ terms, Did act (.grant terms) entry := by
  refine hrun.armed_between
    (fun state => (view state).granted ≠ none ∨ (view state).inFlight = true)
    (Did act .succeed) (Did act .succeed) (fun entry => ∃ terms, Did act (.grant terms) entry)
    ?_ ?_ ?_ (did_ok.mpr hfirst) (did_ok.mpr hsecond)
  · intro history state input next output hreached hok hsucceed harmed
    have hended := (h.step_of_act hreached hok (did_ok.mp hsucceed)).inFlight_of_succeed.2
    simp [hended] at harmed
  · intro history state input next output hreached hok hsucceed
    exact .inr (h.step_of_act hreached hok (did_ok.mp hsucceed)).inFlight_of_succeed.1
  · intro history state input next output hreached hok hidle harmed
    rw [not_or, not_not, Bool.not_eq_true] at hidle
    -- Without a licence no attempt starts, so it is the licence that came.
    refine h.did_grant_of_ne hreached hok hidle.1 fun hnone => ?_
    have hflight := harmed.resolve_left (not_not.mpr hnone)
    have hstep := h.steps _ _ _ _ _ hreached hok
    cases hact : act input output with
    | none =>
        rw [hact] at hstep
        simp [hstep, hidle.2] at hflight
    | some which =>
        rw [hact] at hstep
        exact hstep.granted_of_inFlight hidle.2 hflight hnone

end Simulates

end Licence

end AxelarCgp
