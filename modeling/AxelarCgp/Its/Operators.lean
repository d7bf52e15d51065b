import AxelarCgp.Its.Registry
import AxelarCgp.Its.Storage
import AxelarCgp.TokenManager.Minters

/-!
# Operators

The service and its token managers keep their operators with the same module.  In both
the role is only ever handed on, by who holds it or to whom a holder proposed it, so
that there are never more operators than there were, and never none.
-/

namespace AxelarCgp.Its

open Machine Transaction

/-! ## Roles of the service -/

/-- What a call asks of the roles. -/
def Call.roleCall (caller : Address) : Call → Option RoleCall
  | .transferOperatorship operator => some (.transfer ⟨.operator, caller, operator⟩)
  | .proposeOperatorship operator => some (.propose ⟨.operator, caller, operator⟩)
  | .acceptOperatorship fromOperator => some (.accept ⟨.operator, fromOperator, caller⟩)
  | _ => none

def Input.roleCall (input : Input) : Option RoleCall :=
  match input.operation with
  | .its caller _ endpoint => endpoint.roleCall caller
  | _ => none

/-- Operators stay. -/
def Effect.keepsRoles : Effect → Prop
  | .roles => False
  | _ => True

theorem untouched_roles : Untouched State.roles Effect.keepsRoles where
  storage _ _ hkeeps := hkeeps.roles
  managers _ _ := rfl
  status _ _ _ _ := rfl
  approval _ _ _ _ := rfl
  roles _ _ hallowed := hallowed.elim

section

variable {crypto : Crypto} {env : Environment} {ctx : CallContext} {call : Call}
variable {world next : World} {trace : List Action} {input : Input}

theorem withRoles_eq_ok {x : AccountRoles.Tx Unit}
    (h : unpaid ctx (withRoles x) world = .ok ⟨(), next, trace⟩) :
    ∃ events, x world.its.roles = .ok ⟨(), next.its.roles, events⟩ := by
  simp only [unpaid, withRoles, Transaction.bind_eq_ok, Outcome.exists_unit, lift_eq_ok,
    within_eq_ok, Transaction.pure_eq_ok] at h
  obtain ⟨_, _, _, ⟨_, rfl, _⟩, ⟨_, _, _, ⟨_, events, hx, rfl, _⟩, ⟨_, rfl, _⟩, _⟩, _⟩ := h
  exact ⟨events, hx⟩

theorem movesOperator_roleChange (hmoves : call.movesOperator)
    (h : perform crypto env ctx call world = .ok ⟨(), next, trace⟩) :
    RoleChange world.its.roles (call.roleCall ctx.caller) next.its.roles := by
  cases call with
  | transferOperatorship operator =>
    obtain ⟨_, htransfer⟩ := withRoles_eq_ok h
    exact Operatable.transferOperatorship_roleChange htransfer
  | proposeOperatorship operator =>
    obtain ⟨_, hpropose⟩ := withRoles_eq_ok h
    exact Operatable.proposeOperatorship_roleChange hpropose
  | acceptOperatorship fromOperator =>
    obtain ⟨_, haccept⟩ := withRoles_eq_ok h
    exact Operatable.acceptOperatorship_roleChange haccept
  | _ => simp [Call.movesOperator] at hmoves

theorem roleCall_eq_none {caller : Address} (hmoves : ¬ call.movesOperator) :
    call.roleCall caller = none := by
  cases call with
  | transferOperatorship | proposeOperatorship | acceptOperatorship =>
    simp [Call.movesOperator] at hmoves
  | _ => rfl

theorem Call.Effects.keepsRoles {effect : Effect} (hmoves : ¬ call.movesOperator)
    (h : call.Effects ctx effect) : effect.keepsRoles := by
  cases h with
  | operators hoperators => exact absurd hoperators hmoves
  | _ => trivial

/-- A step does to the roles of the service what its input asks. -/
theorem step_roleChange (hnameless : world.its.trustedChains .new = false)
    (hok : (machine crypto).step world input = .ok (next, trace)) :
    RoleChange world.its.roles input.roleCall next.its.roles := by
  by_cases hmoves : ∃ caller payment call, input.operation = .its caller payment call ∧
      call.movesOperator
  · obtain ⟨caller, payment, call, hcall, hmoves⟩ := hmoves
    have hrun := (step_eq_ok crypto).mp hok
    rw [hcall] at hrun
    obtain ⟨_, paid, hpay, hperform⟩ := run_its_eq_ok.mp hrun
    obtain ⟨⟨_, _, rfl⟩, _⟩ := ledgerOnly_pay _ _ _ _ hpay
    rw [Input.roleCall, hcall]
    exact movesOperator_roleChange hmoves hperform
  · have hsame : Same State.roles world trace next := by
      apply untouched_roles.stepRules.step rfl hnameless _ _ hok
      · intro caller payment call hcall effect heffect
        exact heffect.keepsRoles fun hcallMoves => hmoves ⟨caller, payment, call, hcall, hcallMoves⟩
      · intro caller address payment call _ _
        exact same_callManager call
    have hasks : input.roleCall = none := by
      obtain ⟨env, operation⟩ := input
      cases operation with
      | its caller payment call =>
        exact roleCall_eq_none fun hcallMoves => hmoves ⟨caller, payment, call, rfl, hcallMoves⟩
      | _ => rfl
    rw [hsame, hasks]
    exact .nothing

end

section

variable {crypto : Crypto} {start world : World} {history : History}

theorem Launched.roles (hlaunched : Launched crypto start) :
    ∃ operator, start.its.roles = RoleTable.empty.setRoles operator .OPERATOR := by
  obtain ⟨_, _, _, operator, _, _, _, hinit⟩ := hlaunched.init
  simp only [Its.init, Outcome.bind_eq_ok, Outcome.exists_unit, Outcome.require_eq_ok,
    Outcome.pure_eq_ok] at hinit
  obtain ⟨_, _, _, _, _, hits⟩ := hinit
  exact ⟨operator, by rw [← hits]⟩

theorem roleRuns (hlaunched : Launched crypto start) :
    RoleRuns (machine crypto) start (fun world => world.its.roles) Input.roleCall where
  starts := by
    obtain ⟨operator, hroles⟩ := hlaunched.roles
    rw [hroles]
    rfl
  steps _ _ _ _ _ hrun hok :=
    step_roleChange (keepsRegistry_run hlaunched.registered hrun).registered.nameless hok

theorem holders_setRoles_operator (operator : Address) :
    (RoleTable.empty.setRoles operator .OPERATOR).holders .operator = {operator} := by
  ext account
  by_cases haccount : account = operator
  · subst haccount
    simp [RoleTable.holders, RoleTable.hasRole, RoleTable.setRoles, Role.roles, Roles.intersects,
      Roles.OPERATOR]
  · simp [RoleTable.holders, RoleTable.hasRole, RoleTable.setRoles, RoleTable.empty, Role.roles,
      Roles.intersects, Roles.OPERATOR, Roles.none, haccount]

/-- The service has one operator, who hands the role on. -/
theorem conservesOperator (hlaunched : Launched crypto start)
    (hrun : (machine crypto).Run start history world) :
    Conserves (machine crypto) start (fun world => world.its.roles) Input.roleCall .operator
        history world ∧
      ∃ operator, world.its.roles.holders .operator = {operator} := by
  obtain ⟨first, hroles⟩ := hlaunched.roles
  have hfirst : start.its.roles.holders .operator = {first} := by
    rw [hroles, holders_setRoles_operator]
  have hconserves : Conserves (machine crypto) start (fun world => world.its.roles)
      Input.roleCall .operator history world := by
    apply (roleRuns hlaunched).conserves _ _ _ _ hrun
    · rw [hfirst]
      exact Set.finite_singleton first
    · rw [hfirst]
      exact Set.singleton_nonempty first
    · rintro ⟨env, operation⟩ account hgrant
      cases operation with
      | its caller payment call => cases call <;> simp [Input.roleCall, Call.roleCall] at hgrant
      | _ => simp [Input.roleCall] at hgrant
    · rintro ⟨env, operation⟩ account hwithdraw
      cases operation with
      | its caller payment call => cases call <;> simp [Input.roleCall, Call.roleCall] at hwithdraw
      | _ => simp [Input.roleCall] at hwithdraw
  have hkept := hconserves.kept [] history start rfl .start
  rw [hfirst] at hkept
  exact ⟨hconserves, hkept.singleton⟩

end

/-- The operators of every token manager and of the service are conserved. -/
theorem operatorsConserved :
    (∀ service managerType tokenId params initial,
      TokenManager.init service managerType tokenId params .blank = .ok initial →
      ∀ history system, Run TokenManager.machine ⟨initial.state, []⟩ history system →
      TokenManager.ConservesOperators ⟨initial.state, []⟩ history system) ∧
    (∀ crypto start, Launched crypto start →
      ∀ history world, (machine crypto).Run start history world →
      Conserves (machine crypto) start (fun world => world.its.roles) Input.roleCall .operator
          history world ∧
        ∃ operator, world.its.roles.holders .operator = {operator}) := by
  constructor
  · intro service managerType tokenId params initial hinit history system hrun
    exact TokenManager.conservesOperators hinit hrun
  · intro crypto start hlaunched history world hrun
    exact conservesOperator hlaunched hrun

/-! ## Operators that are proposed -/

/-- An operator of a manager proposes the role, is taken at its word and is none any more;
the new one hands the role to itself, and the service hands it its own. -/
def sampleManagerOperators : List TokenManager.Input :=
  [TokenManager.sampleCall 2 (.proposeOperatorship (sampleAddress 5)),
    TokenManager.sampleCall 5 (.acceptOperatorship (sampleAddress 2)),
    TokenManager.sampleCall 2 (.transferOperatorship (sampleAddress 6)),
    TokenManager.sampleCall 5 (.transferOperatorship (sampleAddress 5)),
    TokenManager.sampleCall 1 (.transferOperatorship (sampleAddress 5))]

/-- Which of some inputs completed. -/
def sampleManagerCompleted (inputs : List TokenManager.Input) : Outcome (List Bool) := do
  let initial ← TokenManager.init TokenManager.sampleService .lockUnlock
    TokenManager.sampleTokenId ⟨some (sampleAddress 2), some .egld⟩ .blank
  let (history, _) := TokenManager.machine.replay ⟨initial.state, []⟩ inputs
  return history.map fun entry => entry.result.isOk

def sampleOperators : List Input :=
  [⟨sampleEnvironment, .its sampleUser .none (.proposeOperatorship (sampleAddress 7))⟩,
    ⟨sampleEnvironment, .its (sampleAddress 7) .none (.acceptOperatorship sampleUser)⟩,
    ⟨sampleEnvironment, .its sampleUser .none (.proposeOperatorship (sampleAddress 8))⟩]

theorem sample_operatorsConserved :
    (∃ initial history system, Run TokenManager.machine ⟨initial, []⟩ history system ∧
      history.map Entry.input = sampleManagerOperators ∧
      history.map (fun entry => entry.result.isOk) = [true, true, false, true, true] ∧
      TokenManager.ConservesOperators ⟨initial, []⟩ history system) ∧
    ∃ start history world, Launched sampleNativeCrypto start ∧
      (machine sampleNativeCrypto).Run start history world ∧
      history.map Entry.input = sampleOperators ∧
      history.map (fun entry => entry.result.isOk) = [true, true, false] ∧
      Conserves (machine sampleNativeCrypto) start (fun world => world.its.roles) Input.roleCall
          .operator history world ∧
        ∃ operator, world.its.roles.holders .operator = {operator} := by
  constructor
  · have hcompleted : sampleManagerCompleted sampleManagerOperators =
        .ok [true, true, false, true, true] := by
      decide +kernel
    simp only [sampleManagerCompleted, Outcome.bind_eq_ok, Outcome.pure_eq_ok] at hcompleted
    obtain ⟨initial, hinit, hcompleted⟩ := hcompleted
    have hrun := TokenManager.machine.run_replay ⟨initial.state, []⟩ sampleManagerOperators
    exact ⟨initial.state, _, _, hrun, TokenManager.machine.replay_inputs _ _, hcompleted,
      operatorsConserved.1 _ _ _ _ _ hinit _ _ hrun⟩
  · have hreplay : sampleReplay sampleNativeCrypto sampleOperators
        (fun history _ => history.map fun entry => entry.result.isOk) =
          .ok [true, true, false] := by
      decide +kernel
    obtain ⟨start, history, world, hlaunched, hrun, hinputs, hcompleted⟩ :=
      sampleReplay_run hreplay
    exact ⟨start, history, world, hlaunched, hrun, hinputs, hcompleted,
      operatorsConserved.2 _ _ hlaunched _ _ hrun⟩

end AxelarCgp.Its
