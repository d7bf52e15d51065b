import AxelarCgp.TokenManager.Changes

/-!
# Tokens move for the service only

A manager that has its token moves tokens when the service makes it give or take them, and
at no other call, unless a minter mints or burns.  Where nobody but the zero address is a
minter, and nobody is offered the mintership, it stays like that.
-/

namespace AxelarCgp.TokenManager

open Transaction

/-- Nobody who can call is a minter, or can become one. -/
structure State.Minterless (state : State) : Prop where
  held : ∀ account ∈ state.roles.holders .minter, account.isZero
  offered : ∀ fromAddress toAddress,
    state.roles.proposedRoles fromAddress toAddress ≠ .MINTER

variable {ctx : CallContext} {call : Call} {state next : State} {reply : Reply}
variable {actions : List Action}

/-! ## Minters -/

namespace State.Minterless

theorem hasRole_eq_false (h : state.Minterless) (hcaller : ctx.caller.isZero = false) :
    state.roles.hasRole ctx.caller .MINTER = false := by
  by_contra hheld
  rw [Bool.not_eq_false] at hheld
  have hzero := h.held ctx.caller hheld
  rw [hcaller] at hzero
  contradiction

theorem of_roles (h : state.Minterless)
    (hholders : next.roles.holders .minter = state.roles.holders .minter)
    (hoffered : ∀ fromAddress toAddress, next.roles.proposedRoles fromAddress toAddress = .MINTER →
      state.roles.proposedRoles fromAddress toAddress = .MINTER) : next.Minterless where
  held := by
    rw [hholders]
    exact h.held
  offered fromAddress toAddress hproposed :=
    h.offered fromAddress toAddress (hoffered fromAddress toAddress hproposed)

/-- Another role changes hands. -/
theorem of_change (h : state.Minterless) {asked : Option RoleCall}
    (hchange : RoleChange state.roles asked next.roles)
    (hother : ∀ roleCall, asked = some roleCall → roleCall.role ≠ .minter)
    (hoffered : ∀ fromAddress toAddress, next.roles.proposedRoles fromAddress toAddress = .MINTER →
      state.roles.proposedRoles fromAddress toAddress = .MINTER) : next.Minterless :=
  h.of_roles (hchange.holders_other hother) hoffered

end State.Minterless

theorem proposedRoles_setProposedRoles {table : RoleTable} {fromAddress toAddress : Address}
    {roles : Roles} (hroles : roles ≠ .MINTER) (proposer addressee : Address)
    (h : (table.setProposedRoles fromAddress toAddress roles).proposedRoles proposer addressee =
      .MINTER) : table.proposedRoles proposer addressee = .MINTER := by
  rw [← show Role.minter.roles = Roles.MINTER from rfl, ← RoleTable.proposals_eq_some,
    RoleTable.proposals_setProposedRoles] at h
  by_cases hkey : (proposer, addressee) = (fromAddress, toAddress)
  · rw [hkey, Function.update_self] at h
    split at h
    · simp at h
    · exact absurd (Option.some.inj h) hroles
  · rw [Function.update_of_ne hkey] at h
    exact RoleTable.proposals_eq_some.mp h

/-- A call of somebody else than the zero address makes nobody a minter. -/
theorem Changes.minterless (h : Changes ctx state call next) (hless : state.Minterless)
    (hcaller : ctx.caller.isZero = false)
    (hdeployed : ∀ minter name symbol decimals initialCaller,
      call ≠ .deployInterchainToken minter name symbol decimals initialCaller) :
    next.Minterless := by
  have hlacks := hless.hasRole_eq_false hcaller
  have hchange := h.roleChange
  cases h with
  | deployInterchainToken => exact absurd rfl (hdeployed _ _ _ _ _)
  | transferMintership hheld | proposeMintership hheld =>
    rw [hlacks] at hheld
    contradiction
  | acceptMintership hproposed => exact absurd hproposed (hless.offered _ _)
  | giveToken hflows | takeToken _ hflows =>
    apply hless.of_roles
    · rw [hflows.roles]
    · rw [hflows.roles]
      exact fun _ _ h => h
  | setFlowLimit | donateTokens | mint | burn => exact hless.of_roles rfl fun _ _ h => h
  | addFlowLimiter | removeFlowLimiter | transferFlowLimiter | transferOperatorship =>
    exact hless.of_change hchange (by simp [Call.roleCall, RoleCall.role]) fun _ _ h => h
  | proposeOperatorship =>
    exact hless.of_change hchange (by simp [Call.roleCall, RoleCall.role])
      (proposedRoles_setProposedRoles (by decide))
  | acceptOperatorship =>
    exact hless.of_change hchange (by simp [Call.roleCall, RoleCall.role])
      (proposedRoles_setProposedRoles (by decide))

/-! ## Actions -/

/-- The platform has nothing to carry out. -/
def Action.isQuiet : Action → Bool
  | .roles _ | .flowLimitSet _ _ _ | .interchainTokenDeployed _ _
  | .interchainTokenDeploymentFailed => true
  | _ => false

def Quiet (_ : ℕ) (_ : State) (actions : List Action) (_ : State) : Prop :=
  ∀ action ∈ actions, action.isQuiet

theorem composes_quiet : Composes Quiet where
  nil _ _ hmem := by simp at hmem
  append first second action hmem := by
    rcases List.mem_append.mp hmem with hmem | hmem
    · exact first action hmem
    · exact second action hmem
  mono _ h := h

section Quiet

theorem quiet_withRoles (x : AccountRoles.Tx Unit) : Satisfies (Quiet 0) (withRoles x) := by
  intro before value after trace h action hmem
  obtain ⟨_, events, _, _, rfl⟩ := within_eq_ok.mp h
  obtain ⟨event, _, rfl⟩ := List.mem_map.mp hmem
  rfl

theorem quiet_setMinterAddress (minter : Address) :
    Satisfies (Quiet 0) (setMinterAddress minter) :=
  .modifies fun state => composes_quiet.nil state

theorem quiet_unpaid {x : Tx Unit} (hx : Satisfies (Quiet 0) x) :
    Satisfies (Quiet 0) (unpaid ctx x) :=
  .inspect_bind (.lift _) fun _ => .andThen composes_quiet hx fun _ => .pure composes_quiet _

/-- With a token a callback has nothing to move. -/
theorem deployTokenCallback_quiet {user : Address} {token : TokenIdentifier}
    (h : deployTokenCallback ctx user (some token) state = .ok ⟨(), next, actions⟩) :
    ∀ action ∈ actions, action.isQuiet := by
  simp only [deployTokenCallback, Transaction.bind_eq_ok, reads_eq_ok, performs_eq_ok,
    modifies_eq_ok] at h
  obtain ⟨_, _, _, _, ⟨rfl, rfl, rfl⟩, ⟨_, _, _, _, ⟨rfl, rfl⟩, ⟨rfl, rfl⟩, rfl⟩, rfl⟩ := h
  simp [Action.isQuiet]

/-- Without a token it gives the user what came back. -/
theorem deployTokenCallback_none {user : Address}
    (h : deployTokenCallback ctx user none state = .ok ⟨(), next, actions⟩) :
    ∃ value, egldValue ctx = .ok value ∧
      actions = [.interchainTokenDeploymentFailed, .send user .egld value] := by
  simp only [deployTokenCallback, Transaction.bind_eq_ok, lift_eq_ok, performs_eq_ok] at h
  obtain ⟨_, _, _, _, ⟨rfl, rfl⟩, ⟨value, _, _, _, ⟨hvalue, rfl, rfl⟩, ⟨rfl, rfl⟩, rfl⟩, rfl⟩ := h
  exact ⟨value, hvalue, rfl⟩

/-- A manager with a token and without a minter moves nothing, unless the service tells it to
give or take. -/
theorem perform_quiet (h : perform ctx call state = .ok ⟨reply, next, actions⟩)
    (htoken : state.tokenIdentifier.isSome) (hcaller : ctx.caller.isZero = false)
    (hless : state.implementationType = .nativeInterchainToken → state.Minterless)
    (hother : ctx.caller = state.interchainTokenService →
      (∀ receiver amount, call ≠ .giveToken receiver amount) ∧ call ≠ .takeToken) :
    ∀ action ∈ actions, action.isQuiet := by
  have hminter : state.implementationType = .nativeInterchainToken →
      state.roles.hasRole ctx.caller .MINTER = true → False := by
    intro hnative hheld
    rw [(hless hnative).hasRole_eq_false hcaller] at hheld
    contradiction
  have hquiet : Satisfies (Quiet 0) (perform ctx call) → ∀ action ∈ actions, action.isQuiet :=
    fun hcall => hcall _ _ _ _ h
  cases call with
  | giveToken receiver amount => exact absurd rfl ((hother (giveToken_eq_ok h).1).1 _ _)
  | takeToken => exact absurd rfl (hother (takeToken_eq_ok h).1).2
  | deployInterchainToken minter name symbol decimals initialCaller =>
    rw [(deployInterchainToken_eq_ok h).missing] at htoken
    simp at htoken
  | mint address amount =>
    obtain ⟨_, _, hmint⟩ := unpaid_eq_ok.mp h
    exact (hminter (requireNative_bind_eq_ok.mp hmint).1 (perform_role rfl h)).elim
  | burn =>
    obtain ⟨_, _, _, _, hburn, _, _⟩ := Transaction.bind_eq_ok.mp h
    exact (hminter (requireNative_bind_eq_ok.mp hburn).1 (perform_role rfl h)).elim
  | donateTokens =>
    obtain ⟨_, rfl⟩ := inspects_donateTokens _ _ _ _ _ h
    simp
  | setFlowLimit flowLimit =>
    obtain ⟨_, _, rfl⟩ := perform_setFlowLimit.mp h
    simp [Action.isQuiet]
  | addFlowLimiter | removeFlowLimiter | transferFlowLimiter =>
    exact hquiet (quiet_unpaid (.inspect_bind (inspects_onlyOperator ctx) fun _ =>
      quiet_withRoles _))
  | transferMintership minter =>
    exact hquiet (quiet_unpaid (.inspect_bind (inspects_onlyMinter ctx) fun _ =>
      .andThen composes_quiet (quiet_setMinterAddress _) fun _ => quiet_withRoles _))
  | proposeMintership minter =>
    exact hquiet (quiet_unpaid (.inspect_bind (inspects_onlyMinter ctx) fun _ =>
      quiet_withRoles _))
  | acceptMintership fromMinter =>
    exact hquiet (quiet_unpaid (.andThen composes_quiet (quiet_setMinterAddress _) fun _ =>
      quiet_withRoles _))
  | transferOperatorship | proposeOperatorship | acceptOperatorship =>
    exact hquiet (quiet_unpaid (quiet_withRoles _))

end Quiet

end AxelarCgp.TokenManager
