import AxelarCgp.TokenManager.Rules

/-!
# Who may do what at a token manager

Which role an endpoint asks of its caller, what an account without roles can not
change, and how it may come to have one.
-/

namespace AxelarCgp

/-- All three roles. -/
def Roles.all : Roles := ⟨true, true, true⟩

theorem Roles.eq_none_iff {roles : Roles} : roles = .none ↔ roles.intersects .all = false := by
  obtain ⟨_, _, _⟩ := roles
  simp [none, all, intersects, and_assoc]

theorem RoleTable.hasRole_of_none {table : RoleTable} {account : Address} {roles : Roles}
    (h : table.accountRoles account = .none) : table.hasRole account roles = false := by
  simp [hasRole, h, Roles.none, Roles.intersects]

namespace TokenManager

open Transaction

/-- The role that an endpoint asks of its caller. -/
def Call.role : Call → Option Roles
  | .mint _ _ | .burn | .transferMintership _ | .proposeMintership _ => some .MINTER
  | .addFlowLimiter _ | .removeFlowLimiter _ | .transferFlowLimiter _ _
  | .transferOperatorship _ | .proposeOperatorship _ => some .OPERATOR
  | .setFlowLimit _ => some .FLOW_LIMITER
  | _ => none

/-- The caller takes a role that was proposed to it. -/
def Call.accepts : Call → Bool
  | .acceptMintership _ | .acceptOperatorship _ => true
  | _ => false

variable {ctx : CallContext} {call : Call} {state next : State} {reply : Reply}
variable {actions : List Action}

/-! ## Endpoints that ask for a role -/

theorem unpaid_eq_ok {x : Tx Unit} :
    unpaid ctx x state = .ok ⟨reply, next, actions⟩ ↔
      requireNotPayable ctx = .ok () ∧ reply = .nothing ∧
        x state = .ok ⟨(), next, actions⟩ := by
  simp only [unpaid, Transaction.bind_eq_ok, Outcome.exists_unit, lift_eq_ok,
    Transaction.pure_eq_ok]
  constructor
  · rintro ⟨_, _, _, ⟨hunpaid, rfl, rfl⟩, ⟨_, _, _, hx, ⟨rfl, rfl, rfl⟩, rfl⟩, rfl⟩
    exact ⟨hunpaid, rfl, by simpa using hx⟩
  · rintro ⟨hunpaid, rfl, hx⟩
    exact ⟨_, _, _, ⟨hunpaid, rfl, rfl⟩, ⟨_, _, _, hx, ⟨rfl, rfl, rfl⟩, rfl⟩, by simp⟩

/-- What follows a check of the caller's role. -/
theorem onlyRole_bind_eq_ok {A : Type} {roles : Roles} {f : Unit → Tx A} {value : A} :
    (withRoles (AccountRoles.onlyRole ctx.caller roles) >>= f) state =
        .ok ⟨value, next, actions⟩ ↔
      state.roles.hasRole ctx.caller roles ∧ f () state = .ok ⟨value, next, actions⟩ := by
  simp only [Transaction.bind_eq_ok, Outcome.exists_unit, withRoles, within_eq_ok,
    AccountRoles.onlyRole_eq_ok]
  constructor
  · rintro ⟨_, _, _, ⟨_, _, ⟨hheld, rfl, rfl⟩, rfl, rfl⟩, hf, rfl⟩
    exact ⟨hheld, hf⟩
  · rintro ⟨hheld, hf⟩
    exact ⟨_, _, _, ⟨_, _, ⟨hheld, rfl, rfl⟩, rfl, rfl⟩, hf, rfl⟩

theorem withRoles_eq_ok {x : AccountRoles.Tx Unit} :
    withRoles x state = .ok ⟨(), next, actions⟩ ↔
      ∃ roles events, x state.roles = .ok ⟨(), roles, events⟩ ∧ next = { state with roles } ∧
        actions = events.map .roles := by
  simp only [withRoles, within_eq_ok]
  constructor
  · rintro ⟨roles, events, hx, rfl, rfl⟩
    exact ⟨roles, events, hx, rfl, rfl⟩
  · rintro ⟨roles, events, hx, rfl, rfl⟩
    exact ⟨roles, events, hx, rfl, rfl⟩

theorem requireNative_bind_eq_ok {A : Type} {f : Unit → Tx A} {value : A} :
    (requireNative >>= f) state = .ok ⟨value, next, actions⟩ ↔
      state.implementationType = .nativeInterchainToken ∧
        f () state = .ok ⟨value, next, actions⟩ := by
  simp only [requireNative, Transaction.bind_eq_ok, Outcome.exists_unit, reads_eq_ok, lift_eq_ok,
    Outcome.require_eq_ok]
  constructor
  · rintro ⟨_, _, _, ⟨_, _, _, _, ⟨rfl, rfl, rfl⟩, ⟨hnative, rfl, rfl⟩, rfl⟩, hf, rfl⟩
    exact ⟨hnative, hf⟩
  · rintro ⟨hnative, hf⟩
    exact ⟨_, _, _, ⟨_, _, _, _, ⟨rfl, rfl, rfl⟩, ⟨hnative, rfl, rfl⟩, rfl⟩, hf, rfl⟩

theorem perform_role {roles : Roles} (hrole : call.role = some roles)
    (h : perform ctx call state = .ok ⟨reply, next, actions⟩) :
    state.roles.hasRole ctx.caller roles := by
  cases call with
  | giveToken | takeToken | donateTokens | deployInterchainToken | acceptMintership
  | acceptOperatorship => simp [Call.role] at hrole
  | mint address amount =>
    obtain rfl := Option.some.inj hrole
    obtain ⟨_, _, hmint⟩ := unpaid_eq_ok.mp h
    exact (onlyRole_bind_eq_ok.mp (requireNative_bind_eq_ok.mp hmint).2).1
  | burn =>
    obtain rfl := Option.some.inj hrole
    obtain ⟨_, _, _, _, hburn, _, _⟩ := Transaction.bind_eq_ok.mp h
    exact (onlyRole_bind_eq_ok.mp (requireNative_bind_eq_ok.mp hburn).2).1
  | transferOperatorship | proposeOperatorship =>
    obtain rfl := Option.some.inj hrole
    obtain ⟨_, _, hroles⟩ := unpaid_eq_ok.mp h
    obtain ⟨_, _, hx, _, _⟩ := withRoles_eq_ok.mp hroles
    obtain ⟨_, _, _, _, honly, _, _⟩ := Transaction.bind_eq_ok.mp hx
    exact (AccountRoles.onlyRole_eq_ok.mp honly).1
  | _ =>
    obtain rfl := Option.some.inj hrole
    obtain ⟨_, _, hx⟩ := unpaid_eq_ok.mp h
    exact (onlyRole_bind_eq_ok.mp hx).1

theorem perform_setFlowLimit {flowLimit : Option ℕ} :
    perform ctx (.setFlowLimit flowLimit) state = .ok ⟨reply, next, actions⟩ ↔
      (requireNotPayable ctx = .ok () ∧ reply = .nothing ∧
        state.roles.hasRole ctx.caller .FLOW_LIMITER) ∧
      next = { state with flowLimit } ∧
      actions = [.flowLimitSet state.interchainTokenId ctx.caller flowLimit] := by
  simp only [perform, setFlowLimit, unpaid_eq_ok, onlyRole_bind_eq_ok]
  simp only [setFlowLimitRaw, Transaction.bind_eq_ok, reads_eq_ok, performs_eq_ok, modifies_eq_ok]
  constructor
  · rintro ⟨hunpaid, rfl, hheld, _, _, _, _, ⟨rfl, rfl, rfl⟩, ⟨_, _, _, _, ⟨rfl, rfl⟩,
      ⟨rfl, rfl⟩, rfl⟩, rfl⟩
    exact ⟨⟨hunpaid, rfl, hheld⟩, rfl, rfl⟩
  · rintro ⟨⟨hunpaid, rfl, hheld⟩, rfl, rfl⟩
    exact ⟨hunpaid, rfl, hheld, _, _, _, _, ⟨rfl, rfl, rfl⟩, ⟨(), _, _, _, ⟨rfl, rfl⟩,
      ⟨rfl, rfl⟩, rfl⟩, rfl⟩

/-! ## What the service does when it hands a token over -/

theorem perform_mint {address : Address} {amount : ℕ}
    (h : perform ctx (.mint address amount) state = .ok ⟨reply, next, actions⟩) :
    next = state := by
  obtain ⟨_, _, hmint⟩ := unpaid_eq_ok.mp h
  obtain ⟨_, hmint⟩ := requireNative_bind_eq_ok.mp hmint
  obtain ⟨_, hmint⟩ := onlyRole_bind_eq_ok.mp hmint
  simp only [Transaction.bind_eq_ok, Outcome.exists_unit, reads_eq_ok, lift_eq_ok,
    performs_eq_ok] at hmint
  obtain ⟨_, _, _, _, ⟨_, rfl, rfl⟩, ⟨_, _, _, ⟨_, rfl, rfl⟩, ⟨_, _, _, _, ⟨_, rfl, rfl⟩,
    ⟨_, _, _, _, ⟨_, rfl, rfl⟩, ⟨_, _, _, ⟨rfl, rfl⟩, ⟨rfl, rfl⟩, _⟩, _⟩, _⟩, _⟩, _⟩ := hmint
  rfl

theorem perform_transferMintership {minter : Address}
    (h : perform ctx (.transferMintership minter) state = .ok ⟨reply, next, actions⟩) :
    next = { state with
      minterAddress := some minter
      roles := (state.roles.withdraw ctx.caller .MINTER).grant minter .MINTER } := by
  obtain ⟨_, _, hx⟩ := unpaid_eq_ok.mp h
  obtain ⟨_, hx⟩ := onlyRole_bind_eq_ok.mp hx
  simp only [setMinterAddress, Transaction.bind_eq_ok, modifies_eq_ok, withRoles_eq_ok,
    AccountRoles.transferRole_eq_ok] at hx
  obtain ⟨_, _, _, _, ⟨rfl, rfl⟩, ⟨_, _, ⟨_, rfl, rfl⟩, rfl, rfl⟩, rfl⟩ := hx
  rfl

theorem perform_removeFlowLimiter {flowLimiter : Address}
    (h : perform ctx (.removeFlowLimiter flowLimiter) state = .ok ⟨reply, next, actions⟩) :
    next = { state with roles := state.roles.withdraw flowLimiter .FLOW_LIMITER } := by
  obtain ⟨_, _, hx⟩ := unpaid_eq_ok.mp h
  obtain ⟨_, hx⟩ := onlyRole_bind_eq_ok.mp hx
  obtain ⟨_, _, hremove, rfl, _⟩ := withRoles_eq_ok.mp hx
  rw [(AccountRoles.removeRole_eq_ok.mp hremove).1]

theorem perform_addFlowLimiter {flowLimiter : Address}
    (h : perform ctx (.addFlowLimiter flowLimiter) state = .ok ⟨reply, next, actions⟩) :
    next = { state with roles := state.roles.grant flowLimiter .FLOW_LIMITER } := by
  obtain ⟨_, _, hx⟩ := unpaid_eq_ok.mp h
  obtain ⟨_, hx⟩ := onlyRole_bind_eq_ok.mp hx
  exact (withRoles_addRole_eq_ok.mp hx).1.symm

theorem perform_transferOperatorship {operator : Address}
    (h : perform ctx (.transferOperatorship operator) state = .ok ⟨reply, next, actions⟩) :
    next = { state with
      roles := (state.roles.withdraw ctx.caller .OPERATOR).grant operator .OPERATOR } := by
  obtain ⟨_, _, hx⟩ := unpaid_eq_ok.mp h
  obtain ⟨_, _, htransfer, rfl, _⟩ := withRoles_eq_ok.mp hx
  simp only [Operatable.transferOperatorship, Operatable.onlyOperator, Transaction.bind_eq_ok,
    Outcome.exists_unit, AccountRoles.onlyRole_eq_ok,
    AccountRoles.transferRole_eq_ok] at htransfer
  obtain ⟨_, _, _, ⟨_, rfl, _⟩, ⟨_, rfl, _⟩, _⟩ := htransfer
  rfl

/-! ## Endpoints that ask for none -/

/-- Nothing about roles and the flow limit has changed. -/
structure KeepsRoles (before : State) (actions : List Action) (after : State) : Prop where
  roles : after.roles = before.roles
  flowLimit : after.flowLimit = before.flowLimit
  added : ∀ account roles, .roles (.rolesAdded account roles) ∉ actions

theorem State.SameBooks.keepsRoles (h : state.SameBooks next)
    (hadded : ∀ account roles, .roles (.rolesAdded account roles) ∉ actions) :
    KeepsRoles state actions next := by
  obtain ⟨_, _, rfl⟩ := h
  exact ⟨rfl, rfl, hadded⟩

/-- An endpoint that asks for no role changes none, but for roles that were proposed to
its caller, and the minter of a token that has none. -/
theorem perform_free (hrole : call.role = none) (haccepts : call.accepts = false)
    (hminter : state.minterAddress.isSome)
    (h : perform ctx call state = .ok ⟨reply, next, actions⟩) :
    KeepsRoles state actions next := by
  cases call with
  | giveToken receiver amount =>
    obtain ⟨_, _, hflows, hgives⟩ := giveToken_eq_ok h
    refine hflows.sameBooks.keepsRoles fun _ _ => ?_
    cases hgives with
    | unlock | mint => simp
  | takeToken =>
    obtain ⟨_, _, _, _, hflows, htakes⟩ := takeToken_eq_ok h
    refine hflows.sameBooks.keepsRoles fun _ _ => ?_
    cases htakes with
    | lock | burn => simp
  | donateTokens =>
    obtain ⟨rfl, rfl⟩ := inspects_donateTokens _ _ _ _ _ h
    exact ⟨rfl, rfl, by simp⟩
  | deployInterchainToken minter name symbol decimals initialCaller =>
    obtain ⟨added, hadds, rfl⟩ := (deployInterchainToken_eq_ok h).issued
    cases hadds with
    | first hnone => simp [hnone] at hminter
    | again => exact ⟨rfl, rfl, by simp⟩
  | acceptMintership | acceptOperatorship => simp [Call.accepts] at haccepts
  | _ => simp [Call.role] at hrole

theorem perform_accepts (haccepts : call.accepts)
    (h : perform ctx call state = .ok ⟨reply, next, actions⟩) {account : Address} {added : Roles}
    (hmem : .roles (.rolesAdded account added) ∈ actions) : account = ctx.caller := by
  cases call with
  | acceptMintership fromMinter =>
    obtain ⟨_, _, hx⟩ := unpaid_eq_ok.mp h
    simp only [acceptMintership, setMinterAddress, Transaction.bind_eq_ok, modifies_eq_ok,
      withRoles_eq_ok] at hx
    obtain ⟨_, _, _, _, ⟨rfl, rfl⟩, ⟨_, events, haccept, rfl, rfl⟩, rfl⟩ := hx
    obtain ⟨event, hevent, heq⟩ := List.mem_map.mp hmem
    obtain rfl := Action.roles.inj heq
    exact AccountRoles.acceptRole_rolesAdded haccept hevent
  | acceptOperatorship fromOperator =>
    obtain ⟨_, _, hx⟩ := unpaid_eq_ok.mp h
    obtain ⟨_, events, haccept, rfl, rfl⟩ := withRoles_eq_ok.mp hx
    obtain ⟨event, hevent, heq⟩ := List.mem_map.mp hmem
    obtain rfl := Action.roles.inj heq
    exact AccountRoles.acceptRole_rolesAdded haccept hevent
  | _ => simp [Call.accepts] at haccepts

/-! ## How an account comes to have a role -/

/-- An account that lacks some roles lacks them still, unless one was added. -/
def Grants (_ : ℕ) (before : State) (actions : List Action) (after : State) : Prop :=
  ∀ account roles, before.roles.hasRole account roles = false →
    (∀ added, .roles (.rolesAdded account added) ∈ actions → added.intersects roles = false) →
    after.roles.hasRole account roles = false

theorem grants_rules : Rules Grants where
  nil _ _ _ hlacks _ := hlacks
  append first second account roles hlacks hadded :=
    second account roles
      (first account roles hlacks fun added hmem =>
        hadded added (List.mem_append_left _ hmem))
      fun added hmem => hadded added (List.mem_append_right _ hmem)
  mono _ h := h
  roles x hx := by
    intro before value after actions h account roles hlacks hadded
    obtain ⟨table, events, hok, rfl, rfl⟩ := withRoles_eq_ok.mp h
    exact hx _ _ _ _ hok account roles hlacks fun added hmem =>
      hadded added (List.mem_map.mpr ⟨_, hmem, rfl⟩)
  minter _ := .modifies fun _ _ _ hlacks _ => hlacks
  books before after h := by
    obtain ⟨_, _, rfl⟩ := h
    exact fun _ _ hlacks _ => hlacks
  limit ctx flowLimit tokenId := by
    intro before value after actions h
    simp only [setFlowLimitRaw, Transaction.bind_eq_ok, performs_eq_ok, modifies_eq_ok] at h
    obtain ⟨_, _, _, _, ⟨rfl, rfl⟩, ⟨rfl, rfl⟩, rfl⟩ := h
    exact fun _ _ hlacks _ => hlacks
  moves _ _ _ _ _ hlacks _ := hlacks

theorem perform_grants : Satisfies (Grants 0) (perform ctx call) :=
  grants_rules.perform call fun _ _ _ _ _ _ => grants_rules.deployInterchainToken
    (fun _ _ _ _ _ => .performs fun _ _ _ hlacks _ => hlacks) _ _ _ _ _

/-- An account without roles gets one only from somebody who has the role that the
endpoint asks for. -/
theorem perform_granted {account : Address} (hlacks : state.roles.accountRoles account = .none)
    (hminter : state.minterAddress.isSome) (hother : account ≠ ctx.caller)
    (h : perform ctx call state = .ok ⟨reply, next, actions⟩) :
    next.roles.accountRoles account = .none ∨
      ∃ added needed, .roles (.rolesAdded account added) ∈ actions ∧ call.role = some needed ∧
        state.roles.hasRole ctx.caller needed := by
  by_cases hadded : ∃ added, .roles (.rolesAdded account added) ∈ actions
  · obtain ⟨added, hmem⟩ := hadded
    cases hrole : call.role with
    | some needed => exact .inr ⟨added, needed, hmem, rfl, perform_role hrole h⟩
    | none =>
      cases haccepts : call.accepts with
      | false => exact absurd hmem ((perform_free hrole haccepts hminter h).added account added)
      | true => exact absurd (perform_accepts haccepts h hmem) hother
  · have hnothing := perform_grants _ _ _ _ h account .all (RoleTable.hasRole_of_none hlacks)
      fun added hmem => absurd ⟨added, hmem⟩ hadded
    exact .inl (Roles.eq_none_iff.mpr hnothing)

end TokenManager

end AxelarCgp
