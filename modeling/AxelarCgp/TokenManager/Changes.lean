import AxelarCgp.Platform.RoleRuns
import AxelarCgp.TokenManager.Authority

/-!
# What the calls of a token manager change

One rule for every endpoint: what a completed call needs of its caller and of the
storage, and the storage it leaves.  Invariants of a manager are checked against
these rules instead of the code.
-/

namespace AxelarCgp.TokenManager

open Transaction

/-- The storage once roles were moved from one account to another. -/
def State.moveRoles (state : State) (fromAddress toAddress : Address) (roles : Roles) : State :=
  { state with roles := (state.roles.withdraw fromAddress roles).grant toAddress roles }

/-- The storage once a proposal was taken off, and the roles were moved. -/
def State.acceptRoles (state : State) (fromAddress toAddress : Address) (roles : Roles) : State :=
  { state with
    roles := ((state.roles.setProposedRoles fromAddress toAddress .none).withdraw fromAddress
      roles).grant toAddress roles }

def State.proposeRoles (state : State) (fromAddress toAddress : Address) (roles : Roles) :
    State :=
  { state with roles := state.roles.setProposedRoles fromAddress toAddress roles }

inductive Changes (ctx : CallContext) (state : State) : Call → State → Prop where
  | addFlowLimiter {flowLimiter : Address} : state.roles.hasRole ctx.caller .OPERATOR →
      Changes ctx state (.addFlowLimiter flowLimiter)
        { state with roles := state.roles.grant flowLimiter .FLOW_LIMITER }
  | removeFlowLimiter {flowLimiter : Address} : state.roles.hasRole ctx.caller .OPERATOR →
      Changes ctx state (.removeFlowLimiter flowLimiter)
        { state with roles := state.roles.withdraw flowLimiter .FLOW_LIMITER }
  | transferFlowLimiter {fromAddress toAddress : Address} :
      state.roles.hasRole ctx.caller .OPERATOR →
      (state.roles.accountRoles fromAddress).contains .FLOW_LIMITER →
      Changes ctx state (.transferFlowLimiter fromAddress toAddress)
        (state.moveRoles fromAddress toAddress .FLOW_LIMITER)
  | setFlowLimit {flowLimit : Option ℕ} : state.roles.hasRole ctx.caller .FLOW_LIMITER →
      Changes ctx state (.setFlowLimit flowLimit) { state with flowLimit }
  | giveToken {receiver : Address} {amount : ℕ} {next : State} :
      Flows .inward (ctx.blockTimestamp / EPOCH_TIME) amount state next →
      Changes ctx state (.giveToken receiver amount) next
  | takeToken {token : EgldOrEsdtTokenIdentifier} {amount : ℕ} {next : State} :
      egldOrSingleFungibleEsdt ctx.callValue = .ok (token, amount) →
      Flows .outward (ctx.blockTimestamp / EPOCH_TIME) amount state next →
      Changes ctx state .takeToken next
  | donateTokens : Changes ctx state .donateTokens state
  | deployInterchainToken {minter : Option Address} {name symbol : ManagedBuffer}
      {decimals : UInt8} {initialCaller : Option Address} {next : State} {added : List Action} :
      AddsMinter (minter.getD .zero) state next added →
      Changes ctx state (.deployInterchainToken minter name symbol decimals initialCaller) next
  | mint {address : Address} {amount : ℕ} : state.roles.hasRole ctx.caller .MINTER →
      Changes ctx state (.mint address amount) state
  | burn : state.roles.hasRole ctx.caller .MINTER → Changes ctx state .burn state
  | transferMintership {minter : Address} : state.roles.hasRole ctx.caller .MINTER →
      Changes ctx state (.transferMintership minter)
        { state.moveRoles ctx.caller minter .MINTER with minterAddress := some minter }
  | proposeMintership {minter : Address} : state.roles.hasRole ctx.caller .MINTER →
      Changes ctx state (.proposeMintership minter)
        (state.proposeRoles ctx.caller minter .MINTER)
  | acceptMintership {fromMinter : Address} :
      state.roles.proposedRoles fromMinter ctx.caller = .MINTER →
      (state.roles.accountRoles fromMinter).contains .MINTER →
      Changes ctx state (.acceptMintership fromMinter)
        { state.acceptRoles fromMinter ctx.caller .MINTER with minterAddress := some ctx.caller }
  | transferOperatorship {operator : Address} : state.roles.hasRole ctx.caller .OPERATOR →
      Changes ctx state (.transferOperatorship operator)
        (state.moveRoles ctx.caller operator .OPERATOR)
  | proposeOperatorship {operator : Address} : state.roles.hasRole ctx.caller .OPERATOR →
      Changes ctx state (.proposeOperatorship operator)
        (state.proposeRoles ctx.caller operator .OPERATOR)
  | acceptOperatorship {fromOperator : Address} :
      state.roles.proposedRoles fromOperator ctx.caller = .OPERATOR →
      (state.roles.accountRoles fromOperator).contains .OPERATOR →
      Changes ctx state (.acceptOperatorship fromOperator)
        (state.acceptRoles fromOperator ctx.caller .OPERATOR)

section Endpoints

variable {ctx : CallContext} {call : Call} {state next : State} {reply : Reply}
variable {actions : List Action}

theorem perform_burn (h : perform ctx .burn state = .ok ⟨reply, next, actions⟩) :
    next = state := by
  obtain ⟨_, _, _, _, hburn, hreply, _⟩ := Transaction.bind_eq_ok.mp h
  obtain ⟨_, rfl, _⟩ := Transaction.pure_eq_ok.mp hreply
  obtain ⟨_, hburn⟩ := requireNative_bind_eq_ok.mp hburn
  obtain ⟨_, hburn⟩ := onlyRole_bind_eq_ok.mp hburn
  simp only [Transaction.bind_eq_ok, Outcome.exists_unit, reads_eq_ok, lift_eq_ok,
    performs_eq_ok, Prod.exists, requireCorrectToken_eq_ok] at hburn
  obtain ⟨_, _, _, _, ⟨_, rfl, _⟩, ⟨_, _, _, ⟨_, rfl, _⟩, ⟨_, _, _, _, _, ⟨_, _, rfl, _⟩,
    ⟨_, _, _, _, ⟨_, rfl, _⟩, ⟨rfl, _⟩, _⟩, _⟩, _⟩, _⟩ := hburn
  rfl

theorem perform_changes (h : perform ctx call state = .ok ⟨reply, next, actions⟩) :
    Changes ctx state call next := by
  cases call with
  | addFlowLimiter flowLimiter =>
    rw [perform_addFlowLimiter h]
    exact .addFlowLimiter (perform_role rfl h)
  | removeFlowLimiter flowLimiter =>
    rw [perform_removeFlowLimiter h]
    exact .removeFlowLimiter (perform_role rfl h)
  | transferFlowLimiter fromAddress toAddress =>
    obtain ⟨_, _, hx⟩ := unpaid_eq_ok.mp h
    obtain ⟨hoperator, hx⟩ := onlyRole_bind_eq_ok.mp hx
    obtain ⟨_, _, htransfer, rfl, _⟩ := withRoles_eq_ok.mp hx
    obtain ⟨hheld, rfl, _⟩ := AccountRoles.transferRole_eq_ok.mp htransfer
    exact .transferFlowLimiter hoperator hheld
  | setFlowLimit flowLimit =>
    obtain ⟨⟨_, _, hlimiter⟩, rfl, _⟩ := perform_setFlowLimit.mp h
    exact .setFlowLimit hlimiter
  | giveToken receiver amount =>
    obtain ⟨_, _, hflows, _⟩ := giveToken_eq_ok h
    exact .giveToken hflows
  | takeToken =>
    obtain ⟨_, _, hpayment, _, hflows, _⟩ := takeToken_eq_ok h
    exact .takeToken hpayment hflows
  | donateTokens =>
    obtain ⟨rfl, _⟩ := inspects_donateTokens _ _ _ _ _ h
    exact .donateTokens
  | deployInterchainToken minter name symbol decimals initialCaller =>
    obtain ⟨_, hadds, _⟩ := (deployInterchainToken_eq_ok h).issued
    exact .deployInterchainToken hadds
  | mint address amount =>
    rw [perform_mint h]
    exact .mint (perform_role rfl h)
  | burn =>
    rw [perform_burn h]
    exact .burn (perform_role rfl h)
  | transferMintership minter =>
    rw [perform_transferMintership h]
    exact .transferMintership (perform_role rfl h)
  | proposeMintership minter =>
    obtain ⟨_, _, hx⟩ := unpaid_eq_ok.mp h
    obtain ⟨hminter, hx⟩ := onlyRole_bind_eq_ok.mp hx
    obtain ⟨_, _, hpropose, rfl, _⟩ := withRoles_eq_ok.mp hx
    obtain ⟨_, rfl, _⟩ := AccountRoles.proposeRole_eq_ok.mp hpropose
    exact .proposeMintership hminter
  | acceptMintership fromMinter =>
    obtain ⟨_, _, hx⟩ := unpaid_eq_ok.mp h
    simp only [acceptMintership, setMinterAddress, Transaction.bind_eq_ok, modifies_eq_ok,
      withRoles_eq_ok, AccountRoles.acceptRole_eq_ok] at hx
    obtain ⟨_, _, _, _, ⟨rfl, _⟩, ⟨_, _, ⟨⟨_, hproposed⟩, hheld, rfl, _⟩, rfl, _⟩, _⟩ := hx
    exact .acceptMintership hproposed hheld
  | transferOperatorship operator =>
    rw [perform_transferOperatorship h]
    exact .transferOperatorship (perform_role rfl h)
  | proposeOperatorship operator =>
    have hoperator := perform_role rfl h
    obtain ⟨_, _, hx⟩ := unpaid_eq_ok.mp h
    obtain ⟨_, _, hpropose, rfl, _⟩ := withRoles_eq_ok.mp hx
    simp only [Operatable.proposeOperatorship, Operatable.onlyOperator, Transaction.bind_eq_ok,
      Outcome.exists_unit, AccountRoles.onlyRole_eq_ok,
      AccountRoles.proposeRole_eq_ok] at hpropose
    obtain ⟨_, _, _, ⟨_, rfl, _⟩, ⟨_, rfl, _⟩, _⟩ := hpropose
    exact .proposeOperatorship hoperator
  | acceptOperatorship fromOperator =>
    obtain ⟨_, _, hx⟩ := unpaid_eq_ok.mp h
    obtain ⟨_, _, haccept, rfl, _⟩ := withRoles_eq_ok.mp hx
    obtain ⟨⟨_, hproposed⟩, hheld, rfl, _⟩ := AccountRoles.acceptRole_eq_ok.mp haccept
    exact .acceptOperatorship hproposed hheld

/-- A callback changes nothing but the token. -/
theorem deployTokenCallback_changes {user : Address} {result : Option TokenIdentifier}
    (h : deployTokenCallback ctx user result state = .ok ⟨(), next, actions⟩) :
    ∃ tokenIdentifier, next = { state with tokenIdentifier } := by
  cases result with
  | some token =>
    simp only [deployTokenCallback, Transaction.bind_eq_ok, reads_eq_ok, performs_eq_ok,
      modifies_eq_ok] at h
    obtain ⟨_, _, _, _, ⟨_, rfl, _⟩, ⟨_, _, _, _, ⟨rfl, _⟩, ⟨rfl, _⟩, _⟩, _⟩ := h
    exact ⟨_, rfl⟩
  | none =>
    simp only [deployTokenCallback, Transaction.bind_eq_ok, lift_eq_ok, performs_eq_ok] at h
    obtain ⟨_, _, _, _, ⟨rfl, _⟩, ⟨_, _, _, _, ⟨_, rfl, _⟩, ⟨rfl, _⟩, _⟩, _⟩ := h
    exact ⟨_, rfl⟩

end Endpoints

/-! ## Roles -/

/-- What a call asks of the roles. -/
def Call.roleCall (ctx : CallContext) : Call → Option RoleCall
  | .addFlowLimiter flowLimiter => some (.grant .flowLimiter flowLimiter)
  | .removeFlowLimiter flowLimiter => some (.withdraw .flowLimiter flowLimiter)
  | .transferFlowLimiter fromAddress toAddress =>
      some (.transfer ⟨.flowLimiter, fromAddress, toAddress⟩)
  | .deployInterchainToken minter _ _ _ _ => some (.grant .minter (minter.getD .zero))
  | .transferMintership minter => some (.transfer ⟨.minter, ctx.caller, minter⟩)
  | .proposeMintership minter => some (.propose ⟨.minter, ctx.caller, minter⟩)
  | .acceptMintership fromMinter => some (.accept ⟨.minter, fromMinter, ctx.caller⟩)
  | .transferOperatorship operator => some (.transfer ⟨.operator, ctx.caller, operator⟩)
  | .proposeOperatorship operator => some (.propose ⟨.operator, ctx.caller, operator⟩)
  | .acceptOperatorship fromOperator => some (.accept ⟨.operator, fromOperator, ctx.caller⟩)
  | _ => none

section

variable {ctx : CallContext} {call : Call} {state next : State}

theorem Flows.roles {direction : Direction} {epoch : UInt64} {amount : ℕ}
    (h : Flows direction epoch amount state next) : next.roles = state.roles := by
  obtain ⟨_, _, rfl⟩ := h.sameBooks
  rfl

theorem Flows.minterAddress {direction : Direction} {epoch : UInt64} {amount : ℕ}
    (h : Flows direction epoch amount state next) :
    next.minterAddress = state.minterAddress := by
  obtain ⟨_, _, rfl⟩ := h.sameBooks
  rfl

theorem Changes.roleChange (h : Changes ctx state call next) :
    RoleChange state.roles (call.roleCall ctx) next.roles := by
  cases h with
  | addFlowLimiter => exact .granted
  | removeFlowLimiter => exact .withdrawn
  | transferFlowLimiter _ hheld => exact .transferred (RoleTable.contains_iff_mem_holders.mp hheld)
  | deployInterchainToken hadds =>
    cases hadds with
    | first => exact .granted
    | again => exact .spared
  | giveToken hflows | takeToken _ hflows =>
    rw [hflows.roles]
    exact .nothing
  | transferMintership hheld =>
    have hminter : ctx.caller ∈ state.roles.holders .minter := hheld
    exact .transferred hminter
  | proposeMintership hheld =>
    have hminter : ctx.caller ∈ state.roles.holders .minter := hheld
    exact .proposed hminter
  | transferOperatorship hheld =>
    have hoperator : ctx.caller ∈ state.roles.holders .operator := hheld
    exact .transferred hoperator
  | proposeOperatorship hheld =>
    have hoperator : ctx.caller ∈ state.roles.holders .operator := hheld
    exact .proposed hoperator
  | acceptMintership hproposed hheld | acceptOperatorship hproposed hheld =>
    exact .accepted hproposed (RoleTable.contains_iff_mem_holders.mp hheld)
  | setFlowLimit | donateTokens | mint | burn => exact .nothing

/-- What is not about the minter leaves alone who that is said to be. -/
theorem Changes.minterAddress (h : Changes ctx state call next)
    (hother : ∀ asked, call.roleCall ctx = some asked → asked.role ≠ .minter) :
    next.minterAddress = state.minterAddress := by
  cases h with
  | deployInterchainToken | transferMintership | acceptMintership => exact absurd rfl (hother _ rfl)
  | giveToken hflows | takeToken _ hflows => exact hflows.minterAddress
  | _ => rfl

end

end AxelarCgp.TokenManager
