import AxelarCgp.TokenManager.Changes
import AxelarCgp.TokenManager.Issues

/-!
# The minter of a token manager

The storage says who the minter is, and so do the roles, which are written by other
code.  They agree in every state of a run, so that there is one minter or none; a
minter hands on what it has, or has it taken by an account that it was proposed to.
-/

namespace AxelarCgp.TokenManager

open Machine Transaction

/-! ## Roles along a run -/

/-- What an input asks of the roles. -/
def Input.roleCall : Input → Option RoleCall
  | .call ctx endpoint => endpoint.roleCall ctx
  | .answer _ _ _ => none

section

variable {input : Input} {system next : System} {actions : List Action}

theorem step_changes {ctx : CallContext} {call : Call}
    (h : machine.step system (.call ctx call) = .ok (next, actions)) :
    Changes ctx system.contract call next.contract := by
  obtain ⟨_, hperform, _⟩ := step_call_eq_ok h
  exact perform_changes hperform

theorem step_answer_changes {ctx : CallContext} {index : ℕ} {result : Option TokenIdentifier}
    (h : machine.step system (.answer ctx index result) = .ok (next, actions)) :
    ∃ tokenIdentifier, next.contract = { system.contract with tokenIdentifier } := by
  obtain ⟨issue, _, _, hcallback⟩ := step_answer_eq_ok h
  exact deployTokenCallback_changes hcallback

theorem step_roleChange (h : machine.step system input = .ok (next, actions)) :
    RoleChange system.contract.roles input.roleCall next.contract.roles := by
  cases input with
  | call ctx call => exact (step_changes h).roleChange
  | answer ctx index result =>
    obtain ⟨_, hnext⟩ := step_answer_changes h
    rw [hnext]
    exact .nothing

end

section

variable {service : Address} {managerType : TokenManagerType} {tokenId : Hash}
variable {params : DeployTokenManagerParams}

theorem State.initial_proposals : (State.initial service managerType tokenId
    params).roles.proposals = fun _ => none := by
  simp [State.initial]

theorem State.initial_holders_minter : (State.initial service managerType tokenId
    params).roles.holders .minter = ∅ := by
  simp only [State.initial, RoleTable.grant_union]
  rw [show Roles.OPERATOR = Role.operator.roles from rfl,
    show Roles.FLOW_LIMITER = Role.flowLimiter.roles from rfl]
  simp [RoleTable.holders_grant]

theorem State.initial_holders_operator : (State.initial service managerType tokenId
    params).roles.holders .operator = {service, params.operator.getD .zero} := by
  simp only [State.initial, RoleTable.grant_union]
  rw [show Roles.OPERATOR = Role.operator.roles from rfl,
    show Roles.FLOW_LIMITER = Role.flowLimiter.roles from rfl]
  simp [RoleTable.holders_grant]

theorem roleRuns : RoleRuns machine ⟨.initial service managerType tokenId params, []⟩
    (fun system => system.contract.roles) Input.roleCall where
  starts := State.initial_proposals
  steps _ _ _ _ _ _ hok := step_roleChange hok

end

/-- The endpoints by which an operator manages the flow limiters. -/
def Call.managesLimiters : Call → Bool
  | .addFlowLimiter _ | .removeFlowLimiter _ | .transferFlowLimiter _ _ => true
  | _ => false

theorem Call.managesLimiters_role {ctx : CallContext} {call : Call} {asked : RoleCall}
    (hlimiters : call.managesLimiters) (hasked : call.roleCall ctx = some asked) :
    asked.role = .flowLimiter := by
  cases call with
  | addFlowLimiter | removeFlowLimiter | transferFlowLimiter =>
    obtain rfl := Option.some.inj hasked
    rfl
  | _ => simp [managesLimiters] at hlimiters

/-- The operators of a manager are handed on, and managing flow limiters makes neither
operators nor minters. -/
structure ConservesOperators (start : System) (history : History) (system : System) : Prop
    extends Conserves machine start (fun system => system.contract.roles) Input.roleCall .operator
      history system where
  limiters : ∀ before reached ctx call actions next,
    Took machine start history before reached (.call ctx call) actions next →
    call.managesLimiters →
    next.contract.roles.holders .operator = reached.contract.roles.holders .operator ∧
      next.contract.roles.holders .minter = reached.contract.roles.holders .minter

theorem conservesOperators {service : Address} {managerType : TokenManagerType} {tokenId : Hash}
    {params : DeployTokenManagerParams} {initial : Completed State Action Unit}
    (hinit : init service managerType tokenId params .blank = .ok initial)
    {history : History} {system : System}
    (hrun : Run machine ⟨initial.state, []⟩ history system) :
    ConservesOperators ⟨initial.state, []⟩ history system := by
  obtain ⟨_, _, hstate⟩ := init_eq_ok hinit
  rw [hstate] at hrun ⊢
  constructor
  case toConserves =>
    apply roleRuns.conserves _ _ _ _ hrun
    · rw [State.initial_holders_operator]
      exact Set.toFinite _
    · rw [State.initial_holders_operator]
      exact Set.insert_nonempty _ _
    · intro input account hgrant
      cases input with
      | call ctx call => cases call <;> simp [Input.roleCall, Call.roleCall] at hgrant
      | answer => simp [Input.roleCall] at hgrant
    · intro input account hwithdraw
      cases input with
      | call ctx call => cases call <;> simp [Input.roleCall, Call.roleCall] at hwithdraw
      | answer => simp [Input.roleCall] at hwithdraw
  case limiters =>
    intro before reached ctx call actions next htook hlimiters
    have hchange := (step_changes htook.step).roleChange
    have hother : ∀ role, role ≠ .flowLimiter → ∀ asked, call.roleCall ctx = some asked →
        asked.role ≠ role := by
      intro role hrole asked hasked hsame
      exact hrole (hsame.symm.trans (Call.managesLimiters_role hlimiters hasked))
    exact ⟨hchange.holders_other (hother .operator (by decide)),
      hchange.holders_other (hother .minter (by decide))⟩

/-! ## The minter -/

/-- The roles and the storage agree on who the minter is. -/
def State.SoleMinter (state : State) : Prop :=
  state.roles.holders .minter = {account | state.minterAddress = some account}

theorem State.SoleMinter.eq {state : State} {account : Address} (h : state.SoleMinter)
    (hheld : account ∈ state.roles.holders .minter) : state.minterAddress = some account := by
  rw [h] at hheld
  exact hheld

theorem State.SoleMinter.singleton {state : State} {minter : Address} (h : state.SoleMinter)
    (hminter : state.minterAddress = some minter) : state.roles.holders .minter = {minter} := by
  rw [h, hminter]
  ext account
  simp [eq_comm]

theorem State.initial_soleMinter {service : Address} {managerType : TokenManagerType}
    {tokenId : Hash} {params : DeployTokenManagerParams} :
    (State.initial service managerType tokenId params).SoleMinter := by
  rw [State.SoleMinter, State.initial_holders_minter]
  ext account
  simp [State.initial, State.blank]

/-- A minter that hands on what it has leaves one minter. -/
theorem soleMinter_handOn {state : State} {giver taker : Address} (h : state.SoleMinter)
    (hgiver : state.minterAddress = some giver) :
    Succession.handOn (state.roles.holders .minter) giver taker =
      {account | some taker = some account} := by
  rw [h.singleton hgiver, Succession.handOn_singleton]
  ext account
  simp [eq_comm]

theorem Changes.soleMinter {ctx : CallContext} {call : Call} {state next : State}
    (h : Changes ctx state call next) (hsole : state.SoleMinter) : next.SoleMinter := by
  have hother : (∀ asked, call.roleCall ctx = some asked → asked.role ≠ .minter) →
      next.SoleMinter := by
    intro hother
    rw [State.SoleMinter, h.roleChange.holders_other hother, h.minterAddress hother]
    exact hsole
  cases h with
  | deployInterchainToken hadds =>
    cases hadds with
    | first hnone =>
      have hempty : state.roles.holders .minter = ∅ := by
        rw [hsole, hnone]
        simp
      refine (RoleTable.holders_grant _ _ .minter .minter).trans ?_
      rw [if_pos rfl, hempty]
      ext account
      simp [eq_comm]
    | again => exact hsole
  | transferMintership hheld =>
    refine (RoleTable.holders_move _ _ _ .minter .minter).trans ?_
    rw [if_pos rfl]
    exact soleMinter_handOn hsole (hsole.eq hheld)
  | acceptMintership _ hheld =>
    refine (RoleTable.holders_move _ _ _ .minter .minter).trans ?_
    rw [if_pos rfl]
    exact soleMinter_handOn hsole (hsole.eq (RoleTable.contains_iff_mem_holders.mp hheld))
  | proposeMintership => exact hsole
  | _ => exact hother (by simp [Call.roleCall, RoleCall.role])

theorem soleMinter_run {start system : System} {history : History}
    (hstart : start.contract.SoleMinter) (hrun : Run machine start history system) :
    system.contract.SoleMinter := by
  apply hrun.invariant (P := fun system => system.contract.SoleMinter) hstart
  intro system input next actions hsole hok
  cases input with
  | call ctx call => exact (step_changes hok).soleMinter hsole
  | answer ctx index result =>
    obtain ⟨_, hnext⟩ := step_answer_changes hok
    rw [State.SoleMinter, hnext]
    exact hsole

/-! ## How the minter changes -/

def Call.handsMintership : Call → Bool
  | .transferMintership _ | .acceptMintership _ => true
  | _ => false

def Input.handsMintership : Input → Bool
  | .call _ endpoint => endpoint.handsMintership
  | .answer _ _ _ => false

/-- A minter hands the mintership on, or an account that it was proposed to takes it. -/
inductive HandsMintership (before : History) (minter : Address) : Input → Address → Prop where
  | transfer {ctx : CallContext} {account : Address} : ctx.caller = minter →
      HandsMintership before minter (.call ctx (.transferMintership account)) account
  | accept {ctx : CallContext} : Pending Input.roleCall ⟨.minter, minter, ctx.caller⟩ before →
      HandsMintership before minter (.call ctx (.acceptMintership minter)) ctx.caller

/-- Only what hands the mintership on changes who the minter is, once there is one. -/
theorem Changes.minter_stays {ctx : CallContext} {call : Call} {state next : State}
    {minter : Address} (h : Changes ctx state call next) (hhands : call.handsMintership = false)
    (hminter : state.minterAddress = some minter) : next.minterAddress = some minter := by
  cases h with
  | deployInterchainToken hadds =>
    cases hadds with
    | first hnone => simp [hnone] at hminter
    | again => exact hminter
  | transferMintership | acceptMintership => simp [Call.handsMintership] at hhands
  | giveToken hflows | takeToken _ hflows => exact hflows.minterAddress.trans hminter
  | _ => exact hminter

/-- A first minter comes with the deployment of the token. -/
theorem Changes.minter_installed {ctx : CallContext} {call : Call} {state next : State}
    {minter : Address} (h : Changes ctx state call next) (hsole : state.SoleMinter)
    (hnone : state.minterAddress = none) (hminter : next.minterAddress = some minter) :
    ∃ first name symbol decimals initialCaller,
      call = .deployInterchainToken first name symbol decimals initialCaller ∧
      minter = first.getD .zero := by
  cases h with
  | deployInterchainToken hadds =>
    cases hadds with
    | first => exact ⟨_, _, _, _, _, rfl, (Option.some.inj hminter).symm⟩
    | again => simp [hnone] at hminter
  | transferMintership hheld =>
    have hcaller := hsole.eq hheld
    simp [hnone] at hcaller
  | acceptMintership _ hheld =>
    have hgiver := hsole.eq (RoleTable.contains_iff_mem_holders.mp hheld)
    simp [hnone] at hgiver
  | giveToken hflows | takeToken _ hflows => simp [hflows.minterAddress, hnone] at hminter
  | _ => simp [State.moveRoles, State.proposeRoles, State.acceptRoles, hnone] at hminter

/-- The mintership is handed on by the minter, or to whom it was proposed. -/
theorem Changes.minter_handed {ctx : CallContext} {call : Call} {state next : State}
    (h : Changes ctx state call next) (hsole : state.SoleMinter)
    (hhands : call.handsMintership) :
    ∃ minter account, state.minterAddress = some minter ∧ next.minterAddress = some account ∧
      (call = .transferMintership account ∧ ctx.caller = minter ∨
        call = .acceptMintership minter ∧ ctx.caller = account ∧
          state.roles.proposedRoles minter account = .MINTER) := by
  cases h with
  | transferMintership hheld => exact ⟨_, _, hsole.eq hheld, rfl, .inl ⟨rfl, rfl⟩⟩
  | acceptMintership hproposed hheld =>
    have hgiver := hsole.eq (RoleTable.contains_iff_mem_holders.mp hheld)
    exact ⟨_, _, hgiver, rfl, .inr ⟨rfl, rfl, hproposed⟩⟩
  | _ => simp [Call.handsMintership] at hhands

theorem Changes.deployed_again {ctx : CallContext} {first : Option Address}
    {name symbol : ManagedBuffer} {decimals : UInt8} {initialCaller : Option Address}
    {state next : State}
    (h : Changes ctx state (.deployInterchainToken first name symbol decimals initialCaller) next)
    (hset : state.minterAddress.isSome) :
    next.minterAddress = state.minterAddress ∧ next.roles = state.roles := by
  cases h with
  | deployInterchainToken hadds =>
    cases hadds with
    | first hnone => simp [hnone] at hset
    | again => exact ⟨rfl, rfl⟩

/-- Who the minter of a manager is, and how it came to be. -/
structure UniqueMinter (start : System) (history : History) (system : System) : Prop where
  unset : system.contract.minterAddress = none → system.contract.roles.holders .minter = ∅
  set : ∀ minter, system.contract.minterAddress = some minter →
    system.contract.roles.holders .minter = {minter}
  installed : ∀ before reached input actions next minter,
    Took machine start history before reached input actions next →
    reached.contract.minterAddress = none → next.contract.minterAddress = some minter →
    ∃ ctx first name symbol decimals initialCaller,
      input = .call ctx (.deployInterchainToken first name symbol decimals initialCaller) ∧
      minter = first.getD .zero
  stays : ∀ before reached input actions next minter,
    Took machine start history before reached input actions next →
    input.handsMintership = false → reached.contract.minterAddress = some minter →
    next.contract.minterAddress = some minter
  handed : ∀ before reached input actions next,
    Took machine start history before reached input actions next → input.handsMintership →
    ∃ minter account, reached.contract.minterAddress = some minter ∧
      HandsMintership before minter input account ∧
      next.contract.minterAddress = some account
  /-- A token that is deployed again leaves the minter and the roles as they are. -/
  retried : ∀ before reached ctx first name symbol decimals initialCaller actions next,
    Took machine start history before reached
      (.call ctx (.deployInterchainToken first name symbol decimals initialCaller)) actions next →
    reached.contract.minterAddress.isSome →
    next.contract.minterAddress = reached.contract.minterAddress ∧
      next.contract.roles = reached.contract.roles
  refused : ∀ before input message after reached next,
    history = before ++ ⟨input, .error message⟩ :: after → Run machine start before reached →
    Run machine start (before ++ [⟨input, .error message⟩]) next → next = reached

/-- A manager has the minter that its storage names, or none. -/
theorem uniqueMinter {service : Address} {managerType : TokenManagerType} {tokenId : Hash}
    {params : DeployTokenManagerParams} {initial : Completed State Action Unit}
    (hinit : init service managerType tokenId params .blank = .ok initial)
    {history : History} {system : System}
    (hrun : Run machine ⟨initial.state, []⟩ history system) :
    UniqueMinter ⟨initial.state, []⟩ history system := by
  obtain ⟨_, _, hstate⟩ := init_eq_ok hinit
  have hruns : RoleRuns machine ⟨initial.state, []⟩ (fun system => system.contract.roles)
      Input.roleCall := by
    rw [hstate]
    exact roleRuns
  have hsole : ∀ {before reached}, Run machine ⟨initial.state, []⟩ before reached →
      reached.contract.SoleMinter := by
    intro before reached hreached
    rw [hstate] at hreached
    exact soleMinter_run State.initial_soleMinter hreached
  constructor
  case unset =>
    intro hnone
    rw [hsole hrun, hnone]
    simp
  case set =>
    intro minter hminter
    exact (hsole hrun).singleton hminter
  case installed =>
    intro before reached input actions next minter htook hnone hminter
    cases input with
    | call ctx call =>
      obtain ⟨first, name, symbol, decimals, initialCaller, hcall, hfirst⟩ :=
        (step_changes htook.step).minter_installed (hsole htook.run) hnone hminter
      exact ⟨ctx, first, name, symbol, decimals, initialCaller, by rw [hcall], hfirst⟩
    | answer ctx index result =>
      obtain ⟨_, hnext⟩ := step_answer_changes htook.step
      simp [hnext, hnone] at hminter
  case stays =>
    intro before reached input actions next minter htook hhands hminter
    cases input with
    | call ctx call => exact (step_changes htook.step).minter_stays hhands hminter
    | answer ctx index result =>
      obtain ⟨_, hnext⟩ := step_answer_changes htook.step
      rw [hnext]
      exact hminter
  case handed =>
    intro before reached input actions next htook hhands
    cases input with
    | answer ctx index result => simp [Input.handsMintership] at hhands
    | call ctx call =>
      obtain ⟨minter, account, hminter, haccount, ⟨rfl, hcaller⟩ | ⟨rfl, hcaller, hproposed⟩⟩ :=
        (step_changes htook.step).minter_handed (hsole htook.run) hhands
      · exact ⟨minter, account, hminter, .transfer hcaller, haccount⟩
      · subst hcaller
        have hpending := (hruns.proposed_iff_pending htook.run ⟨.minter, minter, ctx.caller⟩).mp
          hproposed
        exact ⟨minter, ctx.caller, hminter, .accept hpending, haccount⟩
  case retried =>
    intro before reached ctx first name symbol decimals initialCaller actions next htook hset
    exact (step_changes htook.step).deployed_again hset
  case refused =>
    intro before input message after reached next _ hreached hnext
    exact hnext.stopped_inv.1.unique hreached

/-! ## A mintership that is proposed, taken and handed on -/

def sampleCall (caller : UInt8) (call : Call) : Input :=
  .call ⟨sampleAddress caller, sampleAddress 3, sampleService, 0, .egld 0, 0⟩ call

/-- The service has a token issued with a minter, which proposes the mintership to two
accounts; one of them takes it, and the other comes too late. -/
def sampleMints : List Input :=
  [.call ⟨sampleService, sampleAddress 3, sampleService, 0, .egld DEFAULT_ESDT_ISSUE_COST, 0⟩
      (.deployInterchainToken (some (sampleAddress 5)) sampleName sampleSymbol 18 none),
    sampleCall 5 (.proposeMintership (sampleAddress 6)),
    sampleCall 5 (.proposeMintership (sampleAddress 7)),
    sampleCall 6 (.acceptMintership (sampleAddress 5)),
    sampleCall 7 (.acceptMintership (sampleAddress 5)),
    sampleCall 6 (.transferMintership (sampleAddress 6)),
    .call ⟨sampleAddress 6, sampleAddress 3, sampleService, 0, .egld DEFAULT_ESDT_ISSUE_COST, 0⟩
      (.deployInterchainToken (some (sampleAddress 8)) sampleName sampleSymbol 18 none)]

/-- Which of some inputs completed, and the minter they lead to. -/
def sampleMinter (inputs : List Input) : Outcome (List Bool × Option Address) := do
  let initial ← init sampleService .nativeInterchainToken sampleTokenId sampleParams .blank
  let (history, system) := machine.replay ⟨initial.state, []⟩ inputs
  return (history.map fun entry => entry.result.isOk, system.contract.minterAddress)

theorem sample_uniqueMinter : ∃ initial history system,
    init sampleService .nativeInterchainToken sampleTokenId sampleParams .blank = .ok initial ∧
    Run machine ⟨initial.state, []⟩ history system ∧ history.map Entry.input = sampleMints ∧
    history.map (fun entry => entry.result.isOk) = [true, true, true, true, false, true, true] ∧
    system.contract.minterAddress = some (sampleAddress 6) ∧
    UniqueMinter ⟨initial.state, []⟩ history system := by
  have hminter : sampleMinter sampleMints =
      .ok ([true, true, true, true, false, true, true], some (sampleAddress 6)) := by
    decide +kernel
  simp only [sampleMinter, Outcome.bind_eq_ok, Outcome.pure_eq_ok, Prod.mk.injEq] at hminter
  obtain ⟨initial, hinit, hcompleted, hlast⟩ := hminter
  have hrun := machine.run_replay ⟨initial.state, []⟩ sampleMints
  exact ⟨initial, _, _, hinit, hrun, machine.replay_inputs _ _, hcompleted, hlast,
    uniqueMinter hinit hrun⟩

end AxelarCgp.TokenManager
