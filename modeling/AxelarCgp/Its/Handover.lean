import AxelarCgp.Its.InitialSupply
import AxelarCgp.TokenManager.Authority

/-!
# The handover of a token

Once the supply of a token is minted, its manager goes from the service to the
minter that the deployer named: all three roles, and for good.
-/

namespace AxelarCgp.Its

open Transaction

/-! ## Roles -/

/-- The roles at a manager once the service has handed it to a minter. -/
def handedOver (service minter : Address) (table : RoleTable) : RoleTable :=
  ((((((table.withdraw service .MINTER).grant minter .MINTER).withdraw service
    .FLOW_LIMITER).grant minter .FLOW_LIMITER).withdraw service .OPERATOR).grant minter .OPERATOR)

section Roles

variable {service minter : Address} (table : RoleTable)

theorem handedOver_minter : (handedOver service minter table).accountRoles minter = .all := by
  by_cases hsame : minter = service
  · subst hsame
    simp [handedOver, Roles.union, Roles.remove, Roles.MINTER, Roles.OPERATOR, Roles.FLOW_LIMITER,
      Roles.all]
  · simp [handedOver, RoleTable.withdraw_other _ _ hsame, Roles.union, Roles.MINTER,
      Roles.OPERATOR, Roles.FLOW_LIMITER, Roles.all]

theorem handedOver_service (hother : minter ≠ service) :
    (handedOver service minter table).accountRoles service = .none := by
  simp [handedOver, RoleTable.grant_other _ _ hother.symm, Roles.remove, Roles.MINTER,
    Roles.OPERATOR, Roles.FLOW_LIMITER, Roles.none]

theorem handedOver_other {other : Address} (hservice : other ≠ service) (hminter : other ≠ minter) :
    (handedOver service minter table).accountRoles other = table.accountRoles other := by
  simp only [handedOver, RoleTable.grant_other _ _ hminter, RoleTable.withdraw_other _ _ hservice]

end Roles

/-- The calls of the third step hand the manager over, whoever the minter is. -/
theorem managerRuns_handover {ctx : CallContext} {sender minter : Address} {initialSupply : ℕ}
    {state next : TokenManager.State} {trace : List Action}
    (h : ManagerRuns ctx (handoverCalls ctx.caller sender initialSupply minter) state trace next) :
    next = { state with
      minterAddress := some minter
      roles := handedOver ctx.caller minter state.roles } := by
  cases h with | cons hmint h => ?_
  cases h with | cons hmintership h => ?_
  cases h with | cons hremove h => ?_
  cases h with | cons hadd h => ?_
  cases h with | cons hoperatorship h => ?_
  cases h
  obtain rfl := TokenManager.perform_mint hmint
  obtain rfl := TokenManager.perform_transferMintership hmintership
  obtain rfl := TokenManager.perform_removeFlowLimiter hremove
  obtain rfl := TokenManager.perform_addFlowLimiter hadd
  exact TokenManager.perform_transferOperatorship hoperatorship

/-! ## Locked out -/

/-- An account has no role at a manager, which has a minter. -/
structure LockedOut (account : Address) (state : TokenManager.State) : Prop where
  roles : state.roles.accountRoles account = .none
  minter : state.minterAddress.isSome

/-- The service calls no endpoint of a manager that asks for a role. -/
def AsksForNoRole (service manager : Address) (trace : List Action) : Prop :=
  ∀ ctx call reply actions, .manager ctx call reply actions ∈ trace →
    ctx.caller = service → ctx.scAddress = manager → call.role = none

/-- When the service has no role at a manager it asks for none, and changes neither
the roles nor the flow limit. -/
def LeavesManager (service manager : Address) (before : World) (trace : List Action)
    (after : World) : Prop :=
  ∀ state, before.managers manager = some state → LockedOut service state →
    AsksForNoRole service manager trace ∧ ∃ next, after.managers manager = some next ∧
      LockedOut service next ∧ next.roles = state.roles ∧ next.flowLimit = state.flowLimit

/-- Commands that take no role that was proposed. -/
def Effect.acceptsNothing : Effect → Prop
  | .commands _ _ call => call.accepts = false
  | _ => True

namespace LeavesManager

variable {service manager : Address}

theorem composes : Composes fun _ : ℕ => LeavesManager service manager where
  nil world state hstate hlocked := by
    refine ⟨?_, state, hstate, hlocked, rfl, rfl⟩
    intro ctx call reply actions hmem
    simp at hmem
  append := by
    intro _ _ before middle after first second hfirst hsecond state hstate hlocked
    obtain ⟨hasks, next, hnext, hnextLocked, hroles, hlimit⟩ := hfirst state hstate hlocked
    obtain ⟨hasksToo, last, hlast, hlastLocked, hlastRoles, hlastLimit⟩ :=
      hsecond next hnext hnextLocked
    refine ⟨?_, last, hlast, hlastLocked, hlastRoles.trans hroles, hlastLimit.trans hlimit⟩
    intro ctx call reply actions hmem
    rcases List.mem_append.mp hmem with hmem | hmem
    · exact hasks ctx call reply actions hmem
    · exact hasksToo ctx call reply actions hmem
  mono _ h := h

/-- What touches no manager and calls none. -/
theorem of_managers {before after : World} {trace : List Action}
    (hmanager : after.managers manager = before.managers manager)
    (htrace : ∀ ctx call reply actions, .manager ctx call reply actions ∉ trace) :
    LeavesManager service manager before trace after := by
  intro state hstate hlocked
  refine ⟨?_, state, hmanager.trans hstate, hlocked, rfl, rfl⟩
  intro ctx call reply actions hmem
  exact absurd hmem (htrace _ _ _ _)

theorem callManager {env : Environment} {ctx : CallContext} {call : TokenManager.Call}
    (haccepts : call.accepts = false) (hrole : ctx.caller = service ∨ call.role = none) :
    Satisfies (LeavesManager service manager) (callManager env ctx call) := by
  intro before reply after trace h state hstate hlocked
  obtain ⟨other, next, actions, ledger, pending, hother, hperform, rfl, rfl⟩ :=
    callManager_manager h
  by_cases hmanager : ctx.scAddress = manager
  · rw [hmanager] at hother
    obtain rfl := Option.some.inj (hstate.symm.trans hother)
    have hfree : call.role = none := by
      rcases hrole with hcaller | hfree
      · cases hneeded : call.role with
        | none => rfl
        | some roles =>
          have hheld := TokenManager.perform_role hneeded hperform
          rw [hcaller, RoleTable.hasRole_of_none hlocked.roles] at hheld
          simp at hheld
      · exact hfree
    have hkeeps := TokenManager.perform_free hfree haccepts hlocked.minter hperform
    have hkept := TokenManager.kept_perform ctx call _ _ _ _ hperform
    refine ⟨?_, next, ?_, ⟨?_, hkept.minter hlocked.minter⟩, hkeeps.roles, hkeeps.flowLimit⟩
    · intro _ _ _ _ hmem _ _
      simp only [List.mem_singleton, Action.manager.injEq] at hmem
      rw [hmem.2.1]
      exact hfree
    · rw [← hmanager]
      exact Function.update_self _ _ _
    · rw [hkeeps.roles]
      exact hlocked.roles
  · refine ⟨?_, state, ?_, hlocked, rfl, rfl⟩
    · intro _ _ _ _ hmem _ haddress
      simp only [List.mem_singleton, Action.manager.injEq] at hmem
      rw [hmem.1] at haddress
      exact absurd haddress hmanager
    · exact (Function.update_of_ne (Ne.symm hmanager) _ _).trans hstate

theorem stepRules {crypto : Crypto} :
    StepRules crypto service Effect.acceptsNothing (LeavesManager service manager) where
  composes := composes
  ledger _ _ := of_managers rfl (by simp)
  pending _ _ := of_managers rfl (by simp)
  note world action hnote := of_managers rfl fun _ _ _ _ hmem => by
    obtain rfl := List.mem_singleton.mp hmem
    simp [Action.isNote] at hnote
  storage _ _ _ := of_managers rfl (by simp)
  roles _ _ _ := of_managers rfl (by simp)
  status _ _ _ := .modifies fun _ => of_managers rfl (by simp)
  approval _ _ _ := .modifies fun _ => of_managers rfl (by simp)
  deploy env ctx tokenId managerType tokenIdentifier operator _ _ := by
    intro before address after trace h state hstate
    obtain ⟨_, _, _, _, hfree, _, _, _, rfl, rfl⟩ := deployTokenManagerRaw_eq_ok h
    have hother : manager ≠ address := by
      rintro rfl
      simp [World.isSystemContract, hstate] at hfree
    exact of_managers (Function.update_of_ne hother _ _) (by simp) state hstate
  command _ _ _ _ _ hallowed := callManager hallowed (.inl rfl)
  transfers _ _ call hcall := by
    cases call with
    | giveToken | takeToken => exact callManager rfl (.inr rfl)
    | _ => simp [TokenManager.Call.isCommand] at hcall
  callback env address ctx user result := by
    rintro before ⟨_, actions⟩ after trace h state hstate hlocked
    obtain ⟨other, next, ledger, pending, hother, hcode, rfl, rfl⟩ := runManager_manager h
    by_cases haddress : manager = address
    · subst haddress
      obtain rfl := Option.some.inj (hstate.symm.trans hother)
      have hkept := TokenManager.kept_deployTokenCallback ctx user result _ _ _ _ hcode
      have hroles : next.roles = state.roles ∧ next.flowLimit = state.flowLimit := by
        cases result with
        | some token =>
          simp only [TokenManager.deployTokenCallback, Transaction.bind_eq_ok, reads_eq_ok,
            performs_eq_ok, modifies_eq_ok] at hcode
          obtain ⟨_, _, _, _, ⟨_, rfl, rfl⟩, ⟨_, _, _, _, ⟨rfl, rfl⟩, ⟨rfl, rfl⟩, _⟩, _⟩ := hcode
          exact ⟨rfl, rfl⟩
        | none =>
          simp only [TokenManager.deployTokenCallback, Transaction.bind_eq_ok, lift_eq_ok,
            performs_eq_ok] at hcode
          obtain ⟨_, _, _, _, ⟨rfl, rfl⟩, ⟨_, _, _, _, ⟨_, rfl, rfl⟩, ⟨rfl, rfl⟩, _⟩, _⟩ := hcode
          exact ⟨rfl, rfl⟩
      refine ⟨?_, next, Function.update_self _ _ _, ⟨?_, hkept.minter hlocked.minter⟩, hroles⟩
      · intro _ _ _ _ hmem
        simp at hmem
      · rw [hroles.1]
        exact hlocked.roles
    · exact of_managers (Function.update_of_ne haddress _ _) (by simp) state hstate hlocked
  gateway ctx call := by
    intro before reply after trace h
    obtain ⟨gateway, _, rfl, rfl⟩ := callGateway_eq_ok.mp h
    exact of_managers rfl (by simp)

/-- No endpoint of the service does anything at such a manager, and no callback. -/
theorem step {crypto : Crypto} {world next : World} {input : Input} {trace : List Action}
    (hnameless : world.its.trustedChains .new = false)
    (hinput : ∀ caller address payment call,
      input.operation ≠ .manager caller address payment call)
    (hok : (machine crypto).step world input = .ok (next, trace)) :
    LeavesManager world.itsAddress manager world trace next := by
  apply stepRules.step rfl hnameless _ _ hok
  · intro caller payment call hcall effect heffect
    cases heffect with
    | setFlowLimits | executeIssues | remoteIssues => rfl
    | @localCommands _ _ _ _ _ _ _ _ command hlocal =>
      cases command with
      | acceptMintership | acceptOperatorship => simp [TokenManager.Call.isLocal] at hlocal
      | _ => rfl
    | _ => trivial
  · intro caller address payment call hcall
    exact absurd hcall (hinput _ _ _ _)

end LeavesManager

/-- Somebody else, who has the role that it takes, gives the service a role at a
manager. -/
def GrantedBack (crypto : Crypto) (start : World) (manager : Address) (history : History) : Prop :=
  ∃ before input trace after reached state ctx call reply actions added needed,
    history = before ++ ⟨input, .ok trace⟩ :: after ∧
    (machine crypto).Run start before reached ∧ reached.managers manager = some state ∧
    .manager ctx call reply actions ∈ trace ∧ ctx.scAddress = manager ∧
    ctx.caller ≠ start.itsAddress ∧ .roles (.rolesAdded start.itsAddress added) ∈ actions ∧
    TokenManager.Call.role call = some needed ∧ state.roles.hasRole ctx.caller needed

variable {crypto : Crypto} {start world : World} {history : History} {manager : Address}

theorem GrantedBack.snoc (h : GrantedBack crypto start manager history)
    (entry : Entry Input (List Action)) :
    GrantedBack crypto start manager (history ++ [entry]) := by
  obtain ⟨before, input, trace, after, reached, state, ctx, call, reply, actions, added, needed,
    rfl, hrest⟩ := h
  exact ⟨before, input, trace, after ++ [entry], reached, state, ctx, call, reply, actions, added,
    needed, by simp, hrest⟩

/-- The service stays locked out until somebody grants it a role. -/
theorem lockedOut_run (hregistered : Registered start)
    (hrun : (machine crypto).Run start history world)
    (hlocked : ∃ state, start.managers manager = some state ∧ LockedOut start.itsAddress state)
    (hgranted : ¬ GrantedBack crypto start manager history) :
    ∃ state, world.managers manager = some state ∧ LockedOut start.itsAddress state := by
  induction hrun with
  | start => exact hlocked
  | stopped _ _ ih => exact ih fun hback => hgranted (hback.snoc _)
  | @completed history world next input trace hbefore hok ih =>
    obtain ⟨state, hstate, hout⟩ := ih fun hback => hgranted (hback.snoc _)
    have hkeeps := keepsRegistry_run hregistered hbefore
    by_cases hmanager : ∃ caller address payment call,
        input.operation = .manager caller address payment call
    · obtain ⟨env, operation⟩ := input
      obtain ⟨caller, address, payment, call, rfl⟩ := hmanager
      obtain ⟨⟨hexternal, _⟩, reply, hcall⟩ := run_manager_eq_ok.mp ((step_eq_ok crypto).mp hok)
      obtain ⟨other, after, actions, ledger, pending, hother, hperform, rfl, rfl⟩ :=
        callManager_manager hcall
      have hcaller : caller ≠ start.itsAddress := by
        rintro rfl
        simp [World.isSystemContract, hkeeps.itsAddress] at hexternal
      by_cases haddress : manager = address
      · subst haddress
        obtain rfl := Option.some.inj (hstate.symm.trans hother)
        have hkept := TokenManager.kept_perform _ call _ _ _ _ hperform
        rcases TokenManager.perform_granted hout.roles hout.minter hcaller.symm hperform with
          hnone | ⟨added, needed, hmem, hrole, hheld⟩
        · exact ⟨after, Function.update_self _ _ _, hnone, hkept.minter hout.minter⟩
        · exact absurd ⟨history, _, _, [], world, state, _, call, reply, actions, added, needed,
            rfl, hbefore, hstate, List.mem_singleton_self _, rfl, hcaller, hmem, hrole, hheld⟩
            hgranted
      · exact ⟨state, (Function.update_of_ne haddress _ _).trans hstate, hout⟩
    · have hleaves : LeavesManager world.itsAddress manager world trace next :=
        LeavesManager.step hkeeps.registered.nameless
          (fun caller address payment call hinput =>
            hmanager ⟨caller, address, payment, call, hinput⟩) hok
      rw [hkeeps.itsAddress] at hleaves
      obtain ⟨_, after, hafter, hstill, _⟩ := hleaves state hstate hout
      exact ⟨after, hafter, hstill⟩

/-! ## The handover -/

/-- A manager was handed over to a minter: the service has no role left, the minter has
all of them, nobody else's have changed, and the service does nothing there that takes
a role until somebody gives one back. -/
structure HandedOver (crypto : Crypto) (world : World) (manager minter : Address) (next : World) :
    Prop where
  roles : ∃ before after, world.managers manager = some before ∧
    next.managers manager = some after ∧
    after.roles.accountRoles world.itsAddress = .none ∧
    after.roles.accountRoles minter = .all ∧ after.minterAddress = some minter ∧
    ∀ other, other ≠ world.itsAddress → other ≠ minter →
      after.roles.accountRoles other = before.roles.accountRoles other
  lockedOut : ∀ later last, (machine crypto).Run next later last →
    ¬ GrantedBack crypto next manager later → ∀ input after trace,
    (∀ caller address payment call, input.operation ≠ .manager caller address payment call) →
    (machine crypto).step last input = .ok (after, trace) →
    AsksForNoRole world.itsAddress manager trace ∧
    ∃ before state, last.managers manager = some before ∧ after.managers manager = some state ∧
      state.roles = before.roles ∧ state.flowLimit = before.flowLimit

/-- What the third step of a local deployment leaves of the manager. -/
theorem manager_of_mint {env : Environment} {caller : Address} {payment : EgldOrMultiEsdtPayment}
    {salt : Hash} {name symbol : ManagedBuffer} {decimals : UInt8} {initialSupply : ℕ}
    {minterOpt : Option Address} {next : World} {trace : List Action}
    {state : TokenManager.State}
    (hok : (machine crypto).step world ⟨env, .its caller payment
      (.deployInterchainToken salt name symbol decimals initialSupply minterOpt)⟩ =
        .ok (next, trace))
    (hmanager : world.its.tokenManagerAddress (localTokenId crypto world.its caller salt) =
      some manager)
    (hstate : world.managers manager = some state) (htoken : state.tokenIdentifier.isSome)
    (hsupply : 0 < initialSupply) :
    next.itsAddress = world.itsAddress ∧ next.managers manager = some { state with
      minterAddress := some (minterOpt.getD .zero)
      roles := handedOver world.itsAddress (minterOpt.getD .zero) state.roles } := by
  obtain ⟨_, paid, hpay, hperform⟩ := run_its_eq_ok.mp ((step_eq_ok crypto).mp hok)
  obtain ⟨⟨ledger, pending, hpaid⟩, _⟩ := ledgerOnly_pay _ _ _ _ hpay
  have hits : paid.its = world.its := by rw [hpaid]
  have hpaidState : paid.managers manager = some state := by rw [hpaid]; exact hstate
  have haddress : paid.itsAddress = world.itsAddress := by rw [hpaid]
  rw [← hits] at hmanager
  obtain ⟨_, tokenId, hdeploy⟩ := perform_deployInterchainToken.mp hperform
  obtain ⟨status, minterBytes, hstarts, hstep⟩ := deployInterchainToken_eq_ok hdeploy
  cases hstep with
  | rests hnothing => omega
  | deploys hunissued =>
    rw [hunissued manager state hmanager hpaidState] at htoken
    simp at htoken
  | @mints other otherState hother hotherState _ _ hmint =>
    obtain rfl := Option.some.inj (hmanager.symm.trans hother)
    have hmiddle : (paid.setStatus (localTokenId crypto paid.its caller salt) status).managers
        manager = some state := hpaidState
    obtain ⟨last, _, _, hruns, rfl⟩ := mintInitialSupply_eq_ok hmiddle hmint
    have hhanded := managerRuns_handover hruns
    have hlast : last = { state with
        minterAddress := some (minterOpt.getD .zero)
        roles := handedOver world.itsAddress (minterOpt.getD .zero) state.roles } := hhanded
    refine ⟨haddress, ?_⟩
    rw [← hlast]
    exact Function.update_self _ _ _

/-- The third step of a local deployment hands the manager over exactly when the minter
is not the service itself. -/
theorem handover (hlaunched : Launched crypto start)
    (hrun : (machine crypto).Run start history world) {env : Environment} {caller : Address}
    {payment : EgldOrMultiEsdtPayment} {salt : Hash} {name symbol : ManagedBuffer}
    {decimals : UInt8} {initialSupply : ℕ} {minterOpt : Option Address} {next : World}
    {trace : List Action} {state : TokenManager.State}
    (hok : (machine crypto).step world ⟨env, .its caller payment
      (.deployInterchainToken salt name symbol decimals initialSupply minterOpt)⟩ =
        .ok (next, trace))
    (hmanager : world.its.tokenManagerAddress (localTokenId crypto world.its caller salt) =
      some manager)
    (hstate : world.managers manager = some state) (htoken : state.tokenIdentifier.isSome)
    (hsupply : 0 < initialSupply) :
    HandedOver crypto world manager (minterOpt.getD .zero) next ↔
      minterOpt.getD .zero ≠ world.itsAddress := by
  obtain ⟨haddress, hnext⟩ := manager_of_mint hok hmanager hstate htoken hsupply
  have hall : (handedOver world.itsAddress (minterOpt.getD .zero) state.roles).accountRoles
      (minterOpt.getD .zero) = .all := handedOver_minter state.roles
  constructor
  · intro hhanded hself
    obtain ⟨_, after, _, hafter, hnone, hminter, _⟩ := hhanded.roles
    rw [hself, hnone] at hminter
    simp [Roles.none, Roles.all] at hminter
  · intro hother
    have hnone := handedOver_service state.roles hother
    have hregistered : Registered next :=
      (keepsRegistry_run hlaunched.registered (hrun.completed hok)).registered
    refine ⟨⟨state, _, hstate, hnext, hnone, hall, rfl, ?_⟩, ?_⟩
    · intro other hservice hminter
      exact handedOver_other state.roles hservice hminter
    · intro later last hlater hgranted input after trace hinput hstep
      have hkeeps := keepsRegistry_run hregistered hlater
      obtain ⟨before, hbefore, hlocked⟩ := lockedOut_run hregistered hlater
        ⟨_, hnext, by rw [haddress]; exact hnone, rfl⟩ hgranted
      have hleaves : LeavesManager last.itsAddress manager last trace after :=
        LeavesManager.step hkeeps.registered.nameless hinput hstep
      rw [hkeeps.itsAddress] at hleaves
      obtain ⟨hasks, final, hfinal, _, hroles, hlimit⟩ := hleaves before hbefore hlocked
      rw [haddress] at hasks
      exact ⟨hasks, before, final, hbefore, hfinal, hroles, hlimit⟩

/-! ## A handover to the service itself -/

/-- The user deploys the manager of a token and issues it. -/
def sampleIssue : List Input :=
  [sampleDeploy 0 100 none, sampleDeploy DEFAULT_ESDT_ISSUE_COST 100 none,
    ⟨sampleEnvironment, .answer 0 (.ok [sampleToken])⟩]

/-- The manager of the token, whether it has an identifier, and whether the third step
completes. -/
def sampleThirdStep (minterOpt : Option Address) (_ : History) (world : World) :
    Option Address × Option Bool × Bool × Address :=
  (world.its.tokenManagerAddress
      (localTokenId sampleNativeCrypto world.its sampleUser zeroHash),
    (world.managers (sampleAddress 6)).map fun state => state.tokenIdentifier.isSome,
    ((machine sampleNativeCrypto).step world (sampleDeploy 0 100 minterOpt)).isOk,
    world.itsAddress)

theorem sampleIssue_run {minterOpt : Option Address}
    (h : sampleReplay sampleNativeCrypto sampleIssue (sampleThirdStep minterOpt) =
      .ok (some (sampleAddress 6), some true, true, sampleItsAddress)) :
    ∃ start history world state next trace, Launched sampleNativeCrypto start ∧
      (machine sampleNativeCrypto).Run start history world ∧
      history.map Entry.input = sampleIssue ∧ world.itsAddress = sampleItsAddress ∧
      world.its.tokenManagerAddress
        (localTokenId sampleNativeCrypto world.its sampleUser zeroHash) =
          some (sampleAddress 6) ∧
      world.managers (sampleAddress 6) = some state ∧ state.tokenIdentifier.isSome ∧
      (machine sampleNativeCrypto).step world (sampleDeploy 0 100 minterOpt) =
        .ok (next, trace) := by
  obtain ⟨start, history, world, hlaunched, hrun, hinputs, hview⟩ := sampleReplay_run h
  simp only [sampleThirdStep, Prod.mk.injEq, Option.map_eq_some_iff] at hview
  obtain ⟨hmanager, ⟨state, hstate, htoken⟩, hok, haddress⟩ := hview
  obtain ⟨⟨next, trace⟩, hstep⟩ := Outcome.exists_eq_ok hok
  exact ⟨start, history, world, state, next, trace, hlaunched, hrun, hinputs, haddress, hmanager,
    hstate, htoken, hstep⟩

/-- The user keeps the token. -/
theorem sample_handover : ∃ start history world next trace,
    (machine sampleNativeCrypto).Run start history world ∧
    (machine sampleNativeCrypto).step world (sampleDeploy 0 100 (some sampleUser)) =
      .ok (next, trace) ∧
    HandedOver sampleNativeCrypto world (sampleAddress 6) sampleUser next := by
  have hreplay : sampleReplay sampleNativeCrypto sampleIssue (sampleThirdStep (some sampleUser)) =
      .ok (some (sampleAddress 6), some true, true, sampleItsAddress) := by
    decide +kernel
  obtain ⟨start, history, world, state, next, trace, hlaunched, hrun, _, haddress, hmanager, hstate,
    htoken, hok⟩ := sampleIssue_run hreplay
  have hother : sampleUser ≠ world.itsAddress := by
    rw [haddress]
    decide
  exact ⟨start, history, world, next, trace, hrun, hok,
    (handover hlaunched hrun hok hmanager hstate htoken (by decide)).mpr hother⟩

/-- When the minter is the service itself the third step completes, and the service has
all roles as before. -/
theorem sample_notHandedOver : ∃ start history world next trace state,
    Launched sampleNativeCrypto start ∧
    (machine sampleNativeCrypto).Run start history world ∧
    history.map Entry.input = sampleIssue ∧
    (machine sampleNativeCrypto).step world (sampleDeploy 0 100 (some sampleItsAddress)) =
      .ok (next, trace) ∧
    next.managers (sampleAddress 6) = some state ∧
    state.roles.accountRoles world.itsAddress = .all ∧
    ¬ HandedOver sampleNativeCrypto world (sampleAddress 6) sampleItsAddress next := by
  have hreplay : sampleReplay sampleNativeCrypto sampleIssue
      (sampleThirdStep (some sampleItsAddress)) =
        .ok (some (sampleAddress 6), some true, true, sampleItsAddress) := by
    decide +kernel
  obtain ⟨start, history, world, state, next, trace, hlaunched, hrun, hinputs, haddress, hmanager,
    hstate, htoken, hok⟩ := sampleIssue_run hreplay
  obtain ⟨_, hnext⟩ := manager_of_mint hok hmanager hstate htoken (by decide)
  have hall : (handedOver world.itsAddress sampleItsAddress state.roles).accountRoles
      world.itsAddress = .all := by
    rw [haddress]
    exact handedOver_minter state.roles
  refine ⟨start, history, world, next, trace, _, hlaunched, hrun, hinputs, hok, hnext, hall, ?_⟩
  intro hhanded
  obtain ⟨_, after, _, hafter, hnone, _⟩ := hhanded.roles
  obtain rfl := Option.some.inj (hnext.symm.trans hafter)
  have hboth := hnone.symm.trans hall
  simp [Roles.none, Roles.all] at hboth

end AxelarCgp.Its
