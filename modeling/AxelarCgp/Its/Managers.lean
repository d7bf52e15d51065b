import AxelarCgp.Its.Steps
import AxelarCgp.Its.Tokens
import AxelarCgp.TokenManager.Rules

/-!
# Token managers of the service

Which managers there are, and what becomes of each: a call of a manager changes
that manager only, and a manager stays the one of its token for ever.
-/

namespace AxelarCgp.Its

open Transaction

/-! ## Calls of one manager -/

/-- Only the ledger and what is in flight have changed. -/
def LedgerOnly (_ : ℕ) (before : World) (trace : List Action) (after : World) : Prop :=
  (∃ ledger pending, after = { before with ledger, pending }) ∧ trace = []

theorem composes_ledgerOnly : Composes LedgerOnly where
  nil world := ⟨⟨world.ledger, world.pending, rfl⟩, rfl⟩
  append := by
    rintro _ _ _ _ _ _ _ ⟨⟨_, _, rfl⟩, rfl⟩ ⟨⟨ledger, pending, rfl⟩, rfl⟩
    exact ⟨⟨ledger, pending, rfl⟩, rfl⟩
  mono _ h := h

section Calls

variable {env : Environment} {ctx : CallContext} {world last : World} {trace : List Action}

theorem ledgerOnly_transfer (sender receiver : Address) (asset : Asset) (amount : ℕ) :
    Satisfies (LedgerOnly 0) (transfer sender receiver asset amount) := by
  intro before value after trace h
  obtain ⟨ledger, _, rfl, rfl⟩ := transfer_eq_ok.mp h
  exact ⟨⟨ledger, before.pending, rfl⟩, rfl⟩

theorem ledgerOnly_pay : Satisfies (LedgerOnly 0) (pay ctx) :=
  .forEach composes_ledgerOnly (fun _ => ledgerOnly_transfer _ _ _ _) _

theorem ledgerOnly_managerAction (manager : Address) (action : TokenManager.Action) :
    Satisfies (LedgerOnly 0) (managerAction env manager action) := by
  cases action with
  | localMint token amount =>
    intro before value after trace h
    obtain ⟨_, rfl, rfl⟩ := localMint_eq_ok.mp h
    exact ⟨⟨_, before.pending, rfl⟩, rfl⟩
  | localBurn token amount =>
    intro before value after trace h
    obtain ⟨_, rfl, ledger, _, rfl⟩ := localBurn_eq_ok.mp h
    exact ⟨⟨ledger, before.pending, rfl⟩, rfl⟩
  | send receiver token amount => exact ledgerOnly_transfer _ _ _ _
  | issue cost name ticker decimals user =>
    exact .andThen composes_ledgerOnly (ledgerOnly_transfer _ _ _ _) fun _ =>
      .modifies fun world => ⟨⟨world.ledger, _, rfl⟩, rfl⟩
  | _ => exact .pure composes_ledgerOnly ()

/-- Code of a manager changes the state of that manager. -/
theorem runManager_manager {A : Type} {address : Address} {code : TokenManager.Tx A} {value : A}
    {actions : List TokenManager.Action}
    (h : runManager env address code world = .ok ⟨(value, actions), last, trace⟩) :
    ∃ state next ledger pending, world.managers address = some state ∧
      code state = .ok ⟨value, next, actions⟩ ∧
      last = { world.setManager address next with ledger, pending } ∧ trace = [] := by
  obtain ⟨state, next, hmanager, hcode, hactions⟩ := runManager_eq_ok.mp h
  have hledger : Satisfies (LedgerOnly 0) (forEach (managerAction env address) actions) :=
    .forEach composes_ledgerOnly (ledgerOnly_managerAction address) actions
  obtain ⟨⟨ledger, pending, hlast⟩, htrace⟩ := hledger _ _ _ _ hactions
  exact ⟨state, next, ledger, pending, hmanager, hcode, hlast, htrace⟩

/-- A call of a manager runs its endpoint and changes the state of that manager. -/
theorem callManager_manager {call : TokenManager.Call} {reply : TokenManager.Reply}
    (h : callManager env ctx call world = .ok ⟨reply, last, trace⟩) :
    ∃ state next actions ledger pending, world.managers ctx.scAddress = some state ∧
      TokenManager.perform ctx call state = .ok ⟨reply, next, actions⟩ ∧
      last = { world.setManager ctx.scAddress next with ledger, pending } ∧
      trace = [.manager ctx call reply actions] := by
  obtain ⟨paid, actions, hpay, hrun, rfl⟩ := callManager_eq_ok.mp h
  obtain ⟨⟨_, _, rfl⟩, _⟩ := ledgerOnly_pay _ _ _ _ hpay
  obtain ⟨state, next, ledger, pending, hmanager, hcode, rfl, _⟩ := runManager_manager hrun
  exact ⟨state, next, actions, ledger, pending, hmanager, hcode, rfl, rfl⟩

/-- The callback of an issue runs the one of the manager. -/
theorem issueCallback_manager {manager user : Address} {cost : ℕ} {result : AsyncResult}
    (h : issueCallback env manager user cost result world = .ok ⟨(), last, trace⟩) :
    ∃ state next actions ledger pending callbackCtx token,
      world.managers manager = some state ∧
      TokenManager.deployTokenCallback callbackCtx user token state = .ok ⟨(), next, actions⟩ ∧
      last = { world.setManager manager next with ledger, pending } := by
  cases result with
  | ok values =>
    simp only [issueCallback, Transaction.bind_eq_ok, lift_eq_ok, Transaction.pure_eq_ok] at h
    obtain ⟨_, _, _, _, ⟨_, rfl, _⟩, ⟨⟨_, actions⟩, _, _, _, hrun, ⟨_, rfl, _⟩, _⟩, _⟩ := h
    obtain ⟨state, next, ledger, pending, hmanager, hcode, rfl, _⟩ := runManager_manager hrun
    exact ⟨state, next, actions, ledger, pending, _, _, hmanager, hcode, rfl⟩
  | err errCode errMsg =>
    simp only [issueCallback, Transaction.bind_eq_ok, Transaction.pure_eq_ok] at h
    obtain ⟨⟨_, actions⟩, _, _, _, hrun, ⟨_, rfl, _⟩, _⟩ := h
    obtain ⟨state, next, ledger, pending, hmanager, hcode, rfl, _⟩ := runManager_manager hrun
    exact ⟨state, next, actions, ledger, pending, _, _, hmanager, hcode, rfl⟩

theorem bringBack_manager {manager : Address} {cost : ℕ} {result : AsyncResult}
    (h : bringBack manager cost result world = .ok ⟨(), last, trace⟩) :
    last.managers = world.managers := by
  cases result with
  | ok values =>
    obtain ⟨_, rfl, _⟩ := Transaction.pure_eq_ok.mp h
    rfl
  | err errCode errMsg =>
    obtain ⟨_, _, rfl, _⟩ := transfer_eq_ok.mp h
    rfl

end Calls

/-! ## The registry -/

/-- Every token that is registered has a manager of its own, and every manager is
registered for its token and serves the service. -/
structure Registered (world : World) : Prop where
  deployed : ∀ tokenId address, world.its.tokenManagerAddress tokenId = some address →
    ∃ state, world.managers address = some state ∧ state.interchainTokenId = tokenId
  owned : ∀ address state, world.managers address = some state →
    world.its.tokenManagerAddress state.interchainTokenId = some address ∧
    state.interchainTokenService = world.itsAddress ∧ state.HasToken
  apart : world.managers world.itsAddress = none
  nameless : world.its.trustedChains .new = false

/-- A manager that a step deployed for a token that had none: where it comes from,
and what came of its `init`. -/
structure Deployment (service : Address)
    (Origin : TokenManagerType → TokenId → DeployTokenManagerParams → Prop)
    (before after : World) (address : Address) (managerType : TokenManagerType)
    (tokenId : TokenId) (params : DeployTokenManagerParams) : Prop where
  origin : Origin managerType tokenId params
  unset : before.its.tokenManagerAddress tokenId = none
  unused : before.managers address = none
  set : after.its.tokenManagerAddress tokenId = some address
  managed : ∃ initial state, TokenManager.Initialised service managerType tokenId params initial ∧
    after.managers address = some state ∧ TokenManager.Kept 0 initial [] state

/-- Managers keep what they never change. -/
def KeepsManagers (before after : World) : Prop :=
  ∀ address state, before.managers address = some state →
    ∃ next, after.managers address = some next ∧ TokenManager.Kept 0 state [] next

namespace Deployment

variable {service : Address}
variable {Origin : TokenManagerType → TokenId → DeployTokenManagerParams → Prop}
variable {before middle after : World} {address : Address} {managerType : TokenManagerType}
variable {tokenId : TokenId} {params : DeployTokenManagerParams}

theorem later (h : Deployment service Origin before middle address managerType tokenId params)
    (hset : after.its.tokenManagerAddress tokenId = some address)
    (hkept : KeepsManagers middle after) :
    Deployment service Origin before after address managerType tokenId params where
  origin := h.origin
  unset := h.unset
  unused := h.unused
  set := hset
  managed := by
    obtain ⟨initial, state, hinitialised, hstate, hkeeps⟩ := h.managed
    obtain ⟨next, hnext, hlater⟩ := hkept address state hstate
    exact ⟨initial, next, hinitialised, hnext, TokenManager.kept_rules.append hkeeps hlater⟩

theorem earlier (h : Deployment service Origin middle after address managerType tokenId params)
    (hstays : ∀ other, before.its.tokenManagerAddress tokenId = some other →
      middle.its.tokenManagerAddress tokenId = some other)
    (hkept : KeepsManagers before middle) :
    Deployment service Origin before after address managerType tokenId params where
  origin := h.origin
  unset := by
    cases hset : before.its.tokenManagerAddress tokenId with
    | none => rfl
    | some other => simpa [h.unset] using hstays other hset
  unused := by
    cases hused : before.managers address with
    | none => rfl
    | some state =>
      obtain ⟨next, hnext, _⟩ := hkept address state hused
      simp [h.unused] at hnext
  set := h.set
  managed := h.managed

end Deployment

/-- What a step of the service does to the registry and to the managers in it. -/
structure Registers (service : Address)
    (Origin : TokenManagerType → TokenId → DeployTokenManagerParams → Prop) (before : World)
    (trace : List Action) (after : World) : Prop where
  itsAddress : after.itsAddress = before.itsAddress
  registered : before.itsAddress = service → Registered before → Registered after
  grows : ∀ tokenId, after.its.tokenManagerAddress tokenId =
      before.its.tokenManagerAddress tokenId ∨
    before.its.tokenManagerAddress tokenId = none ∧ ∃ address managerType params,
      after.its.tokenManagerAddress tokenId = some address ∧
      .managerDeployed address service managerType tokenId params ∈ trace
  deployments : ∀ address deployer managerType tokenId params,
    .managerDeployed address deployer managerType tokenId params ∈ trace →
    deployer = service ∧
      Deployment service Origin before after address managerType tokenId params
  kept : KeepsManagers before after

/-- Which deployments are allowed to have some origin. -/
def HasOrigin (Origin : TokenManagerType → TokenId → DeployTokenManagerParams → Prop) :
    Effect → Prop
  | .deploys tokenId managerType tokenIdentifier operator => ∀ operatorAddress,
      toOptionalAddress operator = .ok operatorAddress →
      Origin managerType tokenId ⟨operatorAddress, tokenIdentifier⟩
  | _ => True

namespace Registers

variable {service : Address}
variable {Origin : TokenManagerType → TokenId → DeployTokenManagerParams → Prop}
variable {before after : World} {trace : List Action}

/-- A token that has a manager keeps it. -/
theorem stays (h : Registers service Origin before trace after) {tokenId : TokenId}
    {address : Address} (hset : before.its.tokenManagerAddress tokenId = some address) :
    after.its.tokenManagerAddress tokenId = some address := by
  rcases h.grows tokenId with hsame | ⟨hnone, _⟩
  · exact hsame.trans hset
  · rw [hset] at hnone
    simp at hnone

theorem composes : Composes fun _ : ℕ => Registers service Origin where
  nil world := {
    itsAddress := rfl
    registered := fun _ h => h
    grows := fun _ => .inl rfl
    deployments := by simp
    kept := fun _ state h => ⟨state, h, TokenManager.kept_rules.nil state⟩ }
  append := by
    intro _ _ before middle after first second hfirst hsecond
    refine ⟨hsecond.itsAddress.trans hfirst.itsAddress, ?registered, ?grows, ?deployments, ?kept⟩
    case registered =>
      intro haddress h
      exact hsecond.registered (hfirst.itsAddress.trans haddress) (hfirst.registered haddress h)
    case grows =>
      intro tokenId
      rcases hfirst.grows tokenId with hsame | ⟨hnone, address, managerType, params, hsome, hmem⟩
      · rcases hsecond.grows tokenId with
          hlater | ⟨hnone, address, managerType, params, hsome, hmem⟩
        · exact .inl (hlater.trans hsame)
        · exact .inr ⟨hsame.symm.trans hnone, address, managerType, params, hsome,
            List.mem_append_right _ hmem⟩
      · exact .inr ⟨hnone, address, managerType, params, hsecond.stays hsome,
          List.mem_append_left _ hmem⟩
    case deployments =>
      intro address deployer managerType tokenId params hmem
      rcases List.mem_append.mp hmem with hmem | hmem
      · obtain ⟨hdeployer, hdeployment⟩ := hfirst.deployments _ _ _ _ _ hmem
        exact ⟨hdeployer, hdeployment.later (hsecond.stays hdeployment.set) hsecond.kept⟩
      · obtain ⟨hdeployer, hdeployment⟩ := hsecond.deployments _ _ _ _ _ hmem
        exact ⟨hdeployer, hdeployment.earlier (fun _ => hfirst.stays) hfirst.kept⟩
    case kept =>
      intro address state hstate
      obtain ⟨middleState, hmiddle, hkept⟩ := hfirst.kept address state hstate
      obtain ⟨next, hnext, hlater⟩ := hsecond.kept address middleState hmiddle
      exact ⟨next, hnext, TokenManager.kept_rules.append hkept hlater⟩
  mono _ h := h

/-- Without a deployment the registry stays, and the managers too if none is called. -/
theorem of_same (haddress : after.itsAddress = before.itsAddress)
    (hregistry : after.its.tokenManagerAddress = before.its.tokenManagerAddress)
    (hchain : after.its.trustedChains .new = before.its.trustedChains .new)
    (hmanagers : after.managers = before.managers)
    (htrace : ∀ address deployer managerType tokenId params,
      .managerDeployed address deployer managerType tokenId params ∉ trace) :
    Registers service Origin before trace after where
  itsAddress := haddress
  registered _ h := {
    deployed := by
      rw [hregistry, hmanagers]
      exact h.deployed
    owned := by
      rw [hregistry, hmanagers, haddress]
      exact h.owned
    apart := by
      rw [hmanagers, haddress]
      exact h.apart
    nameless := hchain.trans h.nameless }
  grows tokenId := .inl (by rw [hregistry])
  deployments address deployer managerType tokenId params hmem := absurd hmem (htrace _ _ _ _ _)
  kept address state hstate := ⟨state, by rw [hmanagers]; exact hstate,
    TokenManager.kept_rules.nil state⟩

/-- A manager that was called is still the one of its token. -/
theorem of_manager {address : Address} {state next : TokenManager.State}
    {ledger : Ledger Address Asset} {pending : List Pending}
    {actions : List TokenManager.Action} (hmanager : before.managers address = some state)
    (hkept : TokenManager.Kept 0 state actions next)
    (htrace : ∀ address deployer managerType tokenId params,
      .managerDeployed address deployer managerType tokenId params ∉ trace) :
    Registers service Origin before trace
      { before.setManager address next with ledger, pending } where
  itsAddress := rfl
  registered _ h := by
    have hothers : ∀ other, other ≠ address →
        (before.setManager address next).managers other = before.managers other :=
      fun other hne => Function.update_of_ne hne _ _
    have hsame : (before.setManager address next).managers address = some next :=
      Function.update_self _ _ _
    refine ⟨?deployed, ?owned, ?apart, h.nameless⟩
    case deployed =>
      intro tokenId other hother
      obtain ⟨otherState, hdeployed, htoken⟩ := h.deployed tokenId other hother
      by_cases hne : other = address
      · subst hne
        rw [hmanager] at hdeployed
        obtain rfl := Option.some.inj hdeployed
        exact ⟨next, hsame, hkept.interchainTokenId.trans htoken⟩
      · exact ⟨otherState, (hothers other hne).trans hdeployed, htoken⟩
    case owned =>
      intro other otherState hother
      by_cases hne : other = address
      · subst hne
        obtain rfl := Option.some.inj (hsame.symm.trans hother)
        obtain ⟨hregistered, hservice, htoken⟩ := h.owned other state hmanager
        exact ⟨hkept.interchainTokenId ▸ hregistered, hkept.service.trans hservice,
          hkept.hasToken htoken⟩
      · exact h.owned other otherState ((hothers other hne).symm.trans hother)
    case apart =>
      have hne : before.itsAddress ≠ address := by
        rintro rfl
        rw [h.apart] at hmanager
        simp at hmanager
      exact (hothers _ hne).trans h.apart
  grows _ := .inl rfl
  deployments address deployer managerType tokenId params hmem := absurd hmem (htrace _ _ _ _ _)
  kept other otherState hother := by
    by_cases hne : other = address
    · subst hne
      rw [hmanager] at hother
      obtain rfl := Option.some.inj hother
      exact ⟨next, Function.update_self _ _ _, hkept.service, hkept.implementationType,
        hkept.interchainTokenId, hkept.token, hkept.minter⟩
    · exact ⟨otherState, (Function.update_of_ne hne _ _).trans hother,
        TokenManager.kept_rules.nil otherState⟩

theorem callManager {env : Environment} {ctx : CallContext} (call : TokenManager.Call) :
    Satisfies (Registers service Origin) (callManager env ctx call) := by
  intro before reply after trace h
  obtain ⟨state, next, actions, ledger, pending, hmanager, hcode, rfl, rfl⟩ :=
    callManager_manager h
  exact of_manager hmanager (TokenManager.kept_perform ctx call _ _ _ _ hcode) (by simp)

/-- A new manager has an address of its own and is registered for its token. -/
theorem deployTokenManagerRaw {env : Environment} {ctx : CallContext} {tokenId : TokenId}
    {managerType : TokenManagerType} {tokenIdentifier : Option EgldOrEsdtTokenIdentifier}
    {operator : ManagedBuffer} (hself : ctx.scAddress = service)
    (horigin : HasOrigin Origin (.deploys tokenId managerType tokenIdentifier operator)) :
    Satisfies (Registers service Origin)
      (deployTokenManagerRaw env ctx tokenId managerType tokenIdentifier operator) := by
  intro before address after trace h
  obtain ⟨state, actions, ⟨operatorAddress, _⟩, hnone, hfree, hinit, hoperator, rfl, rfl, rfl⟩ :=
    deployTokenManagerRaw_eq_ok h
  rw [hself] at hinit ⊢
  have hinitialised := TokenManager.init_initialised hinit
  have hunused : before.managers address = none := by
    rw [World.isSystemContract] at hfree
    simpa using (Bool.or_eq_false_iff.mp hfree).2
  have hother : before.itsAddress ≠ address := by
    rintro rfl
    simp [World.isSystemContract] at hfree
  have hothers : ∀ other, other ≠ address →
      (before.setManager address state).managers other = before.managers other :=
    fun other hne => Function.update_of_ne hne _ _
  have hsame : (before.setManager address state).managers address = some state :=
    Function.update_self _ _ _
  refine ⟨rfl, ?registered, ?grows, ?deployments, ?kept⟩
  case registered =>
    intro haddress hregistered
    refine ⟨?deployed, ?owned, (hothers _ hother).trans hregistered.apart, hregistered.nameless⟩
    case deployed =>
      intro otherId other hentry
      dsimp only at hentry
      by_cases hid : otherId = tokenId
      · subst hid
        rw [Function.update_self] at hentry
        obtain rfl := Option.some.inj hentry
        exact ⟨state, hsame, hinitialised.interchainTokenId⟩
      · rw [Function.update_of_ne hid] at hentry
        obtain ⟨otherState, hdeployed, htoken⟩ := hregistered.deployed otherId other hentry
        have hne : other ≠ address := by
          rintro rfl
          rw [hunused] at hdeployed
          simp at hdeployed
        exact ⟨otherState, (hothers other hne).trans hdeployed, htoken⟩
    case owned =>
      intro other otherState hmanager
      by_cases hne : other = address
      · subst hne
        obtain rfl := Option.some.inj (hsame.symm.trans hmanager)
        refine ⟨?_, hinitialised.interchainTokenService.trans haddress.symm,
          hinitialised.hasToken⟩
        rw [hinitialised.interchainTokenId]
        exact Function.update_self _ _ _
      · obtain ⟨hentry, hrest⟩ := hregistered.owned other otherState
          ((hothers other hne).symm.trans hmanager)
        refine ⟨?_, hrest⟩
        have hid : otherState.interchainTokenId ≠ tokenId := by
          intro hid
          rw [hid, hnone] at hentry
          simp at hentry
        exact (Function.update_of_ne hid _ _).trans hentry
  case grows =>
    intro otherId
    by_cases hid : otherId = tokenId
    · subst hid
      exact .inr ⟨hnone, address, managerType, _, Function.update_self _ _ _,
        List.mem_cons_self ..⟩
    · exact .inl (Function.update_of_ne hid _ _)
  case deployments =>
    intro other deployer otherType otherId params hmem
    simp only [List.mem_cons, Action.managerDeployed.injEq, reduceCtorEq, List.not_mem_nil,
      or_false] at hmem
    obtain ⟨rfl, rfl, rfl, rfl, rfl⟩ := hmem
    exact ⟨rfl, horigin operatorAddress hoperator, hnone, hunused, Function.update_self _ _ _,
      state, state, hinitialised, hsame, TokenManager.kept_rules.nil state⟩
  case kept =>
    intro other otherState hmanager
    have hne : other ≠ address := by
      rintro rfl
      rw [hunused] at hmanager
      simp at hmanager
    exact ⟨otherState, (hothers other hne).trans hmanager, TokenManager.kept_rules.nil otherState⟩

theorem stepRules {crypto : Crypto} :
    StepRules crypto service (HasOrigin Origin) (Registers service Origin) where
  composes := composes
  ledger _ _ := of_same rfl rfl rfl rfl (by simp)
  pending _ _ := of_same rfl rfl rfl rfl (by simp)
  note world action hnote := of_same rfl rfl rfl rfl fun _ _ _ _ _ hmem => by
    obtain rfl := List.mem_singleton.mp hmem
    simp [Action.isNote] at hnote
  storage _ _ hkeeps := of_same rfl hkeeps.tokenManagerAddress hkeeps.trustedChains rfl (by simp)
  roles _ _ _ := of_same rfl rfl rfl rfl (by simp)
  status _ _ _ := .modifies fun _ => of_same rfl rfl rfl rfl (by simp)
  approval _ _ _ := .modifies fun _ => of_same rfl rfl rfl rfl (by simp)
  deploy _ _ _ _ _ _ hself horigin := deployTokenManagerRaw hself horigin
  command _ _ _ call _ _ := callManager call
  transfers _ _ call _ := callManager call
  callback env manager ctx user result := by
    rintro before ⟨_, actions⟩ after trace h
    obtain ⟨state, next, ledger, pending, hmanager, hcode, rfl, rfl⟩ := runManager_manager h
    exact of_manager hmanager
      (TokenManager.kept_deployTokenCallback ctx user result _ _ _ _ hcode) (by simp)
  gateway ctx call := by
    intro before reply after trace h
    obtain ⟨gateway, _, rfl, rfl⟩ := callGateway_eq_ok.mp h
    exact of_same rfl rfl rfl rfl (by simp)

end Registers

end AxelarCgp.Its
