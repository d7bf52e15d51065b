import AxelarCgp.Its.Deliveries
import AxelarCgp.Its.Emissions
import AxelarCgp.TokenManager.Reserves

/-!
# Reserves of token managers

A manager that locks has its tokens in reserve; for one that mints, the reserve is what it
could still destroy, so that the supply counts against it.  Only what the service makes a
manager give lessens its reserve, and what the hub is told of has been added to it.
-/

namespace AxelarCgp.Its

open Transaction

/-! ## The reserve -/

/-- The manager of a token, at a service. -/
structure Reserve where
  service : Address
  tokenId : TokenId
  manager : Address
  token : EgldOrEsdtTokenIdentifier
  mints : Bool

namespace Reserve

variable (reserve : Reserve)

def asset : Asset := reserve.token.asset 0

def value (ledger : Ledger Address Asset) : ℤ :=
  if reserve.mints then -(ledger.supply reserve.asset : ℤ)
  else ledger.balance reserve.manager reserve.asset

/-- What the service makes the manager give in a trace. -/
def given (trace : List Action) : ℕ :=
  (((gifts reserve.service trace).filter fun gift => gift.manager = reserve.manager).map
    Gift.amount).sum

/-- What the hub is told in a trace that was sent. -/
def sent (trace : List Action) : ℕ :=
  ((emissions reserve.service reserve.tokenId trace).map transferredAmount).sum

@[simp]
theorem given_append (first second : List Action) :
    reserve.given (first ++ second) = reserve.given first + reserve.given second := by
  simp [given]

@[simp]
theorem sent_append (first second : List Action) :
    reserve.sent (first ++ second) = reserve.sent first + reserve.sent second := by
  simp [sent]

/-- The manager has its token, and nobody who calls it is a minter. -/
structure Admits (state : TokenManager.State) : Prop where
  service : state.interchainTokenService = reserve.service
  mints : state.implementationType.mints = reserve.mints
  token : state.tokenIdentifier = some reserve.token
  minterless : state.implementationType = .nativeInterchainToken → state.Minterless

/-- The manager is the one of the token, at the service of the world. -/
structure Stands (world : World) : Prop where
  itsAddress : world.itsAddress = reserve.service
  registered : world.its.tokenManagerAddress reserve.tokenId = some reserve.manager
  managed : ∃ state, world.managers reserve.manager = some state ∧ reserve.Admits state
  apart : world.managers reserve.service = none
  distinct : reserve.manager ≠ ESDTSystemSCAddress
  present : reserve.service.isZero = false

/-- Nobody else may mint the token of a manager that mints. -/
def Sole (env : Environment) : Prop :=
  reserve.mints → ∀ holder identifier, env.hasLocalRoles holder identifier →
    EgldOrEsdtTokenIdentifier.asset (.esdt identifier) 0 = reserve.asset →
    holder = reserve.manager

variable {reserve}

theorem Admits.tokenIdentifierGet {state : TokenManager.State} (h : reserve.Admits state) :
    state.tokenIdentifierGet = reserve.token := by
  rw [TokenManager.State.tokenIdentifierGet, h.token]
  rfl

theorem Stands.manager_ne_service {world : World} (h : reserve.Stands world) :
    reserve.manager ≠ reserve.service := by
  intro hsame
  obtain ⟨state, hstate, _⟩ := h.managed
  rw [hsame, h.apart] at hstate
  simp at hstate

/-- The manager is a contract of the system. -/
theorem Stands.ne_of_external {world : World} {account : Address} (h : reserve.Stands world)
    (hexternal : world.isSystemContract account = false) : account ≠ reserve.manager := by
  rintro rfl
  obtain ⟨state, hstate, _⟩ := h.managed
  simp [World.isSystemContract, hstate] at hexternal

theorem Stands.ne_service {world : World} {account : Address} (h : reserve.Stands world)
    (hexternal : world.isSystemContract account = false) : account ≠ reserve.service := by
  rintro rfl
  simp [World.isSystemContract, h.itsAddress] at hexternal

/-! ## Ledgers -/

section Ledgers

variable {ledger after : Ledger Address Asset} {sender receiver : Address} {sent : Asset}
variable {amount : ℕ}

/-- What an amount of some asset at some account is to the reserve. -/
def part (reserve : Reserve) (account : Address) (asset : Asset) (amount : ℕ) : ℤ :=
  if reserve.mints then 0
  else Ledger.single account asset amount reserve.manager reserve.asset

theorem part_of_ne {account : Address} (h : account ≠ reserve.manager) (asset : Asset)
    (amount : ℕ) : reserve.part account asset amount = 0 := by
  simp [part, Ledger.single_of_account_ne h.symm]

theorem part_nonneg (account : Address) (asset : Asset) (amount : ℕ) :
    0 ≤ reserve.part account asset amount := by
  unfold part
  split <;> omega

theorem value_transfer (h : ledger.transfer sender receiver sent amount = .ok after) :
    reserve.value after + reserve.part sender sent amount =
      reserve.value ledger + reserve.part receiver sent amount := by
  unfold value part
  split
  · rw [(Ledger.transfer_eq_ok h).2.2]
  · have hbalance := balance_transfer h reserve.manager reserve.asset
    omega

/-- Only the manager's own transfers lessen the reserve. -/
theorem value_le_transfer (h : ledger.transfer sender receiver sent amount = .ok after)
    (hsender : sender ≠ reserve.manager) : reserve.value ledger ≤ reserve.value after := by
  have htransfer : reserve.value after + _ = reserve.value ledger + _ := value_transfer h
  have hnonneg : 0 ≤ reserve.part receiver sent amount := part_nonneg ..
  rw [part_of_ne hsender] at htransfer
  omega

end Ledgers

/-! ## What others do -/

/-- The reserve has not become less. -/
def Gains (reserve : Reserve) (before : World) (_ : List Action) (after : World) : Prop :=
  reserve.value before.ledger ≤ reserve.value after.ledger

theorem composes_gains : Composes fun _ : ℕ => reserve.Gains where
  nil _ := le_rfl
  append first second := le_trans first second
  mono _ h := h

section Gains

variable {env : Environment} {ctx : CallContext}

theorem gains_transfer {sender : Address} (hsender : sender ≠ reserve.manager)
    (receiver : Address) (sent : Asset) (amount : ℕ) :
    Satisfies reserve.Gains (transfer sender receiver sent amount) := by
  intro before value after trace h
  obtain ⟨ledger, hledger, rfl, _⟩ := transfer_eq_ok.mp h
  exact value_le_transfer hledger hsender

theorem gains_pay (hcaller : ctx.caller ≠ reserve.manager) :
    Satisfies reserve.Gains (pay ctx) :=
  .forEach composes_gains (fun _ => gains_transfer hcaller _ _ _) _

/-- Another manager neither spends the reserve nor mints its token. -/
theorem gains_managerAction (hsole : reserve.Sole env) {manager : Address}
    (hother : manager ≠ reserve.manager) (action : TokenManager.Action) :
    Satisfies reserve.Gains (managerAction env manager action) := by
  cases action with
  | localMint token amount =>
    intro before value after trace h
    obtain ⟨hroles, _, rfl⟩ := localMint_eq_ok.mp h
    unfold Gains Reserve.value
    split
    · rename_i hmints
      have hasset : reserve.asset ≠ EgldOrEsdtTokenIdentifier.asset (.esdt token) 0 :=
        fun hsame => hother (hsole hmints _ _ hroles hsame.symm)
      simp [hasset]
    · simp
  | localBurn token amount =>
    intro before value after trace h
    obtain ⟨_, _, ledger, hburn, rfl⟩ := localBurn_eq_ok.mp h
    obtain ⟨_, hbalance, hsupply⟩ := Ledger.burn_eq_ok hburn
    unfold Gains Reserve.value
    dsimp only
    rw [hbalance, hsupply, Ledger.single_of_account_ne hother.symm]
    split <;> omega
  | send receiver token amount => exact gains_transfer hother _ _ _
  | issue cost name ticker decimals user =>
    exact .andThen (n := 0) composes_gains (gains_transfer hother _ _ _) fun _ =>
      .modifies fun _ => le_rfl
  | _ => exact .pure composes_gains ()

/-- What calls for nothing on the platform changes nothing there. -/
theorem gains_quiet {manager : Address} {actions : List TokenManager.Action}
    (hquiet : ∀ action ∈ actions, action.isQuiet) :
    Satisfies reserve.Gains (forEach (managerAction env manager) actions) := by
  induction actions with
  | nil => exact .pure composes_gains ()
  | cons action actions ih =>
    have haction := hquiet action (List.mem_cons_self ..)
    refine .andThen (n := 0) composes_gains ?_ fun _ => ih fun other hmem =>
      hquiet other (List.mem_cons_of_mem _ hmem)
    cases action with
    | localMint | localBurn | send | issue => simp [TokenManager.Action.isQuiet] at haction
    | _ => exact .pure composes_gains ()

end Gains

/-! ## Managers -/

section Managers

variable {env : Environment} {ctx : CallContext} {world : World}
variable {state next : TokenManager.State} {actions : List TokenManager.Action}

theorem Admits.kept (h : reserve.Admits state) (hkept : TokenManager.Kept 0 state actions next)
    (hless : next.implementationType = .nativeInterchainToken → next.Minterless) :
    reserve.Admits next where
  service := hkept.service.trans h.service
  mints := by rw [hkept.implementationType, h.mints]
  token := by rw [hkept.token (by rw [h.token]; rfl), h.token]
  minterless := hless

/-- A call leaves the manager as it has to be. -/
theorem Admits.perform {call : TokenManager.Call} {reply : TokenManager.Reply}
    (h : reserve.Admits state) (hcaller : ctx.caller.isZero = false)
    (hok : TokenManager.perform ctx call state = .ok ⟨reply, next, actions⟩) :
    reserve.Admits next := by
  have hkept := TokenManager.kept_perform ctx call _ _ _ _ hok
  refine h.kept hkept fun hnative => ?_
  rw [hkept.implementationType] at hnative
  apply (TokenManager.perform_changes hok).minterless (h.minterless hnative) hcaller
  rintro minter name symbol decimals initialCaller rfl
  have hmissing := (TokenManager.deployInterchainToken_eq_ok hok).missing
  rw [h.token] at hmissing
  simp at hmissing

theorem Admits.callback {user : Address} {token : Option TokenIdentifier}
    (h : reserve.Admits state)
    (hok : TokenManager.deployTokenCallback ctx user token state = .ok ⟨(), next, actions⟩) :
    reserve.Admits next := by
  have hkept := TokenManager.kept_deployTokenCallback ctx user token _ _ _ _ hok
  refine h.kept hkept fun hnative => ?_
  rw [hkept.implementationType] at hnative
  obtain ⟨_, rfl⟩ := TokenManager.deployTokenCallback_changes hok
  obtain ⟨hheld, hoffered⟩ := h.minterless hnative
  exact ⟨hheld, hoffered⟩

/-- A manager that was called has not made the service one, nor changed another. -/
theorem Stands.setManager {address : Address} {ledger : Ledger Address Asset}
    {pending : List Pending} (h : reserve.Stands world)
    (hstate : world.managers address = some state)
    (hnext : reserve.Admits state → reserve.Admits next) :
    reserve.Stands { world.setManager address next with ledger, pending } := by
  refine ⟨h.itsAddress, h.registered, ?_, ?_, h.distinct, h.present⟩
  · by_cases haddress : reserve.manager = address
    · obtain ⟨other, hother, hadmits⟩ := h.managed
      rw [haddress, hstate] at hother
      obtain rfl := Option.some.inj hother
      refine ⟨next, ?_, hnext hadmits⟩
      rw [haddress]
      exact Function.update_self _ _ _
    · obtain ⟨other, hother, hadmits⟩ := h.managed
      exact ⟨other, (Function.update_of_ne haddress _ _).trans hother, hadmits⟩
  · have hne : reserve.service ≠ address := by
      rintro rfl
      rw [h.apart] at hstate
      simp at hstate
    exact (Function.update_of_ne hne _ _).trans h.apart

end Managers

end Reserve

end AxelarCgp.Its
