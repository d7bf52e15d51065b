import AxelarCgp.TokenManager.Contract

/-!
# Effects of the token manager

What a completed call of each endpoint that moves tokens read, changed and asked
the platform to do.
-/

namespace AxelarCgp

/-- The managers whose tokens come into being when they are given. -/
def TokenManagerType.mints : TokenManagerType → Bool
  | nativeInterchainToken | mintBurn | mintBurnFrom => true
  | lockUnlock | lockUnlockFee => false

/-- Whether a manager of this type may start with such a token. -/
def TokenManagerType.admits : TokenManagerType → Option EgldOrEsdtTokenIdentifier → Prop
  | nativeInterchainToken, token => token = none
  | lockUnlock, token | lockUnlockFee, token => token ≠ none
  | mintBurn, token | mintBurnFrom, token => token.any EgldOrEsdtTokenIdentifier.isEsdt

namespace TokenManager

open Transaction

variable {ctx : CallContext} {state next : State} {actions : List Action}

/-- The states that differ in their flows only. -/
def State.SameBooks (before after : State) : Prop :=
  ∃ flowOutAmount flowInAmount, after = { before with flowOutAmount, flowInAmount }

theorem withRoles_addRole_eq_ok {address : Address} {newRoles : Roles} :
    withRoles (AccountRoles.addRole address newRoles) state = .ok ⟨(), next, actions⟩ ↔
      { state with roles := state.roles.grant address newRoles } = next ∧
      [.roles (.rolesAdded address newRoles)] = actions := by
  simp only [withRoles, within_eq_ok, AccountRoles.addRole_eq_ok]
  constructor
  · rintro ⟨_, _, ⟨rfl, rfl⟩, rfl, rfl⟩
    exact ⟨rfl, rfl⟩
  · rintro ⟨rfl, rfl⟩
    exact ⟨_, _, ⟨rfl, rfl⟩, rfl, rfl⟩

/-- A new manager has the operator and the service as its operators and flow
limiters, and the token that its type admits. -/
structure Initialised (service : Address) (managerType : TokenManagerType) (tokenId : Hash)
    (params : DeployTokenManagerParams) (state : State) : Prop where
  interchainTokenService : state.interchainTokenService = service
  implementationType : state.implementationType = managerType
  interchainTokenId : state.interchainTokenId = tokenId
  tokenIdentifier : state.tokenIdentifier = params.tokenIdentifier
  admits : managerType.admits params.tokenIdentifier
  minterAddress : state.minterAddress = none
  roles : state.roles = (RoleTable.empty.grant (params.operator.getD .zero)
    (Roles.union .FLOW_LIMITER .OPERATOR)).grant service (Roles.union .FLOW_LIMITER .OPERATOR)

/-- The storage that `init` leaves. -/
def State.initial (service : Address) (managerType : TokenManagerType) (tokenId : Hash)
    (params : DeployTokenManagerParams) : State :=
  { State.blank with
    interchainTokenService := service
    implementationType := managerType
    interchainTokenId := tokenId
    roles := (RoleTable.empty.grant (params.operator.getD .zero)
      (Roles.union .FLOW_LIMITER .OPERATOR)).grant service (Roles.union .FLOW_LIMITER .OPERATOR)
    tokenIdentifier := params.tokenIdentifier }

theorem init_eq_ok {service : Address} {managerType : TokenManagerType} {tokenId : Hash}
    {params : DeployTokenManagerParams}
    (h : init service managerType tokenId params .blank = .ok ⟨(), state, actions⟩) :
    service.isZero = false ∧ managerType.admits params.tokenIdentifier ∧
      state = .initial service managerType tokenId params := by
  cases managerType
  all_goals
    simp only [init, Transaction.bind_eq_ok, Outcome.exists_unit, lift_eq_ok,
      Outcome.require_eq_ok, modifies_eq_ok, withRoles_addRole_eq_ok] at h
    obtain ⟨_, _, _, ⟨hservice, rfl, _⟩, ⟨_, _, _, ⟨rfl, _⟩, ⟨_, _, _, ⟨rfl, _⟩, ⟨_, _, _,
      ⟨rfl, _⟩, ⟨_, _, _, ⟨hadmits, rfl, _⟩, ⟨rfl, _⟩, _⟩, _⟩, _⟩, _⟩, _⟩ := h
    exact ⟨by simpa using hservice, hadmits, rfl⟩

theorem init_initialised {service : Address} {managerType : TokenManagerType}
    {tokenId : Hash} {params : DeployTokenManagerParams} {initial : Completed State Action Unit}
    (h : init service managerType tokenId params .blank = .ok initial) :
    Initialised service managerType tokenId params initial.state := by
  obtain ⟨_, hadmits, hstate⟩ := init_eq_ok h
  rw [hstate]
  exact ⟨rfl, rfl, rfl, rfl, hadmits, rfl, rfl⟩

/-- A new manager has an operator, if need be the zero address. -/
theorem Initialised.operator {service : Address} {managerType : TokenManagerType}
    {tokenId : Hash} {params : DeployTokenManagerParams} {state : State}
    (h : Initialised service managerType tokenId params state) :
    state.roles.hasRole (params.operator.getD .zero) .OPERATOR := by
  rw [h.roles, RoleTable.hasRole]
  by_cases hservice : params.operator.getD .zero = service
  · simp [hservice, Roles.union, Roles.intersects, Roles.OPERATOR]
  · simp [RoleTable.grant_other _ _ hservice, Roles.union, Roles.intersects, Roles.OPERATOR]

/-! ## Flows -/

/-- Tokens flow in when they are given, and out when they are taken. -/
inductive Direction where
  | inward
  | outward
  deriving DecidableEq

def Direction.opposite : Direction → Direction
  | inward => outward
  | outward => inward

@[simp]
theorem Direction.opposite_opposite (direction : Direction) :
    direction.opposite.opposite = direction := by
  cases direction <;> rfl

theorem Direction.eq_opposite_of_ne {direction other : Direction} (hother : other ≠ direction) :
    other = direction.opposite := by
  cases direction <;> cases other <;> simp_all [opposite]

theorem Direction.opposite_ne (direction : Direction) : direction.opposite ≠ direction := by
  cases direction <;> simp [opposite]

def State.flowAmount (state : State) : Direction → UInt64 → ℕ
  | .inward => state.flowInAmount
  | .outward => state.flowOutAmount

def State.withFlow (state : State) (direction : Direction) (epoch : UInt64) (flow : ℕ) : State :=
  match direction with
  | .inward => { state with flowInAmount := Function.update state.flowInAmount epoch flow }
  | .outward => { state with flowOutAmount := Function.update state.flowOutAmount epoch flow }

@[simp]
theorem State.flowLimit_withFlow (state : State) (direction : Direction) (epoch : UInt64)
    (flow : ℕ) : (state.withFlow direction epoch flow).flowLimit = state.flowLimit := by
  cases direction <;> rfl

/-- Only the flow of one direction in one epoch is written. -/
theorem State.flowAmount_withFlow (state : State) (direction other : Direction)
    (epoch otherEpoch : UInt64) (flow : ℕ) :
    (state.withFlow direction epoch flow).flowAmount other otherEpoch =
      if direction = other ∧ epoch = otherEpoch then flow
      else state.flowAmount other otherEpoch := by
  cases direction <;> cases other <;>
    simp [withFlow, flowAmount, Function.update_apply, eq_comm]

/-- What an amount that flows does to a manager: a limit that is set has to leave room
for it, and then it is counted. -/
inductive Flows (direction : Direction) (epoch : UInt64) (amount : ℕ) (state : State) :
    State → Prop where
  | unlimited : state.flowLimit = none → Flows direction epoch amount state state
  | limited {limit : ℕ} : state.flowLimit = some limit →
      state.flowAmount direction epoch + amount ≤
        state.flowAmount direction.opposite epoch + limit →
      amount ≤ limit →
      Flows direction epoch amount state
        (state.withFlow direction epoch (state.flowAmount direction epoch + amount))

theorem State.sameBooks_withFlow (state : State) (direction : Direction) (epoch : UInt64)
    (flow : ℕ) : state.SameBooks (state.withFlow direction epoch flow) := by
  cases direction with
  | inward => exact ⟨_, _, rfl⟩
  | outward => exact ⟨_, _, rfl⟩

theorem Flows.sameBooks {direction : Direction} {epoch : UInt64} {amount : ℕ}
    (h : Flows direction epoch amount state next) : state.SameBooks next := by
  cases h with
  | unlimited => exact ⟨_, _, rfl⟩
  | limited => exact state.sameBooks_withFlow _ _ _

theorem addFlow_eq_ok {limit toAdd toCompare amount flow : ℕ} :
    addFlow limit toAdd toCompare amount = .ok flow ↔
      (toAdd + amount ≤ toCompare + limit ∧ amount ≤ limit) ∧ toAdd + amount = flow := by
  simp [addFlow]

/-- What adding a flow comes to, in either direction. -/
def addFlowRaw (ctx : CallContext) (direction : Direction) (amount : ℕ) : Tx Unit := do
  match ← reads State.flowLimit with
  | none => return ()
  | some flowLimit => do
      let epoch := ctx.blockTimestamp / EPOCH_TIME
      let flowToAdd ← reads fun state => state.flowAmount direction epoch
      let flowToCompare ← reads fun state => state.flowAmount direction.opposite epoch
      let flow ← addFlow flowLimit flowToAdd flowToCompare amount
      modifies fun state => state.withFlow direction epoch flow

theorem addFlowRaw_eq_ok {direction : Direction} {amount : ℕ}
    (h : addFlowRaw ctx direction amount state = .ok ⟨(), next, actions⟩) :
    Flows direction (ctx.blockTimestamp / EPOCH_TIME) amount state next ∧ actions = [] := by
  rw [addFlowRaw, reads_bind] at h
  cases hlimit : state.flowLimit with
  | none =>
    simp only [hlimit] at h
    obtain ⟨_, rfl, rfl⟩ := Transaction.pure_eq_ok.mp h
    exact ⟨.unlimited hlimit, rfl⟩
  | some limit =>
    simp only [hlimit, reads_bind] at h
    obtain ⟨flow, hflow, hadded⟩ := lift_bind_eq_ok.mp h
    obtain ⟨⟨hroom, hsmall⟩, rfl⟩ := addFlow_eq_ok.mp hflow
    obtain ⟨rfl, rfl⟩ := modifies_eq_ok.mp hadded
    exact ⟨.limited hlimit hroom hsmall, rfl⟩

theorem addFlowInRaw_eq {amount : ℕ} : addFlowInRaw ctx amount = addFlowRaw ctx .inward amount :=
  rfl

theorem addFlowOutRaw_eq {amount : ℕ} :
    addFlowOutRaw ctx amount = addFlowRaw ctx .outward amount :=
  rfl

/-! ## Giving and taking -/

theorem unwrapEsdt_eq_ok {token : EgldOrEsdtTokenIdentifier} {identifier : TokenIdentifier} :
    unwrapEsdt token = .ok identifier ↔ token = .esdt identifier := by
  cases token <;> simp [unwrapEsdt]

theorem giveTokenMintBurn_eq_ok {token : EgldOrEsdtTokenIdentifier} {receiver : Address}
    {amount : ℕ} :
    giveTokenMintBurn token receiver amount state = .ok ⟨(), next, actions⟩ ↔
      ∃ identifier, token = .esdt identifier ∧ next = state ∧
        actions = [.localMint identifier amount, .send receiver token amount] := by
  simp only [giveTokenMintBurn, Transaction.bind_eq_ok, lift_eq_ok, performs_eq_ok,
    unwrapEsdt_eq_ok]
  constructor
  · rintro ⟨identifier, _, _, _, ⟨rfl, rfl, rfl⟩, ⟨_, _, _, _, ⟨rfl, rfl⟩, ⟨rfl, rfl⟩, rfl⟩, rfl⟩
    exact ⟨identifier, rfl, rfl, rfl⟩
  · rintro ⟨identifier, rfl, rfl, rfl⟩
    exact ⟨identifier, _, _, _, ⟨rfl, rfl, rfl⟩, ⟨(), _, _, _, ⟨rfl, rfl⟩, ⟨rfl, rfl⟩, rfl⟩, rfl⟩

theorem takeTokenMintBurn_eq_ok {token : EgldOrEsdtTokenIdentifier} {amount : ℕ} :
    takeTokenMintBurn token amount state = .ok ⟨(), next, actions⟩ ↔
      ∃ identifier, token = .esdt identifier ∧ next = state ∧
        actions = [.localBurn identifier amount] := by
  simp only [takeTokenMintBurn, Transaction.bind_eq_ok, lift_eq_ok, performs_eq_ok,
    unwrapEsdt_eq_ok]
  constructor
  · rintro ⟨identifier, _, _, _, ⟨rfl, rfl, rfl⟩, ⟨rfl, rfl⟩, rfl⟩
    exact ⟨identifier, rfl, rfl, rfl⟩
  · rintro ⟨identifier, rfl, rfl, rfl⟩
    exact ⟨identifier, _, _, _, ⟨rfl, rfl, rfl⟩, ⟨rfl, rfl⟩, rfl⟩

/-- What a manager of some type does when it gives tokens. -/
inductive Gives (token : EgldOrEsdtTokenIdentifier) (receiver : Address) (amount : ℕ) :
    TokenManagerType → List Action → Prop
  | unlock {managerType : TokenManagerType} : managerType.mints = false →
      Gives token receiver amount managerType [.send receiver token amount]
  | mint {managerType : TokenManagerType} {identifier : TokenIdentifier} :
      managerType.mints = true → token = .esdt identifier →
      Gives token receiver amount managerType
        [.localMint identifier amount, .send receiver token amount]

/-- What a manager of some type does when it takes tokens. -/
inductive Takes (token : EgldOrEsdtTokenIdentifier) (amount : ℕ) :
    TokenManagerType → List Action → Prop
  | lock {managerType : TokenManagerType} : managerType.mints = false →
      Takes token amount managerType []
  | burn {managerType : TokenManagerType} {identifier : TokenIdentifier} :
      managerType.mints = true → token = .esdt identifier →
      Takes token amount managerType [.localBurn identifier amount]

theorem onlyService_bind_eq_ok {A : Type} {f : Unit → Tx A}
    {done : Completed State Action A} :
    (onlyService ctx >>= f) state = .ok done ↔
      ctx.caller = state.interchainTokenService ∧ f () state = .ok done := by
  have hservice : onlyService ctx state =
      (liftM (require (ctx.caller = state.interchainTokenService) "Not service") : Tx Unit)
        state := reads_bind
  by_cases hcaller : ctx.caller = state.interchainTokenService
  · rw [bind_of_ok (hservice.trans (lift_require_ok hcaller))]
    simp [hcaller]
  · rw [bind_of_error (hservice.trans (lift_require_error hcaller))]
    simp [hcaller]

/-- Tokens are given for the service only, and exactly the amount it asked for. -/
theorem giveToken_eq_ok {receiver : Address} {amount : ℕ} {reply : Reply}
    (h : perform ctx (.giveToken receiver amount) state = .ok ⟨reply, next, actions⟩) :
    ctx.caller = state.interchainTokenService ∧
    reply = .given state.tokenIdentifierGet amount ∧
    Flows .inward (ctx.blockTimestamp / EPOCH_TIME) amount state next ∧
    Gives state.tokenIdentifierGet receiver amount state.implementationType actions := by
  obtain ⟨_, hperform⟩ := require_bind_eq_ok.mp h
  obtain ⟨⟨token, given⟩, _, _, _, hgive, hreply, rfl⟩ := Transaction.bind_eq_ok.mp hperform
  obtain ⟨rfl, rfl, rfl⟩ := Transaction.pure_eq_ok.mp hreply
  rw [giveToken, onlyService_bind_eq_ok, reads_bind] at hgive
  obtain ⟨hservice, hflowing⟩ := hgive
  obtain ⟨_, middle, _, _, hflow, hsent, rfl⟩ := Transaction.bind_eq_ok.mp hflowing
  rw [addFlowInRaw_eq] at hflow
  obtain ⟨hflows, rfl⟩ := addFlowRaw_eq_ok hflow
  have htype : middle.implementationType = state.implementationType := by
    obtain ⟨_, _, rfl⟩ := hflows.sameBooks
    rfl
  rw [reads_bind, htype] at hsent
  refine ⟨hservice, ?_⟩
  cases hmanager : state.implementationType <;>
    simp only [hmanager, Transaction.bind_eq_ok, Outcome.exists_unit, Transaction.pure_eq_ok,
      giveTokenMintBurn_eq_ok, giveTokenLockUnlock, performs_eq_ok] at hsent
  case lockUnlock | lockUnlockFee =>
    obtain ⟨_, _, _, ⟨rfl, rfl⟩, ⟨hvalue, rfl, rfl⟩, rfl⟩ := hsent
    obtain ⟨rfl, rfl⟩ := Prod.mk.inj hvalue
    exact ⟨rfl, hflows, .unlock rfl⟩
  case nativeInterchainToken | mintBurnFrom | mintBurn =>
    obtain ⟨_, _, _, ⟨identifier, htoken, rfl, rfl⟩, ⟨hvalue, rfl, rfl⟩, rfl⟩ := hsent
    obtain ⟨rfl, rfl⟩ := Prod.mk.inj hvalue
    exact ⟨rfl, hflows, .mint rfl htoken⟩

theorem requireCorrectToken_eq_ok {token : EgldOrEsdtTokenIdentifier} {amount : ℕ} :
    requireCorrectToken ctx state = .ok ⟨(token, amount), next, actions⟩ ↔
      egldOrSingleFungibleEsdt ctx.callValue = .ok (token, amount) ∧
      token = state.tokenIdentifierGet ∧ state = next ∧ [] = actions := by
  simp only [requireCorrectToken, Transaction.bind_eq_ok, Outcome.exists_unit, lift_eq_ok,
    reads_eq_ok, Outcome.require_eq_ok, Transaction.pure_eq_ok, Prod.mk.injEq]
  constructor
  · rintro ⟨⟨_, _⟩, _, _, _, ⟨hpayment, rfl, rfl⟩, ⟨_, _, _, _, ⟨rfl, rfl, rfl⟩, ⟨_, _, _,
      ⟨htoken, rfl, rfl⟩, ⟨⟨rfl, rfl⟩, rfl, rfl⟩, rfl⟩, rfl⟩, rfl⟩
    exact ⟨hpayment, htoken, rfl, rfl⟩
  · rintro ⟨hpayment, htoken, rfl, rfl⟩
    exact ⟨(token, amount), _, _, _, ⟨hpayment, rfl, rfl⟩, ⟨_, _, _, _, ⟨rfl, rfl, rfl⟩, ⟨_, _, _,
      ⟨htoken, rfl, rfl⟩, ⟨⟨rfl, rfl⟩, rfl, rfl⟩, rfl⟩, rfl⟩, rfl⟩

/-- Tokens are taken from the service only, and exactly the amount it brought. -/
theorem takeToken_eq_ok {reply : Reply}
    (h : perform ctx .takeToken state = .ok ⟨reply, next, actions⟩) :
    ctx.caller = state.interchainTokenService ∧
    ∃ amount, egldOrSingleFungibleEsdt ctx.callValue = .ok (state.tokenIdentifierGet, amount) ∧
      reply = .taken amount ∧
      Flows .outward (ctx.blockTimestamp / EPOCH_TIME) amount state next ∧
      Takes state.tokenIdentifierGet amount state.implementationType actions := by
  obtain ⟨taken, _, _, _, htake, hreply, rfl⟩ := Transaction.bind_eq_ok.mp h
  obtain ⟨rfl, rfl, rfl⟩ := Transaction.pure_eq_ok.mp hreply
  rw [takeToken, onlyService_bind_eq_ok] at htake
  obtain ⟨hservice, hbrought⟩ := htake
  obtain ⟨⟨token, amount⟩, _, _, _, hcorrect, hflowing, rfl⟩ :=
    Transaction.bind_eq_ok.mp hbrought
  obtain ⟨hpayment, rfl, rfl, rfl⟩ := requireCorrectToken_eq_ok.mp hcorrect
  obtain ⟨_, middle, _, _, hflow, hburned, rfl⟩ := Transaction.bind_eq_ok.mp hflowing
  rw [addFlowOutRaw_eq] at hflow
  obtain ⟨hflows, rfl⟩ := addFlowRaw_eq_ok hflow
  have htype : middle.implementationType = state.implementationType := by
    obtain ⟨_, _, rfl⟩ := hflows.sameBooks
    rfl
  rw [reads_bind, htype] at hburned
  refine ⟨hservice, ?_⟩
  cases hmanager : state.implementationType <;>
    simp only [hmanager, Transaction.bind_eq_ok, Outcome.exists_unit, Transaction.pure_eq_ok,
      takeTokenMintBurn_eq_ok] at hburned
  case lockUnlock | lockUnlockFee =>
    obtain ⟨rfl, rfl, rfl⟩ := hburned
    exact ⟨amount, hpayment, rfl, hflows, .lock rfl⟩
  case nativeInterchainToken | mintBurnFrom | mintBurn =>
    obtain ⟨_, _, _, ⟨identifier, htoken, rfl, rfl⟩, ⟨rfl, rfl, rfl⟩, rfl⟩ := hburned
    exact ⟨amount, hpayment, rfl, hflows, .burn rfl htoken⟩

/-! ## Deploying the token -/

theorem egldValue_eq_ok {ctx : CallContext} {value : ℕ} :
    egldValue ctx = .ok value ↔ ctx.callValue = .egld value := by
  unfold egldValue
  cases ctx.callValue <;> simp

theorem addMinter_eq_ok {minter : Address} :
    addMinter minter state = .ok ⟨(), next, actions⟩ ↔
      next = { state with
        minterAddress := some minter
        roles := state.roles.grant minter .MINTER } ∧
      actions = [.roles (.rolesAdded minter .MINTER)] := by
  simp only [addMinter, setMinterAddress, Transaction.bind_eq_ok, modifies_eq_ok,
    withRoles_addRole_eq_ok]
  constructor
  · rintro ⟨_, _, _, _, ⟨rfl, rfl⟩, ⟨rfl, rfl⟩, rfl⟩
    exact ⟨rfl, rfl⟩
  · rintro ⟨rfl, rfl⟩
    exact ⟨(), _, _, _, ⟨rfl, rfl⟩, ⟨rfl, rfl⟩, rfl⟩

/-- The minter of a manager once its token is deployed: the first deployment adds it. -/
inductive AddsMinter (minter : Address) (state : State) : State → List Action → Prop
  | first : state.minterAddress = none →
      AddsMinter minter state { state with
        minterAddress := some minter
        roles := state.roles.grant minter .MINTER } [.roles (.rolesAdded minter .MINTER)]
  | again : state.minterAddress.isSome → AddsMinter minter state state []

/-- A manager deploys its token once it is paid for, by the service or a minter,
and as long as it has none. -/
structure DeploysToken (ctx : CallContext) (minter : Option Address) (name symbol : ManagedBuffer)
    (decimals : UInt8) (initialCaller : Option Address) (state next : State)
    (actions : List Action) : Prop where
  native : state.implementationType = .nativeInterchainToken
  missing : state.tokenIdentifier = none
  allowed : ctx.caller = state.interchainTokenService ∨ state.isMinter ctx.caller
  paid : ctx.callValue = .egld DEFAULT_ESDT_ISSUE_COST
  issued : ∃ added, AddsMinter (minter.getD .zero) state next added ∧
    actions = added ++ [.issue DEFAULT_ESDT_ISSUE_COST (toNormalizedTokenName name.1)
      (toNormalizedTokenTicker symbol.1) decimals (initialCaller.getD ctx.caller)]

theorem requireNative_eq_ok :
    requireNative state = .ok ⟨(), next, actions⟩ ↔
      state.implementationType = .nativeInterchainToken ∧ state = next ∧ [] = actions := by
  simp only [requireNative, reads_bind, lift_eq_ok, Outcome.require_eq_ok]

/-- The token is issued once its cost is paid. -/
theorem issue_eq_ok {action : Action} :
    ((liftM (egldValue ctx) >>= fun value => do
      require (value = DEFAULT_ESDT_ISSUE_COST) "Invalid esdt issue cost"
      performs action : Tx Unit)) state = .ok ⟨(), next, actions⟩ ↔
      ctx.callValue = .egld DEFAULT_ESDT_ISSUE_COST ∧ state = next ∧ [action] = actions := by
  rw [lift_bind_eq_ok]
  simp only [require_bind_eq_ok, egldValue_eq_ok, performs_eq_ok]
  constructor
  · rintro ⟨_, hvalue, rfl, hissued⟩
    exact ⟨hvalue, hissued⟩
  · rintro ⟨hvalue, hissued⟩
    exact ⟨_, hvalue, rfl, hissued⟩

theorem deployInterchainToken_eq_ok {minter : Option Address} {name symbol : ManagedBuffer}
    {decimals : UInt8} {initialCaller : Option Address} {reply : Reply}
    (h : perform ctx (.deployInterchainToken minter name symbol decimals initialCaller) state =
      .ok ⟨reply, next, actions⟩) :
    DeploysToken ctx minter name symbol decimals initialCaller state next actions := by
  obtain ⟨_, _, hperform⟩ := lift_bind_eq_ok.mp h
  obtain ⟨_, _, _, _, hdeploy, hreply, rfl⟩ := Transaction.bind_eq_ok.mp hperform
  obtain ⟨_, rfl, rfl⟩ := Transaction.pure_eq_ok.mp hreply
  obtain ⟨_, _, _, _, hrequire, hrest, htrace⟩ := Transaction.bind_eq_ok.mp hdeploy
  obtain ⟨hnative, rfl, rfl⟩ := requireNative_eq_ok.mp hrequire
  simp only [reads_bind, require_bind_eq_ok] at hrest
  obtain ⟨hmissing, hallowed, _, _, hissue⟩ := hrest
  cases hminter : state.minterAddress with
  | none =>
    simp only [hminter] at hissue
    obtain ⟨_, _, _, _, hadded, hissued, rfl⟩ := Transaction.bind_eq_ok.mp hissue
    obtain ⟨rfl, rfl⟩ := addMinter_eq_ok.mp hadded
    obtain ⟨hpaid, rfl, rfl⟩ := issue_eq_ok.mp hissued
    exact ⟨hnative, hmissing, hallowed, hpaid, _, .first hminter, by simp [← htrace]⟩
  | some minterAddress =>
    simp only [hminter] at hissue
    obtain ⟨hpaid, rfl, rfl⟩ := issue_eq_ok.mp hissue
    exact ⟨hnative, hmissing, hallowed, hpaid, _, .again (by rw [hminter]; rfl),
      by simp [← htrace]⟩

end TokenManager

end AxelarCgp
