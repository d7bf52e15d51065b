import AxelarCgp.Its.Registry

/-!
# Local deployments

One endpoint deploys a token in three transactions, and finds out by itself which
of them it is in.  The status of the token keeps it from minting twice.
-/

namespace AxelarCgp.Its

open Transaction

/-! ## One call -/

section Call

variable {crypto : Crypto} {env : Environment} {ctx : CallContext} {world last : World}
variable {trace : List Action}

/-- The token that an account deploys with a salt. -/
def localTokenId (crypto : Crypto) (its : State) (deployer : Address) (salt : Hash) : TokenId :=
  interchainTokenIdRaw crypto
    (deploySaltOf crypto PREFIX_INTERCHAIN_TOKEN_SALT its.chainNameHash (deployer.1 ++ salt.1))

/-- The world with another status of a token. -/
def World.setStatus (tokenId : TokenId) (status : InterchainTokenStatus) (world : World) : World :=
  { world with its := { world.its with
    interchainTokenStatus := Function.update world.its.interchainTokenStatus tokenId status } }

@[simp]
theorem World.setStatus_same (world : World) (tokenId : TokenId)
    (status : InterchainTokenStatus) :
    (world.setStatus tokenId status).its.interchainTokenStatus tokenId = status :=
  Function.update_self _ _ _

theorem World.setStatus_other (world : World) {tokenId other : TokenId} (hother : other ≠ tokenId)
    (status : InterchainTokenStatus) :
    (world.setStatus tokenId status).its.interchainTokenStatus other =
      world.its.interchainTokenStatus other :=
  Function.update_of_ne hother _ _

theorem setInterchainTokenStatus_eq_ok {tokenId : TokenId} {status : InterchainTokenStatus} :
    setInterchainTokenStatus tokenId status world = .ok ⟨(), last, trace⟩ ↔
      last = world.setStatus tokenId status ∧ trace = [] := by
  simp only [setInterchainTokenStatus, modifiesIts, modifies_eq_ok, World.setStatus]
  exact ⟨fun h => ⟨h.1.symm, h.2.symm⟩, fun h => ⟨h.1.symm, h.2.symm⟩⟩

/-- The minter that a token starts with: the service itself, as long as there is a
supply to mint. -/
inductive StartsWith (service : Address) (minterOpt : Option Address) :
    ℕ → InterchainTokenStatus → InterchainTokenStatus → ManagedBuffer → Prop
  | supply {initialSupply : ℕ} {status : InterchainTokenStatus} :
      0 < initialSupply → status = .none ∨ status = .needsMint →
      StartsWith service minterOpt initialSupply status .needsMint (.ofFixed service)
  | noSupply {status : InterchainTokenStatus} {minter : Address} :
      minterOpt = some minter → minter ≠ service → status = .none ∨ status = .noMint →
      StartsWith service minterOpt 0 status .noMint (.ofFixed minter)

theorem initialMinter_eq_ok {tokenId : TokenId} {initialSupply : ℕ} {minterOpt : Option Address}
    {minterBytes : ManagedBuffer}
    (h : initialMinter ctx tokenId initialSupply minterOpt world =
      .ok ⟨minterBytes, last, trace⟩) :
    trace = [] ∧ ∃ status, last = world.setStatus tokenId status ∧
      StartsWith ctx.scAddress minterOpt initialSupply (world.its.interchainTokenStatus tokenId)
        status minterBytes := by
  simp only [initialMinter, Transaction.bind_eq_ok, reads_eq_ok] at h
  obtain ⟨_, _, _, _, ⟨rfl, rfl, rfl⟩, h, rfl⟩ := h
  split at h
  · rename_i hsupply
    simp only [Transaction.bind_eq_ok, Outcome.exists_unit, lift_eq_ok, Outcome.require_eq_ok,
      setInterchainTokenStatus_eq_ok, Transaction.pure_eq_ok] at h
    obtain ⟨_, _, _, ⟨hstatus, rfl, rfl⟩, ⟨_, _, _, ⟨rfl, rfl⟩, ⟨rfl, rfl, rfl⟩, rfl⟩, rfl⟩ := h
    exact ⟨rfl, _, rfl, .supply hsupply hstatus⟩
  · rename_i hsupply
    obtain rfl : initialSupply = 0 := by omega
    simp only [Transaction.bind_eq_ok, Outcome.exists_unit, lift_eq_ok, Outcome.require_eq_ok,
      Outcome.orFail_eq_ok, setInterchainTokenStatus_eq_ok, Transaction.pure_eq_ok] at h
    obtain ⟨minter, _, _, _, ⟨hminter, rfl, rfl⟩, ⟨_, _, _, ⟨hother, rfl, rfl⟩, ⟨_, _, _,
      ⟨hstatus, rfl, rfl⟩, ⟨_, _, _, ⟨rfl, rfl⟩, ⟨rfl, rfl, rfl⟩, rfl⟩, rfl⟩, rfl⟩, rfl⟩ := h
    exact ⟨rfl, _, rfl, .noSupply hminter hother hstatus⟩

theorem tokenManagerGetOptTokenIdentifier_eq_ok {address : Address}
    {token : Option EgldOrEsdtTokenIdentifier} :
    tokenManagerGetOptTokenIdentifier address world = .ok ⟨token, last, trace⟩ ↔
      ∃ state, world.managers address = some state ∧ state.tokenIdentifier = token ∧
        world = last ∧ [] = trace := by
  simp only [tokenManagerGetOptTokenIdentifier, Transaction.bind_eq_ok, managerAt_eq_ok,
    Transaction.pure_eq_ok]
  constructor
  · rintro ⟨state, _, _, _, ⟨hmanager, rfl, rfl⟩, ⟨rfl, rfl, rfl⟩, rfl⟩
    exact ⟨state, hmanager, rfl, rfl, rfl⟩
  · rintro ⟨state, hmanager, rfl, rfl, rfl⟩
    exact ⟨state, _, _, _, ⟨hmanager, rfl, rfl⟩, ⟨rfl, rfl, rfl⟩, rfl⟩

/-- A token that has no identifier yet, nor perhaps a manager. -/
def World.Unissued (tokenId : TokenId) (world : World) : Prop :=
  ∀ manager state, world.its.tokenManagerAddress tokenId = some manager →
    world.managers manager = some state → state.tokenIdentifier = none

/-- The step that a call of the endpoint turns out to be. -/
inductive LocalStep (crypto : Crypto) (env : Environment) (ctx : CallContext) (salt : Hash)
    (name symbol : ManagedBuffer) (decimals : UInt8) (initialSupply : ℕ)
    (minterOpt : Option Address) (minterBytes : ManagedBuffer) (world middle : World)
    (trace : List Action) (last : World) : Prop
  /-- The token manager is deployed, or the token is issued. -/
  | deploys {tokenId : TokenId} {egldValue : ℕ} :
      world.Unissued (localTokenId crypto world.its ctx.caller salt) →
      egldValue ≤ ctx.callValue.total .egld →
      deployInterchainTokenRaw crypto env ctx (deploySaltOf crypto PREFIX_INTERCHAIN_TOKEN_SALT
        world.its.chainNameHash (ctx.caller.1 ++ salt.1)) .new name symbol decimals minterBytes
        egldValue ctx.caller middle = .ok ⟨tokenId, last, trace⟩ →
      LocalStep crypto env ctx salt name symbol decimals initialSupply minterOpt minterBytes
        world middle trace last
  /-- The initial supply is minted. -/
  | mints {manager : Address} {state : TokenManager.State} :
      world.its.tokenManagerAddress (localTokenId crypto world.its ctx.caller salt) =
        some manager →
      world.managers manager = some state → state.tokenIdentifier.isSome → 0 < initialSupply →
      mintInitialSupply env ctx (localTokenId crypto world.its ctx.caller salt) manager ctx.caller
        initialSupply minterOpt middle = .ok ⟨(), last, trace⟩ →
      LocalStep crypto env ctx salt name symbol decimals initialSupply minterOpt minterBytes
        world middle trace last
  /-- There is nothing left to do. -/
  | rests : initialSupply = 0 → last = middle → trace = [] →
      LocalStep crypto env ctx salt name symbol decimals initialSupply minterOpt minterBytes
        world middle trace last

theorem deployInterchainToken_eq_ok {salt : Hash} {name symbol : ManagedBuffer}
    {decimals : UInt8} {initialSupply : ℕ} {minterOpt : Option Address} {tokenId : TokenId}
    (h : deployInterchainToken crypto env ctx salt name symbol decimals initialSupply minterOpt
      world = .ok ⟨tokenId, last, trace⟩) :
    ∃ status minterBytes,
      StartsWith ctx.scAddress minterOpt initialSupply (world.its.interchainTokenStatus
        (localTokenId crypto world.its ctx.caller salt)) status minterBytes ∧
      LocalStep crypto env ctx salt name symbol decimals initialSupply minterOpt minterBytes world
        (world.setStatus (localTokenId crypto world.its ctx.caller salt) status) trace last := by
  simp only [deployInterchainToken, interchainTokenDeploySalt, Transaction.bind_eq_ok,
    Outcome.exists_unit, lift_eq_ok, reads_eq_ok] at h
  obtain ⟨_, _, _, hpaused, ⟨_, _, _, ⟨_, rfl, rfl⟩, ⟨_, _, _, ⟨_, rfl, rfl⟩, ⟨_, _, _, _,
    ⟨rfl, rfl, rfl⟩, ⟨minterBytes, _, _, _, hminter, ⟨value, _, _, _, ⟨hvalue, rfl, rfl⟩,
      ⟨current, _, _, _, ⟨hcurrent, rfl, rfl⟩, h, rfl⟩, rfl⟩, rfl⟩, rfl⟩, rfl⟩, rfl⟩, rfl⟩ := h
  obtain ⟨rfl, rfl⟩ := inspects_requireNotPaused _ _ _ _ hpaused
  obtain ⟨rfl, status, rfl, hstarts⟩ := initialMinter_eq_ok hminter
  refine ⟨status, minterBytes, hstarts, ?_⟩
  simp only [List.nil_append]
  cases current with
  | none =>
    simp only [Transaction.bind_eq_ok, Outcome.exists_unit, lift_eq_ok,
      Transaction.pure_eq_ok] at h
    obtain ⟨_, _, _, ⟨_, rfl, rfl⟩, ⟨_, _, _, _, hraw, ⟨rfl, rfl, rfl⟩, rfl⟩, rfl⟩ := h
    rw [List.nil_append, List.append_nil]
    have hnone : world.its.tokenManagerAddress (localTokenId crypto world.its ctx.caller salt) =
        none := hcurrent
    refine .deploys (fun manager _ hmanager => ?_) (Nat.zero_le _) hraw
    rw [hnone] at hmanager
    simp at hmanager
  | some manager =>
    simp only [Transaction.bind_eq_ok, tokenManagerGetOptTokenIdentifier_eq_ok] at h
    obtain ⟨token, _, _, _, ⟨state, hstate, rfl, rfl, rfl⟩, h, rfl⟩ := h
    rw [List.nil_append]
    split at h
    · rename_i htoken
      simp only [Transaction.bind_eq_ok, Transaction.pure_eq_ok] at h
      obtain ⟨_, _, _, _, hraw, ⟨rfl, rfl, rfl⟩, rfl⟩ := h
      rw [List.append_nil]
      refine .deploys (fun other otherState hother hotherState => ?_)
        (EffectRules.egldValue_eq_ok hvalue).ge hraw
      obtain rfl := Option.some.inj (hcurrent.symm.trans hother)
      obtain rfl := Option.some.inj (hstate.symm.trans hotherState)
      exact htoken
    · rename_i htoken
      simp only [Transaction.bind_eq_ok, Outcome.exists_unit, lift_eq_ok] at h
      obtain ⟨_, _, _, ⟨_, rfl, rfl⟩, h, rfl⟩ := h
      rw [List.nil_append]
      split at h
      · rename_i hsupply
        simp only [Transaction.bind_eq_ok, Outcome.exists_unit, Transaction.pure_eq_ok] at h
        obtain ⟨_, _, _, hmint, ⟨rfl, rfl, rfl⟩, rfl⟩ := h
        rw [List.append_nil]
        exact .mints hcurrent hstate (Option.isSome_iff_ne_none.mpr htoken) hsupply hmint
      · rename_i hsupply
        obtain ⟨rfl, rfl, rfl⟩ := Transaction.pure_eq_ok.mp h
        exact .rests (by omega) rfl rfl

theorem commandManager_eq_ok {address : Address} {call : TokenManager.Call} :
    commandManager env ctx address call world = .ok ⟨(), last, trace⟩ ↔
      ∃ reply, callManager env (nested env ctx address .none) call world =
        .ok ⟨reply, last, trace⟩ := by
  simp only [commandManager, Transaction.bind_eq_ok, Transaction.pure_eq_ok]
  constructor
  · rintro ⟨reply, _, _, _, hcall, ⟨_, rfl, rfl⟩, rfl⟩
    rw [List.append_nil]
    exact ⟨reply, hcall⟩
  · rintro ⟨reply, hcall⟩
    exact ⟨reply, _, _, _, hcall, ⟨trivial, rfl, rfl⟩, by simp⟩

/-- Calls of one manager, one after the other. -/
inductive ManagerRuns (ctx : CallContext) :
    List TokenManager.Call → TokenManager.State → List Action → TokenManager.State → Prop
  | nil (state : TokenManager.State) : ManagerRuns ctx [] state [] state
  | cons {call : TokenManager.Call} {calls : List TokenManager.Call}
      {state next last : TokenManager.State} {reply : TokenManager.Reply}
      {actions : List TokenManager.Action} {trace : List Action} :
      TokenManager.perform ctx call state = .ok ⟨reply, next, actions⟩ →
      ManagerRuns ctx calls next trace last →
      ManagerRuns ctx (call :: calls) state (.manager ctx call reply actions :: trace) last

theorem World.setManager_again (world : World) (address : Address)
    (first second : TokenManager.State) :
    (world.setManager address first).setManager address second =
      world.setManager address second := by
  simp only [World.setManager, Function.update_idem]

theorem forEach_commandManager {address : Address} {state : TokenManager.State}
    {calls : List TokenManager.Call} (hmanager : world.managers address = some state)
    (h : forEach (commandManager env ctx address) calls world = .ok ⟨(), last, trace⟩) :
    ∃ next ledger pending, ManagerRuns (nested env ctx address .none) calls state trace next ∧
      last = { world.setManager address next with ledger, pending } := by
  induction calls generalizing world state trace with
  | nil =>
    obtain ⟨_, rfl, rfl⟩ := Transaction.pure_eq_ok.mp h
    refine ⟨state, world.ledger, world.pending, .nil state, ?_⟩
    have hsame : world.setManager address state = world := by
      rw [World.setManager, ← hmanager, Function.update_eq_self]
    rw [hsame]
  | cons call calls ih =>
    rw [forEach, Transaction.bind_eq_ok] at h
    obtain ⟨_, _, _, _, hcall, hcalls, rfl⟩ := h
    obtain ⟨reply, hcall⟩ := commandManager_eq_ok.mp hcall
    obtain ⟨_, next, actions, _, _, hstate, hperform, rfl, rfl⟩ := callManager_manager hcall
    obtain rfl := Option.some.inj (hmanager.symm.trans hstate)
    obtain ⟨final, ledger, pending, hruns, rfl⟩ := ih (Function.update_self _ _ _) hcalls
    refine ⟨final, ledger, pending, .cons hperform hruns, ?_⟩
    exact congrArg (fun world : World => { world with ledger, pending })
      (world.setManager_again address next final)

/-- The calls of the manager in the third step of a local deployment. -/
def handoverCalls (service sender : Address) (initialSupply : ℕ) (minter : Address) :
    List TokenManager.Call :=
  [.mint sender initialSupply, .transferMintership minter, .removeFlowLimiter service,
    .addFlowLimiter minter, .transferOperatorship minter]

theorem mintInitialSupply_eq_ok {tokenId : TokenId} {manager sender : Address}
    {initialSupply : ℕ} {minterOpt : Option Address} {state : TokenManager.State}
    (hmanager : world.managers manager = some state)
    (h : mintInitialSupply env ctx tokenId manager sender initialSupply minterOpt world =
      .ok ⟨(), last, trace⟩) :
    ∃ next ledger pending,
      ManagerRuns (nested env ctx manager .none)
        (handoverCalls ctx.scAddress sender initialSupply (minterOpt.getD .zero)) state trace
        next ∧
      last = ({ world.setManager manager next with ledger, pending } : World).setStatus tokenId
        .alreadyMinted := by
  simp only [mintInitialSupply, Transaction.bind_eq_ok, Outcome.exists_unit,
    setInterchainTokenStatus_eq_ok] at h
  obtain ⟨_, first, _, hmint, ⟨_, second, _, hmintership, ⟨_, third, _, hremove, ⟨_, fourth, _,
    hadd, ⟨last, fifth, _, hoperatorship, ⟨rfl, rfl⟩, rfl⟩, rfl⟩, rfl⟩, rfl⟩, rfl⟩ := h
  have hcalls : forEach (commandManager env ctx manager)
      (handoverCalls ctx.scAddress sender initialSupply (minterOpt.getD .zero)) world =
        .ok ⟨(), last, first ++ (second ++ (third ++ (fourth ++ (fifth ++ []))))⟩ := by
    simp only [handoverCalls, forEach, Transaction.bind_eq_ok, Outcome.exists_unit,
      Transaction.pure_eq_ok]
    exact ⟨_, _, _, hmint, ⟨_, _, _, hmintership, ⟨_, _, _, hremove, ⟨_, _, _, hadd, ⟨_, _, _,
      hoperatorship, ⟨trivial, rfl, rfl⟩, rfl⟩, rfl⟩, rfl⟩, rfl⟩, rfl⟩
  obtain ⟨next, ledger, pending, hruns, rfl⟩ := forEach_commandManager hmanager hcalls
  exact ⟨next, ledger, pending, hruns, rfl⟩

end Call

end AxelarCgp.Its
