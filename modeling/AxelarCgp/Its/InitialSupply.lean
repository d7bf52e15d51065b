import Mathlib.Logic.Relation
import AxelarCgp.Its.LocalTokens

/-!
# The initial supply

The service mints the supply of a token at most once, whatever is asked of it in
whichever order, and the status of the token says whether it did.
-/

namespace AxelarCgp

def TokenManager.Call.isMint : TokenManager.Call → Bool
  | .mint _ _ => true
  | _ => false

namespace Its

open Transaction Relation

/-! ## The status of a token -/

/-- The changes of the status of a token. -/
inductive StatusMove : InterchainTokenStatus → InterchainTokenStatus → Prop
  | noMint : StatusMove .none .noMint
  | needsMint : StatusMove .none .needsMint
  | alreadyMinted : StatusMove .needsMint .alreadyMinted

/-- Every change of a status is one of these moves, or several in turn. -/
def StatusMoves : InterchainTokenStatus → InterchainTokenStatus → Prop :=
  ReflTransGen StatusMove

theorem StatusMoves.noMint_final {status : InterchainTokenStatus}
    (h : StatusMoves .noMint status) : status = .noMint := by
  induction h with
  | refl => rfl
  | tail _ hmove ih =>
    rw [ih] at hmove
    cases hmove

theorem StatusMoves.alreadyMinted_final {status : InterchainTokenStatus}
    (h : StatusMoves .alreadyMinted status) : status = .alreadyMinted := by
  induction h with
  | refl => rfl
  | tail _ hmove ih =>
    rw [ih] at hmove
    cases hmove

theorem StartsWith.moves {service : Address} {minterOpt : Option Address} {initialSupply : ℕ}
    {before after : InterchainTokenStatus} {minterBytes : ManagedBuffer}
    (h : StartsWith service minterOpt initialSupply before after minterBytes) :
    StatusMoves before after := by
  cases h with
  | supply _ hstatus =>
    rcases hstatus with hnone | hneeds
    · rw [hnone]
      exact .single .needsMint
    · rw [hneeds]
      exact .refl
  | noSupply _ _ hstatus =>
    rcases hstatus with hnone | hno
    · rw [hnone]
      exact .single .noMint
    · rw [hno]
      exact .refl

/-- A token that is about to be minted has not been minted before. -/
theorem StartsWith.needsMint {service : Address} {minterOpt : Option Address}
    {initialSupply : ℕ} {before after : InterchainTokenStatus} {minterBytes : ManagedBuffer}
    (h : StartsWith service minterOpt initialSupply before after minterBytes)
    (hsupply : 0 < initialSupply) : after = .needsMint ∧ before ≠ .alreadyMinted := by
  cases h with
  | supply _ hstatus =>
    refine ⟨rfl, ?_⟩
    rcases hstatus with rfl | rfl
    · simp
    · simp
  | noSupply => simp at hsupply

/-! ## Steps that do not mint -/

/-- The service mints at a manager. -/
def Action.isMint (service manager : Address) : Action → Bool
  | .manager ctx call _ _ => ctx.caller = service && ctx.scAddress = manager && call.isMint
  | _ => false

/-- How often the service mints at a manager. -/
def mintsAt (service manager : Address) (trace : List Action) : ℕ :=
  trace.countP (Action.isMint service manager)

theorem mintsAt_append (service manager : Address) (first second : List Action) :
    mintsAt service manager (first ++ second) =
      mintsAt service manager first + mintsAt service manager second :=
  List.countP_append

/-- The service neither changed the status of a token nor minted any. -/
structure KeepsSupply (service : Address) (before : World) (trace : List Action) (after : World) :
    Prop where
  status : after.its.interchainTokenStatus = before.its.interchainTokenStatus
  unminted : ∀ manager, mintsAt service manager trace = 0

/-- The effects that neither change a status nor mint. -/
def Effect.keepsSupply : Effect → Prop
  | .status _ _ => False
  | .commands _ _ call => call.isMint = false
  | _ => True

namespace KeepsSupply

variable {service : Address}

theorem composes : Composes fun _ : ℕ => KeepsSupply service where
  nil _ := ⟨rfl, fun _ => rfl⟩
  append first second := {
    status := second.status.trans first.status
    unminted := fun manager => by
      rw [mintsAt_append, first.unminted, second.unminted] }
  mono _ h := h

theorem callManager {env : Environment} {ctx : CallContext} {call : TokenManager.Call}
    (hcall : ctx.caller = service → call.isMint = false) :
    Satisfies (KeepsSupply service) (callManager env ctx call) := by
  intro before reply after trace h
  obtain ⟨_, _, actions, _, _, _, _, rfl, rfl⟩ := callManager_manager h
  refine ⟨rfl, fun manager => ?_⟩
  by_cases hcaller : ctx.caller = service
  · simp [mintsAt, Action.isMint, hcall hcaller]
  · simp [mintsAt, Action.isMint, hcaller]

theorem stepRules {crypto : Crypto} :
    StepRules crypto service Effect.keepsSupply (KeepsSupply service) where
  composes := composes
  ledger _ _ := ⟨rfl, fun _ => rfl⟩
  pending _ _ := ⟨rfl, fun _ => rfl⟩
  note world action hnote := by
    refine ⟨rfl, fun manager => ?_⟩
    cases action with
    | manager => simp [Action.isNote] at hnote
    | _ => rfl
  storage _ _ hkeeps := ⟨hkeeps.interchainTokenStatus, fun _ => rfl⟩
  roles _ _ _ := ⟨rfl, fun _ => rfl⟩
  status _ _ hallowed := hallowed.elim
  approval _ _ _ := .modifies fun _ => ⟨rfl, fun _ => rfl⟩
  deploy env ctx tokenId managerType tokenIdentifier operator _ _ := by
    intro before address after trace h
    obtain ⟨_, _, _, _, _, _, _, _, rfl, rfl⟩ := deployTokenManagerRaw_eq_ok h
    exact ⟨rfl, fun _ => rfl⟩
  command _ _ _ _ _ hallowed := callManager fun _ => hallowed
  transfers _ _ call hcall := by
    apply callManager
    intro _
    cases call with
    | mint => simp [TokenManager.Call.isCommand] at hcall
    | _ => rfl
  callback env manager ctx user result := by
    rintro before ⟨_, actions⟩ after trace h
    obtain ⟨_, _, _, _, _, _, rfl, rfl⟩ := runManager_manager h
    exact ⟨rfl, fun _ => rfl⟩
  gateway ctx call := by
    intro before reply after trace h
    obtain ⟨gateway, _, rfl, rfl⟩ := callGateway_eq_ok.mp h
    exact ⟨rfl, fun _ => rfl⟩

end KeepsSupply

/-! ## Steps -/

/-- What a step does to the supplies of tokens. -/
structure Supplies (service : Address) (before : World) (trace : List Action) (after : World) :
    Prop where
  moves : ∀ tokenId, StatusMoves (before.its.interchainTokenStatus tokenId)
    (after.its.interchainTokenStatus tokenId)
  minted : ∀ manager, mintsAt service manager trace = 0 ∨
    mintsAt service manager trace = 1 ∧ ∃ tokenId,
      before.its.tokenManagerAddress tokenId = some manager ∧
      before.its.interchainTokenStatus tokenId ≠ .alreadyMinted ∧
      after.its.interchainTokenStatus tokenId = .alreadyMinted

theorem KeepsSupply.supplies {service : Address} {before after : World} {trace : List Action}
    (h : KeepsSupply service before trace after) : Supplies service before trace after where
  moves tokenId := by
    rw [h.status]
    exact .refl
  minted manager := .inl (h.unminted manager)

/-- Calls of a manager mint there as often as they are calls of `mint`. -/
theorem mintsAt_managerRuns {ctx : CallContext} {calls : List TokenManager.Call}
    {state next : TokenManager.State} {trace : List Action}
    (h : ManagerRuns ctx calls state trace next) (manager : Address) :
    mintsAt ctx.caller manager trace =
      if manager = ctx.scAddress then calls.countP TokenManager.Call.isMint else 0 := by
  induction h with
  | nil => simp [mintsAt]
  | @cons call calls _ _ _ _ _ _ _ _ ih =>
    rw [mintsAt] at ih ⊢
    rw [List.countP_cons, ih]
    by_cases hmanager : manager = ctx.scAddress
    · subst hmanager
      simp [Action.isMint, List.countP_cons]
    · simp [Action.isMint, hmanager, Ne.symm hmanager]

theorem mintsAt_handover {env : Environment} {ctx : CallContext} {manager sender minter : Address}
    {initialSupply : ℕ} {state next : TokenManager.State} {trace : List Action}
    (h : ManagerRuns (nested env ctx manager .none)
      (handoverCalls ctx.scAddress sender initialSupply minter) state trace next)
    (other : Address) :
    mintsAt ctx.scAddress other trace = if other = manager then 1 else 0 := by
  have hcount := mintsAt_managerRuns h other
  simpa [nested, Environment.context, handoverCalls, List.countP_cons,
    TokenManager.Call.isMint] using hcount

theorem perform_deployInterchainToken {crypto : Crypto} {env : Environment} {ctx : CallContext}
    {world last : World} {trace : List Action} {salt : Hash} {name symbol : ManagedBuffer}
    {decimals : UInt8} {initialSupply : ℕ} {minterOpt : Option Address} :
    perform crypto env ctx
        (.deployInterchainToken salt name symbol decimals initialSupply minterOpt) world =
        .ok ⟨(), last, trace⟩ ↔
      (∃ value, egldValue ctx = .ok value) ∧ ∃ tokenId, deployInterchainToken crypto env ctx salt
        name symbol decimals initialSupply minterOpt world = .ok ⟨tokenId, last, trace⟩ := by
  simp only [perform, payableInEgld, Transaction.bind_eq_ok, lift_eq_ok, Transaction.pure_eq_ok]
  constructor
  · rintro ⟨value, _, _, _, ⟨hvalue, rfl, rfl⟩, ⟨tokenId, _, _, _, hdeploy, ⟨_, rfl, rfl⟩, rfl⟩,
      rfl⟩
    exact ⟨⟨value, hvalue⟩, tokenId, by simpa using hdeploy⟩
  · rintro ⟨⟨value, hvalue⟩, tokenId, hdeploy⟩
    exact ⟨value, _, _, _, ⟨hvalue, rfl, rfl⟩, ⟨tokenId, _, _, _, hdeploy, ⟨trivial, rfl, rfl⟩,
      rfl⟩, by simp⟩

/-- Of the calls of the endpoint only the one that mints does so, and it leaves the
token already minted. -/
theorem supplies_deployInterchainToken {crypto : Crypto} {env : Environment} {ctx : CallContext}
    {world last : World} {trace : List Action} {salt : Hash} {name symbol : ManagedBuffer}
    {decimals : UInt8} {initialSupply : ℕ} {minterOpt : Option Address} {tokenId : TokenId}
    (h : deployInterchainToken crypto env ctx salt name symbol decimals initialSupply minterOpt
      world = .ok ⟨tokenId, last, trace⟩) : Supplies ctx.scAddress world trace last := by
  obtain ⟨status, minterBytes, hstarts, hstep⟩ := deployInterchainToken_eq_ok h
  have hset : ∀ other, StatusMoves (world.its.interchainTokenStatus other)
      ((world.setStatus (localTokenId crypto world.its ctx.caller salt)
        status).its.interchainTokenStatus other) := by
    intro other
    by_cases hother : other = localTokenId crypto world.its ctx.caller salt
    · rw [hother, World.setStatus_same]
      exact hstarts.moves
    · rw [World.setStatus_other _ hother]
      exact .refl
  cases hstep with
  | deploys _ hvalue hraw =>
    have heffects : EffectRules crypto env ctx Effect.keepsSupply
        fun _ => KeepsSupply ctx.scAddress := KeepsSupply.stepRules.effectRules rfl
    have hdone : KeepsSupply ctx.scAddress _ trace last :=
      heffects.deployInterchainTokenRaw _ _ _ _ _ _ _ (fun _ => le_rfl) hvalue
        (fun _ => trivial) (fun _ _ _ _ => rfl) _ _ _ _ hraw
    refine ⟨fun other => ?_, fun manager => .inl (hdone.unminted manager)⟩
    rw [hdone.status]
    exact hset other
  | rests _ hlast htrace =>
    rw [hlast, htrace]
    exact ⟨hset, fun _ => .inl rfl⟩
  | @mints manager state hmanager hstate _ hsupply hmint =>
    obtain ⟨hneeds, hbefore⟩ := hstarts.needsMint hsupply
    have hmiddle : (world.setStatus (localTokenId crypto world.its ctx.caller salt)
        status).managers manager = some state := hstate
    obtain ⟨next, ledger, pending, hruns, rfl⟩ := mintInitialSupply_eq_ok hmiddle hmint
    refine ⟨fun other => ?_, fun address => ?_⟩
    · by_cases hother : other = localTokenId crypto world.its ctx.caller salt
      · have hmoves := hstarts.moves
        rw [hneeds] at hmoves
        rw [hother, World.setStatus_same]
        exact hmoves.tail .alreadyMinted
      · rw [World.setStatus_other _ hother]
        exact hset other
    · have hcount := mintsAt_handover hruns address
      by_cases hsame : address = manager
      · rw [if_pos hsame] at hcount
        rw [← hsame] at hmanager
        exact .inr ⟨hcount, localTokenId crypto world.its ctx.caller salt, hmanager, hbefore,
          World.setStatus_same _ _ _⟩
      · rw [if_neg hsame] at hcount
        exact .inl hcount

theorem supplies_step {crypto : Crypto} {world next : World} {input : Input} {trace : List Action}
    (hnameless : world.its.trustedChains .new = false)
    (hok : (machine crypto).step world input = .ok (next, trace)) :
    Supplies world.itsAddress world trace next := by
  by_cases hlocal : ∃ caller payment salt name symbol decimals initialSupply minterOpt,
      input.operation = .its caller payment
        (.deployInterchainToken salt name symbol decimals initialSupply minterOpt)
  · obtain ⟨caller, payment, salt, name, symbol, decimals, initialSupply, minterOpt, hcall⟩ :=
      hlocal
    obtain ⟨env, operation⟩ := input
    obtain rfl : operation = _ := hcall
    obtain ⟨_, paid, hpay, hperform⟩ := run_its_eq_ok.mp ((step_eq_ok crypto).mp hok)
    obtain ⟨⟨_, _, rfl⟩, _⟩ := ledgerOnly_pay _ _ _ _ hpay
    obtain ⟨_, tokenId, hdeploy⟩ := perform_deployInterchainToken.mp hperform
    have hsupplies := supplies_deployInterchainToken hdeploy
    exact ⟨hsupplies.moves, hsupplies.minted⟩
  · apply KeepsSupply.supplies
    apply KeepsSupply.stepRules.step rfl hnameless _ _ hok
    · intro caller payment call hcall effect heffect
      cases heffect with
      | localStatus | localCommands =>
        exact absurd ⟨_, _, _, _, _, _, _, _, hcall⟩ hlocal
      | setFlowLimits | executeIssues | remoteIssues => rfl
      | _ => trivial
    · intro caller _ _ call _ hcaller
      exact KeepsSupply.callManager fun hself => absurd hself hcaller

/-! ## Runs -/

/-- All that the completed entries of a history did, oldest first. -/
def performed (history : History) : List Action :=
  history.flatMap fun entry =>
    match entry.result with
    | .ok trace => trace
    | .error _ => []

theorem performed_completed (history : History) (input : Input) (trace : List Action) :
    performed (history ++ [⟨input, .ok trace⟩]) = performed history ++ trace := by
  simp [performed]

theorem performed_stopped (history : History) (input : Input) (message : String) :
    performed (history ++ [⟨input, .error message⟩]) = performed history := by
  simp [performed]

/-- Where the service has minted, it did so once, for a token that is already
minted. -/
def MintedOnce (service : Address) (history : History) (world : World) : Prop :=
  ∀ manager, mintsAt service manager (performed history) = 0 ∨
    mintsAt service manager (performed history) = 1 ∧ ∃ tokenId,
      world.its.tokenManagerAddress tokenId = some manager ∧
      world.its.interchainTokenStatus tokenId = .alreadyMinted

theorem Registered.tokenId_unique {world : World} (h : Registered world) {first second : TokenId}
    {manager : Address} (hfirst : world.its.tokenManagerAddress first = some manager)
    (hsecond : world.its.tokenManagerAddress second = some manager) : first = second := by
  obtain ⟨state, hstate, htoken⟩ := h.deployed first manager hfirst
  obtain ⟨other, hother, hotherToken⟩ := h.deployed second manager hsecond
  rw [hstate] at hother
  rw [← htoken, ← hotherToken, Option.some.inj hother]

theorem mintedOnce_run {crypto : Crypto} {start world : World} {history : History}
    (hregistered : Registered start) (hrun : (machine crypto).Run start history world) :
    MintedOnce start.itsAddress history world := by
  induction hrun with
  | start => exact fun _ => .inl rfl
  | stopped _ _ ih =>
    intro manager
    rw [performed_stopped]
    exact ih manager
  | @completed history world next input trace hbefore hok ih =>
    have hkeeps := keepsRegistry_run hregistered hbefore
    have hregisters := registers_step hkeeps.registered hok
    have hsupplies := supplies_step hkeeps.registered.nameless hok
    rw [hkeeps.itsAddress] at hsupplies
    intro manager
    rw [performed_completed, mintsAt_append]
    rcases hsupplies.minted manager with hnone | ⟨hone, tokenId, hmanager, hunminted, hminted⟩
    · rw [hnone, Nat.add_zero]
      rcases ih manager with hzero | ⟨hone, tokenId, hmanager, hminted⟩
      · exact .inl hzero
      · have hmoves := hsupplies.moves tokenId
        rw [hminted] at hmoves
        exact .inr ⟨hone, tokenId, hregisters.stays hmanager, hmoves.alreadyMinted_final⟩
    · rcases ih manager with hzero | ⟨_, other, hother, hotherMinted⟩
      · rw [hzero, hone]
        exact .inr ⟨rfl, tokenId, hregisters.stays hmanager, hminted⟩
      · rw [hkeeps.registered.tokenId_unique hmanager hother] at hunminted
        exact absurd hotherMinted hunminted

theorem statusMoves_run {crypto : Crypto} {start world : World} {history : History}
    (hregistered : Registered start) (hrun : (machine crypto).Run start history world)
    (tokenId : TokenId) : StatusMoves (start.its.interchainTokenStatus tokenId)
      (world.its.interchainTokenStatus tokenId) := by
  induction hrun with
  | start => exact .refl
  | stopped _ _ ih => exact ih
  | completed hbefore hok ih =>
    have hkeeps := keepsRegistry_run hregistered hbefore
    exact ih.trans ((supplies_step hkeeps.registered.nameless hok).moves tokenId)

/-- What a run of the service says about the supply of a token.  It is minted at most
once, and then the status says so; the status only moves forward, and ends with no mint
or with the mint done; and a call that stops changes nothing. -/
structure MintsAtMostOnce (crypto : Crypto) (start : World) (history : History) (world : World)
    (tokenId : TokenId) : Prop where
  once : ∀ manager, world.its.tokenManagerAddress tokenId = some manager →
    mintsAt start.itsAddress manager (performed history) ≤ 1
  minted : ∀ manager, world.its.tokenManagerAddress tokenId = some manager →
    0 < mintsAt start.itsAddress manager (performed history) →
    world.its.interchainTokenStatus tokenId = .alreadyMinted
  noMint : world.its.interchainTokenStatus tokenId = .noMint → ∀ manager,
    world.its.tokenManagerAddress tokenId = some manager →
    mintsAt start.itsAddress manager (performed history) = 0
  moves : ∀ input next trace, (machine crypto).step world input = .ok (next, trace) →
    StatusMoves (world.its.interchainTokenStatus tokenId) (next.its.interchainTokenStatus tokenId)
  final : ∀ later last, (machine crypto).Run world later last →
    world.its.interchainTokenStatus tokenId = .noMint ∨
      world.its.interchainTokenStatus tokenId = .alreadyMinted →
    last.its.interchainTokenStatus tokenId = world.its.interchainTokenStatus tokenId
  stopped : ∀ input message last,
    (machine crypto).Run start (history ++ [⟨input, .error message⟩]) last → last = world

theorem mintsAtMostOnce {crypto : Crypto} {start world : World} {history : History}
    (hlaunched : Launched crypto start) (hrun : (machine crypto).Run start history world)
    (tokenId : TokenId) : MintsAtMostOnce crypto start history world tokenId := by
  have hkeeps := keepsRegistry_run hlaunched.registered hrun
  have hminted := mintedOnce_run hlaunched.registered hrun
  have hstatus : ∀ manager, world.its.tokenManagerAddress tokenId = some manager →
      0 < mintsAt start.itsAddress manager (performed history) →
      world.its.interchainTokenStatus tokenId = .alreadyMinted := by
    intro manager hmanager hpositive
    rcases hminted manager with hzero | ⟨_, other, hother, hstatus⟩
    · omega
    · rw [hkeeps.registered.tokenId_unique hmanager hother]
      exact hstatus
  refine ⟨?once, hstatus, ?noMint, ?moves, ?final, ?stopped⟩
  case once =>
    intro manager _
    rcases hminted manager with hzero | ⟨hone, _⟩
    · omega
    · exact hone.le
  case noMint =>
    intro hno manager hmanager
    by_contra hmint
    have hminted := hstatus manager hmanager (Nat.pos_of_ne_zero hmint)
    rw [hno] at hminted
    simp at hminted
  case moves =>
    intro input next trace hok
    exact (supplies_step hkeeps.registered.nameless hok).moves tokenId
  case final =>
    intro later last hlater hfinal
    have hmoves := statusMoves_run hkeeps.registered hlater tokenId
    rcases hfinal with hno | hminted
    · rw [hno] at hmoves ⊢
      exact hmoves.noMint_final
    · rw [hminted] at hmoves ⊢
      exact hmoves.alreadyMinted_final
  case stopped =>
    intro input message last hstopped
    exact hstopped.stopped_inv.1.unique hrun

/-- The supply of 100 is minted in the third step, whatever is asked for afterwards. -/
theorem sample_mintsAtMostOnce : ∃ start history world,
    MintsAtMostOnce sampleNativeCrypto start history world sampleNativeId ∧
    world.its.tokenManagerAddress sampleNativeId = some (sampleAddress 6) ∧
    mintsAt start.itsAddress (sampleAddress 6) (performed history) = 1 := by
  have hreplay : sampleReplay sampleNativeCrypto
      [sampleDeploy 0 100 none, sampleDeploy DEFAULT_ESDT_ISSUE_COST 100 none,
        ⟨sampleEnvironment, .answer 0 (.ok [sampleToken])⟩, sampleDeploy 0 100 none,
        sampleDeploy 0 7 none]
      (fun history world => (world.its.tokenManagerAddress sampleNativeId,
        mintsAt sampleItsAddress (sampleAddress 6) (performed history), world.itsAddress)) =
        .ok (some (sampleAddress 6), 1, sampleItsAddress) := by
    decide +kernel
  obtain ⟨start, history, world, hlaunched, hrun, _, hview⟩ := sampleReplay_run hreplay
  simp only [Prod.mk.injEq] at hview
  obtain ⟨hmanager, hmints, haddress⟩ := hview
  rw [← haddress, (keepsRegistry_run hlaunched.registered hrun).itsAddress] at hmints
  exact ⟨start, history, world, mintsAtMostOnce hlaunched hrun sampleNativeId, hmanager, hmints⟩

end Its

end AxelarCgp
