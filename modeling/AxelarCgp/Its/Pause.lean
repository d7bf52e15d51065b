import AxelarCgp.Its.GasRefunds
import AxelarCgp.Its.Metadata
import AxelarCgp.Its.Registry
import AxelarCgp.Its.Solvency
import AxelarCgp.TokenManager.Authority

/-!
# Pause

Endpoints that do business check first that the service is not paused; what the
others do is between the service, its owner and its operators.  One endpoint
does business and checks nothing: the metadata of a token are registered with
the hub however the service is paused.
-/

namespace AxelarCgp

/-- Tokens come into being. -/
def TokenManager.Action.createsTokens : TokenManager.Action → Bool
  | .issue _ _ _ _ _ | .localMint _ _ => true
  | _ => false

namespace Its

open Machine Transaction

/-! ## Business -/

/-- What a paused service does not do: send messages, pay gas, deploy managers, create
tokens, give and take them. -/
def Action.isBusiness : Action → Bool
  | .gateway _ (.callContract _ _ _) _ | .gasService _ | .managerDeployed _ _ _ _ _
  | .manager _ (.giveToken _ _) _ _ | .manager _ .takeToken _ _ => true
  | .manager _ _ _ actions => actions.any TokenManager.Action.createsTokens
  | _ => false

def Action.isRequest : Action → Bool
  | .request _ => true
  | _ => false

def Idle (trace : List Action) : Prop :=
  ∀ action ∈ trace, action.isBusiness = false

/-- No business, and none to come back to. -/
def Rests (_ : ℕ) (_ : World) (trace : List Action) (_ : World) : Prop :=
  Idle trace ∧ ∀ action ∈ trace, action.isRequest = false

/-- Neither a call, when it completes, nor the callback of a request it makes does any
business for as long as the service stays paused. -/
structure StaysIdle (crypto : Crypto) (world : World) (input : Input) : Prop where
  call : ∀ next trace, (machine crypto).step world input = .ok (next, trace) → Idle trace
  callbacks : ∀ next trace request history last env index result final answered,
    (machine crypto).step world input = .ok (next, trace) → .request request ∈ trace →
    Run (machine crypto) next history last →
    Run.Meets (machine crypto) next (fun state _ => state.its.paused = true) history →
    last.its.paused = true → last.pending[index]? = some (.tokenProperties request) →
    (machine crypto).step last ⟨env, .answer index result⟩ = .ok (final, answered) →
    Idle answered

/-! ## Endpoints that check the pause -/

def Call.checksPause : Call → Bool
  | .execute _ _ _ _ | .interchainTransfer _ _ _ _ _ | .deployInterchainToken _ _ _ _ _ _
  | .deployRemoteInterchainToken _ _ | .deployRemoteInterchainTokenWithMinter _ _ _ _
  | .registerCanonicalInterchainToken _ | .deployRemoteCanonicalInterchainToken _ _
  | .registerCustomToken _ _ _ _ | .linkToken _ _ _ _ _ => true
  | _ => false

/-- A transaction that completes only while the service is not paused. -/
def NotPaused (before : World) (_ : List Action) (_ : World) : Prop :=
  before.its.paused = false

section Calls

variable {crypto : Crypto} {env : Environment} {ctx : CallContext}

theorem notPaused_bind {A B : Type} {x : Tx A} {f : A → Tx B} (hx : Satisfies NotPaused x) :
    Satisfies NotPaused (x >>= f) := by
  intro before value after trace h
  obtain ⟨first, middle, trace, _, hfirst, _, _⟩ := Transaction.bind_eq_ok.mp h
  exact hx before first middle trace hfirst

theorem notPaused_requireNotPaused : Satisfies NotPaused requireNotPaused := by
  intro before value after trace h
  simp only [requireNotPaused, Transaction.bind_eq_ok, reads_eq_ok, lift_eq_ok,
    Outcome.require_eq_ok, Bool.not_eq_true] at h
  obtain ⟨_, _, _, _, ⟨rfl, _, _⟩, ⟨hpaused, _, _⟩, _⟩ := h
  exact hpaused

theorem notPaused_payableInEgld {A : Type} {x : Tx A} (hx : Satisfies NotPaused x) :
    Satisfies NotPaused (payableInEgld ctx x) :=
  .inspect_bind (.lift _) fun _ => notPaused_bind hx

theorem notPaused_unpaid {A : Type} {x : Tx A} (hx : Satisfies NotPaused x) :
    Satisfies NotPaused (unpaid ctx x) :=
  .inspect_bind (.lift _) fun _ => notPaused_bind hx

/-- Whatever goes wrong before the pause is checked, nothing is done before. -/
theorem notPaused_perform {call : Call} (hchecks : call.checksPause) :
    Satisfies NotPaused (perform crypto env ctx call) := by
  cases call with
  | registerCanonicalInterchainToken tokenIdentifier =>
    refine notPaused_unpaid (.inspect_bind (.lift _) fun _ => .inspect_bind (.reads _) fun _ => ?_)
    exact notPaused_bind notPaused_requireNotPaused
  | registerCustomToken salt tokenIdentifier tokenManagerType operatorOpt =>
    refine notPaused_unpaid (.inspect_bind (.lift _) fun _ => .inspect_bind (.reads _) fun _ => ?_)
    exact notPaused_bind notPaused_requireNotPaused
  | linkToken salt destinationChain destinationTokenAddress tokenManagerType linkParams =>
    refine notPaused_payableInEgld
      (.inspect_bind (.reads _) fun _ => .inspect_bind (.lift _) fun _ => ?_)
    exact notPaused_bind notPaused_requireNotPaused
  | interchainTransfer => exact notPaused_bind notPaused_requireNotPaused
  | execute | deployInterchainToken | deployRemoteInterchainToken
  | deployRemoteInterchainTokenWithMinter | deployRemoteCanonicalInterchainToken =>
    exact notPaused_payableInEgld (notPaused_bind notPaused_requireNotPaused)
  | _ => simp [Call.checksPause] at hchecks

/-! ## Endpoints that do no business -/

theorem composes_rests : Composes Rests where
  nil _ := ⟨by simp [Idle], by simp⟩
  append := by
    intro _ _ _ _ _ first second hfirst hsecond
    constructor
    · intro action hmem
      rcases List.mem_append.mp hmem with hmem | hmem
      · exact hfirst.1 action hmem
      · exact hsecond.1 action hmem
    · intro action hmem
      rcases List.mem_append.mp hmem with hmem | hmem
      · exact hfirst.2 action hmem
      · exact hsecond.2 action hmem
  mono _ h := h

theorem rests_emits (event : Event) : Satisfies (Rests 0) (emits event) :=
  .performs fun _ => ⟨by simp [Idle, Action.isBusiness], by simp [Action.isRequest]⟩

theorem rests_modifiesIts (change : State → State) : Satisfies (Rests 0) (modifiesIts change) :=
  .modifies fun world => composes_rests.nil world

theorem rests_withRoles {A : Type} (x : AccountRoles.Tx A) :
    Satisfies (Rests 0) (withRoles x) := by
  intro before value after trace h
  obtain ⟨_, events, _, _, rfl⟩ := within_eq_ok.mp h
  constructor
  · intro action hmem
    obtain ⟨_, _, rfl⟩ := List.mem_map.mp hmem
    rfl
  · intro action hmem
    obtain ⟨_, _, rfl⟩ := List.mem_map.mp hmem
    rfl

theorem rests_setFlowLimit (address : Address) (flowLimit : Option ℕ) :
    Satisfies (Rests 0) (commandManager env ctx address (.setFlowLimit flowLimit)) := by
  refine .thenFree composes_rests ?_ fun _ => .pure composes_rests ()
  intro before reply after trace h
  obtain ⟨paid, actions, _, hrun, rfl⟩ := callManager_eq_ok.mp h
  obtain ⟨state, next, _, hperform, _⟩ := runManager_eq_ok.mp hrun
  obtain ⟨_, _, rfl⟩ := TokenManager.perform_setFlowLimit.mp hperform
  constructor
  · simp [Idle, Action.isBusiness, TokenManager.Action.createsTokens]
  · simp [Action.isRequest]

theorem rests_unpaid {A : Type} {x : Tx A} (hx : Satisfies (Rests 0) x) :
    Satisfies (Rests 0) (unpaid ctx x) :=
  .inspect_bind (.lift _) fun _ => .thenFree composes_rests hx fun _ => .pure composes_rests ()

theorem rests_perform {call : Call} (hchecks : call.checksPause = false)
    (hmetadata : ∀ tokenIdentifier, call ≠ .registerTokenMetadata tokenIdentifier) :
    Satisfies (Rests 0) (perform crypto env ctx call) := by
  cases call with
  | setTrustedChain | removeTrustedChain =>
    refine rests_unpaid (.inspect_bind (.lift _) fun _ => .inspect_bind (.lift _) fun _ => ?_)
    exact .andThen composes_rests (rests_emits _) fun _ => rests_modifiesIts _
  | pause | unpause =>
    exact rests_unpaid (.inspect_bind (.lift _) fun _ => rests_modifiesIts _)
  | transferOperatorship | proposeOperatorship | acceptOperatorship =>
    exact rests_unpaid (rests_withRoles _)
  | setFlowLimits tokenIds flowLimits =>
    refine rests_unpaid (.andThen composes_rests (rests_withRoles _) fun _ =>
      .inspect_bind (.lift _) fun _ => .forEach composes_rests (fun entry => ?_) _)
    exact .inspect_bind (inspects_deployedTokenManager _) fun _ => rests_setFlowLimit _ _
  | approveDeployRemoteInterchainToken deployer salt destinationChain destinationMinter =>
    refine rests_unpaid (.inspect_bind (inspects_interchainTokenId crypto deployer salt) fun _ =>
      .inspect_bind (inspects_checkTokenMinter _ _) fun _ =>
        .inspect_bind (inspects_isTrustedChain _) fun _ => .inspect_bind (.lift _) fun _ => ?_)
    exact .andThen composes_rests (rests_emits _) fun _ => rests_modifiesIts _
  | revokeDeployRemoteInterchainToken deployer salt destinationChain =>
    refine rests_unpaid (.inspect_bind (inspects_interchainTokenId crypto deployer salt) ?_)
    intro _
    exact .andThen composes_rests (rests_emits _) fun _ => rests_modifiesIts _
  | registerTokenMetadata tokenIdentifier => exact absurd rfl (hmetadata tokenIdentifier)
  | _ => simp [Call.checksPause] at hchecks

end Calls

/-! ## The endpoint that does not check -/

/-- An account outside the system registers the metadata of a token and can pay for the
gas it offers. -/
structure RegistersToken (world : World) (caller : Address) (payment : EgldOrMultiEsdtPayment)
    (call : Call) (tokenIdentifier : EgldOrEsdtTokenIdentifier) (gasValue : ℕ) : Prop where
  call : call = .registerTokenMetadata tokenIdentifier
  valid : isValid tokenIdentifier
  external : world.isSystemContract caller = false ∧ caller.isZero = false
  payment : payment = .egld gasValue
  enough : gasValue ≤ world.ledger.balance caller .egld

section Steps

variable {crypto : Crypto} {env : Environment} {world : World} {caller : Address}
variable {payment : EgldOrMultiEsdtPayment} {call : Call}

/-- The call completes exactly for such an account, and there is no more to it than the
payment and the registration. -/
theorem registersToken_step {next : World} {trace : List Action}
    {tokenIdentifier : EgldOrEsdtTokenIdentifier} :
    (machine crypto).step world
        ⟨env, .its caller payment (.registerTokenMetadata tokenIdentifier)⟩ = .ok (next, trace) ↔
      ∃ gasValue ledger, RegistersToken world caller payment
          (.registerTokenMetadata tokenIdentifier) tokenIdentifier gasValue ∧
        world.ledger.transfer caller world.itsAddress .egld gasValue = .ok ledger ∧
        RegistersMetadata crypto env (env.context caller world.itsAddress payment) gasValue
          { world with ledger } tokenIdentifier next trace := by
  rw [step_eq_ok, run_its_eq_ok]
  constructor
  · rintro ⟨hexternal, paid, hpay, hperform⟩
    simp only [perform, payableInEgld, Transaction.bind_eq_ok, lift_eq_ok,
      Transaction.pure_eq_ok] at hperform
    obtain ⟨_, _, _, _, ⟨_, rfl, rfl⟩, ⟨_, _, _, _, hregister, ⟨_, rfl, rfl⟩, rfl⟩, rfl⟩ :=
      hperform
    obtain ⟨hvalid, gasValue, hvalue, hregisters⟩ := registerTokenMetadata_eq_ok.mp hregister
    have hpayment : payment = .egld gasValue := hvalue
    subst hpayment
    obtain ⟨ledger, hledger, rfl, _⟩ := transfer_eq_ok.mp ((pay_eq_transfer rfl).mp hpay)
    have hregistered : RegistersToken world caller (.egld gasValue)
        (.registerTokenMetadata tokenIdentifier) tokenIdentifier gasValue := {
      call := rfl
      valid := hvalid
      external := hexternal
      payment := rfl
      enough := (Ledger.transfer_eq_ok hledger).1 }
    exact ⟨gasValue, ledger, hregistered, hledger, by simpa using hregisters⟩
  · rintro ⟨gasValue, ledger, hregistered, hledger, hregisters⟩
    obtain rfl := hregistered.payment
    refine ⟨hregistered.external, { world with ledger }, ?_, ?_⟩
    · exact (pay_eq_transfer rfl).mpr (transfer_eq_ok.mpr ⟨ledger, hledger, rfl, rfl⟩)
    · simp only [perform, payableInEgld, Transaction.bind_eq_ok, lift_eq_ok,
        Transaction.pure_eq_ok]
      have hregister := registerTokenMetadata_eq_ok.mpr
        ⟨hregistered.valid, gasValue, rfl, hregisters⟩
      exact ⟨gasValue, _, _, _, ⟨rfl, rfl, rfl⟩, ⟨(), _, _, _, hregister,
        ⟨trivial, rfl, rfl⟩, List.append_nil _⟩, rfl⟩

/-- Whoever does not register a token with the hub does no business. -/
theorem staysIdle_of_paused (hpaused : world.its.paused = true)
    (hnone : ∀ tokenIdentifier gasValue,
      ¬ RegistersToken world caller payment call tokenIdentifier gasValue) :
    StaysIdle crypto world ⟨env, .its caller payment call⟩ := by
  have hrests : ∀ next trace,
      (machine crypto).step world ⟨env, .its caller payment call⟩ = .ok (next, trace) →
      Rests 0 world trace next := by
    intro next trace hok
    by_cases hmetadata : ∃ tokenIdentifier, call = .registerTokenMetadata tokenIdentifier
    · obtain ⟨tokenIdentifier, rfl⟩ := hmetadata
      obtain ⟨gasValue, _, hregistered, _⟩ := registersToken_step.mp hok
      exact absurd hregistered (hnone tokenIdentifier gasValue)
    · obtain ⟨_, paid, hpay, hperform⟩ := run_its_eq_ok.mp ((step_eq_ok crypto).mp hok)
      cases hchecks : call.checksPause with
      | true =>
        have hits := (silent_pay _ _ _ _ _ hpay).1.its
        have hunpaused : paid.its.paused = false := notPaused_perform hchecks _ _ _ _ hperform
        rw [hits, hpaused] at hunpaused
        contradiction
      | false =>
        exact rests_perform hchecks (fun _ hcall => hmetadata ⟨_, hcall⟩) paid _ _ _ hperform
  constructor
  · intro next trace hok
    exact (hrests next trace hok).1
  · intro next trace request _ _ _ _ _ _ _ hok hrequest
    have hnoRequest := (hrests next trace hok).2 _ hrequest
    simp [Action.isRequest] at hnoRequest

/-! ## Business of a paused service -/

theorem not_idle_of_hubTrace {ctx : CallContext} {its : State} {payload : ManagedBuffer}
    {gasValue : ℕ} {trace : List Action}
    (hsent : hubTrace crypto env ctx its payload gasValue ⊆ trace) : ¬ Idle trace := by
  intro hidle
  have hmessage := hidle _ (hsent (List.mem_append_right _ (List.mem_singleton_self _)))
  simp [Action.isBusiness] at hmessage

/-- The metadata are sent out as long as the service has the gas value. -/
theorem exists_registerTokenMetadataRaw (crypto : Crypto) (env : Environment) (ctx : CallContext)
    (world : World) {tokenIdentifier : EgldOrEsdtTokenIdentifier} {gasValue : ℕ}
    (hvalid : isValid tokenIdentifier) (decimals : UInt8)
    (henough : gasValue ≤ world.ledger.balance ctx.scAddress .egld) :
    ∃ last trace payload, hubTrace crypto env ctx world.its payload gasValue ⊆ trace ∧
      registerTokenMetadataRaw crypto env ctx tokenIdentifier decimals gasValue world =
        .ok ⟨(), last, trace⟩ := by
  obtain ⟨payload, hpayload⟩ := exists_metadataPayload hvalid decimals
  obtain ⟨last, hpays⟩ := exists_pays world.its.gasService henough
  exact ⟨last, _, payload, List.subset_cons_self _ _,
    registerTokenMetadataRaw_eq_ok.mpr ⟨payload, hpayload, hpays, rfl⟩⟩

/-- An answer with the properties of a fungible token sends its metadata out. -/
theorem exists_answer (crypto : Crypto) (env : Environment) (world : World)
    {index gasValue : ℕ} {identifier : TokenIdentifier} (hvalid : isValid (.esdt identifier))
    (hcall : world.pending[index]? =
      some (.tokenProperties (metadataRequest identifier gasValue caller)))
    (henough : gasValue ≤ world.ledger.balance world.itsAddress .egld) :
    ∃ final answered, (machine crypto).step world
        ⟨env, .answer index (sampleProperties ['1', '8'])⟩ = .ok (final, answered) ∧
      ¬ Idle answered := by
  let ctx := env.context ESDTSystemSCAddress world.itsAddress .none
  have hcallback : (metadataRequest identifier gasValue caller).callbackCode crypto env ctx
      (sampleProperties ['1', '8']) =
        registerTokenMetadataRaw crypto env ctx (.esdt identifier) 18 gasValue :=
    registerTokenMetadataCallback_fungible rfl rfl rfl (by decide +kernel)
  obtain ⟨final, trace, payload, hsent, hraw⟩ := exists_registerTokenMetadataRaw crypto env ctx
    { world with pending := world.pending.eraseIdx index } hvalid 18 henough
  rw [← hcallback] at hraw
  have hanswer := answer_eq_ok.mpr
    (.inl ⟨_, true, trace, hcall, attempt_eq_ok.mpr (.inl ⟨rfl, hraw⟩), rfl⟩)
  exact ⟨final, _, (step_eq_ok crypto).mpr hanswer,
    not_idle_of_hubTrace (List.subset_append_of_subset_left _ hsent)⟩

/-- A paused service sends out the metadata of a token, at once or when it gets an answer. -/
theorem not_staysIdle {tokenIdentifier : EgldOrEsdtTokenIdentifier} {gasValue : ℕ}
    (hpaused : world.its.paused = true)
    (hregistered : RegistersToken world caller payment call tokenIdentifier gasValue) :
    ¬ StaysIdle crypto world ⟨env, .its caller payment call⟩ := by
  intro hidle
  obtain rfl := hregistered.call
  obtain ⟨ledger, hledger⟩ : ∃ ledger, world.ledger.transfer caller world.itsAddress .egld
      gasValue = .ok ledger := Ledger.transfer_isOk hregistered.enough
  have hgained : gasValue ≤ ledger.balance world.itsAddress .egld := by
    have hother : world.itsAddress ≠ caller := by
      rintro rfl
      simpa [World.isSystemContract] using hregistered.external.1
    rw [Ledger.balance_transfer_receiver hledger hother]
    exact Nat.le_add_left _ _
  cases tokenIdentifier with
  | egld =>
    obtain ⟨last, trace, payload, hsent, hraw⟩ := exists_registerTokenMetadataRaw crypto env
      (env.context caller world.itsAddress payment) { world with ledger } hregistered.valid
      EGLD_DECIMALS hgained
    have hok := registersToken_step.mpr ⟨gasValue, ledger, hregistered, hledger, .egld hraw⟩
    exact not_idle_of_hubTrace hsent (hidle.call _ _ hok)
  | esdt identifier =>
    -- The request is the last one in flight, and it is answered at once.
    let request := metadataRequest identifier gasValue caller
    let asked : World :=
      { world with ledger, pending := world.pending ++ [.tokenProperties request] }
    have hok : (machine crypto).step world
        ⟨env, .its caller payment (.registerTokenMetadata (.esdt identifier))⟩ =
          .ok (asked, [.request request]) :=
      registersToken_step.mpr ⟨gasValue, ledger, hregistered, hledger, .esdt⟩
    have hlast : asked.pending[world.pending.length]? = some (.tokenProperties request) :=
      List.getElem?_concat_length
    obtain ⟨final, answered, hanswer, hbusy⟩ :=
      exists_answer crypto env asked hregistered.valid hlast hgained
    have hmeets : Run.Meets (machine crypto) asked (fun state _ => state.its.paused = true) [] := by
      simp [Run.Meets]
    exact hbusy (hidle.callbacks _ _ request [] asked env _ _ final answered hok
      (List.mem_singleton_self _) .start hmeets hpaused hlast hanswer)

/-- A paused service does no business, but for the metadata of tokens. -/
theorem pauseStops (hpaused : world.its.paused = true) :
    StaysIdle crypto world ⟨env, .its caller payment call⟩ ↔
      ∀ tokenIdentifier gasValue,
        ¬ RegistersToken world caller payment call tokenIdentifier gasValue := by
  constructor
  · intro hidle tokenIdentifier gasValue hregistered
    exact not_staysIdle hpaused hregistered hidle
  · exact staysIdle_of_paused hpaused

end Steps

/-! ## A paused service -/

/-- The hashes include the one of the metadata of EGLD. -/
def samplePauseCrypto : Crypto :=
  .tabulated (sampleHashes ++ [(((metadataPayload .egld EGLD_DECIMALS).toOption.getD .new).1,
    NestedCodec.writeNat 32 0x55aeb4309b9712202d724238af1008e3e1f9c9bcc03eb436478ce24a6e5372a7)])
    []

def samplePause : Input :=
  ⟨sampleEnvironment, .its sampleUser .none .pause⟩

/-- The user registers the metadata of EGLD, with 5 of EGLD for gas. -/
def sampleRegisterEgld : Input :=
  ⟨sampleEnvironment, .its sampleUser (.egld 5) (.registerTokenMetadata .egld)⟩

theorem samplePause_steps : (do
    let start ← sampleWorld samplePauseCrypto
    let (paused, _) ← (machine samplePauseCrypto).step start samplePause
    let (_, trace) ← (machine samplePauseCrypto).step paused sampleRegisterEgld
    return (paused.its.paused, trace.any Action.isBusiness)) = .ok (true, true) := by
  decide +kernel

/-- A service that its owner pauses sends a message all the same. -/
theorem sample_metadata_unpaused : ∃ start events paused,
    Launched samplePauseCrypto start ∧
    (machine samplePauseCrypto).Run start [⟨samplePause, .ok events⟩] paused ∧
    paused.its.paused = true ∧ ¬ StaysIdle samplePauseCrypto paused sampleRegisterEgld := by
  have hsteps := samplePause_steps
  simp only [Outcome.bind_eq_ok, Prod.exists, Outcome.pure_eq_ok, Prod.mk.injEq,
    List.any_eq_true] at hsteps
  obtain ⟨start, hstart, paused, events, hpause, next, trace, hregister, hpaused, action, hmem,
    hbusiness⟩ := hsteps
  refine ⟨start, events, paused, sampleWorld_launched hstart, Run.start.completed hpause, hpaused,
    ?_⟩
  intro hidle
  have hidleAction := hidle.call _ _ hregister action hmem
  rw [hbusiness] at hidleAction
  contradiction

theorem sample_pauseStops : ∃ paused, paused.its.paused = true ∧
    StaysIdle samplePauseCrypto paused (sampleDeploy 0 100 none) := by
  have hsteps := samplePause_steps
  simp only [Outcome.bind_eq_ok, Prod.exists, Outcome.pure_eq_ok, Prod.mk.injEq] at hsteps
  obtain ⟨_, _, paused, _, _, _, _, _, hpaused, _⟩ := hsteps
  refine ⟨paused, hpaused, (pauseStops hpaused).mpr ?_⟩
  intro tokenIdentifier gasValue hregistered
  have hcall := hregistered.call
  simp at hcall

end Its

end AxelarCgp
