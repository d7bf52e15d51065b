import AxelarCgp.Its.Managers

/-!
# The registry of token managers

Five endpoints register token managers, here and for other chains, and for each
token at most one of them ever does.  What it registered stays, whatever is
called afterwards and in whichever order.
-/

namespace AxelarCgp.Its

open Transaction

/-! ## Launching -/

/-- A service that has just been deployed. -/
structure Launched (crypto : Crypto) (world : World) : Prop where
  init : ∃ gateway gasService tokenManagerImplementation operator chainName itsHubAddress
    trustedChainNames, init crypto gateway gasService tokenManagerImplementation operator
      chainName itsHubAddress trustedChainNames = .ok world.its
  managers : world.managers = fun _ => none
  pending : world.pending = []

/-- Nothing is kept for any token when the service is deployed. -/
structure State.IsNew (its : State) : Prop where
  tokenManagerAddress : its.tokenManagerAddress = fun _ => none
  approvedDestinationMinters : its.approvedDestinationMinters = fun _ => none
  interchainTokenStatus : its.interchainTokenStatus = fun _ => .none
  nameless : its.trustedChains .new = false

theorem init_isNew {crypto : Crypto} {gateway gasService tokenManagerImplementation operator :
      Address} {chainName itsHubAddress : ManagedBuffer} {trustedChainNames : List ManagedBuffer}
    {its : State} (h : init crypto gateway gasService tokenManagerImplementation operator
      chainName itsHubAddress trustedChainNames = .ok its) : its.IsNew := by
  simp only [init, Outcome.bind_eq_ok, Outcome.exists_unit, Outcome.require_eq_ok,
    Outcome.pure_eq_ok] at h
  obtain ⟨_, _, _, _, hnames, rfl⟩ := h
  refine ⟨rfl, rfl, rfl, decide_eq_false ?_⟩
  intro hmem
  have hnamed := List.all_eq_true.mp hnames _ hmem
  simp [ManagedBuffer.isEmpty, ManagedBuffer.new] at hnamed

variable {crypto : Crypto} {start world : World}

theorem Launched.isNew (h : Launched crypto world) : world.its.IsNew := by
  obtain ⟨_, _, _, _, _, _, _, hinit⟩ := h.init
  exact init_isNew hinit

theorem Launched.registered (h : Launched crypto world) : Registered world where
  deployed := by simp [h.isNew.tokenManagerAddress]
  owned := by simp [h.managers]
  apart := by rw [h.managers]
  nameless := h.isNew.nameless

/-! ## Runs -/

/-- Which operation registers a manager of some type for a token, and with which
parameters. -/
inductive RegisteredBy : Operation → TokenManagerType → TokenId → DeployTokenManagerParams → Prop
  where
  | deployInterchainToken {caller : Address} {payment : EgldOrMultiEsdtPayment} {salt : Hash}
      {name symbol : ManagedBuffer} {decimals : UInt8} {initialSupply : ℕ}
      {minterOpt operator : Option Address} {tokenId : TokenId} :
      RegisteredBy (.its caller payment
        (.deployInterchainToken salt name symbol decimals initialSupply minterOpt))
        .nativeInterchainToken tokenId ⟨operator, none⟩
  | deployMessage {caller : Address} {payment : EgldOrMultiEsdtPayment}
      {sourceChain messageId sourceAddress payload chain inner : ManagedBuffer}
      {data : DeployInterchainTokenPayload} {operator : Option Address} :
      HubMessage payload MESSAGE_TYPE_DEPLOY_INTERCHAIN_TOKEN chain inner →
      abiDecode inner = .ok data → toOptionalAddress data.minter = .ok operator →
      RegisteredBy (.its caller payment (.execute sourceChain messageId sourceAddress payload))
        .nativeInterchainToken data.tokenId ⟨operator, none⟩
  | linkMessage {caller : Address} {payment : EgldOrMultiEsdtPayment}
      {sourceChain messageId sourceAddress payload chain inner : ManagedBuffer}
      {data : LinkTokenPayload} {operator : Option Address} :
      HubMessage payload MESSAGE_TYPE_LINK_TOKEN chain inner → abiDecode inner = .ok data →
      data.tokenManagerType ≠ .nativeInterchainToken →
      toOptionalAddress data.linkParams = .ok operator →
      RegisteredBy (.its caller payment (.execute sourceChain messageId sourceAddress payload))
        data.tokenManagerType data.tokenId
        ⟨operator, some (EgldOrEsdtTokenIdentifier.parse data.destinationTokenAddress)⟩
  | registerCanonicalInterchainToken {caller : Address} {payment : EgldOrMultiEsdtPayment}
      {tokenIdentifier : EgldOrEsdtTokenIdentifier} {tokenId : TokenId} :
      RegisteredBy (.its caller payment (.registerCanonicalInterchainToken tokenIdentifier))
        .lockUnlock tokenId ⟨none, some tokenIdentifier⟩
  | registerCustomToken {caller : Address} {payment : EgldOrMultiEsdtPayment} {salt : Hash}
      {tokenIdentifier : EgldOrEsdtTokenIdentifier} {tokenManagerType : TokenManagerType}
      {operatorOpt : Option Address} {tokenId : TokenId} :
      tokenManagerType ≠ .nativeInterchainToken →
      RegisteredBy (.its caller payment
        (.registerCustomToken salt tokenIdentifier tokenManagerType operatorOpt))
        tokenManagerType tokenId ⟨operatorOpt, some tokenIdentifier⟩

theorem toOptionalAddress_ofFixed (address : Option Address) :
    toOptionalAddress (address.elim .new .ofFixed) = .ok address := by
  cases address with
  | none => rfl
  | some address =>
    have hlength := address.2
    have hempty : (ManagedBuffer.ofFixed address).isEmpty = false := by
      simp [ManagedBuffer.isEmpty, ← List.length_eq_zero_iff, hlength]
    simp [toOptionalAddress, toAddress, hempty, orFail, Functor.map, Except.map]

theorem Call.Effects.hasOrigin {ctx : CallContext} {caller : Address}
    {payment : EgldOrMultiEsdtPayment} {call : Call} {effect : Effect}
    (h : call.Effects ctx effect) :
    HasOrigin (RegisteredBy (.its caller payment call)) effect := by
  cases h with
  | executeDeploys hmessage hdata =>
    intro operator hoperator
    exact .deployMessage hmessage hdata hoperator
  | executeLinks hmessage hdata htype =>
    intro operator hoperator
    exact .linkMessage hmessage hdata htype hoperator
  | localDeploys =>
    intro operator _
    exact .deployInterchainToken
  | canonical =>
    intro operator hoperator
    obtain rfl := Except.ok.inj hoperator
    exact .registerCanonicalInterchainToken
  | custom htype =>
    intro operator hoperator
    rw [toOptionalAddress_ofFixed] at hoperator
    obtain rfl := Except.ok.inj hoperator
    exact .registerCustomToken htype
  | _ => trivial

theorem registers_step {input : Input} {next : World} {trace : List Action}
    (hregistered : Registered world)
    (hok : (machine crypto).step world input = .ok (next, trace)) :
    Registers world.itsAddress (RegisteredBy input.operation) world trace next := by
  apply Registers.stepRules.step rfl hregistered.nameless _ _ hok
  · intro caller payment call hcall effect heffect
    rw [hcall]
    exact heffect.hasOrigin
  · intro _ _ _ call _ _
    exact Registers.callManager call

/-- What every run keeps of the registry. -/
structure KeepsRegistry (before after : World) : Prop where
  itsAddress : after.itsAddress = before.itsAddress
  registered : Registered after
  stays : ∀ tokenId address, before.its.tokenManagerAddress tokenId = some address →
    after.its.tokenManagerAddress tokenId = some address
  managers : KeepsManagers before after

theorem keepsRegistry_run (hregistered : Registered start) {history : History}
    (hrun : (machine crypto).Run start history world) : KeepsRegistry start world := by
  induction hrun with
  | start =>
    exact ⟨rfl, hregistered, fun _ _ h => h,
      fun _ state hstate => ⟨state, hstate, TokenManager.kept_rules.nil state⟩⟩
  | stopped _ _ ih => exact ih
  | completed _ hok ih =>
    have hregisters := registers_step ih.registered hok
    refine ⟨hregisters.itsAddress.trans ih.itsAddress,
      hregisters.registered rfl ih.registered,
      fun tokenId address h => hregisters.stays (ih.stays tokenId address h), ?_⟩
    intro address state hstate
    obtain ⟨middle, hmiddle, hkept⟩ := ih.managers address state hstate
    obtain ⟨next, hnext, hlater⟩ := hregisters.kept address middle hmiddle
    exact ⟨next, hnext, TokenManager.kept_rules.append hkept hlater⟩

/-! ## Every manager was registered once -/

/-- A step of the history deployed this manager, for a token that had none, and all
that it was initialised with is still there. -/
structure RegisteredIn (crypto : Crypto) (start : World) (history : History) (world : World)
    (tokenId : TokenId) (address : Address) (managerType : TokenManagerType)
    (params : DeployTokenManagerParams) : Prop where
  step : ∃ before input trace after reached, history = before ++ ⟨input, .ok trace⟩ :: after ∧
    (machine crypto).Run start before reached ∧
    reached.its.tokenManagerAddress tokenId = none ∧ reached.managers address = none ∧
    .managerDeployed address start.itsAddress managerType tokenId params ∈ trace ∧
    RegisteredBy input.operation managerType tokenId params
  managed : ∃ initial state,
    TokenManager.Initialised start.itsAddress managerType tokenId params initial ∧
    world.managers address = some state ∧ TokenManager.Kept 0 initial [] state

theorem RegisteredIn.snoc {history : History} {next : World} {tokenId : TokenId}
    {address : Address} {managerType : TokenManagerType} {params : DeployTokenManagerParams}
    (h : RegisteredIn crypto start history world tokenId address managerType params)
    (hkept : KeepsManagers world next) (entry : Entry Input (List Action)) :
    RegisteredIn crypto start (history ++ [entry]) next tokenId address managerType params where
  step := by
    obtain ⟨before, input, trace, after, reached, rfl, hrest⟩ := h.step
    exact ⟨before, input, trace, after ++ [entry], reached, by simp, hrest⟩
  managed := by
    obtain ⟨initial, state, hinitialised, hstate, hkeeps⟩ := h.managed
    obtain ⟨last, hlast, hlater⟩ := hkept address state hstate
    exact ⟨initial, last, hinitialised, hlast, TokenManager.kept_rules.append hkeeps hlater⟩

theorem registeredIn_run (hlaunched : Launched crypto start) {history : History}
    (hrun : (machine crypto).Run start history world) {tokenId : TokenId} {address : Address}
    (hset : world.its.tokenManagerAddress tokenId = some address) :
    ∃ managerType params,
      RegisteredIn crypto start history world tokenId address managerType params := by
  induction hrun with
  | start =>
    rw [hlaunched.isNew.tokenManagerAddress] at hset
    simp at hset
  | stopped _ _ ih =>
    obtain ⟨managerType, params, h⟩ := ih hset
    exact ⟨managerType, params,
      h.snoc (fun _ state hstate => ⟨state, hstate, TokenManager.kept_rules.nil state⟩) _⟩
  | @completed history world next input trace hbefore hok ih =>
    have hkeeps := keepsRegistry_run hlaunched.registered hbefore
    have hregisters := registers_step hkeeps.registered hok
    rcases hregisters.grows tokenId with hsame | ⟨hnone, other, managerType, params, hnew, hmem⟩
    · obtain ⟨managerType, params, h⟩ := ih (hsame.symm.trans hset)
      exact ⟨managerType, params, h.snoc hregisters.kept _⟩
    · obtain rfl := Option.some.inj (hnew.symm.trans hset)
      obtain ⟨_, hdeployment⟩ := hregisters.deployments _ _ _ _ _ hmem
      rw [hkeeps.itsAddress] at hdeployment hmem
      exact ⟨managerType, params,
        ⟨history, input, trace, [], world, rfl, hbefore, hnone, hdeployment.unused, hmem,
          hdeployment.origin⟩,
        hdeployment.managed⟩

/-- Nothing deploys a manager for a token that has one. -/
theorem not_deployed_again (hregistered : Registered start) {tokenId : TokenId} {address : Address}
    (hset : start.its.tokenManagerAddress tokenId = some address) {history : History}
    (hrun : (machine crypto).Run start history world) {input : Input} {trace : List Action}
    (hentry : ⟨input, .ok trace⟩ ∈ history) {other deployer : Address}
    {managerType : TokenManagerType} {params : DeployTokenManagerParams} :
    .managerDeployed other deployer managerType tokenId params ∉ trace := by
  intro hmem
  obtain ⟨before, after, rfl⟩ := List.append_of_mem hentry
  obtain ⟨reached, next, hbefore, hok, _⟩ := hrun.step_at
  have hkeeps := keepsRegistry_run hregistered hbefore
  have hdeployment := ((registers_step hkeeps.registered hok).deployments _ _ _ _ _ hmem).2
  have hnone := hdeployment.unset
  rw [hkeeps.stays tokenId address hset] at hnone
  simp at hnone

/-- A manager that is registered for a token was deployed for it by one of the
operations that register managers, it is the manager of no other token, and no run
deploys another one for the token or changes what it was initialised with. -/
theorem managersRegistered (hlaunched : Launched crypto start) {history : History}
    (hrun : (machine crypto).Run start history world) (tokenId : TokenId) (address : Address)
    (hset : world.its.tokenManagerAddress tokenId = some address) :
    (∃ managerType params,
      RegisteredIn crypto start history world tokenId address managerType params) ∧
    (∀ other, world.its.tokenManagerAddress other = some address → other = tokenId) ∧
    ∀ later last, (machine crypto).Run world later last →
      last.its.tokenManagerAddress tokenId = some address ∧ KeepsManagers world last ∧
      ∀ input trace, ⟨input, .ok trace⟩ ∈ later → ∀ other deployer managerType params,
        .managerDeployed other deployer managerType tokenId params ∉ trace := by
  have hregistered := (keepsRegistry_run hlaunched.registered hrun).registered
  refine ⟨registeredIn_run hlaunched hrun hset, ?apart, ?stays⟩
  case apart =>
    intro other hother
    obtain ⟨state, hstate, htoken⟩ := hregistered.deployed tokenId address hset
    obtain ⟨otherState, hotherState, hotherToken⟩ := hregistered.deployed other address hother
    rw [hstate] at hotherState
    rw [← hotherToken, ← htoken, Option.some.inj hotherState]
  case stays =>
    intro later last hlater
    have hkeeps := keepsRegistry_run hregistered hlater
    refine ⟨hkeeps.stays tokenId address hset, hkeeps.managers, ?_⟩
    intro input trace hentry other deployer managerType params
    exact not_deployed_again hregistered hset hlater hentry

/-! ## A native token -/

theorem sampleWorld_launched (h : sampleWorld crypto = .ok world) : Launched crypto world := by
  simp only [sampleWorld, Outcome.bind_eq_ok, Outcome.pure_eq_ok] at h
  obtain ⟨its, hinit, rfl⟩ := h
  exact ⟨⟨_, _, _, _, _, _, _, hinit⟩, rfl, rfl⟩

/-- What comes of some inputs for a service that has just been deployed. -/
def sampleReplay {A : Type} (crypto : Crypto) (inputs : List Input)
    (view : History → World → A) : Outcome A := do
  let start ← sampleWorld crypto
  let (history, world) := (machine crypto).replay start inputs
  return view history world

theorem sampleReplay_run {A : Type} {inputs : List Input} {view : History → World → A} {value : A}
    (h : sampleReplay crypto inputs view = .ok value) :
    ∃ start history world, Launched crypto start ∧ (machine crypto).Run start history world ∧
      history.map Entry.input = inputs ∧ view history world = value := by
  simp only [sampleReplay, Outcome.bind_eq_ok, Outcome.pure_eq_ok] at h
  obtain ⟨start, hstart, hvalue⟩ := h
  exact ⟨start, _, _, sampleWorld_launched hstart, (machine crypto).run_replay start inputs,
    (machine crypto).replay_inputs start inputs, hvalue⟩

def sampleNativeSalt : Hash := NestedCodec.writeNat 32
  0x291d30256315af03dc8f22764268d6e657bb5e017690ae8215005f5e1cd43482

def sampleNativeId : TokenId := NestedCodec.writeNat 32
  0xac40a21ee01ee18ecb6a2d305b03c54bcfcdae81fedb43856a00f270a6027b9a

/-- The hashes of a token that the user deploys with a salt of zeros. -/
def sampleNativeHashes : List (Bytes × Hash) :=
  [(((sampleHashes.map Prod.snd)[3]?.getD zeroHash).1 ++
      ((sampleHashes.map Prod.snd)[0]?.getD zeroHash).1 ++ (sampleUser.1 ++ zeroHash.1),
    sampleNativeSalt),
  (((sampleHashes.map Prod.snd)[1]?.getD zeroHash).1 ++ sampleNativeSalt.1, sampleNativeId)]

def sampleNativeCrypto : Crypto :=
  .tabulated (sampleHashes ++ sampleNativeHashes) []

/-- The user deploys the token `Token`, step by step. -/
def sampleDeploy (value initialSupply : ℕ) (minterOpt : Option Address) : Input :=
  ⟨{ sampleEnvironment with hasLocalRoles := fun _ _ => true }, .its sampleUser (.egld value)
    (.deployInterchainToken zeroHash (sampleBuffer (Bytes.ascii ['T', 'o', 'k', 'e', 'n']))
      (sampleBuffer (Bytes.ascii ['T', 'K', 'N'])) 18 initialSupply minterOpt)⟩

theorem sample_managersRegistered : ∃ start history world managerType params,
    (machine sampleNativeCrypto).Run start history world ∧
    RegisteredIn sampleNativeCrypto start history world sampleNativeId (sampleAddress 6)
      managerType params := by
  have hreplay : sampleReplay sampleNativeCrypto [sampleDeploy 0 100 none]
      (fun _ world => world.its.tokenManagerAddress sampleNativeId) =
        .ok (some (sampleAddress 6)) := by
    decide +kernel
  obtain ⟨start, history, world, hlaunched, hrun, _, hset⟩ := sampleReplay_run hreplay
  obtain ⟨⟨managerType, params, hregistered⟩, _⟩ :=
    managersRegistered hlaunched hrun sampleNativeId (sampleAddress 6) hset
  exact ⟨start, history, world, managerType, params, hrun, hregistered⟩

end AxelarCgp.Its
