import AxelarCgp.Its.InitialSupply
import AxelarCgp.Its.Storage

/-!
# Token ids

The id of a token is a hash of a hash of hashes.  None of the strings that are
hashed says how long its parts are, but all parts but the last have fixed lengths,
so what was put into an id can be told from it.
-/

namespace AxelarCgp.Its

open Transaction

/-- A token as those who register it describe it.  A canonical one is given by the name
that an argument of a call carries. -/
inductive Registration where
  | interchain (deployer : Address) (salt : Hash)
  | canonical (name : ManagedBuffer)
  | linked (deployer : Address) (salt : Hash)
  deriving DecidableEq

namespace Registration

/-- What the views of the service tell of the id of a token. -/
def view (crypto : Crypto) : Registration → Tx TokenId
  | interchain deployer salt => interchainTokenId crypto deployer salt
  | canonical name => canonicalInterchainTokenId crypto (.parse name)
  | linked deployer salt => linkedTokenId crypto deployer salt

/-- What the salts of a kind begin with. -/
def label : Registration → Bytes
  | interchain _ _ => PREFIX_INTERCHAIN_TOKEN_SALT
  | canonical _ => PREFIX_CANONICAL_TOKEN_SALT
  | linked _ _ => PREFIX_CUSTOM_TOKEN_SALT

def inputs : Registration → Bytes
  | interchain deployer salt | linked deployer salt => deployer.1 ++ salt.1
  | canonical name => name.1

variable (crypto : Crypto) (its : State) (registration : Registration)

def saltPreimage : Bytes :=
  (crypto.keccak256 registration.label).1 ++ its.chainNameHash.1 ++ registration.inputs

def idPreimage : Bytes :=
  (crypto.keccak256 PREFIX_INTERCHAIN_TOKEN_ID).1 ++
    (crypto.keccak256 (registration.saltPreimage crypto its)).1

def tokenId : TokenId :=
  crypto.keccak256 (registration.idPreimage crypto its)

/-- The strings that are hashed for the id, but for the one in front of all ids. -/
def hashes : List Bytes :=
  [registration.label, its.chainName.1, registration.saltPreimage crypto its,
    registration.idPreimage crypto its]

end Registration

/-! ## Views -/

theorem intoName_parse (name : ManagedBuffer) :
    (EgldOrEsdtTokenIdentifier.parse name).intoName = name := by
  unfold EgldOrEsdtTokenIdentifier.parse
  split
  · rename_i hegld
    exact Subtype.ext hegld.symm
  · rfl

section Ids

variable {crypto : Crypto} {world last : World} {trace : List Action}
variable {registration other : Registration} {tokenId : TokenId}

theorem view_eq_ok : registration.view crypto world = .ok ⟨tokenId, last, trace⟩ ↔
    tokenId = registration.tokenId crypto world.its ∧ last = world ∧ trace = [] := by
  have hview : registration.view crypto = do
      let deploySalt ← reads fun world => crypto.keccak256
        (registration.saltPreimage crypto world.its)
      return interchainTokenIdRaw crypto deploySalt := by
    cases registration with
    | interchain | linked => rfl
    | canonical name =>
      rw [Registration.view, canonicalInterchainTokenId, canonicalInterchainTokenDeploySalt,
        intoName_parse]
      rfl
  rw [hview]
  simp only [Transaction.bind_eq_ok, reads_eq_ok, Transaction.pure_eq_ok]
  constructor
  · rintro ⟨_, _, _, _, ⟨rfl, rfl, rfl⟩, ⟨rfl, rfl, rfl⟩, rfl⟩
    exact ⟨rfl, rfl, rfl⟩
  · rintro ⟨rfl, rfl, rfl⟩
    exact ⟨_, _, _, _, ⟨rfl, rfl, rfl⟩, ⟨rfl, rfl, rfl⟩, rfl⟩

/-! ## No two ids are the same -/

theorem append_fixed_inj {width : ℕ} {first second : FixedBytes width} {rest others : Bytes}
    (h : first.1 ++ rest = second.1 ++ others) : first = second ∧ rest = others := by
  obtain ⟨hfirst, hrest⟩ := List.append_inj h (by rw [first.2, second.2])
  exact ⟨Subtype.ext hfirst, hrest⟩

/-- The kinds have prefixes of their own, and inputs of fixed length but for a name. -/
theorem Registration.ext_of_inputs (hlabel : registration.label = other.label)
    (hinputs : registration.inputs = other.inputs) : registration = other := by
  have hinterchain : PREFIX_INTERCHAIN_TOKEN_SALT ≠ PREFIX_CANONICAL_TOKEN_SALT := by decide
  have hlinked : PREFIX_INTERCHAIN_TOKEN_SALT ≠ PREFIX_CUSTOM_TOKEN_SALT := by decide
  have hcanonical : PREFIX_CANONICAL_TOKEN_SALT ≠ PREFIX_CUSTOM_TOKEN_SALT := by decide
  cases registration with
  | interchain deployer salt =>
    cases other with
    | interchain otherDeployer otherSalt =>
      obtain ⟨rfl, hsalt⟩ := append_fixed_inj hinputs
      rw [Subtype.ext hsalt]
    | canonical => exact absurd hlabel hinterchain
    | linked => exact absurd hlabel hlinked
  | canonical name =>
    cases other with
    | interchain => exact absurd hlabel.symm hinterchain
    | canonical otherName => exact congrArg canonical (Subtype.ext hinputs)
    | linked => exact absurd hlabel hcanonical
  | linked deployer salt =>
    cases other with
    | interchain => exact absurd hlabel.symm hlinked
    | canonical => exact absurd hlabel.symm hcanonical
    | linked otherDeployer otherSalt =>
      obtain ⟨rfl, hsalt⟩ := append_fixed_inj hinputs
      rw [Subtype.ext hsalt]

/-- An id tells the kind, the chain and the inputs it was made of. -/
theorem Registration.tokenId_inj {its otherIts : State}
    (hnamed : its.chainNameHash = crypto.keccak256 its.chainName.1)
    (hotherNamed : otherIts.chainNameHash = crypto.keccak256 otherIts.chainName.1)
    (hinj : Set.InjOn crypto.keccak256
      {bytes | bytes ∈ registration.hashes crypto its ++ other.hashes crypto otherIts})
    (h : registration.tokenId crypto its = other.tokenId crypto otherIts) :
    registration = other ∧ its.chainName = otherIts.chainName := by
  have hid := hinj (by simp [hashes]) (by simp [hashes]) h
  obtain ⟨_, hsalt⟩ := append_fixed_inj hid
  have hpreimage := hinj (by simp [hashes]) (by simp [hashes]) (Subtype.ext hsalt)
  simp only [saltPreimage, List.append_assoc] at hpreimage
  obtain ⟨hlabel, hrest⟩ := append_fixed_inj hpreimage
  obtain ⟨hname, hinputs⟩ := append_fixed_inj hrest
  rw [hnamed, hotherNamed] at hname
  refine ⟨Registration.ext_of_inputs ?_ hinputs, Subtype.ext ?_⟩
  · exact hinj (by simp [hashes]) (by simp [hashes]) hlabel
  · exact hinj (by simp [hashes]) (by simp [hashes]) hname

end Ids

/-! ## The name of the chain -/

/-- The name of the chain is the same, and so is its hash. -/
structure KeepsName (before after : World) : Prop where
  chainName : after.its.chainName = before.its.chainName
  chainNameHash : after.its.chainNameHash = before.its.chainNameHash

namespace KeepsName

theorem eq_same : (fun before (_ : List Action) after => KeepsName before after) =
    Same fun its => (its.chainName, its.chainNameHash) :=
  Its.eq_same fun _ _ => ⟨fun h => Prod.ext h.chainName h.chainNameHash,
    fun h => ⟨congrArg Prod.fst h, congrArg Prod.snd h⟩⟩

theorem callManager {env : Environment} {ctx : CallContext} (call : TokenManager.Call) :
    Satisfies (fun before _ after => KeepsName before after) (callManager env ctx call) := by
  rw [eq_same]
  exact same_callManager call

theorem stepRules {crypto : Crypto} {service : Address} :
    StepRules crypto service AnyEffect fun before _ after => KeepsName before after := by
  rw [eq_same]
  apply Untouched.stepRules
  constructor
  case storage =>
    intro its next hkeeps
    exact Prod.ext hkeeps.chainName hkeeps.chainNameHash
  all_goals intros; rfl

end KeepsName

section Runs

variable {crypto : Crypto} {start world : World} {history : History}

theorem keepsName_run (hlaunched : Launched crypto start)
    (hrun : (machine crypto).Run start history world) : KeepsName start world := by
  induction hrun with
  | start => exact ⟨rfl, rfl⟩
  | stopped _ _ ih => exact ih
  | completed hbefore hok ih =>
    have hnameless := (keepsRegistry_run hlaunched.registered hbefore).registered.nameless
    have hkeeps := KeepsName.stepRules.step rfl hnameless (fun _ _ _ _ _ _ => trivial)
      (fun _ _ _ call _ _ => KeepsName.callManager call) hok
    exact ⟨hkeeps.chainName.trans ih.chainName, hkeeps.chainNameHash.trans ih.chainNameHash⟩

theorem KeepsName.tokenId_eq (h : KeepsName start world) (registration : Registration) :
    registration.tokenId crypto world.its = registration.tokenId crypto start.its := by
  simp only [Registration.tokenId, Registration.idPreimage, Registration.saltPreimage,
    h.chainNameHash]

/-- The hash that ids are made of is that of the name of the chain. -/
theorem named_run (hlaunched : Launched crypto start)
    (hrun : (machine crypto).Run start history world) :
    world.its.chainNameHash = crypto.keccak256 world.its.chainName.1 := by
  have hname := keepsName_run hlaunched hrun
  obtain ⟨_, _, _, _, _, _, _, hinit⟩ := hlaunched.init
  simp only [init, Outcome.bind_eq_ok, Outcome.exists_unit, Outcome.require_eq_ok,
    Outcome.pure_eq_ok] at hinit
  obtain ⟨_, _, _, _, _, hits⟩ := hinit
  rw [hname.chainName, hname.chainNameHash, ← hits]

end Runs

/-! ## Who occupies an id -/

/-- The token that an endpoint registers for its caller. -/
def Call.registration (caller : Address) : Call → Option Registration
  | .deployInterchainToken salt _ _ _ _ _ => some (.interchain caller salt)
  | .registerCanonicalInterchainToken tokenIdentifier => some (.canonical tokenIdentifier.intoName)
  | .registerCustomToken salt _ _ _ => some (.linked caller salt)
  | _ => none

section Occupied

variable {crypto : Crypto} {env : Environment} {ctx : CallContext} {world next last : World}
variable {trace : List Action} {registration : Registration}

/-- The service registers managers for no other token. -/
def RegistersOnly (tokenId : TokenId) (service : Address) :
    World → List Action → World → Prop :=
  Registers service fun _ registered _ => registered = tokenId

theorem registersOnly_rules (tokenId : TokenId) (crypto : Crypto) (env : Environment)
    (ctx : CallContext) :
    EffectRules crypto env ctx (HasOrigin fun _ registered _ => registered = tokenId)
      fun _ => RegistersOnly tokenId ctx.scAddress :=
  Registers.stepRules.effectRules rfl

theorem registersOnly_deployInterchainToken {salt : Hash} {name symbol : ManagedBuffer}
    {decimals : UInt8} {initialSupply : ℕ} {minterOpt : Option Address} {tokenId : TokenId}
    (h : deployInterchainToken crypto env ctx salt name symbol decimals initialSupply minterOpt
      world = .ok ⟨tokenId, last, trace⟩) :
    RegistersOnly (localTokenId crypto world.its ctx.caller salt) ctx.scAddress world trace
      last := by
  have hrules := registersOnly_rules (localTokenId crypto world.its ctx.caller salt) crypto env ctx
  obtain ⟨status, minterBytes, _, hstep⟩ := deployInterchainToken_eq_ok h
  have hstatus := hrules.status (localTokenId crypto world.its ctx.caller salt) status trivial
    world () _ [] (setInterchainTokenStatus_eq_ok.mpr ⟨rfl, rfl⟩)
  cases hstep with
  | deploys _ hvalue hraw =>
    have hdeploy := hrules.deployInterchainTokenRaw _ _ _ _ _ _ _ (fun _ => le_rfl) hvalue
      (fun _ _ _ => rfl) (fun _ _ _ _ => trivial) _ _ _ _ hraw
    exact hrules.append (m := 0) (n := 0) hstatus hdeploy
  | mints _ _ _ _ hmint =>
    have hmints := hrules.mintInitialSupply _ _ _ _ _ (fun _ _ => trivial) trivial _ _ _ _ hmint
    exact hrules.append (m := 0) (n := 0) hstatus hmints
  | rests _ hlast htrace =>
    rw [hlast, htrace]
    exact hstatus

theorem registersOnly_registerCustomTokenRaw {deploySalt : Hash}
    {tokenIdentifier : EgldOrEsdtTokenIdentifier} {tokenManagerType : TokenManagerType}
    {linkParams : ManagedBuffer} {tokenId : TokenId}
    (h : registerCustomTokenRaw crypto env ctx deploySalt tokenIdentifier tokenManagerType
      linkParams world = .ok ⟨tokenId, last, trace⟩) :
    RegistersOnly (interchainTokenIdRaw crypto deploySalt) ctx.scAddress world trace last :=
  (registersOnly_rules _ crypto env ctx).registerCustomTokenRaw _ _ _ _ (fun _ _ _ => rfl)
    _ _ _ _ h

theorem perform_registration {call : Call}
    (hcall : call.registration ctx.caller = some registration)
    (h : perform crypto env ctx call world = .ok ⟨(), last, trace⟩) :
    RegistersOnly (registration.tokenId crypto world.its) ctx.scAddress world trace last := by
  cases call with
  | deployInterchainToken salt name symbol decimals initialSupply minterOpt =>
    obtain rfl := Option.some.inj hcall
    obtain ⟨_, tokenId, hdeploy⟩ := perform_deployInterchainToken.mp h
    exact registersOnly_deployInterchainToken hdeploy
  | registerCanonicalInterchainToken tokenIdentifier =>
    obtain rfl := Option.some.inj hcall
    simp only [perform, unpaid, requireNotPayable, registerCanonicalInterchainToken,
      canonicalInterchainTokenDeploySalt, Transaction.bind_eq_ok, Outcome.exists_unit, lift_eq_ok,
      Outcome.require_eq_ok, reads_eq_ok, Transaction.pure_eq_ok] at h
    obtain ⟨_, _, _, ⟨_, rfl, rfl⟩, ⟨_, _, _, _, ⟨_, _, _, ⟨_, rfl, rfl⟩, ⟨_, _, _, _,
      ⟨rfl, rfl, rfl⟩, hraw, rfl⟩, rfl⟩, ⟨_, rfl, rfl⟩, rfl⟩, rfl⟩ := h
    simp only [List.nil_append, List.append_nil]
    exact registersOnly_registerCustomTokenRaw hraw
  | registerCustomToken salt tokenIdentifier tokenManagerType operatorOpt =>
    obtain rfl := Option.some.inj hcall
    simp only [perform, unpaid, requireNotPayable, registerCustomToken, linkedTokenDeploySalt,
      Transaction.bind_eq_ok, Outcome.exists_unit, lift_eq_ok, Outcome.require_eq_ok, reads_eq_ok,
      Transaction.pure_eq_ok] at h
    obtain ⟨_, _, _, ⟨_, rfl, rfl⟩, ⟨_, _, _, _, ⟨_, _, _, ⟨_, rfl, rfl⟩, ⟨_, _, _, _,
      ⟨rfl, rfl, rfl⟩, hraw, rfl⟩, rfl⟩, ⟨_, rfl, rfl⟩, rfl⟩, rfl⟩ := h
    simp only [List.nil_append, List.append_nil]
    exact registersOnly_registerCustomTokenRaw hraw
  | _ => simp [Call.registration] at hcall

/-- A caller that registers a token gets a manager for the token that it describes. -/
theorem deployed_registration {caller : Address} {payment : EgldOrMultiEsdtPayment} {call : Call}
    {address deployer : Address} {managerType : TokenManagerType} {tokenId : TokenId}
    {params : DeployTokenManagerParams} (hcall : call.registration caller = some registration)
    (hok : (machine crypto).step world ⟨env, .its caller payment call⟩ = .ok (next, trace))
    (hdeployed : .managerDeployed address deployer managerType tokenId params ∈ trace) :
    tokenId = registration.tokenId crypto world.its := by
  obtain ⟨_, paid, hpay, hperform⟩ := run_its_eq_ok.mp ((step_eq_ok crypto).mp hok)
  obtain ⟨⟨ledger, _, rfl⟩, _⟩ := ledgerOnly_pay _ _ _ _ hpay
  have hregisters := perform_registration hcall hperform
  exact (hregisters.deployments _ _ _ _ _ hdeployed).2.origin

end Occupied

/-- Two tokens, each registered with a service of its own: their ids are apart unless kind,
chain and inputs are the same, and who registers the first does not get the id of the
second. -/
structure IdsApart (crypto : Crypto) (world : World) (registration : Registration)
    (otherWorld : World) (other : Registration) : Prop where
  ids : ∀ tokenId, registration.view crypto world = .ok ⟨tokenId, world, []⟩ →
    other.view crypto otherWorld = .ok ⟨tokenId, otherWorld, []⟩ →
    registration = other ∧ world.its.chainName = otherWorld.its.chainName
  occupied : ∀ env caller payment call next trace address deployer managerType tokenId params,
    Call.registration caller call = some registration →
    (machine crypto).step world ⟨env, .its caller payment call⟩ = .ok (next, trace) →
    .managerDeployed address deployer managerType tokenId params ∈ trace →
    other.view crypto otherWorld = .ok ⟨tokenId, otherWorld, []⟩ →
    registration = other ∧ world.its.chainName = otherWorld.its.chainName

theorem idsApart {crypto : Crypto} {start world otherStart otherWorld : World}
    {history otherHistory : History} (hlaunched : Launched crypto start)
    (hrun : (machine crypto).Run start history world) (hotherLaunched : Launched crypto otherStart)
    (hotherRun : (machine crypto).Run otherStart otherHistory otherWorld)
    (registration other : Registration)
    (hinj : Set.InjOn crypto.keccak256
      {bytes | bytes ∈ registration.hashes crypto world.its ++
        other.hashes crypto otherWorld.its}) :
    IdsApart crypto world registration otherWorld other := by
  have hnamed := named_run hlaunched hrun
  have hotherNamed := named_run hotherLaunched hotherRun
  constructor
  · intro tokenId hview hotherView
    obtain ⟨hid, _⟩ := view_eq_ok.mp hview
    obtain ⟨hotherId, _⟩ := view_eq_ok.mp hotherView
    exact Registration.tokenId_inj hnamed hotherNamed hinj (hid.symm.trans hotherId)
  · intro env caller payment call next trace address deployer managerType tokenId params hcall hok
      hdeployed hotherView
    have hid := deployed_registration hcall hok hdeployed
    obtain ⟨hotherId, _⟩ := view_eq_ok.mp hotherView
    exact Registration.tokenId_inj hnamed hotherNamed hinj (hid.symm.trans hotherId)

/-! ## A token of the user and one of its own name -/

def sampleIdsCrypto : Crypto :=
  .tabulated (sampleHashes ++ sampleNativeHashes ++
    [(((sampleHashes.map Prod.snd)[2]?.getD zeroHash).1 ++
        ((sampleHashes.map Prod.snd)[0]?.getD zeroHash).1 ++ EgldOrEsdtTokenIdentifier.egldName,
      NestedCodec.writeNat 32 0xe5c36624a6ed578e399622b44e6aaa1d6405f95aed891cb92c971630684d5f43),
    (((sampleHashes.map Prod.snd)[1]?.getD zeroHash).1 ++ (NestedCodec.writeNat 32
        0xe5c36624a6ed578e399622b44e6aaa1d6405f95aed891cb92c971630684d5f43 : Hash).1,
      NestedCodec.writeNat 32
        0x764324ca564aa350b7f055cb5fdc566a29e546f6df0db1fb2f916830b7c26135)]) []

/-- What the user registers with a salt of zeros, and EGLD. -/
def sampleRegistrations : Registration × Registration :=
  (.interchain sampleUser zeroHash, .canonical EgldOrEsdtTokenIdentifier.egld.intoName)

theorem sample_idsApart : ∃ start history world,
    (machine sampleIdsCrypto).Run start history world ∧
    history.map (fun entry => entry.result.isOk) = [true] ∧
    IdsApart sampleIdsCrypto world sampleRegistrations.1 world sampleRegistrations.2 := by
  have hreplay : sampleReplay sampleIdsCrypto [sampleDeploy 0 100 none] (fun history world =>
      (history.map fun entry => entry.result.isOk,
        sampleIdsCrypto.apart (sampleRegistrations.1.hashes sampleIdsCrypto world.its ++
          sampleRegistrations.2.hashes sampleIdsCrypto world.its))) = .ok ([true], true) := by
    decide +kernel
  obtain ⟨start, history, world, hlaunched, hrun, _, hview⟩ := sampleReplay_run hreplay
  obtain ⟨hresults, hnamed⟩ := Prod.mk.inj hview
  exact ⟨start, history, world, hrun, hresults,
    idsApart hlaunched hrun hlaunched hrun _ _ (Crypto.injOn_of_apart hnamed)⟩

end AxelarCgp.Its
