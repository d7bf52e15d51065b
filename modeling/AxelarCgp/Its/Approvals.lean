import AxelarCgp.Core.Journal
import AxelarCgp.Its.LocalTokens
import AxelarCgp.Its.Storage

/-!
# Approvals of remote minters

A minter of a token lets its deployer name one minter of the token on one other chain.
The approval is kept under a hash of who gave it, for which token and for which chain, and
is good for one deployment with exactly the minter that it names.
-/

namespace AxelarCgp.Its

open Transaction

/-! ## Acts -/

/-- What the endpoints do to approvals. -/
inductive ApprovalAct where
  | approves (approval : DeployApproval) (destinationMinter : ManagedBuffer)
  | revokes (approval : DeployApproval)
  | uses (approval : DeployApproval) (destinationMinter : ManagedBuffer)
  deriving DecidableEq

/-- The account has the role of a minter at the manager of a token. -/
def World.HoldsMinter (tokenId : TokenId) (minter : Address) (world : World) : Prop :=
  ∃ manager state, world.its.tokenManagerAddress tokenId = some manager ∧
    world.managers manager = some state ∧ state.isMinter minter

def approvalPreimage (crypto : Crypto) (approval : DeployApproval) : Bytes :=
  (crypto.keccak256 PREFIX_DEPLOY_APPROVAL).1 ++ NestedCodec.depEncode approval

theorem approvalPreimage_injective (crypto : Crypto) :
    Function.Injective (approvalPreimage crypto) := by
  intro left right heq
  exact NestedCodec.depEncode_injective (List.append_cancel_left heq)

namespace ApprovalAct

def approval : ApprovalAct → DeployApproval
  | .approves approval _ | .revokes approval | .uses approval _ => approval

/-- What the act leaves in storage. -/
def leaves (crypto : Crypto) : ApprovalAct → Option Hash
  | .approves _ destinationMinter => some (crypto.keccak256 destinationMinter.1)
  | .revokes _ | .uses _ _ => none

/-- The strings that are hashed for the act. -/
def hashed (crypto : Crypto) : ApprovalAct → List Bytes
  | .approves approval destinationMinter | .uses approval destinationMinter =>
      [approvalPreimage crypto approval, destinationMinter.1]
  | .revokes approval => [approvalPreimage crypto approval]

/-- What has to hold for the act to take place. -/
def Allowed (crypto : Crypto) (world : World) : ApprovalAct → Prop
  | .approves approval _ => world.HoldsMinter approval.tokenId approval.minter
  | .revokes _ => True
  | .uses approval destinationMinter =>
      world.HoldsMinter approval.tokenId approval.minter ∧ approval.minter ≠ world.itsAddress ∧
      world.its.approvedDestinationMinters (deployApprovalKey crypto approval) =
        some (crypto.keccak256 destinationMinter.1)

end ApprovalAct

/-- The act that an operation asks for. -/
def approvalAct (crypto : Crypto) (its : State) : Operation → Option ApprovalAct
  | .its caller _ (.approveDeployRemoteInterchainToken deployer salt destinationChain
      destinationMinter) =>
      some (.approves ⟨caller, localTokenId crypto its deployer salt, destinationChain⟩
        destinationMinter)
  | .its caller _ (.revokeDeployRemoteInterchainToken deployer salt destinationChain) =>
      some (.revokes ⟨caller, localTokenId crypto its deployer salt, destinationChain⟩)
  | .its caller _ (.deployRemoteInterchainTokenWithMinter salt (some minter) destinationChain
      (some destinationMinter)) =>
      some (.uses ⟨minter, localTokenId crypto its caller salt, destinationChain⟩
        destinationMinter)
  | _ => none

/-- The slot that an input writes, and what it leaves there. -/
def approvalWrites (crypto : Crypto) (its : State) (input : Input) :
    Option (Hash × Option Hash) :=
  (approvalAct crypto its input.operation).map fun act =>
    (deployApprovalKey crypto act.approval, act.leaves crypto)

theorem approvalAct_congr {first second : State} (crypto : Crypto)
    (h : second.chainNameHash = first.chainNameHash) :
    approvalAct crypto second = approvalAct crypto first := by
  have htokenId : localTokenId crypto second = localTokenId crypto first := by
    funext deployer salt
    rw [localTokenId, localTokenId, h]
  funext operation
  unfold approvalAct
  rw [htokenId]

/-! ## Other steps -/

/-- The approvals are the same, and so is what tokens are told apart by. -/
structure KeepsApprovals (before after : World) : Prop where
  chainNameHash : after.its.chainNameHash = before.its.chainNameHash
  approvedDestinationMinters :
    after.its.approvedDestinationMinters = before.its.approvedDestinationMinters

/-- The effects that leave approvals alone. -/
def Effect.keepsApprovals : Effect → Prop
  | .approval _ _ => False
  | _ => True

namespace KeepsApprovals

theorem eq_same : (fun before (_ : List Action) after => KeepsApprovals before after) =
    Same fun its => (its.chainNameHash, its.approvedDestinationMinters) :=
  Its.eq_same fun _ _ => ⟨fun h => Prod.ext h.chainNameHash h.approvedDestinationMinters,
    fun h => ⟨congrArg Prod.fst h, congrArg Prod.snd h⟩⟩

theorem composes : Composes fun (_ : ℕ) before (_ : List Action) after =>
    KeepsApprovals before after := by
  rw [eq_same]
  exact composes_same

theorem callManager {env : Environment} {ctx : CallContext} (call : TokenManager.Call) :
    Satisfies (fun before _ after => KeepsApprovals before after) (callManager env ctx call) := by
  rw [eq_same]
  exact same_callManager call

theorem stepRules {crypto : Crypto} {service : Address} :
    StepRules crypto service Effect.keepsApprovals
      fun before _ after => KeepsApprovals before after := by
  rw [eq_same]
  apply Untouched.stepRules
  constructor
  case storage =>
    intro its next hkeeps
    exact Prod.ext hkeeps.chainNameHash hkeeps.approvedDestinationMinters
  case approval =>
    intro its approvalKey destinationMinter hallowed
    exact hallowed.elim
  all_goals intros; rfl

end KeepsApprovals

/-! ## Steps that act -/

section Endpoints

variable {crypto : Crypto} {env : Environment} {ctx : CallContext} {world last : World}
variable {trace : List Action}

/-- The world with another content of the slot of an approval. -/
def World.setApproval (approvalKey : Hash) (destinationMinter : Option Hash) (world : World) :
    World :=
  { world with its := { world.its with
    approvedDestinationMinters :=
      Function.update world.its.approvedDestinationMinters approvalKey destinationMinter } }

theorem setDestinationMinter_eq_ok {approvalKey : Hash} {destinationMinter : Option Hash} :
    setDestinationMinter approvalKey destinationMinter world = .ok ⟨(), last, trace⟩ ↔
      last = world.setApproval approvalKey destinationMinter ∧ trace = [] := by
  simp only [setDestinationMinter, modifiesIts, modifies_eq_ok, World.setApproval]
  exact ⟨fun h => ⟨h.1.symm, h.2.symm⟩, fun h => ⟨h.1.symm, h.2.symm⟩⟩

theorem checkTokenMinter_eq_ok {tokenId : TokenId} {minter : Address} :
    checkTokenMinter tokenId minter world = .ok ⟨(), last, trace⟩ ↔
      world.HoldsMinter tokenId minter ∧ last = world ∧ trace = [] := by
  simp only [checkTokenMinter, tokenManagerIsMinter, Transaction.bind_eq_ok, reads_eq_ok,
    lift_eq_ok, Outcome.orFail_eq_ok, Outcome.require_eq_ok, managerAt_eq_ok,
    Transaction.pure_eq_ok]
  constructor
  · rintro ⟨_, _, _, _, ⟨rfl, rfl, rfl⟩, ⟨manager, _, _, _, ⟨hmanager, rfl, rfl⟩, ⟨_, _, _, _,
      ⟨state, _, _, _, ⟨hstate, rfl, rfl⟩, ⟨rfl, rfl, rfl⟩, rfl⟩, ⟨hminter, rfl, rfl⟩, rfl⟩, rfl⟩,
      rfl⟩
    exact ⟨⟨manager, state, hmanager, hstate, hminter⟩, rfl, rfl⟩
  · rintro ⟨⟨manager, state, hmanager, hstate, hminter⟩, rfl, rfl⟩
    exact ⟨_, _, _, _, ⟨rfl, rfl, rfl⟩, ⟨manager, _, _, _, ⟨hmanager, rfl, rfl⟩, ⟨_, _, _, _,
      ⟨state, _, _, _, ⟨hstate, rfl, rfl⟩, ⟨rfl, rfl, rfl⟩, rfl⟩, ⟨hminter, rfl, rfl⟩, rfl⟩, rfl⟩,
      rfl⟩

theorem interchainTokenId_eq_ok {deployer : Address} {salt : Hash} {tokenId : TokenId} :
    interchainTokenId crypto deployer salt world = .ok ⟨tokenId, last, trace⟩ ↔
      tokenId = localTokenId crypto world.its deployer salt ∧ last = world ∧ trace = [] := by
  simp only [interchainTokenId, interchainTokenDeploySalt, Transaction.bind_eq_ok, reads_eq_ok,
    Transaction.pure_eq_ok]
  constructor
  · rintro ⟨_, _, _, _, ⟨rfl, rfl, rfl⟩, ⟨rfl, rfl, rfl⟩, rfl⟩
    exact ⟨rfl, rfl, rfl⟩
  · rintro ⟨rfl, rfl, rfl⟩
    exact ⟨_, _, _, _, ⟨rfl, rfl, rfl⟩, ⟨rfl, rfl, rfl⟩, rfl⟩

theorem approveDeployRemoteInterchainToken_eq_ok {deployer : Address} {salt : Hash}
    {destinationChain destinationMinter : ManagedBuffer}
    (h : approveDeployRemoteInterchainToken crypto ctx deployer salt destinationChain
      destinationMinter world = .ok ⟨(), last, trace⟩) :
    world.HoldsMinter (localTokenId crypto world.its deployer salt) ctx.caller ∧
      last = world.setApproval (deployApprovalKey crypto
        ⟨ctx.caller, localTokenId crypto world.its deployer salt, destinationChain⟩)
        (some (crypto.keccak256 destinationMinter.1)) := by
  simp only [approveDeployRemoteInterchainToken, emits, Transaction.bind_eq_ok,
    Outcome.exists_unit, interchainTokenId_eq_ok, checkTokenMinter_eq_ok, lift_eq_ok,
    Outcome.require_eq_ok, performs_eq_ok, setDestinationMinter_eq_ok] at h
  obtain ⟨_, _, _, _, ⟨rfl, rfl, rfl⟩, ⟨_, _, _, ⟨hminter, rfl, rfl⟩, ⟨_, _, _, _, htrusted,
    ⟨_, _, _, ⟨_, rfl, rfl⟩, ⟨_, _, _, ⟨rfl, rfl⟩, ⟨rfl, rfl⟩, rfl⟩, rfl⟩, rfl⟩, rfl⟩, rfl⟩ := h
  obtain ⟨rfl, rfl⟩ := inspects_isTrustedChain _ _ _ _ _ htrusted
  exact ⟨hminter, rfl⟩

theorem revokeDeployRemoteInterchainToken_eq_ok {deployer : Address} {salt : Hash}
    {destinationChain : ManagedBuffer}
    (h : revokeDeployRemoteInterchainToken crypto ctx deployer salt destinationChain world =
      .ok ⟨(), last, trace⟩) :
    last = world.setApproval (deployApprovalKey crypto
      ⟨ctx.caller, localTokenId crypto world.its deployer salt, destinationChain⟩) none := by
  simp only [revokeDeployRemoteInterchainToken, emits, Transaction.bind_eq_ok,
    Outcome.exists_unit, interchainTokenId_eq_ok, performs_eq_ok, setDestinationMinter_eq_ok] at h
  obtain ⟨_, _, _, _, ⟨rfl, rfl, rfl⟩, ⟨_, _, _, ⟨rfl, rfl⟩, ⟨rfl, rfl⟩, rfl⟩, rfl⟩ := h
  rfl

theorem useDeployApproval_eq_ok {approval : DeployApproval} {destinationMinter : ManagedBuffer} :
    useDeployApproval crypto approval destinationMinter world = .ok ⟨(), last, trace⟩ ↔
      world.its.approvedDestinationMinters (deployApprovalKey crypto approval) =
        some (crypto.keccak256 destinationMinter.1) ∧
      last = world.setApproval (deployApprovalKey crypto approval) none ∧ trace = [] := by
  simp only [useDeployApproval, Transaction.bind_eq_ok, Outcome.exists_unit, reads_eq_ok,
    setDestinationMinter_eq_ok, lift_eq_ok, Outcome.require_eq_ok]
  constructor
  · rintro ⟨_, _, _, _, ⟨rfl, rfl, rfl⟩, ⟨_, _, _, ⟨rfl, rfl⟩, ⟨happroved, rfl, rfl⟩, rfl⟩, rfl⟩
    exact ⟨happroved, rfl, rfl⟩
  · rintro ⟨happroved, rfl, rfl⟩
    exact ⟨_, _, _, _, ⟨rfl, rfl, rfl⟩, ⟨_, _, _, ⟨rfl, rfl⟩, ⟨happroved, rfl, rfl⟩, rfl⟩, rfl⟩

/-- A minter that is named has to be one, and has to have approved the remote minter when
there is one. -/
theorem remoteMinter_eq_ok {deploySalt : Hash} {minter : Address} {minterRaw : ManagedBuffer}
    {destinationChain destinationMinter : ManagedBuffer}
    (h : remoteMinter crypto ctx deploySalt (some minter) destinationChain
      (some destinationMinter) world = .ok ⟨minterRaw, last, trace⟩) :
    world.HoldsMinter (interchainTokenIdRaw crypto deploySalt) minter ∧
      minter ≠ ctx.scAddress ∧
      world.its.approvedDestinationMinters (deployApprovalKey crypto
        ⟨minter, interchainTokenIdRaw crypto deploySalt, destinationChain⟩) =
        some (crypto.keccak256 destinationMinter.1) ∧
      minterRaw = destinationMinter ∧
      last = world.setApproval (deployApprovalKey crypto
        ⟨minter, interchainTokenIdRaw crypto deploySalt, destinationChain⟩) none := by
  simp only [remoteMinter, Transaction.bind_eq_ok, Outcome.exists_unit, checkTokenMinter_eq_ok,
    lift_eq_ok, Outcome.require_eq_ok, useDeployApproval_eq_ok, Transaction.pure_eq_ok] at h
  obtain ⟨_, _, _, ⟨hminter, rfl, rfl⟩, ⟨_, _, _, ⟨hother, rfl, rfl⟩, ⟨_, _, _,
    ⟨happroved, rfl, rfl⟩, ⟨rfl, rfl, rfl⟩, rfl⟩, rfl⟩, rfl⟩ := h
  exact ⟨hminter, hother, happroved, rfl, rfl⟩

/-- Without a minter here and one there no approval is asked for. -/
theorem keepsApprovals_remoteMinter {deploySalt : Hash} {minterOpt : Option Address}
    {destinationChain : ManagedBuffer} {destinationMinter : Option ManagedBuffer}
    (hpart : minterOpt = none ∨ destinationMinter = none) :
    Satisfies (fun before _ after => KeepsApprovals before after)
      (remoteMinter crypto ctx deploySalt minterOpt destinationChain destinationMinter) := by
  have hpure : ∀ buffer : ManagedBuffer,
      Satisfies (fun before _ after => KeepsApprovals before after)
        (pure buffer : Tx ManagedBuffer) :=
    Satisfies.pure KeepsApprovals.composes
  cases minterOpt with
  | none => exact .inspect_bind (.lift _) fun _ => hpure _
  | some minter =>
    obtain rfl := hpart.resolve_left (by simp)
    exact .inspect_bind (inspects_checkTokenMinter _ _) fun _ => .inspect_bind (.lift _) fun _ =>
      hpure _

/-- Once the minter is settled the deployment has nothing to do with approvals. -/
theorem perform_deployRemoteInterchainTokenWithMinter {salt : Hash} {minterOpt : Option Address}
    {destinationChain : ManagedBuffer} {destinationMinter : Option ManagedBuffer}
    (h : perform crypto env ctx (.deployRemoteInterchainTokenWithMinter salt minterOpt
      destinationChain destinationMinter) world = .ok ⟨(), last, trace⟩) :
    ∃ minterRaw middle first, remoteMinter crypto ctx (deploySaltOf crypto
        PREFIX_INTERCHAIN_TOKEN_SALT world.its.chainNameHash (ctx.caller.1 ++ salt.1)) minterOpt
        destinationChain destinationMinter world = .ok ⟨minterRaw, middle, first⟩ ∧
      KeepsApprovals middle last := by
  simp only [perform, payableInEgld, deployRemoteInterchainTokenWithMinter,
    interchainTokenDeploySalt, Transaction.bind_eq_ok, Outcome.exists_unit, lift_eq_ok,
    reads_eq_ok, Transaction.pure_eq_ok] at h
  obtain ⟨_, _, _, _, ⟨_, rfl, rfl⟩, ⟨_, _, _, _, ⟨_, _, _, hpaused, ⟨_, _, _, _, ⟨rfl, rfl, rfl⟩,
    ⟨minterRaw, middle, first, _, hminter, hraw, rfl⟩, rfl⟩, rfl⟩, ⟨_, rfl, rfl⟩, rfl⟩, rfl⟩ := h
  obtain ⟨rfl, rfl⟩ := inspects_requireNotPaused _ _ _ _ hpaused
  have hrules : StepRules crypto ctx.scAddress Effect.keepsApprovals
      fun before _ after => KeepsApprovals before after := KeepsApprovals.stepRules
  exact ⟨minterRaw, middle, first, hminter,
    (hrules.effectRules rfl).deployRemoteInterchainTokenRaw hrules.requestRule
      (fun _ _ _ _ _ _ _ => trivial) _ _ _ _ _ _ _ hraw⟩

end Endpoints

/-! ## Steps -/

/-- An input did to the approvals what its act says, if it has one, and what the act
needs was there. -/
structure ActsOn (crypto : Crypto) (input : Input) (before after : World) : Prop where
  chainNameHash : after.its.chainNameHash = before.its.chainNameHash
  slots : after.its.approvedDestinationMinters =
    Journal.write before.its.approvedDestinationMinters (approvalWrites crypto before.its input)
  allowed : ∀ act, approvalAct crypto before.its input.operation = some act →
    act.Allowed crypto before

def Call.handlesApproval : Call → Bool
  | .approveDeployRemoteInterchainToken _ _ _ _ | .revokeDeployRemoteInterchainToken _ _ _
  | .deployRemoteInterchainTokenWithMinter _ _ _ _ => true
  | _ => false

section Steps

variable {crypto : Crypto} {input : Input} {before after world next : World} {trace : List Action}

theorem KeepsApprovals.actsOn (h : KeepsApprovals before after)
    (hnone : approvalAct crypto before.its input.operation = none) :
    ActsOn crypto input before after where
  chainNameHash := h.chainNameHash
  slots := by
    rw [h.approvedDestinationMinters, approvalWrites, hnone]
    rfl
  allowed act hact := by simp [hnone] at hact

theorem ActsOn.of_act {act : ApprovalAct}
    (hact : approvalAct crypto before.its input.operation = some act)
    (hallowed : act.Allowed crypto before)
    (hset : KeepsApprovals
      (before.setApproval (deployApprovalKey crypto act.approval) (act.leaves crypto)) after) :
    ActsOn crypto input before after where
  chainNameHash := hset.chainNameHash
  slots := by
    rw [hset.approvedDestinationMinters, approvalWrites, hact]
    rfl
  allowed other hother := by
    obtain rfl := Option.some.inj (hact.symm.trans hother)
    exact hallowed

theorem actsOn_its {env : Environment} {caller : Address} {payment : EgldOrMultiEsdtPayment}
    {call : Call} (hcall : call.handlesApproval)
    (hok : (machine crypto).step world ⟨env, .its caller payment call⟩ = .ok (next, trace)) :
    ActsOn crypto ⟨env, .its caller payment call⟩ world next := by
  obtain ⟨_, paid, hpay, hperform⟩ := run_its_eq_ok.mp ((step_eq_ok crypto).mp hok)
  obtain ⟨⟨ledger, _, rfl⟩, _⟩ := ledgerOnly_pay _ _ _ _ hpay
  cases call with
  | approveDeployRemoteInterchainToken deployer salt destinationChain destinationMinter =>
    simp only [perform, unpaid, Transaction.bind_eq_ok, Outcome.exists_unit, lift_eq_ok,
      Transaction.pure_eq_ok] at hperform
    obtain ⟨_, _, _, ⟨_, rfl, rfl⟩, ⟨_, _, _, happrove, ⟨_, rfl, rfl⟩, rfl⟩, rfl⟩ := hperform
    obtain ⟨hminter, rfl⟩ := approveDeployRemoteInterchainToken_eq_ok happrove
    exact .of_act rfl hminter ⟨rfl, rfl⟩
  | revokeDeployRemoteInterchainToken deployer salt destinationChain =>
    simp only [perform, unpaid, Transaction.bind_eq_ok, Outcome.exists_unit, lift_eq_ok,
      Transaction.pure_eq_ok] at hperform
    obtain ⟨_, _, _, ⟨_, rfl, rfl⟩, ⟨_, _, _, hrevoke, ⟨_, rfl, rfl⟩, rfl⟩, rfl⟩ := hperform
    obtain rfl := revokeDeployRemoteInterchainToken_eq_ok hrevoke
    exact .of_act rfl trivial ⟨rfl, rfl⟩
  | deployRemoteInterchainTokenWithMinter salt minterOpt destinationChain destinationMinter =>
    obtain ⟨minterRaw, middle, first, hremote, hkeeps⟩ :=
      perform_deployRemoteInterchainTokenWithMinter hperform
    cases minterOpt with
    | none =>
      have hmiddle := keepsApprovals_remoteMinter (.inl rfl) _ _ _ _ hremote
      exact KeepsApprovals.actsOn ⟨hkeeps.chainNameHash.trans hmiddle.chainNameHash,
        hkeeps.approvedDestinationMinters.trans hmiddle.approvedDestinationMinters⟩ rfl
    | some minter =>
      cases destinationMinter with
      | none =>
        have hmiddle := keepsApprovals_remoteMinter (.inr rfl) _ _ _ _ hremote
        exact KeepsApprovals.actsOn ⟨hkeeps.chainNameHash.trans hmiddle.chainNameHash,
          hkeeps.approvedDestinationMinters.trans hmiddle.approvedDestinationMinters⟩ rfl
      | some destinationMinter =>
        obtain ⟨hminter, hother, happroved, _, rfl⟩ := remoteMinter_eq_ok hremote
        exact .of_act rfl ⟨hminter, hother, happroved⟩
          ⟨hkeeps.chainNameHash, hkeeps.approvedDestinationMinters⟩
  | _ => simp [Call.handlesApproval] at hcall

theorem actsOn_step (hnameless : world.its.trustedChains .new = false)
    (hok : (machine crypto).step world input = .ok (next, trace)) :
    ActsOn crypto input world next := by
  by_cases hhandles : ∃ caller payment call, input.operation = .its caller payment call ∧
      call.handlesApproval
  · obtain ⟨env, operation⟩ := input
    obtain ⟨caller, payment, call, rfl, hcall⟩ := hhandles
    exact actsOn_its hcall hok
  · have hkeeps : KeepsApprovals world next := by
      apply KeepsApprovals.stepRules.step rfl hnameless _ _ hok
      · intro caller payment call hcall effect heffect
        cases heffect with
        | approves | revokes | uses => exact absurd ⟨_, _, _, hcall, rfl⟩ hhandles
        | _ => trivial
      · intro _ _ _ call _ _
        exact KeepsApprovals.callManager call
    apply hkeeps.actsOn
    unfold approvalAct
    split
    · exact absurd ⟨_, _, _, ‹_›, rfl⟩ hhandles
    · exact absurd ⟨_, _, _, ‹_›, rfl⟩ hhandles
    · exact absurd ⟨_, _, _, ‹_›, rfl⟩ hhandles
    · rfl

end Steps

/-! ## Runs -/

/-- The entry completed and was this act. -/
def Acted (crypto : Crypto) (its : State) (act : ApprovalAct) (entry : Entry Input (List Action)) :
    Prop :=
  (∃ trace, entry.result = .ok trace) ∧ approvalAct crypto its entry.input.operation = some act

/-- The entry completed and was some act on an approval. -/
def ActedOn (crypto : Crypto) (its : State) (approval : DeployApproval)
    (entry : Entry Input (List Action)) : Prop :=
  ∃ act, Acted crypto its act entry ∧ act.approval = approval

/-- The strings that are hashed for the approvals that a history is about. -/
def approvalPreimages (crypto : Crypto) (its : State) (history : History) : List Bytes :=
  history.flatMap fun entry =>
    match approvalAct crypto its entry.input.operation with
    | some act => act.hashed crypto
    | none => []

theorem mem_approvalPreimages {crypto : Crypto} {its : State} {history : History}
    {entry : Entry Input (List Action)} {act : ApprovalAct} {bytes : Bytes}
    (hentry : entry ∈ history) (hact : approvalAct crypto its entry.input.operation = some act)
    (hbytes : bytes ∈ act.hashed crypto) : bytes ∈ approvalPreimages crypto its history := by
  apply List.mem_flatMap.mpr
  refine ⟨entry, hentry, ?_⟩
  rw [hact]
  exact hbytes

theorem ApprovalAct.approvalPreimage_mem (crypto : Crypto) (act : ApprovalAct) :
    approvalPreimage crypto act.approval ∈ act.hashed crypto := by
  cases act with
  | approves | revokes | uses => exact List.mem_cons_self ..

section Runs

variable {crypto : Crypto} {start world : World} {history : History}

theorem chainNameHash_run (hregistered : Registered start)
    (hrun : (machine crypto).Run start history world) :
    world.its.chainNameHash = start.its.chainNameHash := by
  induction hrun with
  | start => rfl
  | stopped _ _ ih => exact ih
  | completed hbefore hok ih =>
    have hnameless := (keepsRegistry_run hregistered hbefore).registered.nameless
    exact (actsOn_step hnameless hok).chainNameHash.trans ih

/-- The storage of approvals is a journal of the acts on them. -/
theorem approvals_journal (hlaunched : Launched crypto start) :
    Journal (machine crypto) start (fun world => world.its.approvedDestinationMinters)
      (approvalWrites crypto start.its) where
  starts := hlaunched.isNew.approvedDestinationMinters
  steps history world input next trace hrun hok := by
    have hnameless := (keepsRegistry_run hlaunched.registered hrun).registered.nameless
    have hsame := approvalAct_congr crypto (chainNameHash_run hlaunched.registered hrun)
    rw [(actsOn_step hnameless hok).slots, approvalWrites, approvalWrites, hsame]

/-- What an act needs was there in the state that it was done in. -/
theorem acted_allowed (hlaunched : Launched crypto start) {before : History} {input : Input}
    {trace : List Action} {reached next : World}
    (hbefore : (machine crypto).Run start before reached)
    (hok : (machine crypto).step reached input = .ok (next, trace)) {act : ApprovalAct}
    (hact : approvalAct crypto start.its input.operation = some act) :
    act.Allowed crypto reached := by
  have hnameless := (keepsRegistry_run hlaunched.registered hbefore).registered.nameless
  apply (actsOn_step hnameless hok).allowed
  rw [approvalAct_congr crypto (chainNameHash_run hlaunched.registered hbefore)]
  exact hact

/-- What a slot holds was approved, and nothing has been done to that approval since. -/
theorem approved_since (hlaunched : Launched crypto start) {before : History} {reached : World}
    (hrun : (machine crypto).Run start before reached) {approval : DeployApproval}
    {destinationMinter : ManagedBuffer}
    (hslot : reached.its.approvedDestinationMinters (deployApprovalKey crypto approval) =
      some (crypto.keccak256 destinationMinter.1))
    (hsub : before ⊆ history)
    (hkeccak : Set.InjOn crypto.keccak256
      {bytes | bytes ∈ approvalPreimages crypto start.its history})
    (happroval : approvalPreimage crypto approval ∈ approvalPreimages crypto start.its history)
    (hminter : destinationMinter.1 ∈ approvalPreimages crypto start.its history) :
    Since (Acted crypto start.its (.approves approval destinationMinter))
      (ActedOn crypto start.its approval) before := by
  have hsince := ((approvals_journal hlaunched).holds_iff_since hrun).mp hslot
  apply hsince.imp
  · rintro earlier entry later rfl ⟨hok, hwrites⟩
    have hentry : entry ∈ history := hsub (by simp)
    obtain ⟨act, hact, heq⟩ := Option.map_eq_some_iff.mp hwrites
    obtain ⟨hkey, hleaves⟩ := Prod.mk.inj heq
    have hsame : approvalPreimage crypto act.approval = approvalPreimage crypto approval :=
      hkeccak (mem_approvalPreimages hentry hact (act.approvalPreimage_mem crypto)) happroval hkey
    cases act with
    | approves other otherMinter =>
      obtain rfl : other = approval := approvalPreimage_injective crypto hsame
      have hnamed : otherMinter.1 ∈ approvalPreimages crypto start.its history :=
        mem_approvalPreimages hentry hact (by simp [ApprovalAct.hashed])
      obtain rfl : otherMinter = destinationMinter :=
        Subtype.ext (hkeccak hnamed hminter (Option.some.inj hleaves))
      exact ⟨hok, hact⟩
    | revokes | uses => simp [ApprovalAct.leaves] at hleaves
  · rintro entry _ ⟨act, ⟨hok, hact⟩, rfl⟩
    exact ⟨act.leaves crypto, hok, by rw [approvalWrites, hact]; rfl⟩

/-- What a run of the service says about approvals.  Every use goes back to an approval of
its own, of exactly what is used, which nothing was done to in between; whoever approved
was a minter then, and still is when it is used; a use that no approval is left for stops
and changes nothing; and an approval changes only by acts on it. -/
structure ApprovalsHold (crypto : Crypto) (start : World) (history : History) : Prop where
  matched : Matched
    (fun item : DeployApproval × ManagedBuffer => Acted crypto start.its (.approves item.1 item.2))
    (fun item => Acted crypto start.its (.uses item.1 item.2))
    (fun item => ActedOn crypto start.its item.1) history
  approved : ∀ before input trace after reached approval destinationMinter,
    history = before ++ ⟨input, .ok trace⟩ :: after →
    (machine crypto).Run start before reached →
    approvalAct crypto start.its input.operation = some (.approves approval destinationMinter) →
    reached.HoldsMinter approval.tokenId approval.minter
  used : ∀ before input trace after reached approval destinationMinter,
    history = before ++ ⟨input, .ok trace⟩ :: after →
    (machine crypto).Run start before reached →
    approvalAct crypto start.its input.operation = some (.uses approval destinationMinter) →
    reached.HoldsMinter approval.tokenId approval.minter ∧ approval.minter ≠ start.itsAddress
  exact : ∀ before input result after reached approval destinationMinter,
    history = before ++ ⟨input, result⟩ :: after →
    (machine crypto).Run start before reached →
    approvalAct crypto start.its input.operation = some (.uses approval destinationMinter) →
    ¬ Since (Acted crypto start.its (.approves approval destinationMinter))
      (ActedOn crypto start.its approval) before →
    (∃ message, result = .error message) ∧
      (machine crypto).Run start (before ++ [⟨input, result⟩]) reached
  apart : ∀ before input trace after reached next approval,
    history = before ++ ⟨input, .ok trace⟩ :: after →
    (machine crypto).Run start before reached →
    (machine crypto).step reached input = .ok (next, trace) →
    ¬ ActedOn crypto start.its approval ⟨input, .ok trace⟩ →
    Set.InjOn crypto.keccak256 {bytes | bytes = approvalPreimage crypto approval ∨
      bytes ∈ approvalPreimages crypto start.its history} →
    next.its.approvedDestinationMinters (deployApprovalKey crypto approval) =
      reached.its.approvedDestinationMinters (deployApprovalKey crypto approval)

/-- A use in a run is backed by an approval. -/
theorem used_since (hlaunched : Launched crypto start)
    (hrun : (machine crypto).Run start history world)
    (hkeccak : Set.InjOn crypto.keccak256
      {bytes | bytes ∈ approvalPreimages crypto start.its history})
    {before after : History} {input : Input} {trace : List Action} {approval : DeployApproval}
    {destinationMinter : ManagedBuffer} (hhistory : history = before ++ ⟨input, .ok trace⟩ :: after)
    (hact : approvalAct crypto start.its input.operation =
      some (.uses approval destinationMinter)) :
    Since (Acted crypto start.its (.approves approval destinationMinter))
      (ActedOn crypto start.its approval) before := by
  have hentry : ⟨input, .ok trace⟩ ∈ history := by simp [hhistory]
  have hnamed : ∀ bytes ∈ (ApprovalAct.uses approval destinationMinter).hashed crypto,
      bytes ∈ approvalPreimages crypto start.its history :=
    fun bytes hbytes => mem_approvalPreimages hentry hact hbytes
  rw [hhistory] at hrun
  obtain ⟨reached, next, hbefore, hok, _⟩ := hrun.step_at
  obtain ⟨_, _, hslot⟩ := acted_allowed hlaunched hbefore hok hact
  apply approved_since hlaunched hbefore hslot _ hkeccak
  · exact hnamed _ (by simp [ApprovalAct.hashed])
  · exact hnamed _ (by simp [ApprovalAct.hashed])
  · rw [hhistory]
    exact List.subset_append_left _ _

theorem approvalsHold (hlaunched : Launched crypto start)
    (hrun : (machine crypto).Run start history world)
    (hkeccak : Set.InjOn crypto.keccak256
      {bytes | bytes ∈ approvalPreimages crypto start.its history}) :
    ApprovalsHold crypto start history := by
  refine ⟨?matched, ?approved, ?used, ?exact, ?apart⟩
  case matched =>
    apply matched_of_since
    · rintro before item ⟨input, result⟩ after hhistory ⟨⟨trace, rfl⟩, hact⟩
      exact used_since hlaunched hrun hkeccak hhistory hact
    · rintro item entry hused
      exact ⟨_, hused, rfl⟩
    · rintro item other entry ⟨_, hact⟩ ⟨_, hother⟩
      have hsame := Option.some.inj (hact.symm.trans hother)
      exact Prod.ext (ApprovalAct.approves.inj hsame).1 (ApprovalAct.approves.inj hsame).2
    · rintro item other entry ⟨_, hact⟩ ⟨_, hother⟩
      have hsame := Option.some.inj (hact.symm.trans hother)
      exact Prod.ext (ApprovalAct.uses.inj hsame).1 (ApprovalAct.uses.inj hsame).2
  case approved =>
    rintro before input trace after reached approval destinationMinter rfl hreached hact
    obtain ⟨_, next, hbefore, hok, _⟩ := hrun.step_at
    rw [hbefore.unique hreached] at hok
    exact acted_allowed hlaunched hreached hok hact
  case used =>
    rintro before input trace after reached approval destinationMinter rfl hreached hact
    obtain ⟨_, next, hbefore, hok, _⟩ := hrun.step_at
    rw [hbefore.unique hreached] at hok
    obtain ⟨hminter, hother, _⟩ := acted_allowed hlaunched hreached hok hact
    rw [(keepsRegistry_run hlaunched.registered hreached).itsAddress] at hother
    exact ⟨hminter, hother⟩
  case exact =>
    rintro before input result after reached approval destinationMinter hhistory hreached hact hnone
    cases result with
    | ok trace => exact absurd (used_since hlaunched hrun hkeccak hhistory hact) hnone
    | error message =>
      rw [hhistory] at hrun
      exact ⟨⟨message, rfl⟩, hreached.stopped (hrun.refused_at hreached)⟩
  case apart =>
    intro before input trace after reached next approval hhistory hreached hok hapart hinj
    have hentry : (⟨input, .ok trace⟩ : Entry Input (List Action)) ∈ history := by simp [hhistory]
    have hslots := (approvals_journal hlaunched).steps _ _ _ _ _ hreached hok
    rw [hslots, approvalWrites]
    cases hact : approvalAct crypto start.its input.operation with
    | none => rfl
    | some act =>
      apply Function.update_of_ne
      intro hkey
      have hsame : approvalPreimage crypto approval = approvalPreimage crypto act.approval :=
        hinj (.inl rfl)
          (.inr (mem_approvalPreimages hentry hact (act.approvalPreimage_mem crypto))) hkey
      exact hapart ⟨act, ⟨⟨trace, rfl⟩, hact⟩, (approvalPreimage_injective crypto hsame).symm⟩

end Runs

/-! ## An approval that is used once -/

def sampleDestination : ManagedBuffer := sampleBuffer (Bytes.ascii ['c'])

def sampleRemoteMinter : ManagedBuffer := sampleBuffer (Bytes.ascii ['m'])

def sampleApproval : DeployApproval := ⟨sampleUser, sampleNativeId, sampleDestination⟩

def sampleApprovalHashes : List (Bytes × Hash) :=
  [(((sampleHashes.map Prod.snd)[4]?.getD zeroHash).1 ++ NestedCodec.depEncode sampleApproval,
    NestedCodec.writeNat 32 0x4d0ce9e2450a0508f05691c76caa4633cb51b89e6e8142f55d845e2ddf1da4ea),
  (sampleRemoteMinter.1,
    NestedCodec.writeNat 32 0xdaba8c984363447d18bf8210079973ac8fc1ce76864315b5baacf246bf6e72f6)]

def sampleApprovalCrypto : Crypto :=
  .tabulated (sampleHashes ++ sampleNativeHashes ++ sampleApprovalHashes) []

/-- The user asks for a remote token with the sample minter. -/
def sampleUse : Input :=
  ⟨sampleEnvironment, .its sampleUser (.egld 5) (.deployRemoteInterchainTokenWithMinter zeroHash
    (some sampleUser) sampleDestination (some sampleRemoteMinter))⟩

/-- The user issues a token, approves a remote minter for it, and asks twice for a remote
token with this minter. -/
def sampleUses : List Input :=
  [sampleDeploy 0 0 (some sampleUser), sampleDeploy DEFAULT_ESDT_ISSUE_COST 0 (some sampleUser),
    ⟨sampleEnvironment, .answer 0 (.ok [sampleToken])⟩,
    ⟨sampleEnvironment, .its sampleUser .none (.approveDeployRemoteInterchainToken sampleUser
      zeroHash sampleDestination sampleRemoteMinter)⟩,
    sampleUse, sampleUse]

/-- The first use of the approval completes and the second one stops. -/
theorem sample_approvalsHold : ∃ start history world,
    (machine sampleApprovalCrypto).Run start history world ∧
    history.map Entry.input = sampleUses ∧
    history.map (fun entry => entry.result.isOk) = [true, true, true, true, true, false] ∧
    ApprovalsHold sampleApprovalCrypto start history := by
  have hreplay : sampleReplay sampleApprovalCrypto sampleUses (fun history world =>
      (history.map fun entry => entry.result.isOk,
        sampleApprovalCrypto.apart (approvalPreimages sampleApprovalCrypto world.its history))) =
          .ok ([true, true, true, true, true, false], true) := by
    decide +kernel
  obtain ⟨start, history, world, hlaunched, hrun, hinputs, hview⟩ := sampleReplay_run hreplay
  obtain ⟨hresults, hnamed⟩ := Prod.mk.inj hview
  have hsame : approvalPreimages sampleApprovalCrypto world.its history =
      approvalPreimages sampleApprovalCrypto start.its history := by
    rw [approvalPreimages, approvalPreimages,
      approvalAct_congr _ (chainNameHash_run hlaunched.registered hrun)]
  rw [hsame] at hnamed
  exact ⟨start, history, world, hrun, hinputs, hresults,
    approvalsHold hlaunched hrun (Crypto.injOn_of_apart hnamed)⟩

end AxelarCgp.Its
