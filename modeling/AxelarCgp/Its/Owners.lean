import AxelarCgp.Its.Deliveries
import AxelarCgp.Its.TokenIds

/-!
# Whose token an id is

An id that describes a registration is there for whoever makes that registration.  A manager
for it comes from a call of its owner, or from a message of the hub that signers of the gateway
had approved for the service; nobody else can occupy the id before.
-/

namespace AxelarCgp.Its

open Transaction Machine

/-! ## Entitlements -/

/-- The strings that are hashed for a registration, and for those that are made in a
history. -/
def Registration.contended (crypto : Crypto) (its : State) (registration : Registration)
    (history : History) : Set Bytes :=
  {bytes | bytes ∈ registration.hashes crypto its ∨ ∃ entry ∈ history, ∃ caller payment call other,
    entry.input.operation = .its caller payment call ∧ call.registration caller = some other ∧
    bytes ∈ other.hashes crypto its}

theorem hashes_subset_contended {crypto : Crypto} {its : State} {owned registration : Registration}
    {history : History} {env : Environment} {caller : Address} {payment : EgldOrMultiEsdtPayment}
    {call : Call} {result : Outcome (List Action)}
    (hmem : ⟨⟨env, .its caller payment call⟩, result⟩ ∈ history)
    (hcall : call.registration caller = some registration) :
    {bytes | bytes ∈ registration.hashes crypto its ++ owned.hashes crypto its} ⊆
      owned.contended crypto its history := by
  intro bytes hbytes
  rcases List.mem_append.mp hbytes with hother | hown
  · exact .inr ⟨_, hmem, caller, payment, call, registration, rfl, hcall, hother⟩
  · exact .inl hown

/-- The strings that the gateway hashes in a history, and those that executions ask it for. -/
def messageHashes (crypto : Crypto) (service : Address) (events : List Gateway.Event)
    (earlier : Gateway.History) (history : History) : Set Bytes :=
  Gateway.messagePreimages (earlier ++ history.flatMap gatewayView) ∪
    Gateway.signersHashed events (earlier ++ history.flatMap gatewayView) ∪
    {bytes | ∃ entry ∈ history, bytes ∈ Operation.hashes crypto service entry.input.operation}

theorem messageHashes_subset {crypto : Crypto} {service : Address} {events : List Gateway.Event}
    {earlier : Gateway.History} {first second : History} :
    messageHashes crypto service events earlier first ⊆
      messageHashes crypto service events earlier (first ++ second) := by
  rw [messageHashes, messageHashes, List.flatMap_append, ← List.append_assoc]
  rintro bytes ((hmessage | hsigners) | ⟨entry, hentry, hbytes⟩)
  · exact .inl (.inl (Gateway.messagePreimages_subset hmessage))
  · exact .inl (.inr (Gateway.signersHashed_subset hsigners))
  · exact .inr ⟨entry, List.mem_append_left _ hentry, hbytes⟩

/-- On whose word an operation occupies the id of a registration. -/
inductive Entitled (crypto : Crypto) (authorised : Gateway.Message → Prop) (service : Address)
    (its : State) (registration : Registration) : Operation → Prop where
  /-- The call is the registration itself. -/
  | owner {caller : Address} {payment : EgldOrMultiEsdtPayment} {call : Call} :
      call.registration caller = some registration →
      Entitled crypto authorised service its registration (.its caller payment call)
  /-- The hub sent the message, for a chain that the service trusts, and it was authorised. -/
  | hub {caller : Address} {payment : EgldOrMultiEsdtPayment} {messageType : ℕ}
      {messageId payload chain inner : ManagedBuffer} :
      HubMessage payload messageType chain inner → its.trustedChains chain = true →
      authorised ⟨ITS_HUB_CHAIN_NAME, messageId, its.itsHubAddress, service,
        crypto.keccak256 payload.1⟩ →
      Entitled crypto authorised service its registration
        (.its caller payment (.execute ITS_HUB_CHAIN_NAME messageId its.itsHubAddress payload))

section Owners

variable {crypto : Crypto} {start world reached next : World} {history before : History}
variable {env : Environment} {caller : Address} {payment : EgldOrMultiEsdtPayment} {call : Call}
variable {trace : List Action} {owned registration : Registration} {address : Address}
variable {managerType : TokenManagerType} {params : DeployTokenManagerParams}

/-- Who registers a token does it by an endpoint of its own, or by a message of the hub. -/
theorem RegisteredBy.registers_or_executes {operation : Operation} {tokenId : TokenId}
    (h : RegisteredBy operation managerType tokenId params) :
    (∃ caller payment call registration, operation = .its caller payment call ∧
      call.registration caller = some registration) ∨
    ∃ caller payment sourceChain messageId sourceAddress payload messageType chain inner,
      operation = .its caller payment (.execute sourceChain messageId sourceAddress payload) ∧
      HubMessage payload messageType chain inner := by
  cases h with
  | deployInterchainToken | registerCanonicalInterchainToken | registerCustomToken =>
    exact .inl ⟨_, _, _, _, rfl, rfl⟩
  | deployMessage hmessage | linkMessage hmessage =>
    exact .inr ⟨_, _, _, _, _, _, _, _, _, rfl, hmessage⟩

/-- Who registers the token of an id registers the one that the id describes. -/
theorem registration_eq_of_deployed (hlaunched : Launched crypto start)
    (hbefore : (machine crypto).Run start before reached)
    (hok : (machine crypto).step reached ⟨env, .its caller payment call⟩ = .ok (next, trace))
    (hcall : call.registration caller = some registration)
    (hdeployed : .managerDeployed address start.itsAddress managerType
      (owned.tokenId crypto start.its) params ∈ trace)
    (hkeccak : Set.InjOn crypto.keccak256 {bytes | bytes ∈ registration.hashes crypto start.its ++
      owned.hashes crypto start.its}) :
    registration = owned := by
  have hname := keepsName_run hlaunched hbefore
  have hid := deployed_registration hcall hok hdeployed
  rw [hname.tokenId_eq] at hid
  have hnamed := named_run hlaunched (.start : (machine crypto).Run start [] start)
  exact (Registration.tokenId_inj hnamed hnamed hkeccak hid.symm).1

/-- What a completed execution did, the message was authorised for. -/
theorem entitled_of_execute {deployed : Gateway.State} {events : List Gateway.Event}
    {earlier : Gateway.History} {ctx : CallContext} {retention : ℕ} {domainSeparator : Hash}
    {delay : UInt64} {operator : Address} {signers : List Gateway.WeightedSigners}
    {sourceChain messageId sourceAddress payload chain inner : ManagedBuffer} {messageType : ℕ}
    (hinit : Gateway.init crypto ctx retention domainSeparator delay operator signers =
      .ok (deployed, events))
    (hearlier : (Gateway.machine crypto).Run deployed earlier start.gateway)
    (hregistered : Registered start) (hbefore : (machine crypto).Run start before reached)
    (hok : (machine crypto).step reached ⟨env, .its caller payment (.execute sourceChain messageId
      sourceAddress payload)⟩ = .ok (next, trace))
    (hmessage : HubMessage payload messageType chain inner)
    (hkeccak : Set.InjOn crypto.keccak256 (messageHashes crypto start.itsAddress events earlier
      (before ++ [⟨⟨env, .its caller payment (.execute sourceChain messageId sourceAddress
        payload)⟩, .ok trace⟩]))) :
    Entitled crypto (Gateway.Authorised crypto deployed events
      (earlier ++ before.flatMap gatewayView)) start.itsAddress reached.its owned
      (.its caller payment (.execute sourceChain messageId sourceAddress payload)) := by
  obtain ⟨_, paid, hpay, hperform⟩ := run_its_eq_ok.mp ((step_eq_ok crypto).mp hok)
  obtain ⟨⟨ledger, _, rfl⟩, _⟩ := ledgerOnly_pay _ _ _ _ hpay
  have hself := (keepsRegistry_run hregistered hbefore).itsAddress
  have hexecutes := execute_eq_ok (perform_execute.mp hperform).2
  obtain ⟨rfl, rfl⟩ := hexecutes.hub
  have happroved := hexecutes.takes.approved
  refine .hub hmessage (hexecutes.trusted _ _ _ hmessage) ?_
  have hthrough := hearlier.trans (gateway_run hregistered hbefore)
  apply Gateway.authorised_of_approved hinit hthrough _ (hself ▸ happroved)
  apply hkeccak.mono
  rintro bytes (rfl | hbytes)
  · exact .inr ⟨_, List.mem_append_right _ (List.mem_singleton_self _), .inr rfl⟩
  · exact messageHashes_subset (.inl hbytes)

/-- The step of a history that put a manager at the id of a registration, and on whose word
it did. -/
def Rooted (crypto : Crypto) (authorised : Gateway.History → Gateway.Message → Prop)
    (start : World) (history : History) (owned : Registration) (address : Address) : Prop :=
  ∃ before input trace after reached managerType params,
    history = before ++ ⟨input, .ok trace⟩ :: after ∧
    (machine crypto).Run start before reached ∧
    .managerDeployed address start.itsAddress managerType (owned.tokenId crypto start.its)
      params ∈ trace ∧
    RegisteredBy input.operation managerType (owned.tokenId crypto start.its) params ∧
    Entitled crypto (authorised (before.flatMap gatewayView)) start.itsAddress reached.its owned
      input.operation

/-- Whatever manager an id has, it is there for a registration that its owner made, or for a
message of the hub that signers in office had authorised. -/
theorem registrations_rooted {deployed : Gateway.State} {events : List Gateway.Event}
    {earlier : Gateway.History} {ctx : CallContext} {retention : ℕ} {domainSeparator : Hash}
    {delay : UInt64} {operator : Address} {signers : List Gateway.WeightedSigners}
    (hinit : Gateway.init crypto ctx retention domainSeparator delay operator signers =
      .ok (deployed, events))
    (hearlier : (Gateway.machine crypto).Run deployed earlier start.gateway)
    (hlaunched : Launched crypto start) (hrun : (machine crypto).Run start history world)
    (hmessages : Set.InjOn crypto.keccak256
      (messageHashes crypto start.itsAddress events earlier history))
    (hids : Set.InjOn crypto.keccak256 (owned.contended crypto start.its history))
    (hset : world.its.tokenManagerAddress (owned.tokenId crypto start.its) = some address) :
    Rooted crypto (fun done => Gateway.Authorised crypto deployed events (earlier ++ done)) start
      history owned address := by
  obtain ⟨managerType, params, hregisteredIn⟩ := registeredIn_run hlaunched hrun hset
  obtain ⟨before, input, trace, after, reached, hhistory, hbefore, _, _, hdeployed, hby⟩ :=
    hregisteredIn.step
  refine ⟨before, input, trace, after, reached, managerType, params, hhistory, hbefore, hdeployed,
    hby, ?_⟩
  rw [hhistory] at hrun
  obtain ⟨middle, next, hmiddle, hok, _⟩ := hrun.step_at
  obtain rfl := hmiddle.unique hbefore
  obtain ⟨env, operation⟩ := input
  have hmem : ⟨⟨env, operation⟩, .ok trace⟩ ∈ history := by
    rw [hhistory]
    exact List.mem_append_right _ (List.mem_cons_self ..)
  rcases hby.registers_or_executes with ⟨caller, payment, call, registration, rfl, hcall⟩ |
    ⟨caller, payment, sourceChain, messageId, sourceAddress, payload, messageType, chain, inner,
      rfl, hmessage⟩
  · obtain rfl : registration = owned :=
      registration_eq_of_deployed hlaunched hbefore hok hcall hdeployed
        (hids.mono (hashes_subset_contended hmem hcall))
    exact .owner hcall
  · apply entitled_of_execute hinit hearlier hlaunched.registered hbefore hok hmessage
    rw [hhistory, List.append_cons] at hmessages
    exact hmessages.mono messageHashes_subset

end Owners

/-! ## EGLD that the user registers -/

def sampleOwned : Registration :=
  .canonical EgldOrEsdtTokenIdentifier.egld.intoName

/-- What the execution asks the gateway for. -/
def sampleReturnHashes : List Bytes :=
  [sampleReturnPayload.1, Gateway.messageHashPreimage sampleReturn.crossChainId
    sampleReturn.sourceAddress sampleItsAddress
    (sampleReturnCrypto.keccak256 sampleReturnPayload.1)]

theorem mem_sampleReturnHashes {input : Input} {bytes : Bytes} (hinput : input ∈ sampleReturnInputs)
    (hbytes : bytes ∈ Operation.hashes sampleReturnCrypto sampleItsAddress input.operation) :
    bytes ∈ sampleReturnHashes := by
  simp only [sampleReturnInputs, List.mem_cons, List.not_mem_nil, or_false] at hinput
  rcases hinput with rfl | rfl | rfl | rfl
  · exact absurd hbytes (Set.notMem_empty _)
  · exact absurd hbytes (Set.notMem_empty _)
  · exact absurd hbytes (Set.notMem_empty _)
  · rcases hbytes with hpayload | hpreimage
    · exact List.mem_cons.mpr (.inl hpayload)
    · exact List.mem_cons_of_mem _ (List.mem_singleton.mpr hpreimage)

/-- Nothing but EGLD is registered. -/
theorem sampleReturn_registration {input : Input} {caller : Address} {call : Call}
    {payment : EgldOrMultiEsdtPayment} {registration : Registration}
    (hinput : input ∈ sampleReturnInputs) (hoperation : input.operation = .its caller payment call)
    (hcall : call.registration caller = some registration) : registration = sampleOwned := by
  simp only [sampleReturnInputs, List.mem_cons, List.not_mem_nil, or_false] at hinput
  rcases hinput with rfl | rfl | rfl | rfl
  · obtain ⟨rfl, rfl, rfl⟩ := Operation.its.inj hoperation
    exact (Option.some.inj hcall).symm
  · obtain ⟨rfl, rfl, rfl⟩ := Operation.its.inj hoperation
    simp [Call.registration] at hcall
  · simp at hoperation
  · obtain ⟨rfl, rfl, rfl⟩ := Operation.its.inj hoperation
    simp [Call.registration] at hcall

theorem sampleOwned_replay : (do
    let (deployed, events) ← sampleReturnInit
    let start ← sampleWorld sampleReturnCrypto
    let (history, world) := (machine sampleReturnCrypto).replay { start with gateway := deployed }
      sampleReturnInputs
    return ((start.itsAddress,
        world.its.tokenManagerAddress (sampleOwned.tokenId sampleReturnCrypto start.its)),
      sampleReturnCrypto.apart
        (sampleReturnHashes ++ Gateway.hashes events (history.flatMap gatewayView)),
      sampleReturnCrypto.apart (sampleOwned.hashes sampleReturnCrypto start.its))) =
      .ok ((sampleItsAddress, some (sampleAddress 6)), true, true) := by
  decide +kernel

theorem sample_registrations_rooted : ∃ deployed events start history world,
    sampleReturnInit = .ok (deployed, events) ∧
    (machine sampleReturnCrypto).Run start history world ∧
    Rooted sampleReturnCrypto (fun done =>
      Gateway.Authorised sampleReturnCrypto deployed events ([] ++ done)) start history sampleOwned
      (sampleAddress 6) := by
  have hreplay := sampleOwned_replay
  simp only [Outcome.bind_eq_ok, Outcome.pure_eq_ok, Prod.exists] at hreplay
  obtain ⟨deployed, events, hinit, start, hstart, hview⟩ := hreplay
  obtain ⟨hset, hmessages, hids⟩ := Prod.mk.inj hview |>.imp_right Prod.mk.inj
  obtain ⟨hself, hset⟩ := Prod.mk.inj hset
  have hlaunched : Launched sampleReturnCrypto { start with gateway := deployed } :=
    ⟨(sampleWorld_launched hstart).init, (sampleWorld_launched hstart).managers,
      (sampleWorld_launched hstart).pending⟩
  have hrun := (machine sampleReturnCrypto).run_replay { start with gateway := deployed }
    sampleReturnInputs
  have hinputs := (machine sampleReturnCrypto).replay_inputs { start with gateway := deployed }
    sampleReturnInputs
  have hentry : ∀ entry ∈ ((machine sampleReturnCrypto).replay { start with gateway := deployed }
      sampleReturnInputs).1, entry.input ∈ sampleReturnInputs := by
    intro entry hmem
    rw [← hinputs]
    exact List.mem_map_of_mem hmem
  refine ⟨deployed, events, _, _, _, hinit, hrun,
    @registrations_rooted _ _ _ _ _ _ _ _ [] _ _ _ _ _ _ hinit .start hlaunched hrun ?_ ?_ hset⟩
  · apply (Crypto.injOn_of_apart hmessages).mono
    rintro bytes (hbytes | ⟨entry, hmem, hbytes⟩)
    · exact List.mem_append_right _ (Gateway.mem_hashes hbytes)
    · refine List.mem_append_left _ (mem_sampleReturnHashes (hentry entry hmem) ?_)
      rw [← hself]
      exact hbytes
  · apply (Crypto.injOn_of_apart hids).mono
    rintro bytes (hbytes | ⟨entry, hmem, caller, payment, call, other, hoperation, hcall, hbytes⟩)
    · exact hbytes
    · obtain rfl := sampleReturn_registration (hentry entry hmem) hoperation hcall
      exact hbytes

end AxelarCgp.Its
