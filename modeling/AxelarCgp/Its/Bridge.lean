import AxelarCgp.Core.Copies
import AxelarCgp.Its.Executions
import AxelarCgp.Its.Storage
import Mathlib.Algebra.BigOperators.Fin

/-!
# A token on several chains

One chain keeps the token and the others mint it.  Of the hub between them no more is assumed
than that for every transfer that a service tells it of at most one message is approved, which
wraps the same transfer.  However the steps of the chains interleave, what is kept covers what
the other chains have minted and what is under way.
-/

namespace AxelarCgp.Its

open Finset Machine

variable {crypto : Crypto}

/-! ## The address of the hub -/

theorem untouched_itsHubAddress : Untouched State.itsHubAddress AnyEffect where
  storage _ _ hkeeps := hkeeps.toKeeps.itsHubAddress
  managers _ _ := rfl
  status _ _ _ _ := rfl
  approval _ _ _ _ := rfl
  roles _ _ _ := rfl

theorem itsHubAddress_run {start world : World} {history : History}
    (hregistered : Registered start) (hrun : (machine crypto).Run start history world) :
    world.its.itsHubAddress = start.its.itsHubAddress := by
  induction hrun with
  | start => rfl
  | stopped _ _ ih => exact ih
  | completed hbefore hok ih =>
    have hnameless := (keepsRegistry_run hregistered hbefore).registered.nameless
    have hsame := untouched_itsHubAddress.stepRules.step rfl hnameless
      (fun _ _ _ _ _ _ => trivial) (fun _ _ _ call _ _ => same_callManager call) hok
    exact hsame.trans ih

/-! ## Sites -/

/-- A token on one chain: the service there was deployed and has run to where the manager of the
token stands ready. -/
structure Site (crypto : Crypto) where
  reserve : Reserve
  launch : World
  earlier : History
  start : World
  launched : Launched crypto launch
  gateway : ∃ ctx retention domainSeparator delay operator signers events,
    Gateway.init crypto ctx retention domainSeparator delay operator signers =
      .ok (launch.gateway, events)
  run : (machine crypto).Run launch earlier start
  stands : reserve.Stands start

namespace Site

variable (site : Site crypto)

/-- All that the gateway of the chain has been through. -/
def gatewayHistory (history : History) : Gateway.History :=
  site.earlier.flatMap gatewayView ++ history.flatMap gatewayView

/-- The gateway of the chain has accepted a message of the hub with a transfer of the token. -/
structure Accepted (history : History) (message : TransferMessage) : Prop where
  token : message.data.tokenId = site.reserve.tokenId
  hub : message.sourceChain = ITS_HUB_CHAIN_NAME ∧
    message.sourceAddress = site.start.its.itsHubAddress
  first : Gateway.firstAccepted (site.gatewayHistory history) message.crossChainId =
    some (message.approval crypto site.reserve.service)

variable {site} {history : History} {world : World}

theorem registered : Registered site.start :=
  (keepsRegistry_run site.launched.registered site.run).registered

theorem gateway_earlier :
    (Gateway.machine crypto).Run site.launch.gateway (site.earlier.flatMap gatewayView)
      site.start.gateway :=
  gateway_run site.launched.registered site.run

/-- Whatever is executed for the token was accepted. -/
theorem accepted_of_execution (hrun : (machine crypto).Run site.start history world)
    (hkeccak : Set.InjOn crypto.keccak256
      (Gateway.messagePreimages (site.gatewayHistory history)))
    {done : Execution} (hdone : done ∈ executions site.reserve.tokenId history) :
    ∃ message, site.Accepted history message ∧ message.crossChainId = done.id ∧
      message.inner = done.inner := by
  obtain ⟨_, _, _, _, _, _, _, hinit⟩ := site.gateway
  obtain ⟨delivery, before, htaken, hid, hinner, htoken⟩ :=
    exists_delivery_of_execution registered hrun hdone
  obtain ⟨⟨after, hcut⟩, hfirst, _⟩ :=
    htaken.firstAccepted registered hrun hinit gateway_earlier hkeccak
  obtain ⟨reached, input, trace, next, hstep, hdelivers⟩ := htaken
  refine ⟨delivery.message, ⟨htoken, ⟨hdelivers.hub.1, ?_⟩, ?_⟩, hid, hinner⟩
  · rw [hdelivers.hub.2, itsHubAddress_run registered hstep.run]
  · rw [gatewayHistory, hcut, ← site.stands.itsAddress]
    rw [Gateway.firstAccepted, Gateway.acceptedMessages_append, List.find?_append]
    rw [Gateway.firstAccepted] at hfirst
    have hid : delivery.id = delivery.message.crossChainId := rfl
    rw [← hid, hfirst]
    rfl

end Site

/-! ## Bridges -/

/-- A token that one chain keeps and the others mint, and no more of it than is kept. -/
structure Bridge (crypto : Crypto) (Chain : Type*) [Fintype Chain] [DecidableEq Chain] where
  tokenId : TokenId
  home : Chain
  site : Chain → Site crypto
  token : ∀ chain, (site chain).reserve.tokenId = tokenId
  mints : ∀ chain, (site chain).reserve.mints = true ↔ chain ≠ home
  covered : ∑ chain ∈ univ.erase home,
      (site chain).start.ledger.supply (site chain).reserve.asset ≤
    (site home).start.ledger.balance (site home).reserve.manager (site home).reserve.asset

/-- The services of all chains. -/
abbrev network (crypto : Crypto) (Chain : Type*) [DecidableEq Chain] :
    Machine (Chain → World) (Chain × Input) (List Action) :=
  (machine crypto).copies Chain

/-- How much some transfers transfer. -/
def amount (transfers : Multiset ManagedBuffer) : ℕ :=
  (transfers.map transferredAmount).sum

theorem amount_add (first second : Multiset ManagedBuffer) :
    amount (first + second) = amount first + amount second := by
  simp [amount]

theorem amount_le {first second : Multiset ManagedBuffer} (h : first ≤ second) :
    amount first ≤ amount second := by
  rw [← add_tsub_cancel_of_le h, amount_add]
  exact Nat.le_add_right _ _

theorem amount_tsub {first second : Multiset ManagedBuffer} (h : first ≤ second) :
    amount (second - first) + amount first = amount second := by
  rw [← amount_add, tsub_add_cancel_of_le h]

theorem amount_inner (message : TransferMessage) :
    amount {message.inner} = message.data.amount.1 := by
  simp [amount, message.transferredAmount]

theorem amount_sum {Chain : Type*} (chains : Finset Chain)
    (transfers : Chain → Multiset ManagedBuffer) :
    amount (∑ chain ∈ chains, transfers chain) = ∑ chain ∈ chains, amount (transfers chain) := by
  classical
  induction chains using Finset.induction_on with
  | empty => rfl
  | insert chain chains hnew ih => rw [sum_insert hnew, sum_insert hnew, amount_add, ih]

abbrev NetworkHistory (Chain : Type*) := List (Entry (Chain × Input) (List Action))

namespace Bridge

variable {Chain : Type*} [Fintype Chain] [DecidableEq Chain] (bridge : Bridge crypto Chain)

def start (chain : Chain) : World := (bridge.site chain).start

/-- What the chain that keeps the token keeps of it. -/
def locked (worlds : Chain → World) : ℕ :=
  (worlds bridge.home).ledger.balance (bridge.site bridge.home).reserve.manager
    (bridge.site bridge.home).reserve.asset

/-- What there is of the token on the other chains. -/
def minted (worlds : Chain → World) : ℕ :=
  ∑ chain ∈ univ.erase bridge.home,
    (worlds chain).ledger.supply (bridge.site chain).reserve.asset

/-- The transfers of the token that the hub was told of, on all chains. -/
def emitted (history : NetworkHistory Chain) : Multiset ManagedBuffer :=
  ∑ chain, (emissions (bridge.site chain).reserve.service bridge.tokenId
    (performed (historyOf chain history)) : Multiset ManagedBuffer)

/-- The transfers of the token that were executed, on all chains. -/
def executed (history : NetworkHistory Chain) : Multiset ManagedBuffer :=
  ∑ chain, ((executions bridge.tokenId (historyOf chain history)).map Execution.inner :
    Multiset ManagedBuffer)

/-- The hub relays: every message of the hub with a transfer of the token that a gateway accepts
is for a transfer that the hub was told of, and for each of these there is one message. -/
structure Relays (history : NetworkHistory Chain) (relayed : Multiset (Chain × Execution)) :
    Prop where
  complete : ∀ chain message, (bridge.site chain).Accepted (historyOf chain history) message →
    (chain, ⟨message.crossChainId, message.inner⟩) ∈ relayed
  once : relayed.map (fun relay => relay.2.inner) ≤ bridge.emitted history

/-- A message that a gateway has accepted, and that has not been executed. -/
structure Waits (history : NetworkHistory Chain) (worlds : Chain → World) (chain : Chain)
    (message : TransferMessage) : Prop where
  accepted : (bridge.site chain).Accepted (historyOf chain history) message
  unexecuted : (worlds chain).gateway.messagesGet message.crossChainId ≠ .ok .executed

/-- What is kept covers what was minted and every transfer that is under way, and so each
message that is for the chain that keeps the token. -/
structure Solvent (history : NetworkHistory Chain) (worlds : Chain → World) : Prop where
  executed : bridge.executed history ≤ bridge.emitted history
  covered : bridge.minted worlds + amount (bridge.emitted history - bridge.executed history) ≤
    bridge.locked worlds
  payable : ∀ message, bridge.Waits history worlds bridge.home message →
    message.data.amount.1 ≤ bridge.locked worlds

/-! ### What was relayed -/

/-- The messages that were executed, with the chains where they were. -/
def performedRelays (history : NetworkHistory Chain) : Multiset (Chain × Execution) :=
  ∑ chain, (executions bridge.tokenId (historyOf chain history) : Multiset Execution).map
    (Prod.mk chain)

variable {bridge} {history : NetworkHistory Chain} {worlds : Chain → World}
variable {relayed : Multiset (Chain × Execution)}

theorem mem_performedRelays {chain : Chain} {done : Execution} :
    (chain, done) ∈ bridge.performedRelays history ↔
      done ∈ executions bridge.tokenId (historyOf chain history) := by
  simp [performedRelays, Multiset.mem_sum]

theorem map_performedRelays :
    (bridge.performedRelays history).map (fun relay => relay.2.inner) =
      bridge.executed history := by
  have hmap := map_sum (Multiset.mapAddMonoidHom fun relay : Chain × Execution => relay.2.inner)
    (fun chain => (executions bridge.tokenId (historyOf chain history) : Multiset Execution).map
      (Prod.mk chain)) univ
  simp only [Multiset.coe_mapAddMonoidHom, Multiset.map_map] at hmap
  exact hmap

theorem nodup_executionsOn (hrun : (network crypto Chain).Run bridge.start history worlds)
    (chain : Chain) : (executions bridge.tokenId (historyOf chain history)).Nodup :=
  .of_map _ (nodup_executions Site.registered (hrun.copy chain))

theorem nodup_performedRelays (hrun : (network crypto Chain).Run bridge.start history worlds) :
    (bridge.performedRelays history).Nodup := by
  rw [Multiset.nodup_iff_count_le_one]
  rintro ⟨chain, done⟩
  rw [performedRelays, Multiset.count_sum', sum_eq_single chain]
  · have hnodup := Multiset.coe_nodup.mpr (nodup_executionsOn hrun chain)
    rw [Multiset.count_map_eq_count' _ _ (Prod.mk_right_injective chain)]
    exact Multiset.nodup_iff_count_le_one.mp hnodup done
  · intro other _ hother
    apply Multiset.count_eq_zero.mpr
    intro hmem
    obtain ⟨_, _, hsame⟩ := Multiset.mem_map.mp hmem
    exact hother (Prod.mk.inj hsame).1
  · exact fun habsent => absurd (mem_univ chain) habsent

/-- What holds of every transfer that was accepted holds of every one that was executed. -/
theorem of_accepted {chain : Chain} (Relayed : Execution → Prop)
    (hrun : (network crypto Chain).Run bridge.start history worlds)
    (hkeccak : Set.InjOn crypto.keccak256 (Gateway.messagePreimages
      ((bridge.site chain).gatewayHistory (historyOf chain history))))
    (hall : ∀ message, (bridge.site chain).Accepted (historyOf chain history) message →
      Relayed ⟨message.crossChainId, message.inner⟩)
    {done : Execution} (hdone : done ∈ executions bridge.tokenId (historyOf chain history)) :
    Relayed done := by
  rw [← bridge.token chain] at hdone
  obtain ⟨message, haccepted, hid, hinner⟩ :=
    Site.accepted_of_execution (hrun.copy chain) hkeccak hdone
  have hrelayed := hall message haccepted
  rwa [hid, hinner] at hrelayed

/-- Whatever is executed was relayed. -/
theorem performedRelays_le (hrun : (network crypto Chain).Run bridge.start history worlds)
    (hkeccak : ∀ chain, Set.InjOn crypto.keccak256 (Gateway.messagePreimages
      ((bridge.site chain).gatewayHistory (historyOf chain history))))
    (hrelays : bridge.Relays history relayed) : bridge.performedRelays history ≤ relayed := by
  rw [Multiset.le_iff_subset (nodup_performedRelays hrun)]
  rintro ⟨chain, done⟩ hmem
  exact of_accepted (fun done => (chain, done) ∈ relayed) hrun (hkeccak chain)
    (hrelays.complete chain) (mem_performedRelays.mp hmem)

/-! ### What is kept and what is owed -/

/-- What all managers of the token have in reserve. -/
theorem sum_value (worlds : Chain → World) :
    ∑ chain, (bridge.site chain).reserve.value (worlds chain).ledger =
      bridge.locked worlds - bridge.minted worlds := by
  have hhome : (bridge.site bridge.home).reserve.mints = false := by
    rw [← Bool.not_eq_true, bridge.mints]
    simp
  rw [← add_sum_erase _ _ (mem_univ bridge.home), minted]
  have hothers : ∀ chain ∈ univ.erase bridge.home,
      (bridge.site chain).reserve.value (worlds chain).ledger =
        -((worlds chain).ledger.supply (bridge.site chain).reserve.asset : ℤ) := by
    intro chain hmem
    exact Reserve.value_of_mints ((bridge.mints chain).mpr (ne_of_mem_erase hmem)) _
  rw [sum_congr rfl hothers, sum_neg_distrib, Reserve.value, hhome, locked]
  push_cast
  rfl

/-- On all chains together, what the hub was told of has come in, and no more than was executed
has gone. -/
theorem value_run (hrun : (network crypto Chain).Run bridge.start history worlds)
    (hsole : ∀ entry ∈ history,
      (bridge.site entry.input.1).reserve.Sole entry.input.2.env) :
    ∑ chain, (bridge.site chain).reserve.value (bridge.start chain).ledger +
        amount (bridge.emitted history) ≤
      ∑ chain, (bridge.site chain).reserve.value (worlds chain).ledger +
        amount (bridge.executed history) := by
  have hchain : ∀ chain, (bridge.site chain).reserve.value (bridge.start chain).ledger +
        (bridge.site chain).reserve.sent (performed (historyOf chain history)) ≤
      (bridge.site chain).reserve.value (worlds chain).ledger +
        amount ((executions bridge.tokenId (historyOf chain history)).map Execution.inner) := by
    intro chain
    have hcopy := hrun.copy chain
    have hsoleCopy : ∀ entry ∈ historyOf chain history,
        (bridge.site chain).reserve.Sole entry.input.env :=
      fun entry hmem => hsole _ (mem_historyOf.mp hmem)
    have hbacks : (bridge.site chain).reserve.value (bridge.start chain).ledger + _ ≤ _ :=
      (Reserve.backs_run hcopy hsoleCopy (bridge.site chain).stands).2
    have hgiven := Reserve.given_run Site.registered (bridge.site chain).stands hcopy hsoleCopy
    rw [bridge.token chain] at hgiven
    have hamount : amount ((executions bridge.tokenId (historyOf chain history)).map
        Execution.inner) = ((executions bridge.tokenId (historyOf chain history)).map fun done =>
          transferredAmount done.inner).sum := by
      simp [amount, Function.comp_def]
    rw [hamount]
    omega
  have hsum := sum_le_sum fun chain (_ : chain ∈ univ) => hchain chain
  rw [sum_add_distrib, sum_add_distrib] at hsum
  have hemitted : ∑ chain, (bridge.site chain).reserve.sent
      (performed (historyOf chain history)) = amount (bridge.emitted history) := by
    rw [emitted, amount_sum]
    apply sum_congr rfl
    intro chain _
    simp [amount, Reserve.sent, bridge.token chain]
  have hexecuted : ∑ chain, amount ((executions bridge.tokenId (historyOf chain history)).map
      Execution.inner) = amount (bridge.executed history) := by
    rw [executed, amount_sum]
  rw [← hemitted, ← hexecuted]
  push_cast
  exact hsum

/-- What is kept and what was executed make up for what was minted and what was emitted. -/
theorem minted_add_emitted_le (hrun : (network crypto Chain).Run bridge.start history worlds)
    (hsole : ∀ entry ∈ history,
      (bridge.site entry.input.1).reserve.Sole entry.input.2.env) :
    bridge.minted worlds + amount (bridge.emitted history) ≤
      bridge.locked worlds + amount (bridge.executed history) := by
  have hvalue := value_run hrun hsole
  rw [sum_value, sum_value] at hvalue
  have hstart : bridge.minted bridge.start ≤ bridge.locked bridge.start := bridge.covered
  omega

theorem executed_le_emitted (hrelays : bridge.Relays history relayed)
    (hperformed : bridge.performedRelays history ≤ relayed) :
    bridge.executed history ≤ bridge.emitted history := by
  rw [← map_performedRelays]
  exact (Multiset.map_le_map hperformed).trans hrelays.once

theorem Waits.not_mem_executions {chain : Chain} {message : TransferMessage}
    (hwaits : bridge.Waits history worlds chain message)
    (hrun : (network crypto Chain).Run bridge.start history worlds) :
    (⟨message.crossChainId, message.inner⟩ : Execution) ∉
      executions bridge.tokenId (historyOf chain history) := by
  have hregistered : Registered (bridge.start chain) := Site.registered
  intro hmem
  have hdone := executed_of_execution hregistered (hrun.copy chain) hmem
  exact hwaits.unexecuted hdone

/-- A message that waits is one more that was relayed. -/
theorem Waits.cons_le {chain : Chain} {message : TransferMessage}
    (hwaits : bridge.Waits history worlds chain message)
    (hrun : (network crypto Chain).Run bridge.start history worlds)
    (hrelays : bridge.Relays history relayed)
    (hperformed : bridge.performedRelays history ≤ relayed) :
    message.inner ::ₘ bridge.executed history ≤ bridge.emitted history := by
  have hnew : (chain, ⟨message.crossChainId, message.inner⟩) ∉ bridge.performedRelays history :=
    fun hmem => hwaits.not_mem_executions hrun (mem_performedRelays.mp hmem)
  have hrelayed := hrelays.complete chain message hwaits.accepted
  have hboth := (Multiset.cons_le_of_notMem hnew).mpr ⟨hrelayed, hperformed⟩
  have hmap := (Multiset.map_le_map hboth).trans hrelays.once
  rwa [Multiset.map_cons, map_performedRelays] at hmap

/-- Whatever each chain does, in whichever order, and whoever does it: what is kept of the token
covers what was minted of it elsewhere and all that is under way. -/
theorem bridge_solvent (hrun : (network crypto Chain).Run bridge.start history worlds)
    (hsole : ∀ entry ∈ history, (bridge.site entry.input.1).reserve.Sole entry.input.2.env)
    (hkeccak : ∀ chain, Set.InjOn crypto.keccak256 (Gateway.messagePreimages
      ((bridge.site chain).gatewayHistory (historyOf chain history))))
    (hrelays : bridge.Relays history relayed) : bridge.Solvent history worlds := by
  have hperformed := performedRelays_le hrun hkeccak hrelays
  have hexecuted := executed_le_emitted hrelays hperformed
  have hcovered := minted_add_emitted_le hrun hsole
  have hsplit := amount_tsub hexecuted
  refine ⟨hexecuted, by omega, fun message hwaits => ?_⟩
  have hmore := amount_le (hwaits.cons_le hrun hrelays hperformed)
  rw [← Multiset.singleton_add, amount_add] at hmore
  rw [amount_inner] at hmore
  omega

end Bridge

/-! ## A token that goes out and comes back -/

/-- A message of the hub, with all that its approval hashes. -/
structure SampleMessage where
  messageId : ManagedBuffer
  payload : ManagedBuffer
  payloadHash : Hash
  dataHash : Hash
  hashToSign : Hash
  messageHash : Hash
  signature : FixedBytes 64

def sampleSignersHash : Hash := NestedCodec.writeNat 32
  0xbdf4457dd6e79dd86b3c4a66d882684429f4d02790f30c57e5368994791f1fca

namespace SampleMessage

variable (sample : SampleMessage)

def message : Gateway.Message where
  sourceChain := ITS_HUB_CHAIN_NAME
  messageId := sample.messageId
  sourceAddress := sampleBuffer (Bytes.ascii ['h', 'u', 'b'])
  contractAddress := sampleItsAddress
  payloadHash := sample.payloadHash

def batch : ManagedBuffer := sampleBuffer (NestedCodec.depEncode sample.message)

def hashes : List (Bytes × Hash) :=
  [(sample.payload.1, sample.payloadHash), (0 :: sample.batch.1, sample.dataHash),
    (Gateway.multiversxSignedMessagePrefix ++ Address.zero.1 ++ sampleSignersHash.1 ++
      sample.dataHash.1, sample.hashToSign),
    (sample.message.preimage, sample.messageHash)]

def approve (env : Environment) : Input :=
  ⟨env, .gateway sampleUser (.approveMessages sample.batch
    ⟨Gateway.sampleSigners 0, ⟨[some sample.signature], by simp [lengthLimit]⟩⟩)⟩

def execute (env : Environment) : Input :=
  ⟨env, .its sampleUser .none (.execute ITS_HUB_CHAIN_NAME sample.messageId
    (sampleBuffer (Bytes.ascii ['h', 'u', 'b'])) sample.payload)⟩

end SampleMessage

def sampleSignature (first second : ℕ) : FixedBytes 64 :=
  ⟨(NestedCodec.writeNat 32 first).1 ++ (NestedCodec.writeNat 32 second).1,
    by simp [NestedCodec.writeNat]⟩

/-- The name of the other chain, `c`. -/
def sampleAwayName : ManagedBuffer := sampleBuffer (Bytes.ascii ['c'])

/-- A transfer from the user to the user. -/
def sampleInner (value : BigUint) : ManagedBuffer :=
  (abiEncode (⟨.ofByte 0, sampleCanonicalId, .ofFixed sampleUser, .ofFixed sampleUser,
    value, .new⟩ : InterchainTransferPayload)).toOption.getD .new

def sampleSent (chain inner : ManagedBuffer) : ManagedBuffer :=
  (abiEncode (⟨.ofByte 3, chain, inner⟩ : SendToHubPayload)).toOption.getD .new

def sampleReceived (chain inner : ManagedBuffer) : ManagedBuffer :=
  (abiEncode (⟨.ofByte 4, chain, inner⟩ : ReceiveFromHubPayload)).toOption.getD .new

/-- The token of the other chain is to be minted and burnt. -/
def sampleLink : SampleMessage where
  messageId := sampleBuffer (Bytes.ascii ['l'])
  payload := sampleReceived sampleChainName ((abiEncode (⟨.ofByte 5, sampleCanonicalId,
    .mintBurn, sampleBuffer EgldOrEsdtTokenIdentifier.egldName, sampleToken, .new⟩ :
      LinkTokenPayload)).toOption.getD .new)
  payloadHash := NestedCodec.writeNat 32
    0xb79ed1d3bd6f77fbc1ee5e912eb02f2ce9c8400e32833202f12e05ba32452f24
  dataHash := NestedCodec.writeNat 32
    0x38a1fc9059481b55d6f68c70730a1b2b84711b649f4d1d4103ea60efea785cb5
  hashToSign := NestedCodec.writeNat 32
    0x1387f91e5cd6f37537aa6079aaf96ccedeae59d14de50ae89aea2ad0843dd60c
  messageHash := NestedCodec.writeNat 32
    0x5cc633fe768ead49490603580a5de69245b6a3e3689e9a45b5369bb0bf3b9cb8
  signature := sampleSignature
    0xe21dba661b62206b186d63ddd29eed73797bb69eb854f81c881fb8aa413d2420
    0x0150abceb96be2a79d7882f06296e5331aec2aa721004f34b608369a6c952d06

/-- 4 of EGLD on their way to the other chain. -/
def sampleOutward : SampleMessage where
  messageId := sampleBuffer (Bytes.ascii ['o'])
  payload := sampleReceived sampleChainName (sampleInner (.ofByte 4))
  payloadHash := NestedCodec.writeNat 32
    0xed906beff260bb25078cb34fc01711b82a57d5761c851eda9938b1d7863e8b45
  dataHash := NestedCodec.writeNat 32
    0x4020a3828bf0071026e34c9c899895cf9958101deee8cf2c211885b9d98be162
  hashToSign := NestedCodec.writeNat 32
    0xae2cf761b8ca0b7b356ede0cb653611d0bd3d9e20f6b19bb75731bdb515a384e
  messageHash := NestedCodec.writeNat 32
    0x7566eba8f77a654215f7847f71385ee707ece20cf1cee7d7d9693f26b55680cc
  signature := sampleSignature
    0x33a93f12fb1c54fcb1365e9e6e4780ec698d711fdfb9df7d24e136bed02cffc1
    0x495c6688e63e1148483ec7afcceb18086303ceb9e9b9fe70a1561cd62d803e05

/-- 3 of them on their way back. -/
def sampleHomeward : SampleMessage where
  messageId := sampleBuffer (Bytes.ascii ['b'])
  payload := sampleReceived sampleAwayName (sampleInner (.ofByte 3))
  payloadHash := NestedCodec.writeNat 32
    0xb296669c7a7b73c85646645cf2792251db355515b9728ef7caf0c5150b7d7c28
  dataHash := NestedCodec.writeNat 32
    0x486cafbb13fdb918dbe2f88a7471c9bf3ec286e47a9c4268e7e3af441edcc944
  hashToSign := NestedCodec.writeNat 32
    0xdd1bdfff5c28af8f5aeb7b75d52b9f9b0ff297c1e9b7daad51331925b2f80f20
  messageHash := NestedCodec.writeNat 32
    0x51659c52d81353fe743584ad6d91f7c79addea53070529bac0df820aafa32485
  signature := sampleSignature
    0x44a4216e70d4d2af0022668735338a93f23f8fd87146ae65ea4d15f9b4b11543
    0x73f8c92699781a0536c285831194a77f5a607ba13de929cc90c7bfbc41e1c308

def sampleBridgeHashes : List (Bytes × Hash) :=
  sampleHashes ++
    [(((sampleHashes.map Prod.snd)[2]?.getD zeroHash).1 ++
        ((sampleHashes.map Prod.snd)[0]?.getD zeroHash).1 ++ EgldOrEsdtTokenIdentifier.egldName,
      sampleCanonicalSalt),
    (((sampleHashes.map Prod.snd)[1]?.getD zeroHash).1 ++ sampleCanonicalSalt.1,
      sampleCanonicalId),
    (sampleAwayName.1, NestedCodec.writeNat 32
      0x0b42b6393c1f53060fe3ddbfcd7aadcca894465a5a438f69c87d790b2299b9b2),
    ((sampleSent sampleAwayName (sampleInner (.ofByte 4))).1, NestedCodec.writeNat 32
      0x4466b8fb24dd20331d7d54fd9bf5131b269c83167801482a8d8b0b72842b23f8),
    ((sampleSent sampleChainName (sampleInner (.ofByte 3))).1, NestedCodec.writeNat 32
      0xadddc992cddbcaf4a03125d770c77dcc055dd67d3dc4354ec4deb1a4401c67a9),
    (Gateway.signersHashPreimage (Gateway.sampleSigners 0), sampleSignersHash)] ++
  sampleLink.hashes ++ sampleOutward.hashes ++ sampleHomeward.hashes

def sampleBridgeCrypto : Crypto :=
  .tabulated sampleBridgeHashes ([sampleLink, sampleOutward, sampleHomeward].map fun sample =>
    (Gateway.sampleKey.1, sample.hashToSign.1, sample.signature.1))

/-- On the other chain the manager alone may mint the token. -/
def sampleAwayEnvironment : Environment where
  blockTimestamp := 0
  gasLeft := 0
  ownerOf _ := sampleUser
  hasLocalRoles holder token := decide (holder = sampleAddress 7 ∧ token = sampleToken)
  newAddress := sampleAddress 7
  accepts _ := false

def sampleAwayWorld : Outcome World := do
  let its ← init sampleBridgeCrypto (sampleAddress 3) (sampleAddress 4) (sampleAddress 5)
    sampleUser sampleAwayName (sampleBuffer (Bytes.ascii ['h', 'u', 'b'])) [sampleChainName]
  return {
    itsAddress := sampleItsAddress
    its
    gateway := Gateway.State.blank
    managers := fun _ => none
    ledger := Ledger.empty
    pending := [] }

def sampleHome : Reserve :=
  ⟨sampleItsAddress, sampleCanonicalId, sampleAddress 6, .egld, false⟩

def sampleAway : Reserve :=
  ⟨sampleItsAddress, sampleCanonicalId, sampleAddress 7, .esdt sampleToken, true⟩

/-- 4 of EGLD go out and arrive, and 3 of them are sent back and approved. -/
def sampleBridgeInputs : List (Bool × Input) :=
  [(false, ⟨sampleEnvironment, .its sampleUser (.egld 5) (.interchainTransfer sampleCanonicalId
      sampleAwayName (.ofFixed sampleUser) .new 1)⟩),
    (true, sampleOutward.approve sampleAwayEnvironment),
    (true, sampleOutward.execute sampleAwayEnvironment),
    (true, ⟨sampleAwayEnvironment, .its sampleUser (.multiEsdt [⟨sampleToken, 0, 3⟩])
      (.interchainTransfer sampleCanonicalId sampleChainName (.ofFixed sampleUser) .new 0)⟩),
    (false, sampleHomeward.approve sampleEnvironment)]

/-- The chains when everything has just been deployed: the home chain, and the other one. -/
def sampleLaunch (chain : Bool) : Outcome (World × List Gateway.Event) := do
  let (deployed, events) ← Gateway.init sampleBridgeCrypto Gateway.sampleContext 0 Address.zero 0
    sampleUser [Gateway.sampleSigners 0]
  let world ← cond chain sampleAwayWorld (sampleWorld sampleBridgeCrypto)
  return ({ world with gateway := deployed }, events)

/-- At home the token is registered, and on the other chain it is linked. -/
def sampleEarlier (chain : Bool) : List Input :=
  cond chain [sampleLink.approve sampleAwayEnvironment, sampleLink.execute sampleAwayEnvironment]
    [sampleRegister]

def sampleOpening (launch : Bool → World) (chain : Bool) : World :=
  ((machine sampleBridgeCrypto).replay (launch chain) (sampleEarlier chain)).2

def sampleReplayed (launch : Bool → World) : NetworkHistory Bool × (Bool → World) :=
  (network sampleBridgeCrypto Bool).replay (sampleOpening launch) sampleBridgeInputs

def sampleReserve (chain : Bool) : Reserve := cond chain sampleAway sampleHome

/-- What the start of a chain is checked for. -/
structure SampleStart where
  itsAddress : Address
  registered : Option Address
  manager : Option (Address × TokenManagerType × Option EgldOrEsdtTokenIdentifier)
  apart : Bool
  holding : ℕ
  deriving DecidableEq

/-- What is locked at home, or minted on the other chain. -/
def sampleHolding (chain : Bool) (world : World) : ℕ :=
  cond chain (world.ledger.supply sampleAway.asset)
    (world.ledger.balance sampleHome.manager sampleHome.asset)

def sampleStartOf (chain : Bool) (world : World) : SampleStart where
  itsAddress := world.itsAddress
  registered := world.its.tokenManagerAddress (sampleReserve chain).tokenId
  manager := (world.managers (sampleReserve chain).manager).map fun state =>
    (state.interchainTokenService, state.implementationType, state.tokenIdentifier)
  apart := (world.managers (sampleReserve chain).service).isNone
  holding := sampleHolding chain world

/-- What the chains are checked for in the end. -/
structure SampleEnd where
  accepted : List Gateway.Message
  hashesApart : Bool
  emitted : List ManagedBuffer
  executed : List Execution
  holding : ℕ
  deriving DecidableEq

def sampleEndOf (launch : Bool → World) (events : List Gateway.Event) (chain : Bool) :
    SampleEnd :=
  let earlier := ((machine sampleBridgeCrypto).replay (launch chain) (sampleEarlier chain)).1
  let (history, worlds) := sampleReplayed launch
  let gatewayHistory :=
    earlier.flatMap gatewayView ++ (historyOf chain history).flatMap gatewayView
  { accepted := Gateway.acceptedMessages gatewayHistory
    hashesApart := Gateway.hashesApart sampleBridgeCrypto events gatewayHistory
    emitted := emissions sampleItsAddress sampleCanonicalId
      (performed (historyOf chain history))
    executed := executions sampleCanonicalId (historyOf chain history)
    holding := sampleHolding chain (worlds chain) }

def sampleExpectedStart (chain : Bool) : SampleStart where
  itsAddress := sampleItsAddress
  registered := some (sampleReserve chain).manager
  manager := some (sampleItsAddress, cond chain .mintBurn .lockUnlock,
    some (sampleReserve chain).token)
  apart := true
  holding := 0

def sampleExpectedEnd (chain : Bool) : SampleEnd where
  accepted := cond chain [sampleLink.message, sampleOutward.message] [sampleHomeward.message]
  hashesApart := true
  emitted := cond chain [sampleInner (.ofByte 3)] [sampleInner (.ofByte 4)]
  executed := cond chain
    [⟨⟨ITS_HUB_CHAIN_NAME, sampleOutward.messageId⟩, sampleInner (.ofByte 4)⟩] []
  holding := cond chain 1 4

theorem sampleBridge_replay : (do
    let (home, homeEvents) ← sampleLaunch false
    let (away, awayEvents) ← sampleLaunch true
    let launch := fun chain => cond chain away home
    return (sampleStartOf false (sampleOpening launch false),
      sampleStartOf true (sampleOpening launch true),
      sampleEndOf launch homeEvents false, sampleEndOf launch awayEvents true)) =
    .ok (sampleExpectedStart false, sampleExpectedStart true, sampleExpectedEnd false,
      sampleExpectedEnd true) := by
  decide +kernel

/-- The chains come out as they are expected. -/
structure SampleReady (launch : Bool → World) (events : Bool → List Gateway.Event) : Prop where
  launched : ∀ chain, sampleLaunch chain = .ok (launch chain, events chain)
  start : ∀ chain, sampleStartOf chain (sampleOpening launch chain) = sampleExpectedStart chain
  last : ∀ chain, sampleEndOf launch (events chain) chain = sampleExpectedEnd chain

theorem exists_sampleReady : ∃ launch events, SampleReady launch events := by
  have hreplay := sampleBridge_replay
  simp only [Outcome.bind_eq_ok, Outcome.pure_eq_ok, Prod.exists, Prod.mk.injEq] at hreplay
  obtain ⟨home, homeEvents, hhome, away, awayEvents, haway, hstartHome, hstartAway, hlastHome,
    hlastAway⟩ := hreplay
  exact ⟨fun chain => cond chain away home, fun chain => cond chain awayEvents homeEvents,
    Bool.forall_bool.mpr ⟨hhome, haway⟩, Bool.forall_bool.mpr ⟨hstartHome, hstartAway⟩,
    Bool.forall_bool.mpr ⟨hlastHome, hlastAway⟩⟩

section Ready

variable {launch : Bool → World} {events : Bool → List Gateway.Event}

theorem SampleReady.stands (h : SampleReady launch events) (chain : Bool) :
    (sampleReserve chain).Stands (sampleOpening launch chain) := by
  have hstart := h.start chain
  simp only [sampleStartOf, sampleExpectedStart, SampleStart.mk.injEq, Option.map_eq_some_iff,
    Prod.mk.injEq, Option.isNone_iff_eq_none] at hstart
  obtain ⟨hself, hregistered, ⟨state, hstate, hservice, htype, htoken⟩, hapart, _⟩ := hstart
  have hother : state.implementationType ≠ .nativeInterchainToken := by
    rw [htype]
    cases chain <;> decide
  refine ⟨?_, hregistered, ⟨state, hstate, ?_, ?_, htoken, fun hnative => absurd hnative hother⟩,
    hapart, ?_, ?_⟩
  · cases chain <;> exact hself
  · cases chain <;> exact hservice
  · rw [htype]
    cases chain <;> rfl
  · cases chain <;> decide
  · cases chain <;> decide

theorem SampleReady.launches (h : SampleReady launch events) (chain : Bool) :
    Launched sampleBridgeCrypto (launch chain) ∧
      Gateway.init sampleBridgeCrypto Gateway.sampleContext 0 Address.zero 0 sampleUser
        [Gateway.sampleSigners 0] = .ok ((launch chain).gateway, events chain) := by
  have hlaunch := h.launched chain
  simp only [sampleLaunch, Outcome.bind_eq_ok, Outcome.pure_eq_ok, Prod.exists,
    Prod.mk.injEq] at hlaunch
  obtain ⟨deployed, _, hinit, world, hworld, hsame, rfl⟩ := hlaunch
  rw [← hsame]
  refine ⟨?_, hinit⟩
  cases chain with
  | false =>
    have hlaunched := sampleWorld_launched hworld
    exact ⟨hlaunched.init, hlaunched.managers, hlaunched.pending⟩
  | true =>
    simp only [cond_true, sampleAwayWorld, Outcome.bind_eq_ok, Outcome.pure_eq_ok] at hworld
    obtain ⟨its, hits, rfl⟩ := hworld
    exact ⟨⟨_, _, _, _, _, _, _, hits⟩, rfl, rfl⟩

def sampleSite (h : SampleReady launch events) (chain : Bool) : Site sampleBridgeCrypto where
  reserve := sampleReserve chain
  launch := launch chain
  earlier := ((machine sampleBridgeCrypto).replay (launch chain) (sampleEarlier chain)).1
  start := sampleOpening launch chain
  launched := (h.launches chain).1
  gateway := ⟨_, _, _, _, _, _, _, (h.launches chain).2⟩
  run := (machine sampleBridgeCrypto).run_replay _ _
  stands := h.stands chain

theorem SampleReady.holding_start (h : SampleReady launch events) (chain : Bool) :
    sampleHolding chain (sampleOpening launch chain) = 0 :=
  congrArg SampleStart.holding (h.start chain)

def sampleBridge (h : SampleReady launch events) : Bridge sampleBridgeCrypto Bool where
  tokenId := sampleCanonicalId
  home := false
  site := sampleSite h
  token := Bool.forall_bool.mpr ⟨rfl, rfl⟩
  mints := Bool.forall_bool.mpr ⟨by simp [sampleSite, sampleReserve, sampleHome],
    by simp [sampleSite, sampleReserve, sampleAway]⟩
  covered := by
    have hothers : (univ : Finset Bool).erase false = {true} := by decide
    rw [hothers, sum_singleton]
    exact (h.holding_start true).trans_le (Nat.zero_le _)

def sampleRelayed : Multiset (Bool × Execution) :=
  {(true, ⟨⟨ITS_HUB_CHAIN_NAME, sampleOutward.messageId⟩, sampleInner (.ofByte 4)⟩),
    (false, ⟨⟨ITS_HUB_CHAIN_NAME, sampleHomeward.messageId⟩, sampleInner (.ofByte 3)⟩)}

theorem mem_sampleBridgeHashes {bytes : Bytes} {hash : Hash}
    (h : sampleBridgeCrypto.keccak256 bytes = hash) (hhash : hash ≠ NestedCodec.writeNat 32 0) :
    (bytes, hash) ∈ sampleBridgeHashes := by
  change ((sampleBridgeHashes.find? fun entry => entry.1 = bytes).map Prod.snd).getD _ = hash at h
  cases hfind : sampleBridgeHashes.find? fun entry => entry.1 = bytes with
  | none =>
    rw [hfind] at h
    exact absurd h.symm hhash
  | some entry =>
    rw [hfind] at h
    have hbytes : entry.1 = bytes := by simpa using List.find?_some hfind
    rw [← hbytes, ← h]
    exact List.mem_of_find?_eq_some hfind

/-- A sample that is a transfer of the token carries it to its chain. -/
theorem sample_payload : ∀ sample ∈ [sampleLink, sampleOutward, sampleHomeward],
    sample.payloadHash ≠ NestedCodec.writeNat 32 0 ∧
    ∀ entry ∈ sampleBridgeHashes, entry.2 = sample.payloadHash →
      entry.1 = sample.payload.1 := by
  decide +kernel

theorem received_of_sample {sample : SampleMessage} {message : TransferMessage}
    (hsample : sample ∈ [sampleLink, sampleOutward, sampleHomeward])
    (htoken : message.data.tokenId = sampleCanonicalId)
    (h : message.approval sampleBridgeCrypto sampleItsAddress = sample.message) :
    message.crossChainId = ⟨ITS_HUB_CHAIN_NAME, sample.messageId⟩ ∧
      receivedTransfer sampleCanonicalId sample.payload = some message.inner := by
  obtain ⟨hchain, hid, _, _, hhash⟩ := Gateway.Message.mk.inj h
  obtain ⟨hnonzero, hunique⟩ := sample_payload sample hsample
  have hpayload : message.payload = sample.payload :=
    Subtype.ext (hunique _ (mem_sampleBridgeHashes hhash hnonzero) rfl)
  refine ⟨by rw [TransferMessage.crossChainId, hchain, hid], ?_⟩
  rw [← hpayload]
  exact receivedTransfer_eq_some.mpr
    ⟨_, message.data, message.wraps, message.reads.decoded, htoken⟩

theorem sample_received :
    receivedTransfer sampleCanonicalId sampleLink.payload = none ∧
    receivedTransfer sampleCanonicalId sampleOutward.payload =
      some (sampleInner (.ofByte 4)) ∧
    receivedTransfer sampleCanonicalId sampleHomeward.payload =
      some (sampleInner (.ofByte 3)) := by
  decide +kernel

theorem sampleBridge_emitted (h : SampleReady launch events) :
    (sampleBridge h).emitted (sampleReplayed launch).1 =
      {sampleInner (.ofByte 3), sampleInner (.ofByte 4)} := by
  have hall : ∀ chain, emissions sampleItsAddress sampleCanonicalId
      (performed (historyOf chain (sampleReplayed launch).1)) = (sampleExpectedEnd chain).emitted :=
    fun chain => congrArg SampleEnd.emitted (h.last chain)
  rw [Bridge.emitted, Fintype.sum_bool]
  change (emissions sampleItsAddress sampleCanonicalId _ : Multiset ManagedBuffer) +
    (emissions sampleItsAddress sampleCanonicalId _ : Multiset ManagedBuffer) = _
  rw [hall, hall]
  rfl

theorem sampleBridge_executed (h : SampleReady launch events) :
    (sampleBridge h).executed (sampleReplayed launch).1 = {sampleInner (.ofByte 4)} := by
  have hall : ∀ chain, executions sampleCanonicalId (historyOf chain (sampleReplayed launch).1) =
      (sampleExpectedEnd chain).executed :=
    fun chain => congrArg SampleEnd.executed (h.last chain)
  rw [Bridge.executed, Fintype.sum_bool]
  change ((List.map Execution.inner (executions sampleCanonicalId _) : List ManagedBuffer) :
      Multiset ManagedBuffer) +
    ((List.map Execution.inner (executions sampleCanonicalId _) : List ManagedBuffer) :
      Multiset ManagedBuffer) = _
  rw [hall, hall]
  simp [sampleExpectedEnd]

theorem sampleBridge_relays (h : SampleReady launch events) :
    (sampleBridge h).Relays (sampleReplayed launch).1 sampleRelayed where
  complete chain message haccepted := by
    have haccepts : Gateway.acceptedMessages (((sampleBridge h).site chain).gatewayHistory
        (historyOf chain (sampleReplayed launch).1)) = (sampleExpectedEnd chain).accepted :=
      congrArg SampleEnd.accepted (h.last chain)
    have hservice : (sampleReserve chain).service = sampleItsAddress := by cases chain <;> rfl
    have htoken : message.data.tokenId = sampleCanonicalId :=
      haccepted.token.trans ((sampleBridge h).token chain)
    have hmem := List.mem_of_find?_eq_some haccepted.first
    rw [haccepts] at hmem
    change message.approval _ (sampleReserve chain).service ∈ _ at hmem
    rw [hservice] at hmem
    obtain ⟨hlink, houtward, hhomeward⟩ := sample_received
    cases chain with
    | false =>
      have hsame := List.mem_singleton.mp hmem
      obtain ⟨hid, hinner⟩ := received_of_sample (by simp) htoken hsame
      rw [hid, ← Option.some.inj (hhomeward.symm.trans hinner)]
      simp [sampleRelayed]
    | true =>
      rcases List.mem_cons.mp hmem with hsame | hmem
      · obtain ⟨_, hinner⟩ := received_of_sample (by simp) htoken hsame
        simp [hlink] at hinner
      · have hsame := List.mem_singleton.mp hmem
        obtain ⟨hid, hinner⟩ := received_of_sample (by simp) htoken hsame
        rw [hid, ← Option.some.inj (houtward.symm.trans hinner)]
        simp [sampleRelayed]
  once := by
    have hmap : sampleRelayed.map (fun relay => relay.2.inner) =
        {sampleInner (.ofByte 4), sampleInner (.ofByte 3)} := by
      simp only [sampleRelayed, Multiset.insert_eq_cons, Multiset.map_cons,
        Multiset.map_singleton]
    rw [sampleBridge_emitted h, hmap]
    exact (Multiset.pair_comm _ _).le

theorem sampleBridge_sole (h : SampleReady launch events) :
    ∀ entry ∈ (sampleReplayed launch).1,
      ((sampleBridge h).site entry.input.1).reserve.Sole entry.input.2.env := by
  have hhome : sampleHome.Sole sampleEnvironment := fun hmints => absurd hmints (by decide)
  have haway : sampleAway.Sole sampleAwayEnvironment := by
    intro _ holder identifier hroles _
    exact (of_decide_eq_true hroles).1
  have hall : ∀ input ∈ sampleBridgeInputs, (sampleReserve input.1).Sole input.2.env := by
    simp only [sampleBridgeInputs, List.forall_mem_cons]
    exact ⟨hhome, haway, haway, haway, hhome, by simp⟩
  intro entry hmem
  have hinput : entry.input ∈ sampleBridgeInputs := by
    rw [← (network sampleBridgeCrypto Bool).replay_inputs (sampleOpening launch) sampleBridgeInputs]
    exact List.mem_map_of_mem hmem
  exact hall _ hinput

theorem sampleBridge_injOn (h : SampleReady launch events) (chain : Bool) :
    Set.InjOn sampleBridgeCrypto.keccak256 (Gateway.messagePreimages
      (((sampleBridge h).site chain).gatewayHistory
        (historyOf chain (sampleReplayed launch).1))) := by
  have hapart := congrArg SampleEnd.hashesApart (h.last chain)
  exact (Gateway.injOn_of_hashesApart hapart).mono Set.subset_union_left

theorem sample_bridge_solvent : ∃ (bridge : Bridge sampleBridgeCrypto Bool)
    (history : NetworkHistory Bool) (worlds : Bool → World),
    (network sampleBridgeCrypto Bool).Run bridge.start history worlds ∧
    bridge.Solvent history worlds ∧ bridge.locked worlds = 4 ∧ bridge.minted worlds = 1 ∧
    amount (bridge.emitted history - bridge.executed history) = 3 := by
  obtain ⟨launch, events, h⟩ := exists_sampleReady
  have hrun := (network sampleBridgeCrypto Bool).run_replay (sampleOpening launch)
    sampleBridgeInputs
  have hsolvent : (sampleBridge h).Solvent _ _ := Bridge.bridge_solvent hrun
    (sampleBridge_sole h) (sampleBridge_injOn h) (sampleBridge_relays h)
  refine ⟨sampleBridge h, _, _, hrun, hsolvent, ?_, ?_, ?_⟩
  · exact congrArg SampleEnd.holding (h.last false)
  · have hothers : (univ : Finset Bool).erase false = {true} := by decide
    rw [Bridge.minted]
    change ∑ chain ∈ univ.erase false, sampleHolding true ((sampleReplayed launch).2 chain) = 1
    rw [hothers, sum_singleton]
    exact congrArg SampleEnd.holding (h.last true)
  · change amount ((sampleBridge h).emitted (sampleReplayed launch).1 -
      (sampleBridge h).executed (sampleReplayed launch).1) = 3
    rw [sampleBridge_emitted, sampleBridge_executed]
    decide +kernel

end Ready

end AxelarCgp.Its
