import AxelarCgp.Its.Bridge

/-!
# Transfers between two chains

Of all that the services tell the hub, only the transfers count here that name the other of two
chains.  The hub is to deliver no more there than was meant for it: then what is under way, in
either direction, is locked on top of what was minted, and nothing that was approved can fail
because too little is locked.
-/

namespace AxelarCgp.Its

open Finset Machine

variable {crypto : Crypto}

/-! ## Destinations -/

/-- What the hub is told is meant for a chain. -/
def goesTo (chain payload : ManagedBuffer) : Bool :=
  match (abiDecode payload : Outcome SendToHubPayload) with
  | .ok sendToHub => sendToHub.destinationChain = chain
  | .error _ => false

/-- The transfers of a token to a chain that the service hands the gateway for the hub. -/
def emissionsTo (service : Address) (tokenId : TokenId) (chain : ManagedBuffer)
    (trace : List Action) : List ManagedBuffer :=
  emissions service tokenId <| trace.filter fun
    | .gateway _ (.callContract _ _ payload) _ => goesTo chain payload
    | _ => false

theorem emissionsTo_sublist (service : Address) (tokenId : TokenId) (chain : ManagedBuffer)
    (trace : List Action) :
    (emissionsTo service tokenId chain trace).Sublist (emissions service tokenId trace) :=
  List.filter_sublist.filterMap _

/-! ## The two directions -/

namespace Bridge

variable (bridge : Bridge crypto Bool)

/-- The transfers of the token that the other chain has emitted for a chain. -/
def emittedTo (history : NetworkHistory Bool) (chain : Bool) : Multiset ManagedBuffer :=
  emissionsTo (bridge.site !chain).reserve.service bridge.tokenId
    (bridge.site chain).start.its.chainName (performed (historyOf (!chain) history))

/-- The transfers of the token that were executed on a chain. -/
def executedOn (history : NetworkHistory Bool) (chain : Bool) : Multiset ManagedBuffer :=
  ((executions bridge.tokenId (historyOf chain history)).map Execution.inner :
    Multiset ManagedBuffer)

/-- The transfers of the token to a chain that were emitted and not yet executed. -/
def underWay (history : NetworkHistory Bool) (chain : Bool) : Multiset ManagedBuffer :=
  bridge.emittedTo history chain - bridge.executedOn history chain

/-- The hub delivers: every message of the hub with a transfer of the token that the gateway of a
chain accepts is for a transfer that the other chain has emitted for it, and for each of these
there is one message. -/
structure Delivers (history : NetworkHistory Bool) (relayed : Bool → Multiset Execution) :
    Prop where
  complete : ∀ chain message, (bridge.site chain).Accepted (historyOf chain history) message →
    ⟨message.crossChainId, message.inner⟩ ∈ relayed chain
  once : ∀ chain, (relayed chain).map Execution.inner ≤ bridge.emittedTo history chain

/-- What is locked at home covers the supply of the other chain and what is under way to either
of them, and every message that waits at home can be paid. -/
structure Covers (history : NetworkHistory Bool) (worlds : Bool → World) : Prop where
  executed : ∀ chain, bridge.executedOn history chain ≤ bridge.emittedTo history chain
  covered : (worlds !bridge.home).ledger.supply (bridge.site !bridge.home).reserve.asset +
    amount (bridge.underWay history !bridge.home) +
    amount (bridge.underWay history bridge.home) ≤ bridge.locked worlds
  payable : ∀ message receiver, bridge.Waits history worlds bridge.home message →
    ∃ after, (worlds bridge.home).ledger.transfer (bridge.site bridge.home).reserve.manager
      receiver (bridge.site bridge.home).reserve.asset message.data.amount.1 = .ok after

variable {bridge} {history : NetworkHistory Bool} {worlds : Bool → World}
variable {relayed : Bool → Multiset Execution}

theorem minted_eq : bridge.minted worlds =
    (worlds !bridge.home).ledger.supply (bridge.site !bridge.home).reserve.asset := by
  have hother : univ.erase bridge.home = {!bridge.home} := by
    cases bridge.home <;> decide
  rw [minted, hother, sum_singleton]

/-- What the two chains emit for each other is among all that they emit. -/
theorem emittedTo_le :
    bridge.emittedTo history true + bridge.emittedTo history false ≤ bridge.emitted history := by
  rw [emitted, Fintype.sum_bool, add_comm]
  exact add_le_add (Multiset.coe_le.mpr (emissionsTo_sublist _ _ _ _).subperm)
    (Multiset.coe_le.mpr (emissionsTo_sublist _ _ _ _).subperm)

theorem executed_eq :
    bridge.executed history = bridge.executedOn history true + bridge.executedOn history false :=
  Fintype.sum_bool _

/-- Whatever is executed on a chain was delivered to it. -/
theorem executions_le (hrun : (network crypto Bool).Run bridge.start history worlds)
    (hkeccak : ∀ chain, Set.InjOn crypto.keccak256 (Gateway.messagePreimages
      ((bridge.site chain).gatewayHistory (historyOf chain history))))
    (hdelivers : bridge.Delivers history relayed) (chain : Bool) :
    (executions bridge.tokenId (historyOf chain history) : Multiset Execution) ≤
      relayed chain := by
  rw [Multiset.le_iff_subset (Multiset.coe_nodup.mpr (nodup_executionsOn hrun chain))]
  intro done hmem
  exact of_accepted (· ∈ relayed chain) hrun (hkeccak chain) (hdelivers.complete chain) hmem

theorem executedOn_le (hdelivers : bridge.Delivers history relayed) {chain : Bool}
    (hexecutions : (executions bridge.tokenId (historyOf chain history) : Multiset Execution) ≤
      relayed chain) : bridge.executedOn history chain ≤ bridge.emittedTo history chain := by
  have hmap := (Multiset.map_le_map hexecutions).trans (hdelivers.once chain)
  rwa [Multiset.map_coe] at hmap

/-- A message that waits is one of those that are under way. -/
theorem Waits.le_underWay {chain : Bool} {message : TransferMessage}
    (hwaits : bridge.Waits history worlds chain message)
    (hrun : (network crypto Bool).Run bridge.start history worlds)
    (hdelivers : bridge.Delivers history relayed)
    (hexecutions : (executions bridge.tokenId (historyOf chain history) : Multiset Execution) ≤
      relayed chain) : {message.inner} ≤ bridge.underWay history chain := by
  have hnew := hwaits.not_mem_executions hrun
  have hdelivered := hdelivers.complete chain message hwaits.accepted
  have hboth := (Multiset.cons_le_of_notMem hnew).mpr ⟨hdelivered, hexecutions⟩
  have hmap := (Multiset.map_le_map hboth).trans (hdelivers.once chain)
  rw [Multiset.map_cons, Multiset.map_coe, ← Multiset.singleton_add] at hmap
  exact le_tsub_of_add_le_right hmap

/-- Where no more was executed than was emitted, what is locked covers what is under way. -/
theorem supply_add_underWay_le (hrun : (network crypto Bool).Run bridge.start history worlds)
    (hsole : ∀ entry ∈ history, (bridge.site entry.input.1).reserve.Sole entry.input.2.env)
    (hexecuted : ∀ chain, bridge.executedOn history chain ≤ bridge.emittedTo history chain) :
    (worlds !bridge.home).ledger.supply (bridge.site !bridge.home).reserve.asset +
      amount (bridge.underWay history !bridge.home) +
      amount (bridge.underWay history bridge.home) ≤ bridge.locked worlds := by
  have hbalance := minted_add_emitted_le hrun hsole
  rw [minted_eq, executed_eq, amount_add] at hbalance
  have hemitted := amount_le (@emittedTo_le _ bridge history)
  rw [amount_add] at hemitted
  have htrue : amount (bridge.underWay history true) + _ = _ := amount_tsub (hexecuted true)
  have hfalse : amount (bridge.underWay history false) + _ = _ := amount_tsub (hexecuted false)
  cases hhome : bridge.home with
  | false =>
    rw [hhome] at hbalance
    simp only [Bool.not_false] at hbalance ⊢
    omega
  | true =>
    rw [hhome] at hbalance
    simp only [Bool.not_true] at hbalance ⊢
    omega

/-- However the steps of the two chains interleave, what is locked covers the supply of the other
chain and all that is under way between them. -/
theorem crossings_covered (hrun : (network crypto Bool).Run bridge.start history worlds)
    (hsole : ∀ entry ∈ history, (bridge.site entry.input.1).reserve.Sole entry.input.2.env)
    (hkeccak : ∀ chain, Set.InjOn crypto.keccak256 (Gateway.messagePreimages
      ((bridge.site chain).gatewayHistory (historyOf chain history))))
    (hdelivers : bridge.Delivers history relayed) : bridge.Covers history worlds := by
  have hexecutions := executions_le hrun hkeccak hdelivers
  have hexecuted := fun chain => executedOn_le hdelivers (hexecutions chain)
  have hcovered := supply_add_underWay_le hrun hsole hexecuted
  refine ⟨hexecuted, hcovered, fun message receiver hwaits => ?_⟩
  have hmore := amount_le (hwaits.le_underWay hrun hdelivers (hexecutions bridge.home))
  rw [amount_inner] at hmore
  apply Ledger.transfer_isOk
  rw [locked] at hcovered
  omega

end Bridge

/-! ## There and back -/

/-- What the other chain has emitted for a chain. -/
def sampleEmittedTo (launch : Bool → World) (chain : Bool) : List ManagedBuffer :=
  emissionsTo sampleItsAddress sampleCanonicalId (sampleOpening launch chain).its.chainName
    (performed (historyOf (!chain) (sampleReplayed launch).1))

theorem sampleEmittedTo_replay : (do
    let (home, _) ← sampleLaunch false
    let (away, _) ← sampleLaunch true
    let launch := fun chain => cond chain away home
    return (sampleEmittedTo launch false, sampleEmittedTo launch true)) =
    .ok ([sampleInner (.ofByte 3)], [sampleInner (.ofByte 4)]) := by
  decide +kernel

def sampleDelivered (chain : Bool) : Multiset Execution :=
  cond chain {⟨⟨ITS_HUB_CHAIN_NAME, sampleOutward.messageId⟩, sampleInner (.ofByte 4)⟩}
    {⟨⟨ITS_HUB_CHAIN_NAME, sampleHomeward.messageId⟩, sampleInner (.ofByte 3)⟩}

section Ready

variable {launch : Bool → World} {events : Bool → List Gateway.Event}

theorem sampleBridge_emittedTo (h : SampleReady launch events) (chain : Bool) :
    (sampleBridge h).emittedTo (sampleReplayed launch).1 chain =
      {sampleInner (cond chain (.ofByte 4) (.ofByte 3))} := by
  have hreplay := sampleEmittedTo_replay
  have hlaunch : (fun chain => cond chain (launch true) (launch false)) = launch :=
    funext (Bool.forall_bool.mpr ⟨rfl, rfl⟩)
  simp only [h.launched, Outcome.ok_bind, hlaunch] at hreplay
  obtain ⟨hhome, haway⟩ := Prod.mk.inj (Except.ok.inj hreplay)
  cases chain with
  | false =>
    change ((sampleEmittedTo launch false : List ManagedBuffer) : Multiset ManagedBuffer) = _
    rw [hhome]
    rfl
  | true =>
    change ((sampleEmittedTo launch true : List ManagedBuffer) : Multiset ManagedBuffer) = _
    rw [haway]
    rfl

theorem sampleBridge_executedOn (h : SampleReady launch events) (chain : Bool) :
    (sampleBridge h).executedOn (sampleReplayed launch).1 chain =
      cond chain {sampleInner (.ofByte 4)} 0 := by
  have hall : executions sampleCanonicalId (historyOf chain (sampleReplayed launch).1) =
      (sampleExpectedEnd chain).executed := congrArg SampleEnd.executed (h.last chain)
  change ((List.map Execution.inner (executions sampleCanonicalId _) : List ManagedBuffer) :
    Multiset ManagedBuffer) = _
  rw [hall]
  cases chain <;> simp only [sampleExpectedEnd, cond_true, cond_false, List.map_cons, List.map_nil,
    Multiset.coe_singleton, Multiset.coe_nil]

theorem sampleBridge_delivers (h : SampleReady launch events) :
    (sampleBridge h).Delivers (sampleReplayed launch).1 sampleDelivered where
  complete chain message haccepted := by
    have hrelayed := (sampleBridge_relays h).complete chain message haccepted
    simp only [sampleRelayed, Multiset.insert_eq_cons, Multiset.mem_cons, Multiset.mem_singleton,
      Prod.mk.injEq] at hrelayed
    rw [sampleDelivered]
    rcases hrelayed with ⟨rfl, hsame⟩ | ⟨rfl, hsame⟩
    · exact Multiset.mem_singleton.mpr hsame
    · exact Multiset.mem_singleton.mpr hsame
  once chain := by
    rw [sampleBridge_emittedTo]
    cases chain <;> simp only [sampleDelivered, cond_true, cond_false, Multiset.map_singleton,
      le_refl]

theorem sample_crossings_covered : ∃ (bridge : Bridge sampleBridgeCrypto Bool)
    (history : NetworkHistory Bool) (worlds : Bool → World),
    (network sampleBridgeCrypto Bool).Run bridge.start history worlds ∧
    bridge.Covers history worlds ∧ bridge.locked worlds = 4 ∧
    amount (bridge.underWay history !bridge.home) = 0 ∧
    amount (bridge.underWay history bridge.home) = 3 := by
  obtain ⟨launch, events, h⟩ := exists_sampleReady
  have hrun := (network sampleBridgeCrypto Bool).run_replay (sampleOpening launch)
    sampleBridgeInputs
  have hcovers : (sampleBridge h).Covers _ _ := Bridge.crossings_covered hrun
    (sampleBridge_sole h) (sampleBridge_injOn h) (sampleBridge_delivers h)
  refine ⟨sampleBridge h, _, _, hrun, hcovers, congrArg SampleEnd.holding (h.last false), ?_, ?_⟩
  · change amount ((sampleBridge h).emittedTo (sampleReplayed launch).1 true -
      (sampleBridge h).executedOn (sampleReplayed launch).1 true) = 0
    rw [sampleBridge_emittedTo, sampleBridge_executedOn]
    decide +kernel
  · change amount ((sampleBridge h).emittedTo (sampleReplayed launch).1 false -
      (sampleBridge h).executedOn (sampleReplayed launch).1 false) = 3
    rw [sampleBridge_emittedTo, sampleBridge_executedOn]
    decide +kernel

end Ready

end AxelarCgp.Its
