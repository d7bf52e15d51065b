import AxelarCgp.Its.Deliveries
import AxelarCgp.ItsProxy.Funds

/-!
# What reaches the proxy

The token service and the proxy on one shard, where anybody may call either.  The service passes
a message of the hub on once, so that no two payments come to the proxy under one key.  Whatever
the hub sent to it is with one call in flight, recorded as failed, or with the executable.
-/

namespace AxelarCgp.ItsProxy

open Machine Custody

/-! ## The service and the proxy -/

structure Shard where
  world : Its.World
  proxyAddress : Address
  proxy : System

/-- A transaction with the service or what is around it, or one with the proxy. -/
inductive ShardInput where
  | service (input : Its.Input)
  | proxy (input : Input)

/-- What was done, and what the proxy took in of it. -/
inductive ShardOutput where
  | service (trace : List Its.Action) (received : History)
  | proxy (output : Output)

abbrev ShardHistory := List (Entry ShardInput ShardOutput)

/-- What the service passes on to a contract. -/
def passedTo (target : Address) : Its.Action → Option Delivery
  | .executeWithInterchainToken destination sourceChain messageId sourceAddress data tokenId
      token amount =>
      if destination = target then
        some ⟨⟨sourceChain, messageId, sourceAddress, data, tokenId⟩, token, amount⟩
      else none
  | _ => none

/-- The call by which it is passed on. -/
def Delivery.call (env : Its.Environment) (service proxyAddress : Address)
    (delivery : Delivery) : Input :=
  .executeWithInterchainToken (env.context service proxyAddress
    (Its.singlePayment delivery.tokenIdentifier delivery.amount)) delivery.key

def Input.caller : Input → Option Address
  | executeWithInterchainToken ctx _ => some ctx.caller
  | setMinGasForExecution ctx _ => some ctx.caller
  | upgrade _ => none
  | callback _ _ => none

namespace Shard

/-- The calls of the proxy that a trace of the service makes. -/
def calls (env : Its.Environment) (shard : Shard) (trace : List Its.Action) : List Input :=
  (trace.filterMap (passedTo shard.proxyAddress)).map
    (Delivery.call env shard.world.itsAddress shard.proxyAddress)

variable (crypto : Crypto)

def step (shard : Shard) : ShardInput → Outcome (Shard × ShardOutput)
  | .service input => do
      let (world, trace) ← (Its.machine crypto).step shard.world input
      let (proxy, received) ← machine.complete shard.proxy (shard.calls input.env trace)
      return ({ shard with world, proxy }, .service trace received)
  | .proxy input => do
      -- The service calls the proxy where its code says so, and nowhere else.
      require (input.caller ≠ some shard.world.itsAddress) "not an account that signs transactions"
      let (proxy, output) ← input.perform shard.proxy
      return ({ shard with proxy }, .proxy output)

/-- Transactions of anybody with either of them, and answers of calls in flight, in any order. -/
def machine : Machine Shard ShardInput ShardOutput where
  step := step crypto

end Shard

/-- What an entry shows of the service. -/
def serviceView (entry : Entry ShardInput ShardOutput) : Its.History :=
  match entry.input, entry.result with
  | .service input, .ok (.service trace _) => [⟨input, .ok trace⟩]
  | _, _ => []

/-- What an entry shows of the proxy. -/
def proxyView (entry : Entry ShardInput ShardOutput) : History :=
  match entry.input, entry.result with
  | .service _, .ok (.service _ received) => received
  | .proxy input, .ok (.proxy output) => [⟨input, .ok output⟩]
  | _, _ => []

section Runs

variable {crypto : Crypto} {start shard next : Shard} {history : ShardHistory}
variable {output : ShardOutput}

theorem step_service_eq_ok {input : Its.Input}
    (hok : (Shard.machine crypto).step shard (.service input) = .ok (next, output)) :
    ∃ trace received, output = .service trace received ∧
      (Its.machine crypto).step shard.world input = .ok (next.world, trace) ∧
      machine.complete shard.proxy (shard.calls input.env trace) = .ok (next.proxy, received) ∧
      next.proxyAddress = shard.proxyAddress := by
  simp only [Shard.machine, Shard.step, Outcome.bind_eq_ok, Outcome.pure_eq_ok, Prod.exists,
    Prod.mk.injEq] at hok
  obtain ⟨world, trace, hstep, proxy, received, hcomplete, rfl, rfl⟩ := hok
  exact ⟨trace, received, rfl, hstep, hcomplete, rfl⟩

theorem step_proxy_eq_ok {input : Input}
    (hok : (Shard.machine crypto).step shard (.proxy input) = .ok (next, output)) :
    ∃ result, output = .proxy result ∧ input.caller ≠ some shard.world.itsAddress ∧
      input.perform shard.proxy = .ok (next.proxy, result) ∧
      next.world = shard.world ∧ next.proxyAddress = shard.proxyAddress := by
  simp only [Shard.machine, Shard.step, Outcome.bind_eq_ok, Outcome.exists_unit,
    Outcome.require_eq_ok, Outcome.pure_eq_ok, Prod.exists, Prod.mk.injEq] at hok
  obtain ⟨hcaller, proxy, result, hperform, rfl, rfl⟩ := hok
  exact ⟨result, rfl, hcaller, hperform, rfl, rfl⟩

/-- What happens to the service is a run of it. -/
theorem service_run (hrun : (Shard.machine crypto).Run start history shard) :
    (Its.machine crypto).Run start.world (history.flatMap serviceView) shard.world := by
  apply hrun.project Shard.world serviceView
  · intro before reached input output next _ hok
    cases input with
    | service input =>
        obtain ⟨trace, received, rfl, hstep, _⟩ := step_service_eq_ok hok
        exact Run.start.completed hstep
    | proxy input =>
        obtain ⟨result, rfl, _, _, hworld, _⟩ := step_proxy_eq_ok hok
        rw [hworld]
        exact .start
  · intro before reached input message _ _
    cases input <;> exact .start

/-- What happens to the proxy is a run of it. -/
theorem proxy_run (hrun : (Shard.machine crypto).Run start history shard) :
    machine.Run start.proxy (history.flatMap proxyView) shard.proxy := by
  apply hrun.project Shard.proxy proxyView
  · intro before reached input output next _ hok
    cases input with
    | service input =>
        obtain ⟨trace, received, rfl, _, hcomplete, _⟩ := step_service_eq_ok hok
        exact (complete_eq_ok hcomplete).1
    | proxy input =>
        obtain ⟨result, rfl, _, hperform, _⟩ := step_proxy_eq_ok hok
        exact Run.start.completed hperform
  · intro before reached input message _ _
    cases input <;> exact .start

/-! ## What the proxy takes in -/

theorem proxyAddress_run (hrun : (Shard.machine crypto).Run start history shard) :
    shard.proxyAddress = start.proxyAddress := by
  induction hrun with
  | start => rfl
  | stopped _ _ ih => exact ih
  | @completed _ _ _ input _ _ hok ih =>
      cases input with
      | service input =>
          obtain ⟨_, _, _, _, _, hsame⟩ := step_service_eq_ok hok
          exact hsame.trans ih
      | proxy input =>
          obtain ⟨_, _, _, _, _, hsame⟩ := step_proxy_eq_ok hok
          exact hsame.trans ih

theorem delivered_singlePayment (delivery : Delivery) :
    delivered delivery.key (Its.singlePayment delivery.tokenIdentifier delivery.amount) =
      some delivery := by
  obtain ⟨key, tokenIdentifier, amount⟩ := delivery
  cases tokenIdentifier <;> rfl

theorem deliveries_append (service : Address) (first second : History) :
    deliveries service (first ++ second) =
      deliveries service first ++ deliveries service second := by
  simp [deliveries, sent, List.filterMap_append]

/-- Calls of the service that complete are deliveries. -/
theorem deliveries_calls {env : Its.Environment} {service proxyAddress : Address}
    {passed : List Delivery} {received : History}
    (hinputs : received.map Entry.input = passed.map (Delivery.call env service proxyAddress))
    (hok : ∀ entry ∈ received, ∃ output, entry.result = .ok output) :
    deliveries service received = passed := by
  induction received generalizing passed with
  | nil =>
      obtain rfl := List.map_eq_nil_iff.mp hinputs.symm
      rfl
  | cons entry received ih =>
      obtain _ | ⟨delivery, passed⟩ := passed
      · simp at hinputs
      · obtain ⟨hinput, hrest⟩ := List.cons.inj hinputs
        obtain ⟨output, hresult⟩ := hok entry (List.mem_cons_self ..)
        obtain ⟨input, result⟩ := entry
        obtain rfl : input = _ := hinput
        obtain rfl : result = _ := hresult
        have hmove : deliveryMove service ⟨delivery.call env service proxyAddress, .ok output⟩ =
            some (.send delivery) := by
          simp [deliveryMove, Delivery.call, Its.Environment.context, delivered_singlePayment]
        rw [← List.singleton_append, deliveries_append,
          ih hrest fun other hother => hok other (List.mem_cons_of_mem _ hother)]
        simp [deliveries, sent, hmove, Move.sent]

/-- Nobody else delivers. -/
theorem deliveries_other {service : Address} {input : Input} (result : Output)
    (hcaller : input.caller ≠ some service) :
    deliveries service [⟨input, .ok result⟩] = [] := by
  cases input with
  | executeWithInterchainToken ctx key =>
      have hother : ctx.caller ≠ service := fun heq => hcaller (congrArg some heq)
      cases hregistered : result.registered <;>
        simp [deliveries, sent, deliveryMove, hother, hregistered, Move.sent]
  | callback index answer => cases answer <;> rfl
  | _ => rfl

/-- The proxy takes in what the service passes on to it, and nothing else. -/
theorem deliveries_run (hregistered : Its.Registered start.world)
    (hrun : (Shard.machine crypto).Run start history shard) :
    deliveries start.world.itsAddress (history.flatMap proxyView) =
      (Its.performed (history.flatMap serviceView)).filterMap (passedTo start.proxyAddress) := by
  induction hrun with
  | start => rfl
  | @stopped history reached input message hbefore _ ih =>
      have hquiet : proxyView ⟨input, .error message⟩ = [] ∧
          serviceView ⟨input, .error message⟩ = [] := by
        cases input <;> exact ⟨rfl, rfl⟩
      simpa [hquiet] using ih
  | @completed history reached next input output hbefore hok ih =>
      have hself := (Its.keepsRegistry_run hregistered (service_run hbefore)).itsAddress
      rw [List.flatMap_append, List.flatMap_append, deliveries_append, ih]
      cases input with
      | service input =>
          obtain ⟨trace, received, rfl, _, hcomplete, _⟩ := step_service_eq_ok hok
          obtain ⟨_, hinputs, hanswers⟩ := complete_eq_ok hcomplete
          rw [Shard.calls, hself, proxyAddress_run hbefore] at hinputs
          have hnew := deliveries_calls hinputs hanswers
          simp only [List.flatMap_singleton, proxyView, serviceView, Its.performed_completed,
            List.filterMap_append, hnew]
      | proxy input =>
          obtain ⟨result, rfl, hcaller, _⟩ := step_proxy_eq_ok hok
          rw [hself] at hcaller
          have hnone := deliveries_other result hcaller
          simpa [proxyView, serviceView] using hnone

end Runs

/-! ## Arrivals -/

/-- A message of the hub with tokens for the proxy, the manager that gave them, and the token. -/
structure Arrival where
  delivery : Its.Delivery
  token : EgldOrEsdtTokenIdentifier

namespace Arrival

def id (arrival : Arrival) : Gateway.CrossChainId := arrival.delivery.id

/-- What the message brings to the proxy. -/
def payment (arrival : Arrival) : Delivery :=
  let message := arrival.delivery.message
  ⟨⟨message.originalSourceChain, message.messageId, message.data.sourceAddress,
    message.data.data, message.data.tokenId⟩, arrival.token, message.data.amount.1⟩

/-- The step takes in the message, and the manager of the token it names gives what the proxy
gets. -/
structure Brought (crypto : Crypto) (proxyAddress : Address) (arrival : Arrival)
    (input : Its.Input) (before : Its.World) (trace : List Its.Action) (after : Its.World) :
    Prop where
  delivers : Its.Delivers crypto input before trace after arrival.delivery.message
    arrival.delivery.manager
  addressed : arrival.delivery.message.receiver = proxyAddress
  token : ∃ state, before.managers arrival.delivery.manager = some state ∧
    arrival.token = state.tokenIdentifierGet

end Arrival

section Arrivals

variable {crypto : Crypto} {start world next : Its.World} {history : Its.History}
variable {proxyAddress : Address} {trace : List Its.Action}

theorem filterMap_passed (trace : List Its.Action) :
    (Its.passed trace).filterMap (passedTo proxyAddress) =
      trace.filterMap (passedTo proxyAddress) := by
  rw [Its.passed, List.filterMap_filter]
  apply List.filterMap_congr
  intro action _
  cases action <;> simp [passedTo]

/-- A step brings nothing to the proxy, or what a message of the hub has for it. -/
theorem arrival_step {input : Its.Input} (hregistered : Its.Registered world)
    (hok : (Its.machine crypto).step world input = .ok (next, trace)) :
    trace.filterMap (passedTo proxyAddress) = [] ∨
      ∃ arrival : Arrival, trace.filterMap (passedTo proxyAddress) = [arrival.payment] ∧
        arrival.Brought crypto proxyAddress input world trace next := by
  rw [← filterMap_passed]
  rcases Its.delivers_step hregistered.nameless hok with ⟨⟨_, hnone⟩, _⟩ |
    ⟨message, manager, hdelivers⟩
  · exact .inl (by rw [hnone]; rfl)
  · cases hdelivers.moved with
    | direct _ _ _ _ hnone => exact .inl (by rw [hnone]; rfl)
    | @withData state _ _ _ hstate _ _ _ hpassed =>
        rw [hpassed]
        by_cases hreceiver : message.receiver = proxyAddress
        · refine .inr ⟨⟨⟨message, manager⟩, state.tokenIdentifierGet⟩, ?_, hdelivers, hreceiver,
            state, hstate, rfl⟩
          simp [Its.TransferMessage.passesOn, passedTo, hreceiver, Arrival.payment]
        · exact .inl (by simp [Its.TransferMessage.passesOn, passedTo, hreceiver])

/-- What a run brings to the proxy, it brings with messages of the hub, one for each payment. -/
theorem exists_arrivals (proxyAddress : Address) (hregistered : Its.Registered start)
    (hrun : (Its.machine crypto).Run start history world) :
    ∃ arrivals : List Arrival,
      (Its.performed history).filterMap (passedTo proxyAddress) =
        arrivals.map Arrival.payment ∧
      (arrivals.map Arrival.id).Nodup ∧
      ∀ arrival ∈ arrivals, ∃ before reached input trace next,
        (Its.machine crypto).Took start history before reached input trace next ∧
        arrival.Brought crypto proxyAddress input reached trace next := by
  obtain ⟨arrivals, hpassed, hcount, htaken⟩ := Its.exists_items
    (List.filterMap (passedTo proxyAddress)) Arrival.payment Arrival.id
    (Arrival.Brought crypto proxyAddress) rfl (fun _ _ => List.filterMap_append)
    (fun _ _ _ _ _ hbrought => hbrought.delivers.consumptions_pos)
    (fun _ _ _ _ hkeeps hok => arrival_step hkeeps.registered hok) hregistered hrun
  exact ⟨arrivals, hpassed, Its.nodup_of_count_le hregistered hrun hcount, htaken⟩

/-- Messages with different ids bring payments under different keys. -/
theorem nodup_keys {arrivals : List Arrival} (hnodup : (arrivals.map Arrival.id).Nodup)
    (hhub : ∀ arrival ∈ arrivals,
      arrival.delivery.message.sourceChain = Its.ITS_HUB_CHAIN_NAME) :
    ((arrivals.map Arrival.payment).map Delivery.key).Nodup := by
  rw [List.map_map]
  apply (List.Nodup.of_map _ hnodup).map_on
  intro left hleft right hright hkey
  apply List.inj_on_of_nodup_map hnodup hleft hright
  have hmessage : left.delivery.message.messageId = right.delivery.message.messageId :=
    congrArg CallKey.messageId hkey
  change Gateway.CrossChainId.mk _ _ = Gateway.CrossChainId.mk _ _
  rw [hhub left hleft, hhub right hright, hmessage]

end Arrivals

/-! ## The funds -/

/-- Where the payments are that messages of the hub brought to the proxy. -/
structure Forwards (crypto : Crypto) (deployed : Gateway.State) (events : List Gateway.Event)
    (earlier : Gateway.History) (start : Shard) (history : ShardHistory) (shard : Shard)
    (arrivals : List Arrival) (failed : List Delivery) : Prop where
  /-- No message brought two of them, and signers in office had signed each message. -/
  once : (arrivals.map Arrival.id).Nodup
  signed : ∀ arrival ∈ arrivals, ∃ before reached input trace next,
    (Its.machine crypto).Took start.world (history.flatMap serviceView) before reached input trace
      next ∧
    arrival.Brought crypto start.proxyAddress input reached trace next ∧
    Gateway.Authorised crypto deployed events (earlier ++ before.flatMap Its.gatewayView)
      (arrival.delivery.message.approval crypto start.world.itsAddress)
  /-- The service passed on nothing else. -/
  passed : (Its.performed (history.flatMap serviceView)).filterMap
    (passedTo start.proxyAddress) = arrivals.map Arrival.payment
  /-- Each of them is with a call in flight, in the table of failed calls, or accepted. -/
  places : (arrivals.map Arrival.payment).Perm (shard.proxy.pending.map Promise.delivery ++
    failed ++ accepted (history.flatMap proxyView))
  apart : ((arrivals.map Arrival.payment).map Delivery.key).Nodup
  recorded : Records Delivery.key Delivery.payment shard.proxy.contract.failedCalls failed
  held : ∀ asset, shard.proxy.balance asset = Purse.total (failed.map Delivery.carried) asset

/-- What the hub sends to an executable behind the proxy is not lost and not accepted twice,
however often it fails and whoever calls it again. -/
theorem proxy_forwards {crypto : Crypto} {deployed : Gateway.State} {events : List Gateway.Event}
    {earlier : Gateway.History} {ctx : CallContext} {retention : ℕ} {domainSeparator : Hash}
    {delay : UInt64} {operator : Address} {signers : List Gateway.WeightedSigners}
    {start shard : Shard} {history : ShardHistory} {contractAddress : Address}
    {minGasForExecution : UInt64}
    (hinit : Gateway.init crypto ctx retention domainSeparator delay operator signers =
      .ok (deployed, events))
    (hearlier : (Gateway.machine crypto).Run deployed earlier start.world.gateway)
    (hlaunched : Its.Launched crypto start.world)
    (hproxy : start.proxy =
      .deploy (init start.world.itsAddress contractAddress minGasForExecution))
    (hrun : (Shard.machine crypto).Run start history shard)
    (hkeccak : Set.InjOn crypto.keccak256
      (Gateway.messagePreimages (earlier ++
          (history.flatMap serviceView).flatMap Its.gatewayView) ∪
        Gateway.signersHashed events (earlier ++
          (history.flatMap serviceView).flatMap Its.gatewayView))) :
    ∃ arrivals failed,
      Forwards crypto deployed events earlier start history shard arrivals failed := by
  have hregistered := hlaunched.registered
  have hservice := service_run hrun
  have hforwards := proxy_run hrun
  obtain ⟨arrivals, hpassed, honce, htaken⟩ :=
    exists_arrivals start.proxyAddress hregistered hservice
  have hapart := nodup_keys honce fun arrival harrival => by
    obtain ⟨_, _, _, _, _, _, hbrought⟩ := htaken arrival harrival
    exact hbrought.delivers.hub.1
  have hdeliveries := (deliveries_run hregistered hrun).trans hpassed
  rw [hproxy] at hforwards
  have hdistinct : ((deliveries start.world.itsAddress
      (history.flatMap proxyView)).map Delivery.key).Nodup := by
    rw [hdeliveries]
    exact hapart
  have hkept : Kept start.world.itsAddress (history.flatMap proxyView) shard.proxy :=
    Kept.run (.deploy _ _ _) hforwards hdistinct
  have hitems := hkept.items.symm
  rw [hdeliveries, Places.items, ← hkept.settled, ← hkept.holds.inFlight] at hitems
  refine ⟨arrivals, _, {
    once := honce
    signed := ?signed
    passed := hpassed
    places := hitems
    apart := hapart
    recorded := hkept.holds.recorded
    held := hkept.holds.balance }⟩
  intro arrival harrival
  obtain ⟨before, reached, input, trace, next, htook, hbrought⟩ := htaken arrival harrival
  have htakenIn : arrival.delivery.TakenIn crypto start.world (history.flatMap serviceView)
      before := ⟨reached, input, trace, next, htook, hbrought.delivers⟩
  exact ⟨before, reached, input, trace, next, htook, hbrought,
    htakenIn.authorised hregistered hservice hinit hearlier hkeccak⟩

/-! ## EGLD that arrives at the second try

The hub brings 4 of EGLD with data for an executable behind the proxy.  The first call of the
executable fails, and a user calls it again. -/

open Its (sampleCanonicalId sampleEnvironment sampleHashes sampleWorld)

def samplePayload : ManagedBuffer :=
  let payload : Outcome ManagedBuffer := do
    let inner ← Its.abiEncode (⟨.ofByte 0, sampleCanonicalId, sampleBuffer (Bytes.ascii ['s']),
      .ofFixed (sampleAddress 7), .ofByte 4, sampleBuffer (Bytes.ascii ['x'])⟩ :
      Its.InterchainTransferPayload)
    Its.abiEncode (⟨.ofByte 4, sampleBuffer (Bytes.ascii ['c']), inner⟩ :
      Its.ReceiveFromHubPayload)
  payload.toOption.getD .new

def sampleMessage : Gateway.Message where
  sourceChain := Its.ITS_HUB_CHAIN_NAME
  messageId := sampleBuffer (Bytes.ascii ['m'])
  sourceAddress := sampleBuffer (Bytes.ascii ['h', 'u', 'b'])
  contractAddress := Its.sampleItsAddress
  payloadHash := NestedCodec.writeNat 32
    0xfa28211e5eea96a1859039e1e057ff3d7de3a01922b64b77666a830ce8011492

def sampleBatch : ManagedBuffer :=
  sampleBuffer (NestedCodec.depEncode sampleMessage)

def sampleDataHash : Hash := NestedCodec.writeNat 32
  0x75e383d313319b13e6520f4188da8376d312258403ad72c06b6d57457ae9df2c

def sampleHashToSign : Hash := NestedCodec.writeNat 32
  0x4890118cbdd6b9e98dd36d3932bbe85f6bb60b0152b84b45dafedcdd23f7612d

def sampleSignature : FixedBytes 64 :=
  ⟨(NestedCodec.writeNat 32
      0xa47d2383d494d46c501ebb6d7ec26fa329e8b196d59be1403bbad43567d37449).1 ++
    (NestedCodec.writeNat 32
      0xcb4193f1e30dad64f0950dae17f13b28700da527bd1281e75fbf9b83a70bb703).1,
    by simp [NestedCodec.writeNat]⟩

def sampleProof : Gateway.Proof where
  signers := Gateway.sampleSigners 0
  signatures := ⟨[some sampleSignature], by decide⟩

def sampleCrypto : Crypto :=
  let signersHash := NestedCodec.writeNat 32
    0xbdf4457dd6e79dd86b3c4a66d882684429f4d02790f30c57e5368994791f1fca
  .tabulated (sampleHashes ++
    [(((sampleHashes.map Prod.snd)[2]?.getD Its.zeroHash).1 ++
        ((sampleHashes.map Prod.snd)[0]?.getD Its.zeroHash).1 ++
        EgldOrEsdtTokenIdentifier.egldName, Its.sampleCanonicalSalt),
    (((sampleHashes.map Prod.snd)[1]?.getD Its.zeroHash).1 ++ Its.sampleCanonicalSalt.1,
      sampleCanonicalId),
    (samplePayload.1, sampleMessage.payloadHash),
    (Gateway.signersHashPreimage (Gateway.sampleSigners 0), signersHash),
    (0 :: sampleBatch.1, sampleDataHash),
    (Gateway.multiversxSignedMessagePrefix ++ Address.zero.1 ++ signersHash.1 ++
      sampleDataHash.1, sampleHashToSign),
    (sampleMessage.preimage, NestedCodec.writeNat 32
      0x7b8a7e6f7fb56ca61e27717c88a530ac5fa39f352652df570d902b9eebe600b4)])
    [(Gateway.sampleKey.1, sampleHashToSign.1, sampleSignature.1)]

def sampleArrivalKey : CallKey where
  sourceChain := sampleBuffer (Bytes.ascii ['c'])
  messageId := sampleMessage.messageId
  sourceAddress := sampleBuffer (Bytes.ascii ['s'])
  data := sampleBuffer (Bytes.ascii ['x'])
  tokenId := sampleCanonicalId

/-- The manager gets 4 of EGLD by a transfer to another chain, and gives them to the proxy. -/
def sampleShardInputs : List ShardInput :=
  let env : Its.Environment :=
    { sampleEnvironment with accepts := fun _ => true, gasLeft := 100000000 }
  [.service Its.sampleRegister, .service Its.sampleTransfer,
    .service ⟨env, .gateway Its.sampleUser (.approveMessages sampleBatch sampleProof)⟩,
    .service ⟨env, .its Its.sampleUser .none (.execute sampleMessage.sourceChain
      sampleMessage.messageId sampleMessage.sourceAddress samplePayload)⟩,
    .proxy (.callback 0 sampleFailure),
    .proxy (.executeWithInterchainToken (sampleContext Its.sampleUser .none) sampleArrivalKey),
    .proxy (.callback 0 (.ok []))]

def sampleGateway : Outcome (Gateway.State × List Gateway.Event) :=
  Gateway.init sampleCrypto Gateway.sampleContext 0 Address.zero 0 Its.sampleUser
    [Gateway.sampleSigners 0]

def sampleShard (world : Its.World) (deployed : Gateway.State) : Shard where
  world := { world with gateway := deployed }
  proxyAddress := sampleAddress 7
  proxy := .deploy (init world.itsAddress sampleExecutable 20000000)

theorem sampleShard_replay : (do
    let (deployed, events) ← sampleGateway
    let world ← sampleWorld sampleCrypto
    let history : ShardHistory := ((Shard.machine sampleCrypto).replay
      (sampleShard world deployed) sampleShardInputs).1
    return (history.all fun entry => entry.result.isOk,
      (Its.performed (history.flatMap serviceView)).filterMap (passedTo (sampleAddress 7)),
      accepted (history.flatMap proxyView), Gateway.hashesApart sampleCrypto events
        ((history.flatMap serviceView).flatMap Its.gatewayView))) =
      .ok (true, [⟨sampleArrivalKey, .egld, 4⟩], [⟨sampleArrivalKey, .egld, 4⟩], true) := by
  decide +kernel

/-- The executable has accepted what the one message brought, and nothing is left behind. -/
theorem sample_proxy_forwards : ∃ deployed events start history shard arrival,
    sampleGateway = .ok (deployed, events) ∧
    (Shard.machine sampleCrypto).Run start history shard ∧
    accepted (history.flatMap proxyView) = [arrival.payment] ∧
    Forwards sampleCrypto deployed events [] start history shard [arrival] [] := by
  have hreplay := sampleShard_replay
  simp only [Outcome.bind_eq_ok, Outcome.pure_eq_ok, Prod.exists, Prod.mk.injEq] at hreplay
  obtain ⟨deployed, events, hinit, world, hworld, _, hpassed, haccepted, hapart⟩ := hreplay
  have hlaunched : Its.Launched sampleCrypto (sampleShard world deployed).world :=
    ⟨(Its.sampleWorld_launched hworld).init, (Its.sampleWorld_launched hworld).managers,
      (Its.sampleWorld_launched hworld).pending⟩
  have hrun := (Shard.machine sampleCrypto).run_replay (sampleShard world deployed)
    sampleShardInputs
  obtain ⟨arrivals, failed, hforwards⟩ := @proxy_forwards _ _ _ [] _ _ _ _ _ _ _ _ _ _ _ hinit
    .start hlaunched rfl hrun (Gateway.injOn_of_hashesApart hapart)
  obtain ⟨arrival, rfl, hpayment⟩ :=
    List.map_eq_singleton_iff.mp (hforwards.passed.symm.trans hpassed)
  have hlength := hforwards.places.length_eq
  rw [haccepted] at hlength
  simp only [List.map_cons, List.map_nil, List.length_cons, List.length_nil, List.length_append,
    List.length_map] at hlength
  obtain rfl : failed = [] := List.length_eq_zero_iff.mp (by omega)
  exact ⟨deployed, events, _, _, _, arrival, hinit, hrun, haccepted.trans (by rw [hpayment]),
    hforwards⟩

end AxelarCgp.ItsProxy
