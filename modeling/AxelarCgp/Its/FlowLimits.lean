import AxelarCgp.Its.Managers
import AxelarCgp.TokenManager.Changes

/-!
# Flow limits

A token manager counts, epoch by epoch, what it gives and what it takes while a
limit is set, and refuses an amount that takes the one too far from the other.
The limit may change, go and come back in the middle of an epoch; what is
accepted under a limit leaves the two within that limit, and so within the
largest limit that something was accepted under.
-/

namespace AxelarCgp.Its

open Machine Transaction TokenManager

/-! ## A token manager and what accounts own -/

/-- Calls that anybody makes of the manager, the service included, answers of issues, and
transfers between accounts. -/
inductive ManagerInput where
  | call (env : Environment) (caller : Address) (payment : EgldOrMultiEsdtPayment)
      (call : TokenManager.Call)
  | answer (env : Environment) (user : Address) (cost : ℕ) (result : AsyncResult)
  | transfer (sender receiver : Address) (asset : Asset) (amount : ℕ)

/-- Answers may come at any time, whether an issue waits for them or not. -/
def ManagerInput.run (address : Address) : ManagerInput → Tx Unit
  | .call env caller payment endpoint => do
      let _ ← callManager env (env.context caller address payment) endpoint
  | .answer env user cost result => do
      bringBack address cost result
      issueCallback env address user cost result
  | .transfer sender receiver asset amount => Its.transfer sender receiver asset amount

/-- The manager at an address, as a machine whose output is the trace. -/
def managerMachine (address : Address) : Machine World ManagerInput (List Action) where
  step world input := do
    let result ← input.run address world
    return (result.state, result.trace)

abbrev ManagerHistory := List (Entry ManagerInput (List Action))

/-! ## What was accepted -/

/-- An amount that a manager accepted while a limit was set. -/
structure Flow where
  direction : Direction
  epoch : UInt64
  amount : ℕ
  limit : ℕ
  deriving DecidableEq

/-- The amount that a call gives or takes. -/
def flowOf (payment : EgldOrMultiEsdtPayment) : TokenManager.Call → Option (Direction × ℕ)
  | .giveToken _ amount => some (.inward, amount)
  | .takeToken =>
      match egldOrSingleFungibleEsdt payment with
      | .ok (_, amount) => some (.outward, amount)
      | .error _ => none
  | _ => none

/-- The limit that a completed entry leaves. -/
def limitAfter (limit : Option ℕ) : Entry ManagerInput (List Action) → Option ℕ
  | ⟨.call _ _ _ (.setFlowLimit flowLimit), .ok _⟩ => flowLimit
  | _ => limit

/-- The limit that a history leaves, of a manager that starts without. -/
def limitOf (history : ManagerHistory) : Option ℕ :=
  history.foldl limitAfter none

/-- What a completed entry adds to the flows when it finds a limit. -/
def flowsAdded (limit : Option ℕ) : Entry ManagerInput (List Action) → List Flow
  | ⟨.call env _ payment call, .ok _⟩ =>
      match limit, flowOf payment call with
      | some limit, some (direction, amount) =>
          [⟨direction, env.blockTimestamp / EPOCH_TIME, amount, limit⟩]
      | _, _ => []
  | _ => []

theorem flowsAdded_unlimited (entry : Entry ManagerInput (List Action)) :
    flowsAdded none entry = [] := by
  unfold flowsAdded
  split <;> rfl

theorem flowsAdded_of_none {env : Environment} {caller : Address}
    {payment : EgldOrMultiEsdtPayment} {call : TokenManager.Call} {trace : List Action}
    (hnone : flowOf payment call = none) (limit : Option ℕ) :
    flowsAdded limit ⟨.call env caller payment call, .ok trace⟩ = [] := by
  cases limit <;> simp [flowsAdded, hnone]

theorem flowsAdded_of_some {env : Environment} {caller : Address}
    {payment : EgldOrMultiEsdtPayment} {call : TokenManager.Call} {trace : List Action}
    {direction : Direction} {amount : ℕ} (hflow : flowOf payment call = some (direction, amount))
    (limit : ℕ) : flowsAdded (some limit) ⟨.call env caller payment call, .ok trace⟩ =
      [⟨direction, env.blockTimestamp / EPOCH_TIME, amount, limit⟩] := by
  simp [flowsAdded, hflow]

/-- Only the call that sets the limit changes it. -/
theorem limitAfter_of_ne {env : Environment} {caller : Address}
    {payment : EgldOrMultiEsdtPayment} {call : TokenManager.Call}
    (hother : ∀ flowLimit, call ≠ .setFlowLimit flowLimit) (limit : Option ℕ)
    (result : Outcome (List Action)) :
    limitAfter limit ⟨.call env caller payment call, result⟩ = limit := by
  cases call with
  | setFlowLimit flowLimit => exact absurd rfl (hother flowLimit)
  | _ => rfl

/-- What stops leaves the limit and the flows alone. -/
theorem limitAfter_stopped (limit : Option ℕ) (input : ManagerInput) (message : String) :
    limitAfter limit ⟨input, .error message⟩ = limit := by
  unfold limitAfter
  split <;> simp_all

theorem flowsAdded_stopped (limit : Option ℕ) (input : ManagerInput) (message : String) :
    flowsAdded limit ⟨input, .error message⟩ = [] := by
  unfold flowsAdded
  split <;> simp_all

/-- The flows of a history that starts with some limit. -/
def flowsFrom (limit : Option ℕ) : ManagerHistory → List Flow
  | [] => []
  | entry :: history => flowsAdded limit entry ++ flowsFrom (limitAfter limit entry) history

/-- The flows of a history, in order. -/
def flowsOf (history : ManagerHistory) : List Flow :=
  flowsFrom none history

@[simp]
theorem limitOf_snoc (history : ManagerHistory) (entry : Entry ManagerInput (List Action)) :
    limitOf (history ++ [entry]) = limitAfter (limitOf history) entry := by
  rw [limitOf, List.foldl_append]
  rfl

theorem flowsFrom_append (limit : Option ℕ) (first second : ManagerHistory) :
    flowsFrom limit (first ++ second) =
      flowsFrom limit first ++ flowsFrom (first.foldl limitAfter limit) second := by
  induction first generalizing limit with
  | nil => rfl
  | cons entry first ih => rw [List.cons_append, flowsFrom, ih, flowsFrom, List.append_assoc,
      List.foldl_cons]

@[simp]
theorem flowsOf_snoc (history : ManagerHistory) (entry : Entry ManagerInput (List Action)) :
    flowsOf (history ++ [entry]) = flowsOf history ++ flowsAdded (limitOf history) entry := by
  rw [flowsOf, flowsFrom_append, flowsFrom, flowsFrom, List.append_nil]
  rfl

/-- The sum of what flowed in one direction in an epoch. -/
def flowed (direction : Direction) (epoch : UInt64) (flows : List Flow) : ℕ :=
  ((flows.filter fun flow => flow.direction = direction ∧ flow.epoch = epoch).map Flow.amount).sum

/-- The largest limit that something was accepted under in an epoch. -/
def largestLimit (epoch : UInt64) (flows : List Flow) : ℕ :=
  ((flows.filter fun flow => flow.epoch = epoch).map Flow.limit).foldr max 0

theorem flowed_append (direction : Direction) (epoch : UInt64) (first second : List Flow) :
    flowed direction epoch (first ++ second) =
      flowed direction epoch first + flowed direction epoch second := by
  simp [flowed]

theorem flowed_singleton (direction : Direction) (epoch : UInt64) (flow : Flow) :
    flowed direction epoch [flow] =
      if flow.direction = direction ∧ flow.epoch = epoch then flow.amount else 0 := by
  by_cases hflow : flow.direction = direction ∧ flow.epoch = epoch
  · simp [flowed, hflow]
  · rw [if_neg hflow, flowed, List.filter_singleton, decide_eq_false hflow]
    rfl

theorem limit_le_largestLimit {epoch : UInt64} {flow : Flow} {flows : List Flow}
    (hmem : flow ∈ flows) (hepoch : flow.epoch = epoch) :
    flow.limit ≤ largestLimit epoch flows := by
  apply List.le_max_of_le _ le_rfl
  apply List.mem_map_of_mem
  exact List.mem_filter.mpr ⟨hmem, decide_eq_true hepoch⟩

theorem largestLimit_le_append (epoch : UInt64) (first second : List Flow) :
    largestLimit epoch first ≤ largestLimit epoch (first ++ second) := by
  apply List.max_le_of_forall_le
  intro limit hlimit
  obtain ⟨flow, hflow, rfl⟩ := List.mem_map.mp hlimit
  obtain ⟨hmem, hepoch⟩ := List.mem_filter.mp hflow
  exact limit_le_largestLimit (List.mem_append_left _ hmem) (of_decide_eq_true hepoch)

/-! ## Steps -/

section Steps

variable {address : Address} {world next : World} {input : ManagerInput} {trace : List Action}

@[simp]
theorem managerMachine_step :
    (managerMachine address).step world input = .ok (next, trace) ↔
      input.run address world = .ok ⟨(), next, trace⟩ := by
  simp only [managerMachine, Outcome.bind_eq_ok, Outcome.pure_eq_ok, Prod.mk.injEq]
  constructor
  · rintro ⟨result, hok, rfl, rfl⟩
    exact hok
  · intro hok
    exact ⟨_, hok, rfl, rfl⟩

/-- What a step does to the state of the manager: its call changes it, or it keeps its limit
and its flows. -/
inductive ManagerStep (address : Address) (state : TokenManager.State) :
    ManagerInput → TokenManager.State → Prop where
  | call {env : Environment} {caller : Address} {payment : EgldOrMultiEsdtPayment}
      {call : TokenManager.Call} {next : TokenManager.State} :
      Changes (env.context caller address payment) state call next →
      ManagerStep address state (.call env caller payment call) next
  | answer {env : Environment} {user : Address} {cost : ℕ} {result : AsyncResult}
      (tokenIdentifier : Option EgldOrEsdtTokenIdentifier) :
      ManagerStep address state (.answer env user cost result) { state with tokenIdentifier }
  | transfer {sender receiver : Address} {asset : Asset} {amount : ℕ} :
      ManagerStep address state (.transfer sender receiver asset amount) state

theorem managerStep {state : TokenManager.State} (hmanager : world.managers address = some state)
    (hok : (managerMachine address).step world input = .ok (next, trace)) :
    ∃ after, next.managers address = some after ∧ ManagerStep address state input after := by
  rw [managerMachine_step] at hok
  cases input with
  | call env caller payment call =>
    obtain ⟨_, _, _, _, hcall, hreply, _⟩ := Transaction.bind_eq_ok.mp hok
    obtain ⟨_, rfl, _⟩ := Transaction.pure_eq_ok.mp hreply
    obtain ⟨found, after, _, _, _, hfound, hperform, rfl, _⟩ := callManager_manager hcall
    obtain rfl : state = found := Option.some.inj (hmanager.symm.trans hfound)
    exact ⟨after, Function.update_self _ _ _, .call (perform_changes hperform)⟩
  | transfer sender receiver asset amount =>
    obtain ⟨ledger, _, rfl, _⟩ := transfer_eq_ok.mp hok
    exact ⟨state, hmanager, .transfer⟩
  | answer env user cost result =>
    obtain ⟨_, back, _, _, hback, hcallback, _⟩ := Transaction.bind_eq_ok.mp hok
    obtain ⟨found, after, _, _, _, _, _, hfound, hcode, rfl⟩ := issueCallback_manager hcallback
    rw [bringBack_manager hback] at hfound
    obtain rfl : state = found := Option.some.inj (hmanager.symm.trans hfound)
    obtain ⟨tokenIdentifier, rfl⟩ := deployTokenCallback_changes hcode
    exact ⟨_, Function.update_self _ _ _, .answer tokenIdentifier⟩

/-- What a call does about flows: it counts an amount, sets the limit, or does neither. -/
inductive FlowStep (epoch : UInt64) (payment : EgldOrMultiEsdtPayment)
    (state next : TokenManager.State) : TokenManager.Call → Prop where
  | counts {call : TokenManager.Call} {direction : Direction} {amount : ℕ} :
      flowOf payment call = some (direction, amount) → Flows direction epoch amount state next →
      FlowStep epoch payment state next call
  | sets {flowLimit : Option ℕ} : next = { state with flowLimit } →
      FlowStep epoch payment state next (.setFlowLimit flowLimit)
  | keeps {call : TokenManager.Call} : flowOf payment call = none →
      (∀ flowLimit, call ≠ .setFlowLimit flowLimit) → next.flowLimit = state.flowLimit →
      (∀ direction, next.flowAmount direction = state.flowAmount direction) →
      FlowStep epoch payment state next call

theorem flowStep {ctx : CallContext} {call : TokenManager.Call} {state next : TokenManager.State}
    (h : Changes ctx state call next) :
    FlowStep (ctx.blockTimestamp / EPOCH_TIME) ctx.callValue state next call := by
  cases h with
  | giveToken hflows => exact .counts rfl hflows
  | takeToken hpayment hflows => exact .counts (by simp only [flowOf, hpayment]) hflows
  | setFlowLimit => exact .sets rfl
  | deployInterchainToken hadds =>
    cases hadds with
    | first => exact .keeps rfl (by simp) rfl fun direction => by cases direction <;> rfl
    | again => exact .keeps rfl (by simp) rfl fun direction => by cases direction <;> rfl
  | _ => exact .keeps rfl (by simp) rfl fun direction => by cases direction <;> rfl

end Steps

/-! ## Runs -/

/-- A manager knows its limit and its flows, and they are close to each other. -/
structure FlowsCounted (history : ManagerHistory) (state : TokenManager.State) : Prop where
  limit : state.flowLimit = limitOf history
  counted : ∀ direction epoch,
    state.flowAmount direction epoch = flowed direction epoch (flowsOf history)
  bounded : ∀ flow ∈ flowsOf history, flow.amount ≤ flow.limit
  close : ∀ direction epoch, state.flowAmount direction epoch ≤
    state.flowAmount direction.opposite epoch + largestLimit epoch (flowsOf history)

namespace FlowsCounted

variable {history : ManagerHistory} {state next : TokenManager.State}

/-- An entry without flows that leaves the limit alone. -/
theorem keep (h : FlowsCounted history state) {entry : Entry ManagerInput (List Action)}
    (hlimit : limitAfter (limitOf history) entry = next.flowLimit)
    (hadded : flowsAdded (limitOf history) entry = [])
    (hamount : ∀ direction, next.flowAmount direction = state.flowAmount direction) :
    FlowsCounted (history ++ [entry]) next := by
  have hflows : flowsOf (history ++ [entry]) = flowsOf history := by
    rw [flowsOf_snoc, hadded, List.append_nil]
  refine { limit := ?limit, counted := ?counted, bounded := ?bounded, close := ?close }
  case limit =>
    rw [limitOf_snoc, hlimit]
  case counted =>
    intro direction epoch
    rw [hflows, hamount]
    exact h.counted direction epoch
  case bounded =>
    rw [hflows]
    exact h.bounded
  case close =>
    intro direction epoch
    rw [hflows, hamount, hamount]
    exact h.close direction epoch

/-- An amount that was accepted under a limit. -/
theorem count (h : FlowsCounted history state) {entry : Entry ManagerInput (List Action)}
    {direction : Direction} {epoch : UInt64} {amount limit : ℕ}
    (hroom : state.flowAmount direction epoch + amount ≤
      state.flowAmount direction.opposite epoch + limit)
    (hsmall : amount ≤ limit)
    (hlimit : limitAfter (limitOf history) entry = limitOf history)
    (hadded : flowsAdded (limitOf history) entry = [⟨direction, epoch, amount, limit⟩]) :
    FlowsCounted (history ++ [entry])
      (state.withFlow direction epoch (state.flowAmount direction epoch + amount)) := by
  have hflows : flowsOf (history ++ [entry]) =
      flowsOf history ++ [⟨direction, epoch, amount, limit⟩] := by
    rw [flowsOf_snoc, hadded]
  refine { limit := ?limit, counted := ?counted, bounded := ?bounded, close := ?close }
  case limit =>
    rw [State.flowLimit_withFlow, limitOf_snoc, hlimit]
    exact h.limit
  case counted =>
    intro other otherEpoch
    rw [State.flowAmount_withFlow, hflows, flowed_append, flowed_singleton]
    by_cases hsame : direction = other ∧ epoch = otherEpoch
    · obtain ⟨rfl, rfl⟩ := hsame
      simp [h.counted direction epoch]
    · rw [if_neg hsame, if_neg hsame, Nat.add_zero]
      exact h.counted other otherEpoch
  case bounded =>
    rw [hflows]
    intro flow hmem
    rcases List.mem_append.mp hmem with hmem | hmem
    · exact h.bounded flow hmem
    · rw [List.mem_singleton.mp hmem]
      exact hsmall
  case close =>
    intro other otherEpoch
    have hbefore := h.close other otherEpoch
    have hgrows := largestLimit_le_append otherEpoch (flowsOf history)
      [⟨direction, epoch, amount, limit⟩]
    rw [hflows, State.flowAmount_withFlow, State.flowAmount_withFlow]
    by_cases hepoch : epoch = otherEpoch
    · subst hepoch
      let flow : Flow := ⟨direction, epoch, amount, limit⟩
      have hlargest : flow.limit ≤ largestLimit epoch (flowsOf history ++ [flow]) :=
        limit_le_largestLimit (List.mem_append_right _ (List.mem_singleton_self flow)) rfl
      simp only [flow] at hlargest
      by_cases hother : other = direction
      · -- What was accepted stays within the limit it was accepted under.
        subst hother
        simp only [other.opposite_ne.symm, and_true, if_true, if_false]
        omega
      · -- The other flow has only come closer.
        obtain rfl := Direction.eq_opposite_of_ne hother
        rw [Direction.opposite_opposite] at hbefore
        simp only [Ne.symm hother, Direction.opposite_opposite, and_true, if_true, if_false]
        omega
    · simp only [hepoch, and_false, if_false]
      omega

/-- The flows stay counted when a step completes. -/
theorem step (h : FlowsCounted history state) {address : Address} {input : ManagerInput}
    {trace : List Action} (hstep : ManagerStep address state input next) :
    FlowsCounted (history ++ [⟨input, .ok trace⟩]) next := by
  cases hstep with
  | transfer => exact h.keep h.limit.symm rfl fun _ => rfl
  | answer => exact h.keep h.limit.symm rfl fun direction => by cases direction <;> rfl
  | @call env caller payment call _ hchanges =>
    cases flowStep hchanges with
    | sets hnext =>
      obtain rfl := hnext
      exact h.keep rfl (flowsAdded_of_none rfl _) fun direction => by cases direction <;> rfl
    | keeps hnone hother hlimit hamount =>
      have hkept : limitAfter (limitOf history) ⟨.call env caller payment call, .ok trace⟩ =
          limitOf history := limitAfter_of_ne hother _ _
      exact h.keep (hkept.trans (h.limit.symm.trans hlimit.symm)) (flowsAdded_of_none hnone _)
        hamount
    | counts hflow hflows =>
      have hother : ∀ flowLimit, call ≠ .setFlowLimit flowLimit := by
        rintro flowLimit rfl
        simp [flowOf] at hflow
      have hkept : limitAfter (limitOf history) ⟨.call env caller payment call, .ok trace⟩ =
          limitOf history := limitAfter_of_ne hother _ _
      cases hflows with
      | unlimited hunset =>
        refine h.keep (hkept.trans h.limit.symm) ?_ fun _ => rfl
        rw [← h.limit, hunset]
        exact flowsAdded_unlimited _
      | limited hset hroom hsmall =>
        refine h.count hroom hsmall hkept ?_
        rw [← h.limit, hset]
        exact flowsAdded_of_some hflow _

theorem run {address : Address} {start world : World} {initial : TokenManager.State}
    (hmanager : start.managers address = some initial) (hunset : initial.flowLimit = none)
    (hempty : ∀ direction epoch, initial.flowAmount direction epoch = 0)
    (hrun : Run (managerMachine address) start history world) :
    ∃ state, world.managers address = some state ∧ FlowsCounted history state := by
  induction hrun with
  | start =>
    refine ⟨initial, hmanager, hunset, ?_, ?_, ?_⟩
    · intro direction epoch
      exact hempty direction epoch
    · intro flow hmem
      exact absurd hmem List.not_mem_nil
    · intro direction epoch
      rw [hempty]
      exact Nat.zero_le _
  | completed _ hok ih =>
    obtain ⟨state, hstate, hcounted⟩ := ih
    obtain ⟨after, hafter, hstep⟩ := managerStep hstate hok
    exact ⟨after, hafter, hcounted.step hstep⟩
  | stopped _ _ ih =>
    obtain ⟨state, hstate, hcounted⟩ := ih
    refine ⟨state, hstate, hcounted.keep ?_ (flowsAdded_stopped _ _ _) fun _ => rfl⟩
    rw [limitAfter_stopped]
    exact hcounted.limit.symm

end FlowsCounted

/-- The epoch that a call of the manager is in. -/
def ManagerInput.epoch : ManagerInput → Option UInt64
  | .call env _ _ _ => some (env.blockTimestamp / EPOCH_TIME)
  | _ => none

/-- A step leaves the flows of every epoch but its own alone. -/
theorem ManagerStep.apart {address : Address} {state next : TokenManager.State}
    {input : ManagerInput} (h : ManagerStep address state input next) {epoch : UInt64}
    (hepoch : input.epoch ≠ some epoch) (direction : Direction) :
    next.flowAmount direction epoch = state.flowAmount direction epoch := by
  cases h with
  | transfer => rfl
  | answer => cases direction <;> rfl
  | @call env caller payment call _ hchanges =>
    cases flowStep hchanges with
    | sets hnext =>
      obtain rfl := hnext
      cases direction <;> rfl
    | keeps _ _ _ hamount => rw [hamount]
    | counts _ hflows =>
      cases hflows with
      | unlimited => rfl
      | limited =>
        rw [State.flowAmount_withFlow, if_neg]
        rintro ⟨_, rfl⟩
        exact hepoch rfl

/-- What holds of the flows of a manager in every run. -/
structure FlowsLimited (address : Address) (start : World) (history : ManagerHistory)
    (world : World) : Prop where
  counted : ∃ state, world.managers address = some state ∧ state.flowLimit = limitOf history ∧
    ∀ epoch, state.flowInAmount epoch = flowed .inward epoch (flowsOf history) ∧
      state.flowOutAmount epoch = flowed .outward epoch (flowsOf history) ∧
      |(state.flowInAmount epoch : ℤ) - state.flowOutAmount epoch| ≤
        largestLimit epoch (flowsOf history)
  bounded : ∀ flow ∈ flowsOf history, flow.amount ≤ flow.limit
  apart : ∀ before input trace after reached next state later epoch,
    history = before ++ ⟨input, .ok trace⟩ :: after →
    Run (managerMachine address) start before reached →
    Run (managerMachine address) start (before ++ [⟨input, .ok trace⟩]) next →
    reached.managers address = some state → next.managers address = some later →
    input.epoch ≠ some epoch →
    later.flowInAmount epoch = state.flowInAmount epoch ∧
      later.flowOutAmount epoch = state.flowOutAmount epoch
  rejected : ∀ before input message after reached next,
    history = before ++ ⟨input, .error message⟩ :: after →
    Run (managerMachine address) start before reached →
    Run (managerMachine address) start (before ++ [⟨input, .error message⟩]) next →
    next = reached

theorem flowsLimited {service address : Address} {managerType : TokenManagerType} {tokenId : Hash}
    {params : DeployTokenManagerParams} {initial : Completed TokenManager.State TokenManager.Action
      Unit}
    (hinit : TokenManager.init service managerType tokenId params .blank = .ok initial)
    {start world : World} (hmanager : start.managers address = some initial.state)
    {history : ManagerHistory} (hrun : Run (managerMachine address) start history world) :
    FlowsLimited address start history world := by
  obtain ⟨_, state, _⟩ := initial
  obtain ⟨_, _, rfl⟩ := init_eq_ok hinit
  have hcounted := FlowsCounted.run hmanager rfl (fun direction _ => by cases direction <;> rfl)
    hrun
  obtain ⟨state, hstate, hflows⟩ := hcounted
  refine {
    counted := ⟨state, hstate, hflows.limit, fun epoch => ⟨hflows.counted .inward epoch,
      hflows.counted .outward epoch, ?close⟩⟩
    bounded := hflows.bounded
    apart := ?apart
    rejected := ?rejected }
  case close =>
    have hin : state.flowInAmount epoch ≤ state.flowOutAmount epoch + _ :=
      hflows.close .inward epoch
    have hout : state.flowOutAmount epoch ≤ state.flowInAmount epoch + _ :=
      hflows.close .outward epoch
    rw [abs_le]
    constructor <;> omega
  case apart =>
    rintro before input trace after reached next state later epoch rfl hreached hnext hbefore
      hafter hepoch
    obtain ⟨_, hagain, hok⟩ := hnext.completed_inv
    rw [hreached.unique hagain] at hbefore
    obtain ⟨found, hfound, hstep⟩ := managerStep hbefore hok
    obtain rfl : later = found := Option.some.inj (hafter.symm.trans hfound)
    exact ⟨hstep.apart hepoch .inward, hstep.apart hepoch .outward⟩
  case rejected =>
    rintro before input message after reached next _ hreached hnext
    exact hnext.stopped_inv.1.unique hreached

/-! ## A limit that is lowered -/

def sampleManagerParams : DeployTokenManagerParams := ⟨some sampleUser, some .egld⟩

/-- A manager of EGLD, and its service with 100 of EGLD. -/
def sampleManaged : Outcome World := do
  let initial ← TokenManager.init sampleItsAddress .lockUnlock zeroHash sampleManagerParams
    .blank
  let start ← sampleWorld (.tabulated [] [])
  return { start with
    managers := Function.update start.managers (sampleAddress 6) (some initial.state)
    ledger := start.ledger.mint sampleItsAddress .egld 100 }

def sampleSetLimit (limit : ℕ) : ManagerInput :=
  .call sampleEnvironment sampleUser .none (.setFlowLimit (some limit))

def sampleTake (amount : ℕ) : ManagerInput :=
  .call sampleEnvironment sampleItsAddress (.egld amount) .takeToken

def sampleGive (amount : ℕ) : ManagerInput :=
  .call sampleEnvironment sampleItsAddress .none (.giveToken sampleUser amount)

/-- The last amount is too large for a limit of 3. -/
def sampleFlowInputs : List ManagerInput :=
  [sampleTake 50, sampleSetLimit 10, sampleTake 8, sampleSetLimit 3, sampleGive 2, sampleGive 4]

theorem sampleFlows_replay : (do
    let start ← sampleManaged
    let (history, _) := (managerMachine (sampleAddress 6)).replay start sampleFlowInputs
    return flowsOf history) = .ok [⟨.outward, 0, 8, 10⟩, ⟨.inward, 0, 2, 3⟩] := by
  decide +kernel

theorem sample_flowsLimited : ∃ start history world,
    Run (managerMachine (sampleAddress 6)) start history world ∧
    flowsOf history = [⟨.outward, 0, 8, 10⟩, ⟨.inward, 0, 2, 3⟩] ∧
    FlowsLimited (sampleAddress 6) start history world := by
  have hreplay := sampleFlows_replay
  simp only [Outcome.bind_eq_ok, Outcome.pure_eq_ok] at hreplay
  obtain ⟨start, hstart, hflows⟩ := hreplay
  simp only [sampleManaged, Outcome.bind_eq_ok, Outcome.pure_eq_ok] at hstart
  obtain ⟨initial, hinit, before, _, rfl⟩ := hstart
  let start : World := { before with
    managers := Function.update before.managers (sampleAddress 6) (some initial.state)
    ledger := before.ledger.mint sampleItsAddress .egld 100 }
  have hmanager : start.managers (sampleAddress 6) = some initial.state := by
    simp [start]
  have hrun := (managerMachine (sampleAddress 6)).run_replay start sampleFlowInputs
  exact ⟨start, _, _, hrun, hflows, flowsLimited hinit hmanager hrun⟩

end AxelarCgp.Its
