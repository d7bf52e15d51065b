import AxelarCgp.Core.Licence
import AxelarCgp.Governance.System

/-!
# Proposal slots

Each hash has two slots, one per kind of proposal, and every operation of the
contract acts on one slot or on none.  This file says which operation does what
to which slot; the two kinds are told apart by nothing but their mappers.
-/

namespace AxelarCgp.Governance

open NestedCodec

/-- What the contract stores for one hash and kind.  Only time-lock proposals
have an `eta`, and only operator proposals an approval. -/
structure Slot where
  submitted : Bool
  beingExecuted : Bool
  eta : UInt64
  approved : Bool
  deriving DecidableEq

def State.slot (state : State) (kind : Kind) (hash : Hash) : Slot :=
  match kind with
  | .timeLock => {
      submitted := state.timeLockProposalsSubmitted hash
      beingExecuted := state.timeLockProposalsBeingExecuted hash
      eta := state.timeLockEta hash
      approved := false }
  | .operator => {
      submitted := state.operatorProposalsSubmitted hash
      beingExecuted := state.operatorProposalsBeingExecuted hash
      eta := 0
      approved := state.operatorApprovals hash }

namespace Slot

def schedule (eta : UInt64) (slot : Slot) : Slot :=
  { slot with submitted := true, eta }

def approve (slot : Slot) : Slot :=
  { slot with submitted := true, approved := true }

def remove (slot : Slot) : Slot :=
  { slot with submitted := false, eta := 0, approved := false }

def setBeingExecuted (value : Bool) (slot : Slot) : Slot :=
  { slot with beingExecuted := value }

/-- A submitted proposal is a licence to dispatch, on the terms of its eta. -/
def licence (slot : Slot) : Licence UInt64 where
  granted := if slot.submitted then some slot.eta else none
  inFlight := slot.beingExecuted

end Slot

/-- `next` comes from `state` by `act` on one slot.  Nothing else about
proposals changes, nor does the minimum delay. -/
structure ActsOn (kind : Kind) (hash : Hash) (act : Slot → Slot) (state next : State) :
    Prop where
  here : next.slot kind hash = act (state.slot kind hash)
  elsewhere : ∀ otherKind otherHash, ¬ (otherKind = kind ∧ otherHash = hash) →
    next.slot otherKind otherHash = state.slot otherKind otherHash
  delay : next.minimumTimeLockDelay = state.minimumTimeLockDelay

/-- No slot changes, nor does the minimum delay. -/
structure KeepsSlots (state next : State) : Prop where
  slots : ∀ kind hash, next.slot kind hash = state.slot kind hash
  delay : next.minimumTimeLockDelay = state.minimumTimeLockDelay

namespace ActsOn

variable {kind : Kind} {hash : Hash} {first second : Slot → Slot} {state middle next : State}

theorem comp (hfirst : ActsOn kind hash first state middle)
    (hsecond : ActsOn kind hash second middle next) :
    ActsOn kind hash (second ∘ first) state next where
  here := by rw [hsecond.here, hfirst.here, Function.comp]
  elsewhere otherKind otherHash hother := by
    rw [hsecond.elsewhere _ _ hother, hfirst.elsewhere _ _ hother]
  delay := hsecond.delay.trans hfirst.delay

theorem keep (hfirst : ActsOn kind hash first state middle) (hkeep : KeepsSlots middle next) :
    ActsOn kind hash first state next where
  here := by rw [hkeep.slots, hfirst.here]
  elsewhere otherKind otherHash hother := by
    rw [hkeep.slots, hfirst.elsewhere _ _ hother]
  delay := hkeep.delay.trans hfirst.delay

end ActsOn

namespace KeepsSlots

theorem refl (state : State) : KeepsSlots state state :=
  ⟨fun _ _ => rfl, rfl⟩

theorem trans {state middle next : State} (hfirst : KeepsSlots state middle)
    (hsecond : KeepsSlots middle next) : KeepsSlots state next :=
  ⟨fun kind hash => (hsecond.slots kind hash).trans (hfirst.slots kind hash),
    hsecond.delay.trans hfirst.delay⟩

theorem refund (user : Address) (token : EgldOrEsdtToken) (amount : ℕ) (state : State) :
    KeepsSlots state (Governance.refund user token amount state) :=
  ⟨fun kind _ => by cases kind <;> rfl, rfl⟩

theorem handleCallbackFailure (caller : Address) (payments : EgldOrMultiEsdtPayment)
    (state : State) :
    KeepsSlots state (Governance.handleCallbackFailure caller payments state) := by
  cases payments with
  | egld value => exact refund ..
  | multiEsdt esdts =>
      simp only [Governance.handleCallbackFailure]
      induction esdts generalizing state with
      | nil => exact refl state
      | cons esdt esdts ih => exact (refund ..).trans (ih _)

end KeepsSlots

/-! ## The mappers, one slot at a time -/

section Mappers

variable (hash : Hash) (state : State)

theorem actsOn_setTimeLockBeingExecuted (value : Bool) :
    ActsOn .timeLock hash (Slot.setBeingExecuted value) state { state with
      timeLockProposalsBeingExecuted :=
        Function.update state.timeLockProposalsBeingExecuted hash value } where
  here := by simp [State.slot, Slot.setBeingExecuted]
  elsewhere otherKind otherHash hother := by
    cases otherKind with
    | timeLock => simp [State.slot, Function.update_of_ne (fun heq => hother ⟨rfl, heq⟩)]
    | operator => rfl
  delay := rfl

theorem actsOn_setOperatorBeingExecuted (value : Bool) :
    ActsOn .operator hash (Slot.setBeingExecuted value) state { state with
      operatorProposalsBeingExecuted :=
        Function.update state.operatorProposalsBeingExecuted hash value } where
  here := by simp [State.slot, Slot.setBeingExecuted]
  elsewhere otherKind otherHash hother := by
    cases otherKind with
    | timeLock => rfl
    | operator => simp [State.slot, Function.update_of_ne (fun heq => hother ⟨rfl, heq⟩)]
  delay := rfl

theorem actsOn_removeProposalTimeLock :
    ActsOn .timeLock hash Slot.remove state (removeProposalTimeLock hash state) where
  here := by simp [State.slot, Slot.remove, removeProposalTimeLock]
  elsewhere otherKind otherHash hother := by
    cases otherKind with
    | timeLock =>
        have hne : otherHash ≠ hash := fun heq => hother ⟨rfl, heq⟩
        simp [State.slot, removeProposalTimeLock, hne]
    | operator => rfl
  delay := rfl

theorem actsOn_removeProposalOperator :
    ActsOn .operator hash Slot.remove state (removeProposalOperator hash state) where
  here := by simp [State.slot, Slot.remove, removeProposalOperator]
  elsewhere otherKind otherHash hother := by
    cases otherKind with
    | timeLock => rfl
    | operator =>
        have hne : otherHash ≠ hash := fun heq => hother ⟨rfl, heq⟩
        simp [State.slot, removeProposalOperator, hne]
  delay := rfl

/-- The eta `schedule_time_lock` stores, on machine words. -/
def effectiveEta (timestamp delay eta : UInt64) : UInt64 :=
  if eta < timestamp + delay then timestamp + delay else eta

variable {hash state} {next : State}

theorem scheduleTimeLock_eq_ok {ctx : CallContext} {eta stored : UInt64}
    (h : scheduleTimeLock ctx hash eta state = .ok (next, stored)) :
    (state.slot .timeLock hash).submitted = false ∧
    (state.slot .timeLock hash).beingExecuted = false ∧
    stored = effectiveEta ctx.blockTimestamp state.minimumTimeLockDelay eta ∧
    ActsOn .timeLock hash (Slot.schedule stored) state next := by
  simp only [scheduleTimeLock, Outcome.bind_eq_ok, Outcome.exists_unit, Outcome.require_eq_ok,
    Outcome.pure_eq_ok, Prod.mk.injEq, Bool.not_eq_true] at h
  obtain ⟨hsubmitted, hexecuted, rfl, rfl⟩ := h
  refine ⟨hsubmitted, hexecuted, rfl, ?_, ?_, rfl⟩
  · simp [State.slot, Slot.schedule]
  · intro otherKind otherHash hother
    cases otherKind with
    | timeLock =>
        have hne : otherHash ≠ hash := fun heq => hother ⟨rfl, heq⟩
        simp [State.slot, hne]
    | operator => rfl

theorem approveOperatorProposal_eq_ok
    (h : approveOperatorProposal hash state = .ok next) :
    (state.slot .operator hash).submitted = false ∧
    (state.slot .operator hash).beingExecuted = false ∧
    ActsOn .operator hash Slot.approve state next := by
  simp only [approveOperatorProposal, Outcome.bind_eq_ok, Outcome.exists_unit,
    Outcome.require_eq_ok, Outcome.pure_eq_ok, Bool.not_eq_true] at h
  obtain ⟨hsubmitted, hexecuted, rfl⟩ := h
  refine ⟨hsubmitted, hexecuted, ?_, ?_, rfl⟩
  · simp [State.slot, Slot.approve]
  · intro otherKind otherHash hother
    cases otherKind with
    | timeLock => rfl
    | operator =>
        have hne : otherHash ≠ hash := fun heq => hother ⟨rfl, heq⟩
        simp [State.slot, hne]

end Mappers

/-! ## The endpoints -/

section Endpoints

variable {crypto : Crypto} {ctx : CallContext} {target : Address} {callData : ManagedBuffer}
variable {nativeValue : BigUint} {state next : State} {effects : Effects}

/-- The call an execution endpoint registers for a proposal. -/
def Dispatches (kind : Kind) (hash : Hash) (ctx : CallContext) (target : Address)
    (callData : ManagedBuffer) (nativeValue : BigUint) (promise : Promise) : Prop :=
  promise.target = target ∧ promise.egldValue = nativeValue ∧
  (∃ minGasLimit, topDecode callData.1 =
    some (⟨promise.endpointName, promise.arguments, minGasLimit⟩ : DecodedCallData)) ∧
  promise.callback = ⟨kind, hash, ctx.caller, ctx.callValue⟩

theorem executeProposal_eq_ok
    (h : executeProposal crypto ctx target callData nativeValue state = .ok (next, effects)) :
    let hash := getProposalHash crypto target callData nativeValue
    (state.slot .timeLock hash).submitted = true ∧
    (state.slot .timeLock hash).beingExecuted = false ∧
    (state.slot .timeLock hash).eta ≤ ctx.blockTimestamp ∧
    ActsOn .timeLock hash (Slot.setBeingExecuted true) state next ∧
    (∃ promise, Dispatches .timeLock hash ctx target callData nativeValue promise ∧
      effects.promise = some promise) ∧ effects.transfer = none := by
  simp only [executeProposal, Outcome.bind_eq_ok, Outcome.exists_unit, Outcome.require_eq_ok,
    Outcome.orFail_eq_ok, Outcome.pure_eq_ok, Prod.mk.injEq, Bool.not_eq_true] at h
  obtain ⟨hsubmitted, hexecuted, heta, decoded, hdecode, _, rfl, rfl⟩ := h
  exact ⟨hsubmitted, hexecuted, heta, actsOn_setTimeLockBeingExecuted _ _ _,
    ⟨_, ⟨rfl, rfl, ⟨_, hdecode⟩, rfl⟩, rfl⟩, rfl⟩

theorem executeOperatorProposal_eq_ok
    (h : executeOperatorProposal crypto ctx target callData nativeValue state =
      .ok (next, effects)) :
    let hash := getProposalHash crypto target callData nativeValue
    ctx.caller = state.operator ∧
    (state.slot .operator hash).submitted = true ∧
    (state.slot .operator hash).beingExecuted = false ∧
    ActsOn .operator hash (Slot.setBeingExecuted true) state next ∧
    (∃ promise, Dispatches .operator hash ctx target callData nativeValue promise ∧
      effects.promise = some promise) ∧ effects.transfer = none := by
  simp only [executeOperatorProposal, Outcome.bind_eq_ok, Outcome.exists_unit,
    Outcome.require_eq_ok, Outcome.orFail_eq_ok, Outcome.pure_eq_ok, Prod.mk.injEq,
    Bool.not_eq_true] at h
  obtain ⟨hcaller, hsubmitted, hexecuted, _, decoded, hdecode, _, rfl, rfl⟩ := h
  exact ⟨hcaller, hsubmitted, hexecuted, actsOn_setOperatorBeingExecuted _ _ _,
    ⟨_, ⟨rfl, rfl, ⟨_, hdecode⟩, hcaller ▸ rfl⟩, rfl⟩, rfl⟩

theorem execute_eq_ok
    {validateMessage : ManagedBuffer → ManagedBuffer → ManagedBuffer → Hash → Outcome Bool}
    {sourceChain messageId sourceAddress payload : ManagedBuffer}
    (h : execute crypto validateMessage ctx sourceChain messageId sourceAddress payload state =
      .ok (next, effects)) :
    validateMessage sourceChain messageId sourceAddress (crypto.keccak256 payload.1) =
      .ok true ∧
    ∃ executePayload, topDecode payload.1 = some executePayload ∧
      processCommand crypto ctx executePayload state = .ok (next, effects) := by
  simp only [execute, Outcome.bind_eq_ok, Outcome.exists_unit, Outcome.require_eq_ok,
    Outcome.orFail_eq_ok] at h
  obtain ⟨_, approved, hvalid, happroved, executePayload, hdecode, _, hcommand⟩ := h
  rw [happroved] at hvalid
  exact ⟨hvalid, executePayload, hdecode, hcommand⟩

/-- What each command checked and did, to the slot of its own hash. -/
theorem processCommand_eq_ok {executePayload : ExecutePayload}
    (h : processCommand crypto ctx executePayload state = .ok (next, effects)) :
    let hash := getProposalHash crypto executePayload.target executePayload.callData
      executePayload.nativeValue
    (match executePayload.command with
    | .scheduleTimeLockProposal => (state.slot .timeLock hash).submitted = false ∧
        (state.slot .timeLock hash).beingExecuted = false ∧
        ActsOn .timeLock hash (Slot.schedule (effectiveEta ctx.blockTimestamp
          state.minimumTimeLockDelay executePayload.eta)) state next
    | .cancelTimeLockProposal => ActsOn .timeLock hash Slot.remove state next
    | .approveOperatorProposal => (state.slot .operator hash).submitted = false ∧
        (state.slot .operator hash).beingExecuted = false ∧
        ActsOn .operator hash Slot.approve state next
    | .cancelOperatorApproval => ActsOn .operator hash Slot.remove state next) ∧
    effects.promise = none ∧ effects.transfer = none := by
  obtain ⟨command, target, callData, nativeValue, eta⟩ := executePayload
  cases command
  all_goals
    simp only [processCommand, Outcome.bind_eq_ok, Outcome.exists_unit, Outcome.require_eq_ok,
      Prod.exists, Outcome.pure_eq_ok, Prod.mk.injEq] at h
  case scheduleTimeLockProposal =>
      obtain ⟨_, _, stored, hschedule, rfl, rfl⟩ := h
      obtain ⟨hsubmitted, hexecuted, rfl, hacts⟩ := scheduleTimeLock_eq_ok hschedule
      exact ⟨⟨hsubmitted, hexecuted, hacts⟩, rfl, rfl⟩
  case cancelTimeLockProposal =>
      obtain ⟨_, rfl, rfl⟩ := h
      exact ⟨actsOn_removeProposalTimeLock _ _, rfl, rfl⟩
  case approveOperatorProposal =>
      obtain ⟨_, _, happrove, rfl, rfl⟩ := h
      exact ⟨approveOperatorProposal_eq_ok happrove, rfl, rfl⟩
  case cancelOperatorApproval =>
      obtain ⟨_, rfl, rfl⟩ := h
      exact ⟨actsOn_removeProposalOperator _ _, rfl, rfl⟩

/-- The part of a callback that both kinds share. -/
def ManagedAsyncCallResult.onSlot : ManagedAsyncCallResult → Slot → Slot
  | ok _ => Slot.remove ∘ Slot.setBeingExecuted false
  | err _ _ => Slot.setBeingExecuted false

/-- What a callback does to the slot of its call. -/
theorem actsOn_callback (hash : Hash) (caller : Address) (payments : EgldOrMultiEsdtPayment)
    (result : ManagedAsyncCallResult) (state : State) :
    ActsOn .timeLock hash result.onSlot state
      (executeProposalCallback hash caller payments result state).1 ∧
    ActsOn .operator hash result.onSlot state
      (executeOperatorProposalCallback hash caller payments result state).1 := by
  cases result with
  | ok results =>
      exact ⟨(actsOn_setTimeLockBeingExecuted _ _ _).comp (actsOn_removeProposalTimeLock _ _),
        (actsOn_setOperatorBeingExecuted _ _ _).comp (actsOn_removeProposalOperator _ _)⟩
  | err errCode errMsg =>
      exact ⟨(actsOn_setTimeLockBeingExecuted _ _ _).keep (.handleCallbackFailure _ _ _),
        (actsOn_setOperatorBeingExecuted _ _ _).keep (.handleCallbackFailure _ _ _)⟩

theorem keepsSlots_transferOperatorship {newOperator : Address}
    (h : transferOperatorship ctx newOperator state = .ok (next, effects)) :
    KeepsSlots state next ∧ effects.promise = none ∧ effects.transfer = none := by
  simp only [transferOperatorship, Outcome.bind_eq_ok, Outcome.exists_unit,
    Outcome.require_eq_ok, Outcome.pure_eq_ok, Prod.mk.injEq] at h
  obtain ⟨_, _, rfl, rfl⟩ := h
  exact ⟨⟨fun kind _ => by cases kind <;> rfl, rfl⟩, rfl, rfl⟩

theorem keepsSlots_withdrawRefundToken (ctx : CallContext) (token : EgldOrEsdtToken)
    (state : State) : KeepsSlots state (withdrawRefundToken ctx token state).1 :=
  ⟨fun kind _ => by cases kind <;> rfl, rfl⟩

end Endpoints

end AxelarCgp.Governance
