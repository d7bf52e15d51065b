import AxelarCgp.Core.Numbering
import AxelarCgp.Gateway.Contract

/-!
# The signer registry

The contract forgets the signer sets and keeps their hashes, in two maps and a
counter.  Against the list of all rotations a deployment went through, these
three are a numbering of the hashes: every rotation appends one set that was
not there, and nothing else writes them.
-/

namespace AxelarCgp.Gateway

open Machine NestedCodec

/-- What a rotation event says. -/
structure Rotation where
  epoch : ℕ
  signersHash : Hash
  signers : WeightedSigners
  deriving DecidableEq

def Event.rotation : Event → Option Rotation
  | .signersRotated epoch signersHash signers => some ⟨epoch, signersHash, signers⟩
  | _ => none

def rotations (events : List Event) : List Rotation :=
  events.filterMap Event.rotation

@[simp]
theorem rotations_append (first second : List Event) :
    rotations (first ++ second) = rotations first ++ rotations second :=
  List.filterMap_append

/-- The events of the calls that completed, oldest first. -/
def emitted (history : List (Entry (CallContext × Call) Reply)) : List Event :=
  history.flatMap fun entry =>
    match entry.result with
    | .ok reply => reply.events
    | .error _ => []

theorem emitted_completed (history : List (Entry (CallContext × Call) Reply))
    (input : CallContext × Call) (result : Reply) :
    emitted (history ++ [⟨input, .ok result⟩]) = emitted history ++ result.events := by
  simp [emitted]

theorem emitted_stopped (history : List (Entry (CallContext × Call) Reply))
    (input : CallContext × Call) (message : String) :
    emitted (history ++ [⟨input, .error message⟩]) = emitted history := by
  simp [emitted]

variable {crypto : Crypto}

/-- `init` deployed the contract, the calls of `history` followed, and `log`
is everything it emitted. -/
inductive Deployed (crypto : Crypto) (history : List (Entry (CallContext × Call) Reply)) :
    List Event → State → Prop
  | intro {ctx : CallContext} {retention : ℕ} {domainSeparator : Hash} {delay : UInt64}
      {operator : Address} {signers : List WeightedSigners} {start state : State}
      {events : List Event} :
      init crypto ctx retention domainSeparator delay operator signers = .ok (start, events) →
      Run (machine crypto) start history state →
      Deployed crypto history (events ++ emitted history) state

/-! ## What each step does -/

/-- What a completed rotation checked and wrote. -/
theorem rotateSignersRaw_eq_ok {ctx : CallContext} {newSigners : WeightedSigners}
    {enforceRotationDelay : Bool} {state next : State} {events : List Event} :
    rotateSignersRaw crypto ctx newSigners enforceRotationDelay state = .ok (next, events) ↔
    validateSigners newSigners = .ok () ∧
    (enforceRotationDelay = true →
      state.minimumRotationDelay ≤ ctx.blockTimestamp - state.lastRotationTimestamp) ∧
    state.epochBySignerHash (getSignersHash crypto newSigners) = 0 ∧
    next = { state with
      lastRotationTimestamp := ctx.blockTimestamp
      epoch := state.epoch + 1
      signerHashByEpoch := Function.update state.signerHashByEpoch (state.epoch + 1)
        (some (getSignersHash crypto newSigners))
      epochBySignerHash := Function.update state.epochBySignerHash
        (getSignersHash crypto newSigners) (state.epoch + 1) } ∧
    events = [.signersRotated (state.epoch + 1) (getSignersHash crypto newSigners)
      newSigners] := by
  simp only [rotateSignersRaw, updateRotationTimestamp, Outcome.bind_eq_ok,
    Outcome.exists_unit, Outcome.pure_eq_ok, Outcome.require_eq_ok, Prod.mk.injEq,
    imp_iff_not_or]
  constructor
  · rintro ⟨hvalid, timed, ⟨hdelay, rfl⟩, hfresh, rfl, rfl⟩
    exact ⟨hvalid, hdelay, hfresh, rfl, rfl⟩
  · rintro ⟨hvalid, hdelay, hfresh, rfl, rfl⟩
    exact ⟨hvalid, _, ⟨hdelay, rfl⟩, hfresh, rfl, rfl⟩

/-- An approval writes nothing but message states. -/
theorem approveEach_frame {batch : List Message} {state next : State}
    {events : List Event} (h : approveEach crypto batch state = .ok (next, events)) :
    next = { state with messages := next.messages } ∧ rotations events = [] := by
  induction batch generalizing state events with
  | nil =>
      simp only [approveEach, Outcome.pure_eq_ok, Prod.mk.injEq] at h
      obtain ⟨rfl, rfl⟩ := h
      exact ⟨rfl, rfl⟩
  | cons message batch ih =>
      simp only [approveEach, approveMessage, Outcome.bind_eq_ok, Prod.exists,
        Outcome.pure_eq_ok, Prod.mk.injEq] at h
      obtain ⟨middle, approvals, ⟨current, _, hmessage⟩, _, others, hbatch, rfl, rfl⟩ := h
      obtain ⟨hnext, hothers⟩ := ih hbatch
      split at hmessage
      all_goals
        simp only [Outcome.pure_eq_ok, Prod.mk.injEq] at hmessage
        obtain ⟨rfl, rfl⟩ := hmessage
        exact ⟨hnext, by simpa [rotations, Event.rotation] using hothers⟩

theorem approveMessages_eq_ok {messages : ManagedBuffer} {proof : Proof}
    {state next : State} {events : List Event}
    (h : approveMessages crypto messages proof state = .ok (next, events)) :
    ∃ batch latest,
      NestedCodec.topDecodeVec (A := Message) messages.1 = some batch ∧ batch ≠ [] ∧
      validateProof crypto (getDataHash crypto .approveMessages messages) proof state =
        .ok latest ∧
      approveEach crypto batch state = .ok (next, events) := by
  simp only [approveMessages, Outcome.bind_eq_ok, Outcome.exists_unit,
    Outcome.orFail_eq_ok, Outcome.require_eq_ok] at h
  obtain ⟨batch, hdecode, hbatch, latest, hproof, heach⟩ := h
  exact ⟨batch, latest, hdecode, hbatch, hproof, heach⟩

/-- Whoever is not the operator needs the latest signers, and has to wait. -/
theorem rotateSigners_eq_ok {ctx : CallContext} {newSigners : ManagedBuffer} {proof : Proof}
    {state next : State} {events : List Event} :
    rotateSigners crypto ctx newSigners proof state = .ok (next, events) ↔
    ∃ signers operator latest,
      NestedCodec.topDecode (A := WeightedSigners) newSigners.1 = some signers ∧
      state.operator = some operator ∧
      validateProof crypto (getDataHash crypto .rotateSigners newSigners) proof state =
        .ok latest ∧
      (ctx.caller = operator ∨ latest = true) ∧
      rotateSignersRaw crypto ctx signers (decide (ctx.caller ≠ operator)) state =
        .ok (next, events) := by
  simp only [rotateSigners, operatorGet, Outcome.bind_eq_ok, Outcome.exists_unit,
    Outcome.orFail_eq_ok, Outcome.require_eq_ok, decide_eq_true_eq, not_not]
  constructor
  · rintro ⟨signers, hdecode, operator, hoperator, latest, hproof, hlatest, hrotate⟩
    exact ⟨signers, operator, latest, hdecode, hoperator, hproof, hlatest, hrotate⟩
  · rintro ⟨signers, operator, latest, hdecode, hoperator, hproof, hlatest, hrotate⟩
    exact ⟨signers, hdecode, operator, hoperator, latest, hproof, hlatest, hrotate⟩

/-- Rotations write the registry, and the time at which they ran. -/
theorem rotateEach_frame {ctx : CallContext} {signers : List WeightedSigners}
    {state next : State} {events : List Event}
    (h : rotateEach crypto ctx signers state = .ok (next, events)) :
    next = { state with
      lastRotationTimestamp :=
        if signers.isEmpty then state.lastRotationTimestamp else ctx.blockTimestamp
      epoch := next.epoch
      signerHashByEpoch := next.signerHashByEpoch
      epochBySignerHash := next.epochBySignerHash } := by
  induction signers generalizing state events with
  | nil =>
      simp only [rotateEach, Outcome.pure_eq_ok, Prod.mk.injEq] at h
      rw [← h.1]
      rfl
  | cons newSigners signers ih =>
      simp only [rotateEach, Outcome.bind_eq_ok, Prod.exists, Outcome.pure_eq_ok,
        Prod.mk.injEq] at h
      obtain ⟨middle, first, hfirst, last, others, hothers, rfl, _⟩ := h
      obtain ⟨_, _, _, rfl, _⟩ := rotateSignersRaw_eq_ok.mp hfirst
      rw [ih hothers]
      simp

/-- An upgrade changes the operator when it names one, and then rotates. -/
theorem upgrade_eq_ok {ctx : CallContext} {operator : Address}
    {signers : List WeightedSigners} {state next : State} {events : List Event}
    (h : upgrade crypto ctx operator signers state = .ok (next, events)) :
    ∃ transferred more, rotations transferred = [] ∧ events = transferred ++ more ∧
      rotateEach crypto ctx signers { state with
        operator := if operator.isZero then state.operator else some operator } =
          .ok (next, more) := by
  by_cases hoperator : operator.isZero
  · simp only [upgrade, hoperator, Bool.not_true, Bool.false_eq_true, if_false,
      Outcome.bind_eq_ok, Prod.exists, Outcome.pure_eq_ok, Prod.mk.injEq] at h
    obtain ⟨_, more, hrotate, rfl, rfl⟩ := h
    rw [if_pos hoperator]
    exact ⟨[], more, rfl, rfl, hrotate⟩
  · simp only [upgrade, transferOperatorshipRaw, hoperator, Bool.not_false, if_true,
      Outcome.bind_eq_ok, Prod.exists, Outcome.pure_eq_ok, Prod.mk.injEq] at h
    obtain ⟨_, more, hrotate, rfl, rfl⟩ := h
    rw [if_neg hoperator]
    exact ⟨_, more, rfl, rfl, hrotate⟩

/-- What validating a message read, wrote and answered. -/
theorem validateMessage_eq_ok {ctx : CallContext}
    {sourceChain messageId sourceAddress : ManagedBuffer} {payloadHash : Hash}
    {state next : State} {valid : Bool} {events : List Event}
    (h : validateMessage crypto ctx sourceChain messageId sourceAddress payloadHash state =
      .ok (next, valid, events)) :
    (valid = true ∧
      state.messagesGet ⟨sourceChain, messageId⟩ = .ok (.approved (messageHash crypto
        ⟨sourceChain, messageId⟩ sourceAddress ctx.caller payloadHash)) ∧
      next = state.messagesSet ⟨sourceChain, messageId⟩ .executed ∧
      events = [.messageExecuted sourceChain messageId]) ∨
    (valid = false ∧ next = state ∧ events = []) := by
  simp only [validateMessage, Outcome.bind_eq_ok] at h
  obtain ⟨current, hcurrent, h⟩ := h
  split at h
  · rename_i happroved
    simp only [Outcome.pure_eq_ok, Prod.mk.injEq] at h
    obtain ⟨rfl, rfl, rfl⟩ := h
    exact .inl ⟨rfl, happroved ▸ hcurrent, rfl, rfl⟩
  · simp only [Outcome.pure_eq_ok, Prod.mk.injEq] at h
    obtain ⟨rfl, rfl, rfl⟩ := h
    exact .inr ⟨rfl, rfl, rfl⟩

/-- The operator and the owner may name a new operator, once there is one. -/
theorem transferOperatorship_eq_ok {ctx : CallContext} {newOperator : Address}
    {state next : State} {events : List Event} :
    transferOperatorship ctx newOperator state = .ok (next, events) ↔
    ∃ operator, state.operator = some operator ∧
      (ctx.caller = operator ∨ ctx.caller = ctx.ownerAddress) ∧
      newOperator.isZero = false ∧ next = { state with operator := some newOperator } ∧
      events = [.operatorshipTransferred newOperator] := by
  simp only [transferOperatorship, onlyOperatorOrOwner, operatorGet, transferOperatorshipRaw,
    Outcome.bind_eq_ok, Outcome.exists_unit, Outcome.orFail_eq_ok, Outcome.require_eq_ok,
    Outcome.pure_eq_ok, Prod.mk.injEq, Bool.not_eq_true]
  constructor
  · rintro ⟨⟨operator, hoperator, hcaller⟩, hnew, rfl, rfl⟩
    exact ⟨operator, hoperator, hcaller, hnew, rfl, rfl⟩
  · rintro ⟨operator, hoperator, hcaller, hnew, rfl, rfl⟩
    exact ⟨⟨operator, hoperator, hcaller⟩, hnew, rfl, rfl⟩

/-- What a completed call did, one clause per endpoint. -/
theorem perform_eq_ok {ctx : CallContext} {call : Call} {state next : State} {result : Reply}
    (h : perform crypto ctx call state = .ok (next, result)) :
    match call with
    | .upgrade operator signers =>
        upgrade crypto ctx operator signers state = .ok (next, result.events)
    | .approveMessages messages proof =>
        approveMessages crypto messages proof state = .ok (next, result.events)
    | .rotateSigners newSigners proof =>
        rotateSigners crypto ctx newSigners proof state = .ok (next, result.events)
    | .callContract chain address payload =>
        callContract crypto ctx chain address payload state = (next, result.events)
    | .validateMessage chain messageId address payloadHash =>
        validateMessage crypto ctx chain messageId address payloadHash state =
          .ok (next, result.valid, result.events)
    | .transferOperatorship newOperator =>
        transferOperatorship ctx newOperator state = .ok (next, result.events) := by
  cases call
  all_goals
    simp only [perform, requireNotPayable, reply, Outcome.bind_eq_ok,
      Outcome.map_eq_ok, Outcome.exists_unit, Outcome.require_eq_ok, Outcome.pure_eq_ok,
      Prod.exists, Prod.mk.injEq] at h
  case callContract =>
      obtain ⟨_, rfl, rfl⟩ := h
      rfl
  case validateMessage =>
      obtain ⟨_, after, valid, events, hok, rfl, rfl⟩ := h
      exact hok
  all_goals
    obtain ⟨_, after, events, hok, rfl, rfl⟩ := h
    exact hok

/-! ## The invariant -/

/-- The three storage items hold the hashes of `done`, in order, and every set
of `done` passed `validate_signers`. -/
structure Registers (crypto : Crypto) (done : List Rotation) (state : State) : Prop where
  numbered : Numbering (done.map Rotation.signersHash) state.epoch state.signerHashByEpoch
    state.epochBySignerHash
  rotated : ∀ index rotation, done[index]? = some rotation →
    rotation.epoch = index + 1 ∧
    rotation.signersHash = getSignersHash crypto rotation.signers ∧
    validateSigners rotation.signers = .ok ()

namespace Registers

variable {done : List Rotation} {state next : State} {events : List Event}
variable {ctx : CallContext}

theorem blank (retention : ℕ) (domainSeparator : Hash) (delay : UInt64) :
    Registers crypto [] { State.blank with
      previousSignersRetention := retention
      domainSeparator := domainSeparator
      minimumRotationDelay := delay } where
  numbered := Numbering.nil
  rotated := by simp

/-- A step that leaves the three items alone must not announce a rotation. -/
theorem keep (h : Registers crypto done state) (hevents : rotations events = [])
    (hepoch : next.epoch = state.epoch)
    (hsigner : next.signerHashByEpoch = state.signerHashByEpoch)
    (hnumber : next.epochBySignerHash = state.epochBySignerHash) :
    Registers crypto (done ++ rotations events) next := by
  rw [hevents, List.append_nil]
  constructor
  · rw [hepoch, hsigner, hnumber]
    exact h.numbered
  · exact h.rotated

theorem rotateSignersRaw (h : Registers crypto done state)
    {newSigners : WeightedSigners} {enforceRotationDelay : Bool}
    (hok : Gateway.rotateSignersRaw crypto ctx newSigners enforceRotationDelay state =
      .ok (next, events)) :
    Registers crypto (done ++ rotations events) next ∧ (rotations events).length = 1 := by
  obtain ⟨hvalid, _, hfresh, rfl, rfl⟩ := rotateSignersRaw_eq_ok.mp hok
  refine ⟨⟨?_, ?_⟩, rfl⟩
  · rw [List.map_append]
    exact h.numbered.snoc hfresh
  · intro index rotation hindex
    have hepoch : state.epoch = done.length := by simpa using h.numbered.count_eq
    rcases Nat.lt_trichotomy index done.length with hlt | heq | hgt
    · rw [List.getElem?_append_left hlt] at hindex
      exact h.rotated index rotation hindex
    · rw [heq, List.getElem?_append_right le_rfl] at hindex
      obtain rfl : _ = rotation := by simpa [rotations, Event.rotation] using hindex
      exact ⟨by simp [hepoch, heq], rfl, hvalid⟩
    · rw [List.getElem?_eq_none] at hindex
      · simp at hindex
      · simp only [rotations, List.length_append, List.filterMap_cons, Event.rotation,
          List.filterMap_nil, List.length_singleton]
        omega

theorem rotateEach {signers : List WeightedSigners} (h : Registers crypto done state)
    (hok : Gateway.rotateEach crypto ctx signers state = .ok (next, events)) :
    Registers crypto (done ++ rotations events) next ∧
      (rotations events).length = signers.length := by
  induction signers generalizing done state events with
  | nil =>
      simp only [Gateway.rotateEach, Outcome.pure_eq_ok, Prod.mk.injEq] at hok
      obtain ⟨rfl, rfl⟩ := hok
      exact ⟨by simpa [rotations] using h, rfl⟩
  | cons newSigners signers ih =>
      simp only [Gateway.rotateEach, Outcome.bind_eq_ok, Prod.exists, Outcome.pure_eq_ok,
        Prod.mk.injEq] at hok
      obtain ⟨middle, first, hfirst, _, others, hothers, rfl, rfl⟩ := hok
      obtain ⟨hmiddle, hone⟩ := h.rotateSignersRaw hfirst
      obtain ⟨hnext, hcount⟩ := ih hmiddle hothers
      constructor
      · rw [rotations_append, ← List.append_assoc]
        exact hnext
      · rw [rotations_append, List.length_append, List.length_cons]
        omega

theorem upgrade {operator : Address} {signers : List WeightedSigners}
    (h : Registers crypto done state)
    (hok : Gateway.upgrade crypto ctx operator signers state = .ok (next, events)) :
    Registers crypto (done ++ rotations events) next ∧
      (rotations events).length = signers.length := by
  obtain ⟨transferred, more, htransferred, rfl, hrotate⟩ := upgrade_eq_ok hok
  have hstart : Registers crypto (done ++ rotations transferred) { state with
      operator := if operator.isZero then state.operator else some operator } :=
    h.keep htransferred rfl rfl rfl
  rw [htransferred, List.append_nil] at hstart
  rw [rotations_append, htransferred, List.nil_append]
  exact hstart.rotateEach hrotate

/-- Every call appends the rotations it announces, and nothing else. -/
theorem perform {call : Call} {reply : Reply} (h : Registers crypto done state)
    (hok : Gateway.perform crypto ctx call state = .ok (next, reply)) :
    Registers crypto (done ++ rotations reply.events) next := by
  have hdone := Gateway.perform_eq_ok hok
  cases call with
  | upgrade operator signers => exact (h.upgrade hdone).1
  | approveMessages messages proof =>
      obtain ⟨batch, latest, _, _, _, heach⟩ := approveMessages_eq_ok hdone
      obtain ⟨hnext, hevents⟩ := approveEach_frame heach
      rw [hnext]
      exact h.keep hevents rfl rfl rfl
  | rotateSigners newSigners proof =>
      obtain ⟨signers, operator, latest, _, _, _, _, hrotate⟩ := rotateSigners_eq_ok.mp hdone
      exact (h.rotateSignersRaw hrotate).1
  | callContract chain address payload =>
      obtain ⟨rfl, hevents⟩ := Prod.mk.inj hdone
      exact h.keep (by rw [← hevents]; rfl) rfl rfl rfl
  | validateMessage chain messageId address payloadHash =>
      rcases validateMessage_eq_ok hdone with ⟨_, _, rfl, hevents⟩ | ⟨_, rfl, hevents⟩
      · exact h.keep (by rw [hevents]; rfl) rfl rfl rfl
      · exact h.keep (by rw [hevents]; rfl) rfl rfl rfl
  | transferOperatorship newOperator =>
      obtain ⟨_, _, _, _, rfl, hevents⟩ := transferOperatorship_eq_ok.mp hdone
      exact h.keep (by rw [hevents]; rfl) rfl rfl rfl

theorem init {retention : ℕ} {domainSeparator : Hash} {delay : UInt64} {operator : Address}
    {signers : List WeightedSigners}
    (hok : Gateway.init crypto ctx retention domainSeparator delay operator signers =
      .ok (state, events)) : Registers crypto (rotations events) state := by
  have hblank : Registers crypto [] _ := Registers.blank retention domainSeparator delay
  simpa using (hblank.upgrade hok).1

end Registers

/-- The registry of a deployment holds the rotations it announced. -/
theorem Deployed.registers {history : List (Entry (CallContext × Call) Reply)}
    {log : List Event} {state : State} (h : Deployed crypto history log state) :
    Registers crypto (rotations log) state := by
  obtain @⟨_, _, _, _, _, _, _, _, events, hinit, hrun⟩ := h
  induction hrun with
  | start => simpa [emitted] using Registers.init hinit
  | completed _ hok ih =>
      rw [emitted_completed, ← List.append_assoc, rotations_append]
      exact ih.perform hok
  | stopped _ _ ih =>
      rw [emitted_stopped]
      exact ih

/-! ## The registry is a bijection -/

/-- Epochs and signer hashes determine each other, in a contract that has
emitted `log`. -/
structure Bijection (crypto : Crypto) (log : List Event) (state : State) : Prop where
  hash_of_epoch : ∀ epoch, 1 ≤ epoch → epoch ≤ state.epoch →
    ∃ hash, state.signerHashByEpoch epoch = some hash ∧ state.epochBySignerHash hash = epoch
  epoch_of_hash : ∀ hash, 0 < state.epochBySignerHash hash →
    state.epochBySignerHash hash ≤ state.epoch ∧
    state.signerHashByEpoch (state.epochBySignerHash hash) = some hash
  none_above : ∀ epoch, state.epoch < epoch → state.signerHashByEpoch epoch = none ∧
    ∀ hash, state.epochBySignerHash hash ≠ epoch
  registered_once : ((rotations log).map Rotation.signers).Nodup
  not_again : ∀ rotation ∈ rotations log, ∀ ctx enforceRotationDelay result,
    rotateSignersRaw crypto ctx rotation.signers enforceRotationDelay state ≠ .ok result
  epoch_eq : state.epoch = (rotations log).length
  epoch_step : ∀ ctx call next result, perform crypto ctx call state = .ok (next, result) →
    next.epoch = state.epoch + (rotations result.events).length
  epoch_rotateSigners : ∀ ctx newSigners proof next events,
    rotateSigners crypto ctx newSigners proof state = .ok (next, events) →
    next.epoch = state.epoch + 1
  epoch_upgrade : ∀ ctx operator signers next events,
    upgrade crypto ctx operator signers state = .ok (next, events) →
    next.epoch = state.epoch + signers.length
  subtracts : ∀ hash, ∃ age,
    bigUintSub state.epoch (state.epochBySignerHash hash) = .ok age

namespace Registers

variable {done : List Rotation} {state next : State}

theorem epoch_eq (h : Registers crypto done state) : state.epoch = done.length := by
  simpa using h.numbered.count_eq

theorem epoch_append {more : List Rotation} (h : Registers crypto done state)
    (hnext : Registers crypto (done ++ more) next) :
    next.epoch = state.epoch + more.length := by
  rw [hnext.epoch_eq, h.epoch_eq, List.length_append]

/-- The set of a rotation is registered under the hash the rotation announced. -/
theorem signersHash_eq (h : Registers crypto done state) {rotation : Rotation}
    (hrotation : rotation ∈ done) :
    rotation.signersHash = getSignersHash crypto rotation.signers := by
  obtain ⟨index, hindex⟩ := List.mem_iff_getElem?.mp hrotation
  exact (h.rotated index rotation hindex).2.1

theorem registered (h : Registers crypto done state) {rotation : Rotation}
    (hrotation : rotation ∈ done) :
    0 < state.epochBySignerHash (getSignersHash crypto rotation.signers) := by
  rw [← h.signersHash_eq hrotation, ← h.numbered.mem_iff]
  exact List.mem_map_of_mem hrotation

/-- Two rotations to one set would have announced one hash. -/
theorem nodup_signers (h : Registers crypto done state) :
    (done.map Rotation.signers).Nodup := by
  have hhashes : done.map Rotation.signersHash =
      (done.map Rotation.signers).map (getSignersHash crypto) := by
    rw [List.map_map]
    exact List.map_congr_left fun rotation hrotation => h.signersHash_eq hrotation
  have hnodup := h.numbered.nodup
  rw [hhashes] at hnodup
  exact hnodup.of_map _

end Registers

theorem signerRegistry_bijection {history : List (Entry (CallContext × Call) Reply)}
    {log : List Event} {state : State} (h : Deployed crypto history log state) :
    Bijection crypto log state := by
  have hregisters := h.registers
  have hnumbered := hregisters.numbered
  refine {
    hash_of_epoch := fun epoch hpos hle => hnumbered.exists_keyAt hpos hle
    epoch_of_hash := ?epoch_of_hash
    none_above := ?none_above
    registered_once := hregisters.nodup_signers
    not_again := ?not_again
    epoch_eq := hregisters.epoch_eq
    epoch_step := ?epoch_step
    epoch_rotateSigners := ?epoch_rotateSigners
    epoch_upgrade := ?epoch_upgrade
    subtracts := ?subtracts }
  case epoch_of_hash =>
      intro hash hpos
      exact ⟨hnumbered.numberOf_le hash, hnumbered.keyAt_eq_some_iff.mpr ⟨hpos, rfl⟩⟩
  case none_above =>
      intro epoch hlt
      refine ⟨hnumbered.keyAt_of_lt hlt, fun hash heq => ?_⟩
      have hle := hnumbered.numberOf_le hash
      omega
  case not_again =>
      rintro rotation hrotation ctx enforceRotationDelay ⟨next, events⟩ hok
      obtain ⟨_, _, hfresh, _⟩ := rotateSignersRaw_eq_ok.mp hok
      have hpos := hregisters.registered hrotation
      omega
  case epoch_step =>
      intro ctx call next result hok
      exact hregisters.epoch_append (hregisters.perform hok)
  case epoch_rotateSigners =>
      intro ctx newSigners proof next events hok
      obtain ⟨signers, _, _, _, _, _, _, hrotate⟩ := rotateSigners_eq_ok.mp hok
      obtain ⟨hnext, hone⟩ := hregisters.rotateSignersRaw hrotate
      rw [hregisters.epoch_append hnext, hone]
  case epoch_upgrade =>
      intro ctx operator signers next events hok
      obtain ⟨hnext, hcount⟩ := hregisters.upgrade hok
      rw [hregisters.epoch_append hnext, hcount]
  case subtracts =>
      intro hash
      exact ⟨_, if_pos (hnumbered.numberOf_le hash)⟩

/-! ## A deployment

One signer of weight one and two signer sets that differ in their nonce, with
the hashes and the signature a chain computes for them. -/

def sampleKey : FixedBytes 32 :=
  writeNat 32 0xd75a980182b10ab7d54bfed3c964073a0ee172f3daa62325af021a68f707511a

def sampleSigners (nonce : UInt8) : WeightedSigners where
  signers := ⟨[⟨sampleKey, ⟨1, by decide⟩⟩], by decide⟩
  threshold := ⟨1, by decide⟩
  nonce := Address.ofByte nonce

def sampleMessage : Message where
  sourceChain := ⟨Bytes.ascii ['a'], by decide⟩
  messageId := ⟨Bytes.ascii ['1'], by decide⟩
  sourceAddress := ⟨Bytes.ascii ['s'], by decide⟩
  contractAddress := ⟨List.replicate 32 2, by simp⟩
  payloadHash := writeNat 32
    0xc5d2460186f7233c927e7db2dcc703c0e500b653ca82273b7bfad8045d85a470

def sampleBatch : ManagedBuffer :=
  ⟨depEncode sampleMessage, by decide +kernel⟩

def sampleDataHash : Hash :=
  writeNat 32 0xd627ec964f8e2ddb6092c6015ec7cf22ad31c5570c7701dceab16c200d4b22e9

def sampleHashToSign : Hash :=
  writeNat 32 0x3426e450f7ee684df46d947ccff6d5a0e63a841d6a9684d3fdaff1c5641d855a

def sampleSignature : FixedBytes 64 :=
  ⟨(writeNat 32 0x8bc4dfe6d9ba0531efa60a9b0c8542dd3de03de552963d20d5b27b93ab3eee9e).1 ++
    (writeNat 32 0x64e4cca2a2be17b7fe5e4977ff6a61fd17cdeb3a986938885f81c7e4b1eafc00).1,
    by simp [writeNat]⟩

def sampleProof : Proof where
  signers := sampleSigners 0
  signatures := ⟨[some sampleSignature], by decide⟩

def sampleCrypto : Crypto :=
  let signersHash := writeNat 32
    0xbdf4457dd6e79dd86b3c4a66d882684429f4d02790f30c57e5368994791f1fca
  Crypto.tabulated
    [(signersHashPreimage (sampleSigners 0), signersHash),
      (signersHashPreimage (sampleSigners 1), writeNat 32
        0x3b78b90bb722c704e28eabcae5c6431a74f657495ca9e8c1018c12168fd208b6),
      (0 :: sampleBatch.1, sampleDataHash),
      (multiversxSignedMessagePrefix ++ Address.zero.1 ++ signersHash.1 ++ sampleDataHash.1,
        sampleHashToSign),
      (messageHashPreimage sampleMessage.crossChainId sampleMessage.sourceAddress
        sampleMessage.contractAddress sampleMessage.payloadHash, writeNat 32
        0xa8a4a0e4f375bb32e07ec273f44a558b9467aadad2aaa573af3547723bb87c13)]
    [(sampleKey.1, sampleHashToSign.1, sampleSignature.1)]

def sampleContext : CallContext where
  caller := sampleMessage.contractAddress
  scAddress := ⟨List.replicate 32 3, by simp⟩
  ownerAddress := ⟨List.replicate 32 4, by simp⟩
  blockTimestamp := 100
  callValue := .egld 0
  gasLeft := 1000000

def sampleInit : Outcome (State × List Event) :=
  init sampleCrypto sampleContext 0 Address.zero 0 sampleContext.ownerAddress
    [sampleSigners 0]

theorem sampleInit_isOk : sampleInit.isOk := by
  decide +kernel

/-- An upgrade may rotate the signers. -/
theorem sample_registry_bijection : ∃ start events history state,
    sampleInit = .ok (start, events) ∧
    Deployed sampleCrypto history (events ++ emitted history) state ∧
    Bijection sampleCrypto (events ++ emitted history) state := by
  obtain ⟨⟨start, events⟩, hinit⟩ := Outcome.exists_eq_ok sampleInit_isOk
  have hdeployed : Deployed sampleCrypto _ _ _ := .intro hinit
    (run_replay (machine sampleCrypto) start
      [(sampleContext, .upgrade Address.zero [sampleSigners 1])])
  exact ⟨start, events, _, _, hinit, hdeployed, signerRegistry_bijection hdeployed⟩

end AxelarCgp.Gateway
