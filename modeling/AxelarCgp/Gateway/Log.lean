import AxelarCgp.Gateway.LifeCycle

/-!
# The log tells the state

The events of a gateway, read in their order from its deployment on, rebuild its storage: every
message state, both maps of the signer registry, the epoch and the operator.  What the log tells
of one message is a walk through the life of a message.  Only the time of the last rotation is
not told.
-/

namespace AxelarCgp.Gateway

open Machine

variable (crypto : Crypto)

/-! ## What an event tells -/

/-- The state without the time of the last rotation. -/
def State.unclocked (state : State) : State :=
  { state with lastRotationTimestamp := 0 }

/-- What an event says of the state. -/
def State.follow (state : State) : Event → State
  | .contractCall _ _ _ _ _ => state
  | .messageApproved sourceChain messageId sourceAddress contractAddress payloadHash =>
      state.messagesSet ⟨sourceChain, messageId⟩ (.approved (messageHash crypto
        ⟨sourceChain, messageId⟩ sourceAddress contractAddress payloadHash))
  | .messageExecuted sourceChain messageId =>
      state.messagesSet ⟨sourceChain, messageId⟩ .executed
  | .signersRotated epoch signersHash _ => { state with
      epoch
      signerHashByEpoch := Function.update state.signerHashByEpoch epoch (some signersHash)
      epochBySignerHash := Function.update state.epochBySignerHash signersHash epoch }
  | .operatorshipTransferred newOperator => { state with operator := some newOperator }

def State.replay (state : State) (log : List Event) : State :=
  log.foldl (State.follow crypto) state

/-- Where an event puts the message `id`. -/
def Event.standing (id : CrossChainId) : Event → Option MessageState
  | .messageApproved sourceChain messageId sourceAddress contractAddress payloadHash =>
      if ⟨sourceChain, messageId⟩ = id then
        some (.approved (messageHash crypto id sourceAddress contractAddress payloadHash))
      else none
  | .messageExecuted sourceChain messageId =>
      if ⟨sourceChain, messageId⟩ = id then some .executed else none
  | _ => none

/-- All that a log tells of the message `id`. -/
def tale (id : CrossChainId) (log : List Event) : List MessageState :=
  log.filterMap (Event.standing crypto id)

/-- The states that a message goes through, from the first on. -/
inductive MessageState.Walk : List MessageState → MessageState → Prop
  | start : Walk [] .nonExistent
  | move {passed : List MessageState} {current next : MessageState} :
      Walk passed current → Moves current next → Walk (passed ++ [next]) next

/-- The log tells how `blank` storage came to be the one of `state`. -/
structure Tells (blank : State) (log : List Event) (state : State) : Prop where
  replays : state.unclocked = blank.replay crypto log
  walks : ∀ id, ∃ current, state.messagesGet id = .ok current ∧
    MessageState.Walk (tale crypto id log) current

variable {crypto} {blank state next : State} {log events : List Event} {ctx : CallContext}

theorem tale_concat (id : CrossChainId) (log : List Event) (event : Event) :
    tale crypto id (log ++ [event]) =
      tale crypto id log ++ (event.standing crypto id).toList := by
  cases hstanding : event.standing crypto id <;> simp [tale, hstanding]

/-! ## What each step tells -/

namespace Tells

/-- An event that is not about a message. -/
theorem other {event : Event} (h : Tells crypto blank log state)
    (hnext : next.unclocked = state.unclocked.follow crypto event)
    (hmessages : next.messages = state.messages)
    (hevent : ∀ id, event.standing crypto id = none) :
    Tells crypto blank (log ++ [event]) next where
  replays := by
    rw [hnext, h.replays, State.replay, State.replay, List.foldl_append]
    rfl
  walks id := by
    obtain ⟨current, hcurrent, hwalk⟩ := h.walks id
    refine ⟨current, ?_, ?_⟩
    · rw [← hcurrent, State.messagesGet, State.messagesGet, hmessages]
    · rwa [tale_concat, hevent, Option.toList_none, List.append_nil]

/-- An event that moves a message. -/
theorem moved {event : Event} {id : CrossChainId} {before after : MessageState}
    (h : Tells crypto blank log state) (hbefore : state.messagesGet id = .ok before)
    (hmoves : before.Moves after)
    (hfollow : ∀ state : State, state.follow crypto event = state.messagesSet id after)
    (hself : event.standing crypto id = some after)
    (hothers : ∀ other, other ≠ id → event.standing crypto other = none) :
    Tells crypto blank (log ++ [event]) (state.messagesSet id after) where
  replays := by
    have hset : (state.messagesSet id after).unclocked = state.unclocked.messagesSet id after :=
      rfl
    rw [hset, h.replays, ← hfollow, State.replay, State.replay, List.foldl_append]
    rfl
  walks other := by
    obtain ⟨current, hcurrent, hwalk⟩ := h.walks other
    by_cases hsame : other = id
    · subst hsame
      obtain rfl := Except.ok.inj (hbefore.symm.trans hcurrent)
      refine ⟨after, State.messagesGet_messagesSet_self .., ?_⟩
      rw [tale_concat, hself]
      exact hwalk.move hmoves
    · refine ⟨current, ?_, ?_⟩
      · rw [State.messagesGet_messagesSet_of_ne _ hsame, hcurrent]
      · rwa [tale_concat, hothers other hsame, Option.toList_none, List.append_nil]

theorem approveMessage {message : Message} (h : Tells crypto blank log state)
    (hok : Gateway.approveMessage crypto message state = .ok (next, events)) :
    Tells crypto blank (log ++ events) next := by
  rcases approveMessage_eq_ok hok with ⟨hunknown, rfl, rfl⟩ | ⟨_, _, _, rfl, rfl⟩
  · apply h.moved hunknown (.approve _) (fun _ => rfl)
    · exact if_pos rfl
    · exact fun other hother => if_neg (Ne.symm hother)
  · rwa [List.append_nil]

theorem approveEach {batch : List Message} (h : Tells crypto blank log state)
    (hok : Gateway.approveEach crypto batch state = .ok (next, events)) :
    Tells crypto blank (log ++ events) next := by
  induction batch generalizing log state events with
  | nil =>
      obtain ⟨rfl, rfl⟩ := Prod.mk.inj (Outcome.pure_eq_ok.mp hok)
      rwa [List.append_nil]
  | cons message batch ih =>
      simp only [Gateway.approveEach, Outcome.bind_eq_ok, Outcome.pure_eq_ok, Prod.exists,
        Prod.mk.injEq] at hok
      obtain ⟨middle, first, hfirst, last, others, hothers, rfl, rfl⟩ := hok
      rw [← List.append_assoc]
      exact ih (h.approveMessage hfirst) hothers

theorem rotateSignersRaw {newSigners : WeightedSigners} {enforceRotationDelay : Bool}
    (h : Tells crypto blank log state)
    (hok : Gateway.rotateSignersRaw crypto ctx newSigners enforceRotationDelay state =
      .ok (next, events)) : Tells crypto blank (log ++ events) next := by
  obtain ⟨_, _, _, rfl, rfl⟩ := rotateSignersRaw_eq_ok.mp hok
  exact h.other rfl rfl fun _ => rfl

theorem rotateEach {signers : List WeightedSigners} (h : Tells crypto blank log state)
    (hok : Gateway.rotateEach crypto ctx signers state = .ok (next, events)) :
    Tells crypto blank (log ++ events) next := by
  induction signers generalizing log state events with
  | nil =>
      obtain ⟨rfl, rfl⟩ := Prod.mk.inj (Outcome.pure_eq_ok.mp hok)
      rwa [List.append_nil]
  | cons newSigners signers ih =>
      simp only [Gateway.rotateEach, Outcome.bind_eq_ok, Outcome.pure_eq_ok, Prod.exists,
        Prod.mk.injEq] at hok
      obtain ⟨middle, first, hfirst, last, others, hothers, rfl, rfl⟩ := hok
      rw [← List.append_assoc]
      exact ih (h.rotateSignersRaw hfirst) hothers

theorem transferOperatorshipRaw (newOperator : Address) (h : Tells crypto blank log state) :
    Tells crypto blank (log ++ (Gateway.transferOperatorshipRaw newOperator state).2)
      (Gateway.transferOperatorshipRaw newOperator state).1 :=
  h.other rfl rfl fun _ => rfl

theorem upgrade {operator : Address} {signers : List WeightedSigners}
    (h : Tells crypto blank log state)
    (hok : Gateway.upgrade crypto ctx operator signers state = .ok (next, events)) :
    Tells crypto blank (log ++ events) next := by
  simp only [Gateway.upgrade, Outcome.bind_eq_ok, Outcome.pure_eq_ok, Prod.exists,
    Prod.mk.injEq] at hok
  obtain ⟨last, more, hrotate, rfl, rfl⟩ := hok
  by_cases hoperator : operator.isZero
  · simp only [hoperator, Bool.not_true, Bool.false_eq_true, if_false] at hrotate ⊢
    exact h.rotateEach hrotate
  · simp only [hoperator, Bool.not_false, if_true] at hrotate ⊢
    rw [← List.append_assoc]
    exact (h.transferOperatorshipRaw operator).rotateEach hrotate

theorem perform {call : Call} {result : Reply} (h : Tells crypto blank log state)
    (hok : Gateway.perform crypto ctx call state = .ok (next, result)) :
    Tells crypto blank (log ++ result.events) next := by
  have hdone := perform_eq_ok hok
  cases call with
  | upgrade operator signers => exact h.upgrade hdone
  | approveMessages messages proof =>
      obtain ⟨_, _, _, _, _, heach⟩ := approveMessages_eq_ok hdone
      exact h.approveEach heach
  | rotateSigners newSigners proof =>
      obtain ⟨_, _, _, _, _, _, _, hrotate⟩ := rotateSigners_eq_ok.mp hdone
      exact h.rotateSignersRaw hrotate
  | callContract chain address payload =>
      obtain ⟨rfl, hevents⟩ := Prod.mk.inj hdone
      rw [← hevents]
      exact h.other rfl rfl fun _ => rfl
  | validateMessage chain messageId address payloadHash =>
      rcases validateMessage_eq_ok hdone with ⟨_, happroved, rfl, hevents⟩ | ⟨_, rfl, hevents⟩
      · rw [hevents]
        apply h.moved happroved (.execute _) (fun _ => rfl)
        · exact if_pos rfl
        · exact fun other hother => if_neg (Ne.symm hother)
      · rwa [hevents, List.append_nil]
  | transferOperatorship newOperator =>
      obtain ⟨_, _, _, _, rfl, hevents⟩ := transferOperatorship_eq_ok.mp hdone
      rw [hevents]
      exact h.other rfl rfl fun _ => rfl

end Tells

/-! ## The log of a run -/

/-- The log of a deployment and of all that followed tells the whole state. -/
theorem log_tells {retention : ℕ} {domainSeparator : Hash} {delay : UInt64} {operator : Address}
    {signers : List WeightedSigners} {start : State} {history : History}
    (hinit : init crypto ctx retention domainSeparator delay operator signers =
      .ok (start, events))
    (hrun : Run (machine crypto) start history state) :
    Tells crypto { State.blank with
        previousSignersRetention := retention
        domainSeparator
        minimumRotationDelay := delay }
      (events ++ emitted history) state := by
  induction hrun with
  | start =>
      rw [emitted, List.flatMap_nil, List.append_nil, ← List.nil_append events]
      apply Tells.upgrade _ hinit
      exact ⟨rfl, fun id => ⟨.nonExistent, rfl, .start⟩⟩
  | completed _ hok ih =>
      rw [emitted_completed, ← List.append_assoc]
      exact ih.perform hok
  | stopped _ _ ih => rwa [emitted_stopped]

/-- A message that was approved and consumed, told from the log. -/
theorem sample_log_tells : ∃ start events history state,
    sampleInit = .ok (start, events) ∧
    tale sampleCrypto sampleMessage.crossChainId (events ++ emitted history) =
      [.approved (sampleMessage.hash sampleCrypto), .executed] ∧
    Tells sampleCrypto State.blank (events ++ emitted history) state := by
  have htale : (fun deployed : State × List Event =>
      tale sampleCrypto sampleMessage.crossChainId (deployed.2 ++
        emitted ((machine sampleCrypto).replay deployed.1 sampleCalls).1)) <$> sampleInit =
      .ok [.approved (sampleMessage.hash sampleCrypto), .executed] := by
    decide +kernel
  obtain ⟨⟨start, events⟩, hinit⟩ := Outcome.exists_eq_ok sampleInit_isOk
  have hrun := (machine sampleCrypto).run_replay start sampleCalls
  have hsample := Outcome.apply_of_map htale hinit
  exact ⟨start, events, _, _, hinit, hsample, log_tells hinit hrun⟩

end AxelarCgp.Gateway
