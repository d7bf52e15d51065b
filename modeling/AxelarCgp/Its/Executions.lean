import AxelarCgp.Its.Backing

/-!
# Transfers that are executed

A transfer is executed where a call with a message that wraps it completes.  Each message is
executed once at most, and the manager of the token gives for nothing else.
-/

namespace AxelarCgp.Its

open Transaction

/-! ## Executed transfers -/

/-- The transfer of a token that a payload from the hub wraps. -/
def receivedTransfer (tokenId : TokenId) (payload : ManagedBuffer) : Option ManagedBuffer :=
  let inner : Outcome ManagedBuffer := do
    let outerType ← getMessageType payload
    require (outerType = MESSAGE_TYPE_RECEIVE_FROM_HUB) "Invalid message type"
    let receiveFromHub ← (abiDecode payload : Outcome ReceiveFromHubPayload)
    let innerType ← getMessageType receiveFromHub.payload
    let transfer ← (abiDecode receiveFromHub.payload : Outcome InterchainTransferPayload)
    require (innerType = MESSAGE_TYPE_INTERCHAIN_TRANSFER ∧ transfer.tokenId = tokenId)
      "Invalid message type"
    return receiveFromHub.payload
  inner.toOption

/-- A message that was executed, and the transfer that it wraps. -/
structure Execution where
  id : Gateway.CrossChainId
  inner : ManagedBuffer
  deriving DecidableEq

/-- What an entry of a history executes of the transfers of a token. -/
def execution (tokenId : TokenId) (entry : Entry Input (List Action)) : Option Execution :=
  match entry.input.operation, entry.result with
  | .its _ _ (.execute sourceChain messageId _ payload), .ok _ =>
      (receivedTransfer tokenId payload).map (Execution.mk ⟨sourceChain, messageId⟩)
  | _, _ => none

def executions (tokenId : TokenId) (history : History) : List Execution :=
  history.filterMap (execution tokenId)

@[simp]
theorem executions_append (tokenId : TokenId) (first second : History) :
    executions tokenId (first ++ second) = executions tokenId first ++ executions tokenId second :=
  List.filterMap_append

variable {tokenId : TokenId} {payload inner : ManagedBuffer}

theorem receivedTransfer_eq_some : receivedTransfer tokenId payload = some inner ↔
    ∃ (chain : ManagedBuffer) (data : InterchainTransferPayload),
      HubMessage payload MESSAGE_TYPE_INTERCHAIN_TRANSFER chain inner ∧
      abiDecode inner = .ok data ∧ data.tokenId = tokenId := by
  simp only [receivedTransfer, toOption_eq_some, Outcome.bind_eq_ok, Outcome.exists_unit,
    Outcome.require_eq_ok, Outcome.pure_eq_ok]
  constructor
  · rintro ⟨_, houter, rfl, wrapping, hwrapping, _, hinner, data, hdata, ⟨rfl, htoken⟩, rfl⟩
    exact ⟨_, data, ⟨houter, hinner, wrapping, hwrapping, rfl, rfl⟩, hdata, htoken⟩
  · rintro ⟨_, data, ⟨houter, hinner, wrapping, hwrapping, rfl, rfl⟩, hdata, htoken⟩
    exact ⟨_, houter, rfl, wrapping, hwrapping, _, hinner, data, hdata, ⟨rfl, htoken⟩, rfl⟩

section Steps

variable {crypto : Crypto} {world next : World} {input : Input} {trace : List Action}

/-- A message that is delivered for the token is an execution. -/
theorem Delivers.execution {message : TransferMessage} {manager : Address}
    (h : Delivers crypto input world trace next message manager)
    (htoken : message.data.tokenId = tokenId) :
    execution tokenId ⟨input, .ok trace⟩ = some ⟨message.crossChainId, message.inner⟩ := by
  obtain ⟨caller, hcall⟩ := h.call
  have hreceived : receivedTransfer tokenId message.payload = some message.inner :=
    receivedTransfer_eq_some.mpr
      ⟨message.originalSourceChain, message.data, message.wraps, message.reads.decoded, htoken⟩
  simp only [Its.execution, hcall, TransferMessage.call, hreceived]
  rfl

theorem TransferMessage.transferredAmount (message : TransferMessage) :
    transferredAmount message.inner = message.data.amount.1 := by
  rw [Its.transferredAmount, message.reads.decoded]

/-- An entry that executes a transfer is the call with the message that wraps it. -/
theorem execution_eq_some {done : Execution}
    (h : execution tokenId ⟨input, .ok trace⟩ = some done) :
    ∃ caller payment sourceAddress payload,
      input.operation = .its caller payment
        (.execute done.id.sourceChain done.id.messageId sourceAddress payload) ∧
      receivedTransfer tokenId payload = some done.inner := by
  unfold execution at h
  split at h
  · rename_i hoperation _
    obtain ⟨inner, hinner, rfl⟩ := Option.map_eq_some_iff.mp h
    exact ⟨_, _, _, _, hoperation, hinner⟩
  · simp at h

/-- What is executed is delivered. -/
theorem delivers_of_execution {done : Execution}
    (hnameless : world.its.trustedChains .new = false)
    (hok : (machine crypto).step world input = .ok (next, trace))
    (hdone : execution tokenId ⟨input, .ok trace⟩ = some done) :
    ∃ message manager, Delivers crypto input world trace next message manager ∧
      message.crossChainId = done.id ∧ message.inner = done.inner ∧
      message.data.tokenId = tokenId := by
  obtain ⟨caller, payment, sourceAddress, payload, hcall, hreceived⟩ := execution_eq_some hdone
  obtain ⟨chain, data, hmessage, hdata, htoken⟩ := receivedTransfer_eq_some.mp hreceived
  rcases delivers_step hnameless hok with ⟨_, hother⟩ | ⟨message, manager, hdelivers⟩
  · exact absurd ⟨_, _, _, _, _, _, _, _, hcall, hmessage⟩ hother
  · obtain ⟨_, hdelivered⟩ := hdelivers.call
    rw [hcall, TransferMessage.call] at hdelivered
    injection hdelivered with _ _ hdelivered
    injection hdelivered with hchain hid _ hpayload
    subst hpayload
    obtain ⟨_, _, hinner⟩ := hmessage.unique message.wraps
    rw [← hinner] at hdata
    obtain rfl := Except.ok.inj (message.reads.decoded.symm.trans hdata)
    exact ⟨message, manager, hdelivers, by rw [TransferMessage.crossChainId, ← hchain, ← hid],
      hinner, htoken⟩

/-- A token has one manager, and a manager one token. -/
theorem Registered.token_unique {other : TokenId} {address : Address} (h : Registered world)
    (htoken : world.its.tokenManagerAddress tokenId = some address)
    (hother : world.its.tokenManagerAddress other = some address) : other = tokenId := by
  obtain ⟨state, hstate, hkept⟩ := h.deployed tokenId address htoken
  obtain ⟨otherState, hotherState, hotherKept⟩ := h.deployed other address hother
  rw [hstate] at hotherState
  rw [← hotherKept, ← hkept, Option.some.inj hotherState]

/-- The manager of the token gives what is executed. -/
theorem Reserve.given_step {reserve : Reserve} (hregistered : Registered world)
    (hstands : reserve.Stands world)
    (hok : (machine crypto).step world input = .ok (next, trace)) :
    reserve.given trace ≤ ((executions reserve.tokenId [⟨input, .ok trace⟩]).map fun done =>
      transferredAmount done.inner).sum := by
  rcases delivers_step hregistered.nameless hok with ⟨⟨hnone, _⟩, _⟩ |
    ⟨message, manager, hdelivers⟩
  · rw [hstands.itsAddress] at hnone
    simp [given, hnone]
  · have hgives := hdelivers.gives
    rw [hstands.itsAddress] at hgives
    by_cases hmanager : manager = reserve.manager
    · subst hmanager
      have htoken := hregistered.token_unique hstands.registered hdelivers.registered
      simp [given, hgives, executions, hdelivers.execution htoken, message.transferredAmount]
    · simp [given, hgives, hmanager]

end Steps

/-! ## Runs -/

section Runs

variable {crypto : Crypto} {start world : World} {history : History}

/-- The manager of the token gives in a run what is executed, and no message is executed
twice. -/
theorem Reserve.given_run {reserve : Reserve} (hregistered : Registered start)
    (hstands : reserve.Stands start) (hrun : (machine crypto).Run start history world)
    (hsole : ∀ entry ∈ history, reserve.Sole entry.input.env) :
    reserve.given (performed history) ≤ ((executions reserve.tokenId history).map fun done =>
      transferredAmount done.inner).sum := by
  induction hrun with
  | start => exact Nat.le_refl 0
  | stopped _ _ ih =>
    rw [performed_stopped, executions_append, List.map_append, List.sum_append]
    exact Nat.le_add_right_of_le (ih fun entry hmem => hsole entry (List.mem_append_left _ hmem))
  | completed hbefore hok ih =>
    have hsoleBefore := fun entry hmem => hsole entry (List.mem_append_left _ hmem)
    have hkeeps := keepsRegistry_run hregistered hbefore
    have hlater := (backs_run hbefore hsoleBefore hstands).1
    rw [performed_completed, executions_append, List.map_append, List.sum_append, given_append]
    exact Nat.add_le_add (ih hsoleBefore) (given_step hkeeps.registered hlater hok)

theorem count_executions_le (hregistered : Registered start)
    (hrun : (machine crypto).Run start history world) (id : Gateway.CrossChainId) :
    ((executions tokenId history).map Execution.id).count id ≤
      consumptions id (performed history) := by
  induction hrun with
  | start => exact Nat.le_refl 0
  | stopped _ _ ih =>
    rw [performed_stopped, executions_append]
    simpa [executions, execution] using ih
  | @completed history reached last input trace hbefore hok ih =>
    have hnameless := (keepsRegistry_run hregistered hbefore).registered.nameless
    rw [performed_completed, executions_append, List.map_append, List.count_append,
      consumptions_append]
    apply Nat.add_le_add ih
    cases hdone : execution tokenId ⟨input, .ok trace⟩ with
    | none => simp [executions, hdone]
    | some done =>
      obtain ⟨message, manager, hdelivers, hid, _⟩ := delivers_of_execution hnameless hok hdone
      have hconsumes := hdelivers.consumptions_pos
      rw [hid] at hconsumes
      simp only [executions, List.filterMap_cons, hdone, List.filterMap_nil, List.map_cons,
        List.map_nil, List.count_singleton, beq_iff_eq]
      split
      · rename_i hsame
        rw [hsame] at hconsumes
        exact hconsumes
      · exact Nat.zero_le _

/-- No message is executed twice. -/
theorem nodup_executions (hregistered : Registered start)
    (hrun : (machine crypto).Run start history world) :
    ((executions tokenId history).map Execution.id).Nodup :=
  nodup_of_count_le hregistered hrun (count_executions_le hregistered hrun)

/-- What was executed is marked so at the gateway. -/
theorem executed_of_execution (hregistered : Registered start)
    (hrun : (machine crypto).Run start history world) {done : Execution}
    (hdone : done ∈ executions tokenId history) :
    world.gateway.messagesGet done.id = .ok .executed := by
  have hcount : ((executions tokenId history).map Execution.id).count done.id ≤ _ :=
    count_executions_le hregistered hrun done.id
  have hpositive : 0 < ((executions tokenId history).map Execution.id).count done.id :=
    List.count_pos_iff.mpr (List.mem_map_of_mem hdone)
  rcases consumed_once hregistered hrun done.id with hnone | ⟨_, hexecuted⟩
  · omega
  · exact hexecuted

/-- What was executed in a run was delivered in one of its steps. -/
theorem exists_delivery_of_execution (hregistered : Registered start)
    (hrun : (machine crypto).Run start history world) {done : Execution}
    (hdone : done ∈ executions tokenId history) :
    ∃ (delivery : Delivery) (before : History), delivery.TakenIn crypto start history before ∧
      delivery.id = done.id ∧ delivery.message.inner = done.inner ∧
      delivery.message.data.tokenId = tokenId := by
  obtain ⟨⟨input, result⟩, hmem, hentry⟩ := List.mem_filterMap.mp hdone
  obtain ⟨before, after, rfl⟩ := List.append_of_mem hmem
  cases result with
  | error message =>
    unfold execution at hentry
    split at hentry <;> simp_all
  | ok trace =>
    obtain ⟨reached, next, hbefore, hok, _⟩ := hrun.step_at
    have hnameless := (keepsRegistry_run hregistered hbefore).registered.nameless
    obtain ⟨message, manager, hdelivers, hid, hinner, htoken⟩ :=
      delivers_of_execution hnameless hok hentry
    exact ⟨⟨message, manager⟩, before,
      ⟨reached, input, trace, next, ⟨⟨after, rfl⟩, hbefore, hok⟩, hdelivers⟩, hid, hinner, htoken⟩

end Runs

end AxelarCgp.Its
