import AxelarCgp.Governance.Slots

/-!
# Proposals are licences

Read off the inputs and answers of the contract, its operations are acts on one
licence for each kind and hash: a command grants or revokes it, an execution
attempts it, and the callback ends the attempt.  The slot of that kind and hash
follows these acts step by step, and the calls in flight are the attempts under
way.
-/

namespace AxelarCgp.Governance

open NestedCodec Machine

abbrev History := List (Entry Input Output)

/-- The call in flight belongs to a proposal. -/
def Promise.isFor (kind : Kind) (hash : Hash) (promise : Promise) : Bool :=
  decide (promise.callback.kind = kind ∧ promise.callback.hash = hash)

variable (crypto : Crypto)

def ExecutePayload.hash (payload : ExecutePayload) : Hash :=
  getProposalHash crypto payload.target payload.callData payload.nativeValue

/-- What a command does, and to which licence. -/
def ExecutePayload.action (timestamp delay : UInt64) (payload : ExecutePayload) :
    Kind × Hash × Licence.Act UInt64 :=
  match payload.command with
  | .scheduleTimeLockProposal =>
      (.timeLock, payload.hash crypto, .grant (effectiveEta timestamp delay payload.eta))
  | .cancelTimeLockProposal => (.timeLock, payload.hash crypto, .revoke)
  | .approveOperatorProposal => (.operator, payload.hash crypto, .grant 0)
  | .cancelOperatorApproval => (.operator, payload.hash crypto, .revoke)

/-- How an answer ends the attempt it answers. -/
def ManagedAsyncCallResult.act : ManagedAsyncCallResult → Licence.Act UInt64
  | ok _ => .succeed
  | err _ _ => .fail

/-- What a completed operation did, and to which licence, if to any. -/
def action (delay : UInt64) : Input → Output → Option (Kind × Hash × Licence.Act UInt64)
  | .executeProposal _ target callData nativeValue, _ =>
      some (.timeLock, getProposalHash crypto target callData nativeValue, .attempt)
  | .executeOperatorProposal _ target callData nativeValue, _ =>
      some (.operator, getProposalHash crypto target callData nativeValue, .attempt)
  | .execute ctx _ _ _ _ payload, _ =>
      (topDecode payload.1).map (ExecutePayload.action crypto ctx.blockTimestamp delay)
  | .callback _ result, output => output.answered.map fun promise =>
      (promise.callback.kind, promise.callback.hash, result.act)
  | .withdraw .., _ => none
  | .transferOperatorship .., _ => none
  | .withdrawRefundToken .., _ => none

/-- The act on the licence of one kind and hash. -/
def actOn (delay : UInt64) (kind : Kind) (hash : Hash) (input : Input) (output : Output) :
    Option (Licence.Act UInt64) :=
  (action crypto delay input output).bind fun found =>
    if found.1 = kind ∧ found.2.1 = hash then some found.2.2 else none

/-! ## One step -/

/-- What an act finds in a slot and leaves there. -/
inductive Acts : Kind → Slot → Licence.Act UInt64 → Slot → Prop
  | schedule {slot : Slot} (eta : UInt64) : slot.submitted = false →
      slot.beingExecuted = false → Acts .timeLock slot (.grant eta) (slot.schedule eta)
  | approve {slot : Slot} : slot.submitted = false → slot.beingExecuted = false →
      Acts .operator slot (.grant slot.eta) slot.approve
  | remove {kind : Kind} {slot : Slot} : Acts kind slot .revoke slot.remove
  | dispatch {kind : Kind} {slot : Slot} : slot.submitted = true →
      slot.beingExecuted = false → Acts kind slot .attempt (slot.setBeingExecuted true)
  | succeed {kind : Kind} {slot : Slot} :
      Acts kind slot .succeed (slot.setBeingExecuted false).remove
  | fail {kind : Kind} {slot : Slot} : Acts kind slot .fail (slot.setBeingExecuted false)

/-- How an act changes the calls in flight. -/
inductive Pends (kind : Kind) (hash : Hash) (pending : List Promise) :
    Licence.Act UInt64 → List Promise → Prop
  | grant (eta : UInt64) : Pends kind hash pending (.grant eta) pending
  | revoke : Pends kind hash pending .revoke pending
  | attempt (promise : Promise) : promise.isFor kind hash = true →
      Pends kind hash pending .attempt (pending ++ [promise])
  | succeed (index : ℕ) (promise : Promise) : pending[index]? = some promise →
      promise.isFor kind hash = true →
      Pends kind hash pending .succeed (pending.eraseIdx index)
  | fail (index : ℕ) (promise : Promise) : pending[index]? = some promise →
      promise.isFor kind hash = true →
      Pends kind hash pending .fail (pending.eraseIdx index)

/-- One act: on its slot and its calls in flight, and on nothing else. -/
structure Moves (kind : Kind) (hash : Hash) (which : Licence.Act UInt64)
    (system next : System) : Prop where
  acts : Acts kind (system.contract.slot kind hash) which (next.contract.slot kind hash)
  pends : Pends kind hash system.pending which next.pending
  elsewhere : ∀ otherKind otherHash, ¬ (otherKind = kind ∧ otherHash = hash) →
    next.contract.slot otherKind otherHash = system.contract.slot otherKind otherHash
  delay : next.contract.minimumTimeLockDelay = system.contract.minimumTimeLockDelay

variable {crypto}

theorem Moves.of_actsOn {kind : Kind} {hash : Hash} {which : Licence.Act UInt64}
    {act : Slot → Slot} {system next : System}
    (h : ActsOn kind hash act system.contract next.contract)
    (hacts : Acts kind (system.contract.slot kind hash) which
      (act (system.contract.slot kind hash)))
    (hpends : Pends kind hash system.pending which next.pending) :
    Moves kind hash which system next where
  acts := h.here ▸ hacts
  pends := hpends
  elsewhere := h.elsewhere
  delay := h.delay

section Step

variable {builtinTransfers : BuiltinTransfers} {system next : System}
variable {output : Output} {contract : State} {effects : Effects} {ctx : CallContext}

theorem moves_execute {executePayload : ExecutePayload}
    (hcommand : processCommand crypto ctx executePayload system.contract =
      .ok (contract, effects))
    (hsettle : settle builtinTransfers ctx system (contract, effects) = .ok (next, output)) :
    let found := executePayload.action crypto ctx.blockTimestamp
      system.contract.minimumTimeLockDelay
    Moves found.1 found.2.1 found.2.2 system next := by
  obtain ⟨hacts, hpromise, _⟩ := processCommand_eq_ok hcommand
  obtain ⟨rfl, hpending, _, _⟩ := settle_eq_ok hsettle
  rw [hpromise, Option.toList_none, List.append_nil] at hpending
  obtain ⟨command, target, callData, nativeValue, eta⟩ := executePayload
  cases command with
  | scheduleTimeLockProposal =>
      obtain ⟨hsubmitted, hexecuted, hacts⟩ := hacts
      exact .of_actsOn hacts (.schedule _ hsubmitted hexecuted) (hpending ▸ .grant _)
  | cancelTimeLockProposal => exact .of_actsOn hacts .remove (hpending ▸ .revoke)
  | approveOperatorProposal =>
      obtain ⟨hsubmitted, hexecuted, hacts⟩ := hacts
      exact .of_actsOn hacts (.approve hsubmitted hexecuted) (hpending ▸ .grant _)
  | cancelOperatorApproval => exact .of_actsOn hacts .remove (hpending ▸ .revoke)

theorem moves_callback {index : ℕ} {result : ManagedAsyncCallResult}
    (h : answer builtinTransfers index result system = .ok (next, output)) :
    ∃ promise, output.answered = some promise ∧
      Moves promise.callback.kind promise.callback.hash result.act system next := by
  obtain ⟨promise, hindex, hpending, hanswered, _, hcontract, _⟩ := answer_eq_ok h
  refine ⟨promise, hanswered, ?_⟩
  have hfor : promise.isFor promise.callback.kind promise.callback.hash = true := by
    simp [Promise.isFor]
  obtain ⟨htimeLock, hoperator⟩ := actsOn_callback promise.callback.hash
    promise.callback.caller promise.callback.payments result system.contract
  have hacts : ActsOn promise.callback.kind promise.callback.hash result.onSlot
      system.contract next.contract := by
    rw [hcontract]
    generalize promise.callback.kind = kind
    cases kind with
    | timeLock => exact htimeLock
    | operator => exact hoperator
  cases result with
  | ok results =>
      exact .of_actsOn hacts .succeed (hpending ▸ .succeed index promise hindex hfor)
  | err errCode errMsg =>
      exact .of_actsOn hacts .fail (hpending ▸ .fail index promise hindex hfor)

/-- Every completed operation moves one licence, or none. -/
theorem perform_moves {input : Input}
    (h : input.perform builtinTransfers crypto system = .ok (next, output)) :
    match action crypto system.contract.minimumTimeLockDelay input output with
    | none => KeepsSlots system.contract next.contract ∧ next.pending = system.pending
    | some (kind, hash, which) => Moves kind hash which system next := by
  cases input with
  | executeProposal ctx target callData nativeValue =>
      simp only [Input.perform, Outcome.bind_eq_ok, Prod.exists] at h
      obtain ⟨contract, effects, hok, hsettle⟩ := h
      obtain ⟨hsubmitted, hexecuted, _, hacts, ⟨promise, hpromise, heffects⟩, _⟩ :=
        executeProposal_eq_ok hok
      obtain ⟨rfl, hpending, _, _⟩ := settle_eq_ok hsettle
      rw [heffects] at hpending
      refine .of_actsOn hacts (.dispatch hsubmitted hexecuted)
        (hpending ▸ .attempt promise ?_)
      simp [Promise.isFor, hpromise.2.2.2]
  | executeOperatorProposal ctx target callData nativeValue =>
      simp only [Input.perform, Outcome.bind_eq_ok, Prod.exists] at h
      obtain ⟨contract, effects, hok, hsettle⟩ := h
      obtain ⟨_, hsubmitted, hexecuted, hacts, ⟨promise, hpromise, heffects⟩, _⟩ :=
        executeOperatorProposal_eq_ok hok
      obtain ⟨rfl, hpending, _, _⟩ := settle_eq_ok hsettle
      rw [heffects] at hpending
      refine .of_actsOn hacts (.dispatch hsubmitted hexecuted)
        (hpending ▸ .attempt promise ?_)
      simp [Promise.isFor, hpromise.2.2.2]
  | withdraw ctx recipient amount =>
      simp only [Input.perform, withdraw, Outcome.bind_eq_ok, Outcome.exists_unit,
        Outcome.pure_eq_ok, Prod.exists, Prod.mk.injEq] at h
      obtain ⟨_, contract, effects, ⟨_, rfl, rfl⟩, hsettle⟩ := h
      obtain ⟨hcontract, hpending, _, _⟩ := settle_eq_ok hsettle
      rw [Option.toList_none, List.append_nil] at hpending
      exact ⟨hcontract ▸ .refl _, hpending⟩
  | transferOperatorship ctx newOperator =>
      simp only [Input.perform, Outcome.bind_eq_ok, Outcome.exists_unit, Prod.exists] at h
      obtain ⟨_, contract, effects, hok, hsettle⟩ := h
      obtain ⟨hkeep, hpromise, _⟩ := keepsSlots_transferOperatorship hok
      obtain ⟨rfl, hpending, _, _⟩ := settle_eq_ok hsettle
      rw [hpromise, Option.toList_none, List.append_nil] at hpending
      exact ⟨hkeep, hpending⟩
  | execute ctx validateMessage chain messageId address payload =>
      simp only [Input.perform, Outcome.bind_eq_ok, Outcome.exists_unit, Prod.exists] at h
      obtain ⟨_, contract, effects, hok, hsettle⟩ := h
      obtain ⟨_, executePayload, hdecode, hcommand⟩ := execute_eq_ok hok
      simp only [action, hdecode, Option.map_some]
      exact moves_execute hcommand hsettle
  | withdrawRefundToken ctx token =>
      simp only [Input.perform, Outcome.bind_eq_ok, Outcome.exists_unit] at h
      obtain ⟨hcontract, hpending, _, _⟩ := settle_eq_ok h.2
      refine ⟨hcontract ▸ keepsSlots_withdrawRefundToken .., ?_⟩
      simpa [withdrawRefundToken] using hpending
  | callback index result =>
      obtain ⟨promise, hanswered, hmoves⟩ := moves_callback h
      simp only [action, hanswered, Option.map_some]
      exact hmoves

end Step

/-! ## Calls in flight -/

theorem isFor_other {kind otherKind : Kind} {hash otherHash : Hash} {promise : Promise}
    (h : promise.isFor kind hash = true)
    (hother : ¬ (otherKind = kind ∧ otherHash = hash)) :
    promise.isFor otherKind otherHash = false := by
  simp only [Promise.isFor, decide_eq_true_eq] at h
  obtain ⟨rfl, rfl⟩ := h
  rw [Promise.isFor, decide_eq_false_iff_not]
  exact fun heq => hother ⟨heq.1.symm, heq.2.symm⟩

/-- Taking one call out of those in flight takes it out of the count. -/
theorem countP_eraseIdx {pending : List Promise} {index : ℕ} {promise : Promise}
    (h : pending[index]? = some promise) (test : Promise → Bool) :
    pending.countP test =
      (pending.eraseIdx index).countP test + if test promise then 1 else 0 := by
  obtain ⟨hindex, rfl⟩ := List.getElem?_eq_some_iff.mp h
  rw [← (List.getElem_cons_eraseIdx_perm hindex).countP_eq test, List.countP_cons]

namespace Pends

variable {kind : Kind} {hash : Hash} {pending next : List Promise}
variable {which : Licence.Act UInt64}

theorem count_elsewhere (h : Pends kind hash pending which next) {otherKind : Kind}
    {otherHash : Hash} (hother : ¬ (otherKind = kind ∧ otherHash = hash)) :
    next.countP (Promise.isFor otherKind otherHash) =
      pending.countP (Promise.isFor otherKind otherHash) := by
  cases h with
  | grant | revoke => rfl
  | attempt promise hfor => simp [List.countP_append, isFor_other hfor hother]
  | succeed index promise hindex hfor | fail index promise hindex hfor =>
      simp [countP_eraseIdx hindex, isFor_other hfor hother]

end Pends

/-- The approvals agree with the submissions, the calls in flight with the
execution marks, and the minimum delay is the one of the deployment. -/
structure Consistent (delay : UInt64) (system : System) : Prop where
  delay_eq : system.contract.minimumTimeLockDelay = delay
  approved_eq : ∀ hash, (system.contract.slot .operator hash).approved =
    (system.contract.slot .operator hash).submitted
  pending_eq : ∀ kind hash, system.pending.countP (Promise.isFor kind hash) =
    if (system.contract.slot kind hash).beingExecuted then 1 else 0

namespace Consistent

variable {delay : UInt64} {system next : System}

theorem deploy {gateway : Address} {governanceChain governanceAddress : ManagedBuffer}
    {operator : Address} {contract : State}
    (h : init gateway governanceChain governanceAddress delay operator = .ok contract) :
    Consistent delay (.deploy contract) ∧
      ∀ kind hash, (contract.slot kind hash).licence = ⟨none, false⟩ := by
  simp only [init, Outcome.bind_eq_ok, Outcome.exists_unit, Outcome.require_eq_ok,
    Outcome.pure_eq_ok] at h
  obtain ⟨_, rfl⟩ := h
  exact ⟨⟨rfl, fun _ => rfl, fun kind _ => by cases kind <;> rfl⟩,
    fun kind _ => by cases kind <;> rfl⟩

theorem keeps (h : Consistent delay system)
    (hkeep : KeepsSlots system.contract next.contract)
    (hpending : next.pending = system.pending) : Consistent delay next where
  delay_eq := hkeep.delay.trans h.delay_eq
  approved_eq hash := by
    rw [hkeep.slots]
    exact h.approved_eq hash
  pending_eq kind hash := by
    rw [hkeep.slots, hpending]
    exact h.pending_eq kind hash

/-- On the slot it is about, an act keeps the count and is a licence step. -/
theorem acts {kind : Kind} {hash : Hash} {which : Licence.Act UInt64}
    (h : Consistent delay system) (hmoves : Moves kind hash which system next) :
    next.pending.countP (Promise.isFor kind hash) =
        (if (next.contract.slot kind hash).beingExecuted then 1 else 0) ∧
      Licence.Step (system.contract.slot kind hash).licence which
        (next.contract.slot kind hash).licence := by
  have hcount := h.pending_eq kind hash
  have hpends := hmoves.pends
  have hacts := hmoves.acts
  generalize system.contract.slot kind hash = slot at hcount hacts
  generalize next.contract.slot kind hash = result at hacts
  generalize next.pending = pending at hpends
  cases hacts with
  | schedule eta hsubmitted hexecuted =>
      cases hpends
      refine ⟨hcount, ?_⟩
      simp only [Slot.licence, Slot.schedule, hsubmitted, hexecuted, Bool.false_eq_true,
        if_false, if_true]
      exact .grant eta
  | approve hsubmitted hexecuted =>
      cases hpends
      refine ⟨hcount, ?_⟩
      simp only [Slot.licence, Slot.approve, hsubmitted, hexecuted, Bool.false_eq_true,
        if_false, if_true]
      exact .grant slot.eta
  | remove =>
      cases hpends
      exact ⟨hcount, .revoke _ _⟩
  | dispatch hsubmitted hexecuted =>
      cases hpends with
      | attempt promise hfor =>
          rw [hexecuted] at hcount
          refine ⟨by simp [List.countP_append, hcount, hfor, Slot.setBeingExecuted], ?_⟩
          simp only [Slot.licence, Slot.setBeingExecuted, hsubmitted, hexecuted, if_true]
          exact .attempt _
  | succeed =>
      cases hpends with
      | succeed index promise hindex hfor =>
          rw [countP_eraseIdx hindex, if_pos hfor] at hcount
          have hflight : slot.beingExecuted = true := by
            by_contra hidle
            simp [hidle] at hcount
          rw [if_pos hflight] at hcount
          refine ⟨by simpa [Slot.remove, Slot.setBeingExecuted] using hcount, ?_⟩
          simp only [Slot.licence, hflight]
          exact .succeed _
  | fail =>
      cases hpends with
      | fail index promise hindex hfor =>
          rw [countP_eraseIdx hindex, if_pos hfor] at hcount
          have hflight : slot.beingExecuted = true := by
            by_contra hidle
            simp [hidle] at hcount
          rw [if_pos hflight] at hcount
          refine ⟨by simpa [Slot.setBeingExecuted] using hcount, ?_⟩
          simp only [Slot.licence, hflight]
          exact .fail _

/-- An act on an operator slot keeps approval and submission together. -/
theorem approved_acts {slot result : Slot} {which : Licence.Act UInt64}
    (h : slot.approved = slot.submitted) (hacts : Acts .operator slot which result) :
    result.approved = result.submitted := by
  cases hacts with
  | approve => rfl
  | remove => rfl
  | dispatch => exact h
  | succeed => rfl
  | fail => exact h

theorem moves {kind : Kind} {hash : Hash} {which : Licence.Act UInt64}
    (h : Consistent delay system) (hmoves : Moves kind hash which system next) :
    Consistent delay next where
  delay_eq := hmoves.delay.trans h.delay_eq
  approved_eq other := by
    by_cases hsame : Kind.operator = kind ∧ other = hash
    · obtain ⟨rfl, rfl⟩ := hsame
      exact approved_acts (h.approved_eq _) hmoves.acts
    · rw [hmoves.elsewhere _ _ hsame]
      exact h.approved_eq other
  pending_eq otherKind otherHash := by
    by_cases hsame : otherKind = kind ∧ otherHash = hash
    · obtain ⟨rfl, rfl⟩ := hsame
      exact (h.acts hmoves).1
    · rw [hmoves.elsewhere _ _ hsame, hmoves.pends.count_elsewhere hsame]
      exact h.pending_eq otherKind otherHash

variable {builtinTransfers : BuiltinTransfers} {input : Input} {output : Output}

theorem perform (h : Consistent delay system)
    (hok : input.perform builtinTransfers crypto system = .ok (next, output)) :
    Consistent delay next := by
  have hmoves := perform_moves hok
  cases haction : action crypto system.contract.minimumTimeLockDelay input output with
  | none =>
      rw [haction] at hmoves
      exact h.keeps hmoves.1 hmoves.2
  | some found =>
      rw [haction] at hmoves
      exact h.moves hmoves

theorem run {start : System} {history : History} (hstart : Consistent delay start)
    (hrun : Run (machine builtinTransfers crypto) start history system) :
    Consistent delay system :=
  hrun.invariant hstart fun _ _ _ _ hconsistent hok => hconsistent.perform hok

end Consistent

/-! ## The simulation -/

/-- The licence of one kind and hash. -/
def System.licence (kind : Kind) (hash : Hash) (system : System) : Licence UInt64 :=
  (system.contract.slot kind hash).licence

section Simulation

variable {builtinTransfers : BuiltinTransfers} {delay : UInt64}
variable {system next : System} {input : Input} {output : Output}

/-- An operation that is not about a kind and hash leaves their slot alone. -/
theorem slot_of_actOn_none {kind : Kind} {hash : Hash}
    (hok : input.perform builtinTransfers crypto system = .ok (next, output))
    (hact : actOn crypto system.contract.minimumTimeLockDelay kind hash input output = none) :
    next.contract.slot kind hash = system.contract.slot kind hash := by
  have hmoves := perform_moves hok
  cases haction : action crypto system.contract.minimumTimeLockDelay input output with
  | none =>
      rw [haction] at hmoves
      exact hmoves.1.slots kind hash
  | some found =>
      rw [haction] at hmoves
      refine hmoves.elsewhere kind hash fun hsame => ?_
      simp [actOn, haction, hsame.1, hsame.2] at hact

theorem moves_of_actOn {kind : Kind} {hash : Hash} {which : Licence.Act UInt64}
    (hok : input.perform builtinTransfers crypto system = .ok (next, output))
    (hact : actOn crypto system.contract.minimumTimeLockDelay kind hash input output =
      some which) : Moves kind hash which system next := by
  have hmoves := perform_moves hok
  obtain ⟨⟨otherKind, otherHash, other⟩, haction, hfound⟩ := Option.bind_eq_some_iff.mp hact
  rw [haction] at hmoves
  split at hfound
  · rename_i hsame
    obtain ⟨rfl, rfl⟩ := hsame
    obtain rfl := Option.some.inj hfound
    exact hmoves
  · simp at hfound

theorem simulates {gateway : Address} {governanceChain governanceAddress : ManagedBuffer}
    {operator : Address} {contract : State}
    (hinit : init gateway governanceChain governanceAddress delay operator = .ok contract)
    (kind : Kind) (hash : Hash) :
    Licence.Simulates (actOn crypto delay kind hash) (machine builtinTransfers crypto)
      (.deploy contract) (System.licence kind hash) where
  starts := (Consistent.deploy hinit).2 kind hash
  steps history system input next output hrun hok := by
    have hconsistent := (Consistent.deploy hinit).1.run hrun
    rw [← hconsistent.delay_eq]
    cases hact : actOn crypto system.contract.minimumTimeLockDelay kind hash input output with
    | none => exact congrArg Slot.licence (slot_of_actOn_none hok hact)
    | some which => exact (hconsistent.acts (moves_of_actOn hok hact)).2

end Simulation

end AxelarCgp.Governance
