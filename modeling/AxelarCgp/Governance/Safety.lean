import AxelarCgp.Governance.Proposals

/-!
# Commands, executions and answers

The acts on a proposal's licence, said of the entries of a history in the words
of the contract: a command of the gateway, an execution, the answer to a call.
What a licence guarantees then holds of both kinds of proposals alike.
-/

namespace AxelarCgp.Governance

open NestedCodec Machine

namespace Kind

/-- The command that submits proposals of a kind. -/
def submitCommand : Kind → ServiceGovernanceCommand
  | timeLock => .scheduleTimeLockProposal
  | operator => .approveOperatorProposal

/-- The command that takes proposals of a kind back. -/
def cancelCommand : Kind → ServiceGovernanceCommand
  | timeLock => .cancelTimeLockProposal
  | operator => .cancelOperatorApproval

/-- The endpoint that executes proposals of a kind. -/
def execution : Kind → CallContext → Address → ManagedBuffer → BigUint → Input
  | timeLock => .executeProposal
  | operator => .executeOperatorProposal

end Kind

def ServiceGovernanceCommand.kind : ServiceGovernanceCommand → Kind
  | scheduleTimeLockProposal => .timeLock
  | cancelTimeLockProposal => .timeLock
  | approveOperatorProposal => .operator
  | cancelOperatorApproval => .operator

variable (crypto : Crypto)

/-- The entry is a command that the gateway validated and the contract
processed, at time `time`. -/
def Commanded (command : ServiceGovernanceCommand) (target : Address)
    (callData : ManagedBuffer) (nativeValue : BigUint) (time eta : UInt64)
    (entry : Entry Input Output) : Prop :=
  ∃ ctx validateMessage sourceChain messageId sourceAddress payload output,
    entry = ⟨.execute ctx validateMessage sourceChain messageId sourceAddress payload,
      .ok output⟩ ∧
    validateMessage sourceChain messageId sourceAddress (crypto.keccak256 payload.1) =
      .ok true ∧
    topDecode payload.1 =
      some (⟨command, target, callData, nativeValue, eta⟩ : ExecutePayload) ∧
    ctx.blockTimestamp = time

/-- The entry is a callback with a result, for a proposal of this hash. -/
def Succeeded (kind : Kind) (hash : Hash) (entry : Entry Input Output) : Prop :=
  ∃ index results output promise, entry = ⟨.callback index (.ok results), .ok output⟩ ∧
    output.answered = some promise ∧ promise.isFor kind hash = true

/-- The proposal was cancelled or executed. -/
def Ended (kind : Kind) (target : Address) (callData : ManagedBuffer)
    (nativeValue : BigUint) (entry : Entry Input Output) : Prop :=
  (∃ time eta,
    Commanded crypto kind.cancelCommand target callData nativeValue time eta entry) ∨
  Succeeded kind (getProposalHash crypto target callData nativeValue) entry

/-- A validated command submitted a proposal of this hash. -/
def Submitted (kind : Kind) (hash : Hash) (entry : Entry Input Output) : Prop :=
  ∃ target callData nativeValue time eta,
    Commanded crypto kind.submitCommand target callData nativeValue time eta entry ∧
    getProposalHash crypto target callData nativeValue = hash

/-- The operation is about the proposals of this kind and hash. -/
def About (kind : Kind) (hash : Hash) (output : Output) : Input → Prop
  | .executeProposal _ target callData nativeValue =>
      kind = .timeLock ∧ getProposalHash crypto target callData nativeValue = hash
  | .executeOperatorProposal _ target callData nativeValue =>
      kind = .operator ∧ getProposalHash crypto target callData nativeValue = hash
  | .execute _ _ _ _ _ payload => ∃ executePayload : ExecutePayload,
      topDecode payload.1 = some executePayload ∧ executePayload.command.kind = kind ∧
      executePayload.hash crypto = hash
  | .callback _ _ => ∃ promise, output.answered = some promise ∧
      promise.isFor kind hash = true
  | .withdraw .. => False
  | .transferOperatorship .. => False
  | .withdrawRefundToken .. => False

/-- The proposal an operation was given. -/
def Input.proposal : Input → Option (Address × ManagedBuffer × BigUint)
  | executeProposal _ target callData nativeValue => some (target, callData, nativeValue)
  | executeOperatorProposal _ target callData nativeValue =>
      some (target, callData, nativeValue)
  | execute _ _ _ _ _ payload => (topDecode (A := ExecutePayload) payload.1).map fun payload =>
      (payload.target, payload.callData, payload.nativeValue)
  | _ => none

/-- The strings hashed for the proposals of a history. -/
def proposalPreimages (history : History) : Set Bytes :=
  {bytes | ∃ entry ∈ history, ∃ target callData nativeValue,
    entry.input.proposal = some (target, callData, nativeValue) ∧
    proposalPreimage target callData nativeValue = bytes}

variable {crypto}

theorem proposalPreimage_injective {leftTarget rightTarget : Address}
    {leftData rightData : ManagedBuffer} {leftValue rightValue : BigUint}
    (h : proposalPreimage leftTarget leftData leftValue =
      proposalPreimage rightTarget rightData rightValue) :
    leftTarget = rightTarget ∧ leftData = rightData ∧ leftValue = rightValue := by
  simp only [proposalPreimage, List.append_assoc] at h
  obtain ⟨htarget, hrest⟩ := depEncode_append_inj h
  obtain ⟨hdata, hvalue⟩ := depEncode_append_inj hrest
  exact ⟨htarget, hdata, depEncode_injective hvalue⟩

/-! ## From entries to acts and back -/

section Acts

variable {delay : UInt64} {kind : Kind} {hash : Hash} {input : Input} {output : Output}

theorem actOn_execution (ctx : CallContext) (target : Address) (callData : ManagedBuffer)
    (nativeValue : BigUint) :
    actOn crypto delay kind (getProposalHash crypto target callData nativeValue)
      (kind.execution ctx target callData nativeValue) output = some .attempt := by
  cases kind <;> simp [Kind.execution, actOn, action]

theorem actOn_of_succeeded (h : Succeeded kind hash ⟨input, .ok output⟩) :
    actOn crypto delay kind hash input output = some .succeed := by
  obtain ⟨index, results, _, promise, hentry, hanswered, hfor⟩ := h
  obtain ⟨rfl, hresult⟩ := Entry.mk.inj hentry
  obtain rfl := Except.ok.inj hresult
  simp only [Promise.isFor, decide_eq_true_eq] at hfor
  simp [actOn, action, hanswered, hfor, ManagedAsyncCallResult.act]

theorem actOn_of_cancelled {target : Address} {callData : ManagedBuffer}
    {nativeValue : BigUint} {time eta : UInt64}
    (h : Commanded crypto kind.cancelCommand target callData nativeValue time eta
      ⟨input, .ok output⟩) :
    actOn crypto delay kind (getProposalHash crypto target callData nativeValue) input output =
      some .revoke := by
  obtain ⟨ctx, validateMessage, chain, id, address, payload, _, hentry, _, hdecode, _⟩ := h
  obtain ⟨rfl, _⟩ := Entry.mk.inj hentry
  cases kind <;>
    simp [actOn, action, hdecode, ExecutePayload.action, ExecutePayload.hash,
      Kind.cancelCommand]

theorem ends_of_ended {target : Address} {callData : ManagedBuffer} {nativeValue : BigUint}
    {entry : Entry Input Output} (h : Ended crypto kind target callData nativeValue entry) :
    Licence.Ends (actOn crypto delay kind (getProposalHash crypto target callData nativeValue))
      entry := by
  rcases h with ⟨time, eta, hcancelled⟩ | hsucceeded
  · obtain ⟨_, _, _, _, _, _, output, rfl, _⟩ := id hcancelled
    exact .inl ⟨output, rfl, actOn_of_cancelled hcancelled⟩
  · obtain ⟨_, _, output, _, rfl, _⟩ := id hsucceeded
    exact .inr ⟨output, rfl, actOn_of_succeeded hsucceeded⟩

/-- A grant is a validated command that submits a proposal of the hash. -/
theorem commanded_of_grant {builtinTransfers : BuiltinTransfers}
    {system next : System} {terms : UInt64}
    (hok : input.perform builtinTransfers crypto system = .ok (next, output))
    (h : actOn crypto delay kind hash input output = some (.grant terms)) :
    ∃ target callData nativeValue time eta,
      Commanded crypto kind.submitCommand target callData nativeValue time eta
        ⟨input, .ok output⟩ ∧
      input.proposal = some (target, callData, nativeValue) ∧
      getProposalHash crypto target callData nativeValue = hash ∧
      (kind = .timeLock → terms = effectiveEta time delay eta) := by
  obtain ⟨⟨foundKind, foundHash, which⟩, haction, hfound⟩ := Option.bind_eq_some_iff.mp h
  split at hfound
  · rename_i hsame
    obtain ⟨rfl, rfl⟩ := hsame
    obtain rfl := Option.some.inj hfound
    cases input with
    | execute ctx validateMessage chain id address payload =>
        obtain ⟨⟨command, target, callData, nativeValue, eta⟩, hdecode, hcommand⟩ :=
          Option.map_eq_some_iff.mp haction
        simp only [Input.perform, Outcome.bind_eq_ok, Outcome.exists_unit, Prod.exists] at hok
        obtain ⟨_, contract, effects, hexecute, _⟩ := hok
        obtain ⟨hvalid, _⟩ := execute_eq_ok hexecute
        cases command with
        | scheduleTimeLockProposal =>
            obtain ⟨rfl, rfl, hterms⟩ := by simpa [ExecutePayload.action] using hcommand
            exact ⟨target, callData, nativeValue, ctx.blockTimestamp, eta,
              ⟨ctx, _, chain, id, address, payload, output, rfl, hvalid, hdecode, rfl⟩,
              by simp [Input.proposal, hdecode], rfl, fun _ => hterms.symm⟩
        | approveOperatorProposal =>
            obtain ⟨rfl, rfl, hterms⟩ := by simpa [ExecutePayload.action] using hcommand
            exact ⟨target, callData, nativeValue, ctx.blockTimestamp, eta,
              ⟨ctx, _, chain, id, address, payload, output, rfl, hvalid, hdecode, rfl⟩,
              by simp [Input.proposal, hdecode], rfl, fun hkind => by simp at hkind⟩
        | cancelTimeLockProposal | cancelOperatorApproval =>
            simp [ExecutePayload.action] at hcommand
    | callback index result =>
        cases result <;> simp [action, ManagedAsyncCallResult.act] at haction
    | _ => simp [action] at haction
  · simp at hfound

theorem actOn_eq_none_of_not_about (h : ¬ About crypto kind hash output input) :
    actOn crypto delay kind hash input output = none := by
  rw [actOn, Option.bind_eq_none_iff]
  intro found hfound
  rw [if_neg]
  rintro ⟨rfl, rfl⟩
  cases input with
  | executeProposal ctx target callData nativeValue =>
      obtain rfl := Option.some.inj hfound
      exact h ⟨rfl, rfl⟩
  | executeOperatorProposal ctx target callData nativeValue =>
      obtain rfl := Option.some.inj hfound
      exact h ⟨rfl, rfl⟩
  | execute ctx validateMessage chain id address payload =>
      obtain ⟨executePayload, hdecode, rfl⟩ := Option.map_eq_some_iff.mp hfound
      refine h ⟨executePayload, hdecode, ?_⟩
      obtain ⟨command, target, callData, nativeValue, eta⟩ := executePayload
      cases command <;> exact ⟨rfl, rfl⟩
  | callback index result =>
      obtain ⟨promise, hanswered, rfl⟩ := Option.map_eq_some_iff.mp hfound
      exact h ⟨promise, hanswered, by simp [Promise.isFor]⟩
  | withdraw | transferOperatorship | withdrawRefundToken => simp [action] at hfound

/-- Calls are registered by the two execution endpoints, each for the proposal
it was given. -/
theorem promise_origin {builtinTransfers : BuiltinTransfers} {system next : System}
    {promise : Promise}
    (hok : input.perform builtinTransfers crypto system = .ok (next, output))
    (hpromise : output.effects.promise = some promise) :
    ∃ ctx target callData nativeValue,
      input = promise.callback.kind.execution ctx target callData nativeValue ∧
      Dispatches promise.callback.kind (getProposalHash crypto target callData nativeValue) ctx
        target callData nativeValue promise := by
  cases input with
  | executeProposal ctx target callData nativeValue =>
      simp only [Input.perform, Outcome.bind_eq_ok, Prod.exists] at hok
      obtain ⟨contract, effects, hexecute, hsettle⟩ := hok
      obtain ⟨_, _, _, _, ⟨other, hdispatches, heffects⟩, _⟩ := executeProposal_eq_ok hexecute
      obtain ⟨_, _, rfl, _⟩ := settle_eq_ok hsettle
      obtain rfl := Option.some.inj (heffects.symm.trans hpromise)
      have hkind : other.callback.kind = .timeLock := by rw [hdispatches.2.2.2]
      exact ⟨ctx, target, callData, nativeValue, by rw [hkind]; rfl, hkind ▸ hdispatches⟩
  | executeOperatorProposal ctx target callData nativeValue =>
      simp only [Input.perform, Outcome.bind_eq_ok, Prod.exists] at hok
      obtain ⟨contract, effects, hexecute, hsettle⟩ := hok
      obtain ⟨_, _, _, _, ⟨other, hdispatches, heffects⟩, _⟩ :=
        executeOperatorProposal_eq_ok hexecute
      obtain ⟨_, _, rfl, _⟩ := settle_eq_ok hsettle
      obtain rfl := Option.some.inj (heffects.symm.trans hpromise)
      have hkind : other.callback.kind = .operator := by rw [hdispatches.2.2.2]
      exact ⟨ctx, target, callData, nativeValue, by rw [hkind]; rfl, hkind ▸ hdispatches⟩
  | withdraw ctx recipient amount =>
      simp only [Input.perform, withdraw, Outcome.bind_eq_ok, Outcome.exists_unit,
        Outcome.pure_eq_ok, Prod.exists, Prod.mk.injEq] at hok
      obtain ⟨_, contract, effects, ⟨_, rfl, rfl⟩, hsettle⟩ := hok
      obtain ⟨_, _, rfl, _⟩ := settle_eq_ok hsettle
      simp at hpromise
  | transferOperatorship ctx newOperator =>
      simp only [Input.perform, Outcome.bind_eq_ok, Outcome.exists_unit, Prod.exists] at hok
      obtain ⟨_, contract, effects, htransfer, hsettle⟩ := hok
      obtain ⟨_, hnone, _⟩ := keepsSlots_transferOperatorship htransfer
      obtain ⟨_, _, rfl, _⟩ := settle_eq_ok hsettle
      simp [hnone] at hpromise
  | execute ctx validateMessage chain id address payload =>
      simp only [Input.perform, Outcome.bind_eq_ok, Outcome.exists_unit, Prod.exists] at hok
      obtain ⟨_, contract, effects, hexecute, hsettle⟩ := hok
      obtain ⟨_, executePayload, _, hcommand⟩ := execute_eq_ok hexecute
      obtain ⟨_, hnone, _⟩ := processCommand_eq_ok hcommand
      obtain ⟨_, _, rfl, _⟩ := settle_eq_ok hsettle
      simp [hnone] at hpromise
  | withdrawRefundToken ctx token =>
      simp only [Input.perform, Outcome.bind_eq_ok, Outcome.exists_unit] at hok
      obtain ⟨_, _, rfl, _⟩ := settle_eq_ok hok.2
      simp at hpromise
  | callback index result =>
      obtain ⟨_, _, _, _, hnone, _⟩ := answer_eq_ok hok
      simp [hnone] at hpromise

end Acts

/-! ## What holds of both kinds -/

section Runs

variable {builtinTransfers : BuiltinTransfers} {gateway operator : Address}
variable {governanceChain governanceAddress : ManagedBuffer} {delay : UInt64}
variable {contract : State} {history before between after : History} {system : System}
variable {kind : Kind} {hash : Hash} {first second : Entry Input Output}

/-- A grant in a run is a submission. -/
theorem submitted_of_grant {terms : UInt64} {entry : Entry Input Output}
    (hrun : Run (machine builtinTransfers crypto) (.deploy contract) history system)
    (hentry : entry ∈ history)
    (hgrant : Licence.Did (actOn crypto delay kind hash) (.grant terms) entry) :
    Submitted crypto kind hash entry := by
  obtain ⟨input, result⟩ := entry
  obtain ⟨output, hresult, hact⟩ := hgrant
  obtain rfl : result = .ok output := hresult
  obtain ⟨before, after, rfl⟩ := List.append_of_mem hentry
  obtain ⟨_, _, _, hok, _⟩ := hrun.step_at
  obtain ⟨target, callData, nativeValue, time, eta, hcommanded, _, hhash, _⟩ :=
    commanded_of_grant hok hact
  exact ⟨target, callData, nativeValue, time, eta, hcommanded, hhash⟩

/-- An execution happens under a submission of the very same proposal, neither
cancelled nor executed since; for a time-lock proposal the stored eta is the
one that submission fixed. -/
theorem executed_since {ctx : CallContext} {target : Address} {callData : ManagedBuffer}
    {nativeValue : BigUint} {output : Output}
    (hinit : init gateway governanceChain governanceAddress delay operator = .ok contract)
    (hrun : Run (machine builtinTransfers crypto) (.deploy contract)
      (before ++ ⟨kind.execution ctx target callData nativeValue, .ok output⟩ :: after) system)
    (hkeccak : Set.InjOn crypto.keccak256 (proposalPreimages
      (before ++ ⟨kind.execution ctx target callData nativeValue, .ok output⟩ :: after))) :
    ∃ reached next,
      Run (machine builtinTransfers crypto) (.deploy contract) before reached ∧
      (kind.execution ctx target callData nativeValue).perform builtinTransfers crypto
        reached = .ok (next, output) ∧
      Since (fun entry => ∃ time eta,
          Commanded crypto kind.submitCommand target callData nativeValue time eta entry ∧
          (kind = .timeLock → (reached.contract.slot kind
            (getProposalHash crypto target callData nativeValue)).eta =
              effectiveEta time delay eta))
        (Ended crypto kind target callData nativeValue) before := by
  obtain ⟨reached, next, hreached, hstep, _⟩ := hrun.step_at
  refine ⟨reached, next, hreached, hstep, ?_⟩
  have hsimulates : Licence.Simulates (actOn crypto delay kind
      (getProposalHash crypto target callData nativeValue)) (machine builtinTransfers crypto)
      (.deploy contract) (System.licence kind
        (getProposalHash crypto target callData nativeValue)) := simulates hinit kind _
  have hattempt : actOn crypto delay kind (getProposalHash crypto target callData nativeValue)
      (kind.execution ctx target callData nativeValue) output = some .attempt :=
    actOn_execution ctx target callData nativeValue
  obtain ⟨terms, hgranted, hsince⟩ := hsimulates.attempt_since hreached hstep hattempt
  have heta : (reached.contract.slot kind
      (getProposalHash crypto target callData nativeValue)).eta = terms := by
    simp only [System.licence, Slot.licence] at hgranted
    split at hgranted
    · exact Option.some.inj hgranted
    · simp at hgranted
  refine hsince.imp ?_ ?_
  · rintro earlier ⟨input, result⟩ later rfl ⟨granted, hresult, hact⟩
    obtain rfl : result = .ok granted := hresult
    obtain ⟨opened, _, _, hok, _⟩ := hreached.step_at
    obtain ⟨otherTarget, otherData, otherValue, time, eta, hcommanded, hproposal, hhash,
      hterms⟩ := commanded_of_grant hok hact
    -- The submission hashed the string of some proposal: it is this proposal's.
    have hsame : proposalPreimage otherTarget otherData otherValue =
        proposalPreimage target callData nativeValue := by
      apply hkeccak _ _ hhash
      · exact ⟨⟨input, .ok granted⟩, by simp, _, _, _, hproposal, rfl⟩
      · refine ⟨_, List.mem_append_right _ (List.mem_cons_self ..), _, _, _, ?_, rfl⟩
        cases kind <;> rfl
    obtain ⟨rfl, rfl, rfl⟩ := proposalPreimage_injective hsame
    exact ⟨time, eta, hcommanded, fun hkind => heta.trans (hterms hkind)⟩
  · exact fun entry _ hended => ends_of_ended hended

/-- After a cancellation nothing is executed before the next submission. -/
theorem submitted_between_cancel_execution {ctx : CallContext} {target : Address}
    {callData : ManagedBuffer} {nativeValue : BigUint} {output : Output} {time eta : UInt64}
    (hinit : init gateway governanceChain governanceAddress delay operator = .ok contract)
    (hrun : Run (machine builtinTransfers crypto) (.deploy contract)
      (before ++ first :: between ++
        ⟨kind.execution ctx target callData nativeValue, .ok output⟩ :: after) system)
    (hcancelled : Commanded crypto kind.cancelCommand target callData nativeValue time eta
      first) :
    ∃ entry ∈ between, Submitted crypto kind
      (getProposalHash crypto target callData nativeValue) entry := by
  obtain ⟨ctx, validateMessage, chain, id, address, payload, cancelled, rfl, _⟩ :=
    id hcancelled
  obtain ⟨entry, hentry, terms, hgrant⟩ :=
    (simulates hinit kind _).granted_between_revoke_attempt hrun
      (actOn_of_cancelled hcancelled) (actOn_execution _ _ _ _)
  exact ⟨entry, hentry, submitted_of_grant hrun (by simp [hentry]) hgrant⟩

/-- Between two successful executions lies a submission. -/
theorem submitted_between_successes
    (hinit : init gateway governanceChain governanceAddress delay operator = .ok contract)
    (hrun : Run (machine builtinTransfers crypto) (.deploy contract)
      (before ++ first :: between ++ second :: after) system)
    (hfirst : Succeeded kind hash first) (hsecond : Succeeded kind hash second) :
    ∃ entry ∈ between, Submitted crypto kind hash entry := by
  obtain ⟨_, _, _, _, rfl, _⟩ := id hfirst
  obtain ⟨_, _, _, _, rfl, _⟩ := id hsecond
  obtain ⟨entry, hentry, terms, hgrant⟩ :=
    (simulates hinit kind hash).granted_between_successes hrun
      (actOn_of_succeeded hfirst) (actOn_of_succeeded hsecond)
  exact ⟨entry, hentry, submitted_of_grant hrun (by simp [hentry]) hgrant⟩

theorem inFlight_le_one
    (hinit : init gateway governanceChain governanceAddress delay operator = .ok contract)
    (hrun : Run (machine builtinTransfers crypto) (.deploy contract) history system)
    (kind : Kind) (hash : Hash) :
    system.pending.countP (Promise.isFor kind hash) ≤ 1 := by
  rw [((Consistent.deploy hinit).1.run hrun).pending_eq]
  split <;> omega

end Runs

end AxelarCgp.Governance
