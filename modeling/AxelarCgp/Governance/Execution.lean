import AxelarCgp.Governance.TimeLock

/-!
# When an execution completes

What stands between a proposal and its call is read off the past: the last word
of the gateway on it, and whether its call is in flight or has succeeded.  The
rest is the caller's to bring: the data, the gas, the funds, and for an operator
proposal the office.
-/

namespace AxelarCgp.Governance

open NestedCodec Machine

variable {crypto : Crypto} {builtinTransfers : BuiltinTransfers} {kind : Kind} {hash : Hash}
variable {ctx : CallContext} {target : Address} {callData : ManagedBuffer}
variable {nativeValue : BigUint} {delay : UInt64}

/-- What the call brings: data that decodes, gas for the call and its callback,
and funds for all that the call takes with it. -/
def Supplied (builtinTransfers : BuiltinTransfers) (ctx : CallContext) (target : Address)
    (callData : ManagedBuffer) (nativeValue : BigUint) (system : System) : Prop :=
  ∃ decoded : DecodedCallData, topDecode callData.1 = some decoded ∧
    extraGasForCallback ctx.callValue + keepExtraGas + decoded.minGasLimit < ctx.gasLeft ∧
    ∀ asset, Purse.total (carriedBy builtinTransfers target nativeValue decoded.endpointName
      decoded.arguments) asset ≤ system.balance asset + ctx.callValue.total asset

/-- What an execution needs, the past before it being `history`. -/
structure Executable (builtinTransfers : BuiltinTransfers) (crypto : Crypto) (delay : UInt64)
    (kind : Kind) (ctx : CallContext) (target : Address) (callData : ManagedBuffer)
    (nativeValue : BigUint) (history : History) (system : System) : Prop where
  /-- The gateway submitted this very proposal, for now or earlier, and since
  then it was neither cancelled nor executed with success. -/
  submitted : Since (fun entry => ∃ time eta,
      Commanded crypto kind.submitCommand target callData nativeValue time eta entry ∧
      (kind = .timeLock → effectiveEta time delay eta ≤ ctx.blockTimestamp))
    (Ended crypto kind target callData nativeValue) history
  idle : ∀ promise ∈ system.pending,
    ¬ promise.isFor kind (getProposalHash crypto target callData nativeValue)
  authorised : kind = .operator → ctx.caller = system.contract.operator
  supplied : Supplied builtinTransfers ctx target callData nativeValue system

/-! ## One execution -/

section Step

variable {system : System}

/-- A call completes when the contract lets it and its sends are covered. -/
theorem settle_completes_iff {called : Outcome (State × Effects)} :
    (∃ next output, called >>= settle builtinTransfers ctx system = .ok (next, output)) ↔
      ∃ contract effects, called = .ok (contract, effects) ∧
        ∀ asset, Purse.total (effects.outflow builtinTransfers) asset ≤
          system.balance asset + ctx.callValue.total asset := by
  constructor
  · rintro ⟨next, output, hok⟩
    obtain ⟨⟨contract, effects⟩, hcalled, hsettle⟩ := Outcome.bind_eq_ok.mp hok
    exact ⟨contract, effects, hcalled, fun asset => ((settle_eq_ok hsettle).2.2.2 asset).1⟩
  · rintro ⟨contract, effects, hcalled, hcovered⟩
    obtain ⟨next, hsettle⟩ := @settle_isOk _ _ _ (contract, effects) hcovered
    exact ⟨next, _, Outcome.bind_eq_ok.mpr ⟨_, hcalled, hsettle⟩⟩

/-- What the two endpoints check of the proposal's slot and of the call. -/
theorem execution_completes_iff_slot :
    (∃ next output, (kind.execution ctx target callData nativeValue).perform builtinTransfers
        crypto system = .ok (next, output)) ↔
      let slot := system.contract.slot kind
        (getProposalHash crypto target callData nativeValue)
      slot.submitted = true ∧ slot.beingExecuted = false ∧
      (kind = .timeLock → slot.eta ≤ ctx.blockTimestamp) ∧
      (kind = .operator → slot.approved = true ∧ ctx.caller = system.contract.operator) ∧
      Supplied builtinTransfers ctx target callData nativeValue system := by
  cases kind with
  | timeLock =>
      rw [Kind.execution, Input.perform, settle_completes_iff]
      simp only [executeProposal, Outcome.bind_eq_ok, Outcome.exists_unit,
        Outcome.require_eq_ok, Outcome.orFail_eq_ok, Outcome.pure_eq_ok, Prod.mk.injEq]
      constructor
      · rintro ⟨_, _, ⟨hsubmitted, hidle, heta, decoded, hdecode, hgas, rfl, rfl⟩, hcovered⟩
        refine ⟨hsubmitted, by simpa [State.slot] using hidle, fun _ => heta, by simp,
          decoded, hdecode, hgas, ?_⟩
        simpa [Effects.outflow, Promise.carried] using hcovered
      · rintro ⟨hsubmitted, hidle, heta, _, decoded, hdecode, hgas, hcovered⟩
        refine ⟨_, _, ⟨hsubmitted, by simpa [State.slot] using hidle, heta trivial, decoded,
          hdecode, hgas, rfl, rfl⟩, ?_⟩
        simpa [Effects.outflow, Promise.carried] using hcovered
  | operator =>
      rw [Kind.execution, Input.perform, settle_completes_iff]
      simp only [executeOperatorProposal, Outcome.bind_eq_ok, Outcome.exists_unit,
        Outcome.require_eq_ok, Outcome.orFail_eq_ok, Outcome.pure_eq_ok, Prod.mk.injEq]
      constructor
      · rintro ⟨_, _, ⟨hcaller, hsubmitted, hidle, happroved, decoded, hdecode, hgas, rfl, rfl⟩,
          hcovered⟩
        refine ⟨hsubmitted, by simpa [State.slot] using hidle, by simp,
          fun _ => ⟨happroved, hcaller⟩, decoded, hdecode, hgas, ?_⟩
        simpa [Effects.outflow, Promise.carried] using hcovered
      · rintro ⟨hsubmitted, hidle, _, hoffice, decoded, hdecode, hgas, hcovered⟩
        obtain ⟨happroved, hcaller⟩ := hoffice trivial
        refine ⟨_, _, ⟨hcaller, hsubmitted, by simpa [State.slot] using hidle, happroved,
          decoded, hdecode, hgas, rfl, rfl⟩, ?_⟩
        simpa [Effects.outflow, Promise.carried] using hcovered

end Step

/-! ## The past -/

/-- A submission is a grant, on the terms of its eta. -/
theorem actOn_of_submitted {time eta : UInt64} {input : Input} {output : Output}
    (h : Commanded crypto kind.submitCommand target callData nativeValue time eta
      ⟨input, .ok output⟩) :
    actOn crypto delay kind (getProposalHash crypto target callData nativeValue) input output =
      some (.grant (if kind = .timeLock then effectiveEta time delay eta else 0)) := by
  obtain ⟨ctx, validateMessage, chain, id, address, payload, _, hentry, _, hdecode, rfl⟩ := h
  obtain ⟨rfl, _⟩ := Entry.mk.inj hentry
  cases kind <;>
    simp [actOn, action, hdecode, ExecutePayload.action, ExecutePayload.hash,
      Kind.submitCommand]

/-- A revocation is a validated command that cancels a proposal of the hash. -/
theorem commanded_of_revoke {system next : System} {input : Input} {output : Output}
    (hok : input.perform builtinTransfers crypto system = .ok (next, output))
    (h : actOn crypto delay kind hash input output = some .revoke) :
    ∃ target callData nativeValue time eta,
      Commanded crypto kind.cancelCommand target callData nativeValue time eta
        ⟨input, .ok output⟩ ∧
      input.proposal = some (target, callData, nativeValue) ∧
      getProposalHash crypto target callData nativeValue = hash := by
  obtain ⟨⟨foundKind, foundHash, which⟩, haction, hfound⟩ := Option.bind_eq_some_iff.mp h
  split at hfound
  · rename_i hsame
    obtain ⟨rfl, rfl⟩ := hsame
    obtain rfl := Option.some.inj hfound
    cases input with
    | execute ctx validateMessage chain id address payload =>
        obtain ⟨⟨command, target, callData, nativeValue, eta⟩, hdecode, hcommand⟩ :=
          Option.map_eq_some_iff.mp haction
        simp only [Input.perform, Outcome.bind_eq_ok, Outcome.exists_unit, Prod.exists] at hok
        obtain ⟨_, contract, effects, hexecute, _⟩ := hok
        obtain ⟨hvalid, _⟩ := execute_eq_ok hexecute
        have hproposal : (Input.execute ctx validateMessage chain id address payload).proposal =
            some (target, callData, nativeValue) := by
          simp [Input.proposal, hdecode]
        refine ⟨target, callData, nativeValue, ctx.blockTimestamp, eta, ⟨ctx, _, chain, id,
          address, payload, output, rfl, hvalid, ?_, rfl⟩, hproposal, ?_⟩
        · cases command with
          | cancelTimeLockProposal | cancelOperatorApproval =>
              obtain ⟨rfl, -⟩ := by simpa [ExecutePayload.action] using hcommand
              exact hdecode
          | scheduleTimeLockProposal | approveOperatorProposal =>
              simp [ExecutePayload.action] at hcommand
        · cases command with
          | cancelTimeLockProposal | cancelOperatorApproval =>
              obtain ⟨-, rfl⟩ := by simpa [ExecutePayload.action] using hcommand
              rfl
          | scheduleTimeLockProposal | approveOperatorProposal =>
              simp [ExecutePayload.action] at hcommand
    | callback index result =>
        cases result <;> simp [action, ManagedAsyncCallResult.act] at haction
    | _ => simp [action] at haction
  · simp at hfound

theorem succeeded_of_succeed {input : Input} {output : Output}
    (h : actOn crypto delay kind hash input output = some .succeed) :
    Succeeded kind hash ⟨input, .ok output⟩ := by
  obtain ⟨⟨foundKind, foundHash, which⟩, haction, hfound⟩ := Option.bind_eq_some_iff.mp h
  split at hfound
  · rename_i hsame
    obtain ⟨rfl, rfl⟩ := hsame
    obtain rfl := Option.some.inj hfound
    cases input with
    | callback index result =>
        obtain ⟨promise, hanswered, hpromise⟩ := Option.map_eq_some_iff.mp haction
        cases result with
        | ok results =>
            obtain ⟨rfl, rfl, -⟩ := by simpa using hpromise
            exact ⟨index, results, output, promise, rfl, hanswered, by simp [Promise.isFor]⟩
        | err errCode errMsg => simp [ManagedAsyncCallResult.act] at hpromise
    | execute ctx validateMessage chain id address payload =>
        obtain ⟨⟨command, target, callData, nativeValue, eta⟩, _, hcommand⟩ :=
          Option.map_eq_some_iff.mp haction
        cases command <;> simp [ExecutePayload.action] at hcommand
    | _ => simp [action] at haction
  · simp at hfound

section Run

variable {gateway operator : Address} {governanceChain governanceAddress : ManagedBuffer}
variable {contract : State} {history : History} {system : System}

/-- Unless two strings share a hash, what ended the licence ended the proposal. -/
theorem ended_of_ends {entry : Entry Input Output}
    (hrun : Run (machine builtinTransfers crypto) (.deploy contract) history system)
    (hkeccak : Set.InjOn crypto.keccak256
      (insert (proposalPreimage target callData nativeValue) (proposalPreimages history)))
    (hentry : entry ∈ history)
    (h : Licence.Ends (actOn crypto delay kind
      (getProposalHash crypto target callData nativeValue)) entry) :
    Ended crypto kind target callData nativeValue entry := by
  obtain ⟨input, result⟩ := entry
  rcases h with ⟨output, hresult, hrevoke⟩ | ⟨output, hresult, hsucceed⟩
  · obtain rfl : result = .ok output := hresult
    obtain ⟨before, after, heq⟩ := List.append_of_mem hentry
    obtain ⟨_, _, _, hok, _⟩ := (heq ▸ hrun).step_at
    obtain ⟨otherTarget, otherData, otherValue, time, eta, hcommanded, hproposal, hhash⟩ :=
      commanded_of_revoke hok hrevoke
    have hsame : proposalPreimage otherTarget otherData otherValue =
        proposalPreimage target callData nativeValue := by
      apply hkeccak _ (Set.mem_insert _ _) hhash
      exact Set.mem_insert_of_mem _ ⟨_, hentry, _, _, _, hproposal, rfl⟩
    obtain ⟨rfl, rfl, rfl⟩ := proposalPreimage_injective hsame
    exact .inl ⟨time, eta, hcommanded⟩
  · obtain rfl : result = .ok output := hresult
    exact .inr (succeeded_of_succeed hsucceed)

/-- The licence of a proposal that stands submitted. -/
theorem licence_of_submitted {now : UInt64}
    (hinit : init gateway governanceChain governanceAddress delay operator = .ok contract)
    (hrun : Run (machine builtinTransfers crypto) (.deploy contract) history system)
    (hkeccak : Set.InjOn crypto.keccak256
      (insert (proposalPreimage target callData nativeValue) (proposalPreimages history)))
    (h : Since (fun entry => ∃ time eta,
        Commanded crypto kind.submitCommand target callData nativeValue time eta entry ∧
        (kind = .timeLock → effectiveEta time delay eta ≤ now))
      (Ended crypto kind target callData nativeValue) history) :
    let slot := system.contract.slot kind (getProposalHash crypto target callData nativeValue)
    slot.submitted = true ∧ (kind = .timeLock → slot.eta ≤ now) := by
  have hgranted : ∃ terms, Since (Licence.Did (actOn crypto delay kind
        (getProposalHash crypto target callData nativeValue)) (.grant terms))
      (Licence.Ends (actOn crypto delay kind
        (getProposalHash crypto target callData nativeValue))) history ∧
      (kind = .timeLock → terms ≤ now) := by
    obtain ⟨before, entry, after, rfl, ⟨time, eta, hcommanded, heta⟩, hstands⟩ := h
    obtain ⟨_, _, _, _, _, _, output, rfl, _⟩ := id hcommanded
    refine ⟨_, ⟨before, _, after, rfl, Licence.did_ok.mpr (actOn_of_submitted hcommanded), ?_⟩,
      ?_⟩
    · intro later hlater hends
      exact hstands later hlater (ended_of_ends hrun hkeccak (by simp [hlater]) hends)
    · intro hkind
      rw [if_pos hkind]
      exact heta hkind
  obtain ⟨terms, hsince, hterms⟩ := hgranted
  have hlicence := (simulates hinit kind _).granted_of_since hrun hsince
  simp only [System.licence, Slot.licence] at hlicence
  split at hlicence
  · rename_i hsubmitted
    obtain rfl := Option.some.inj hlicence
    exact ⟨hsubmitted, hterms⟩
  · simp at hlicence

/-- An execution hashes the string of its own proposal. -/
theorem proposalPreimages_execution {result : Outcome Output} :
    proposalPreimages (history ++ [⟨kind.execution ctx target callData nativeValue, result⟩]) ⊆
      insert (proposalPreimage target callData nativeValue) (proposalPreimages history) := by
  rintro _ ⟨entry, hentry, otherTarget, otherData, otherValue, hproposal, rfl⟩
  rcases List.mem_append.mp hentry with hbefore | hlast
  · exact Set.mem_insert_of_mem _ ⟨entry, hbefore, _, _, _, hproposal, rfl⟩
  · obtain rfl := List.mem_singleton.mp hlast
    have hsame : (kind.execution ctx target callData nativeValue).proposal =
        some (target, callData, nativeValue) := by
      cases kind <;> rfl
    obtain ⟨rfl, rfl, rfl⟩ := by simpa [hsame] using hproposal
    exact Set.mem_insert _ _

/-- A proposal is marked as being executed while its call is in flight. -/
theorem idle_iff
    (hinit : init gateway governanceChain governanceAddress delay operator = .ok contract)
    (hrun : Run (machine builtinTransfers crypto) (.deploy contract) history system) :
    (∀ promise ∈ system.pending, ¬ promise.isFor kind hash) ↔
      (system.contract.slot kind hash).beingExecuted = false := by
  have hcount := ((Consistent.deploy hinit).1.run hrun).pending_eq kind hash
  rw [← List.countP_eq_zero, hcount]
  cases (system.contract.slot kind hash).beingExecuted <;> simp

/-- An execution completes exactly when the proposal stands submitted, has no
call in flight, and the caller brings what is left. -/
theorem execution_completes_iff
    (hinit : init gateway governanceChain governanceAddress delay operator = .ok contract)
    (hrun : Run (machine builtinTransfers crypto) (.deploy contract) history system)
    (hkeccak : Set.InjOn crypto.keccak256
      (insert (proposalPreimage target callData nativeValue) (proposalPreimages history))) :
    (∃ next output, (machine builtinTransfers crypto).step system
        (kind.execution ctx target callData nativeValue) = .ok (next, output)) ↔
      Executable builtinTransfers crypto delay kind ctx target callData nativeValue history
        system := by
  have happroved := ((Consistent.deploy hinit).1.run hrun).approved_eq
  constructor
  · intro hcompletes
    obtain ⟨_, hidle, heta, hoffice, hsupplied⟩ := execution_completes_iff_slot.mp hcompletes
    obtain ⟨next, output, hstep⟩ := hcompletes
    obtain ⟨reached, _, hreached, _, hsince⟩ :=
      executed_since hinit (hrun.completed hstep) (hkeccak.mono proposalPreimages_execution)
    obtain rfl := hreached.unique hrun
    exact {
      submitted := by
        refine hsince.imp ?_ fun _ _ hended => hended
        rintro _ _ _ _ ⟨time, eta, hcommanded, hterms⟩
        exact ⟨time, eta, hcommanded, fun hkind => hterms hkind ▸ heta hkind⟩
      idle := (idle_iff hinit hrun).mpr hidle
      authorised := fun hkind => (hoffice hkind).2
      supplied := hsupplied }
  · intro h
    obtain ⟨hsubmitted, heta⟩ := licence_of_submitted hinit hrun hkeccak h.submitted
    apply execution_completes_iff_slot.mpr
    refine ⟨hsubmitted, (idle_iff hinit hrun).mp h.idle, heta, ?_, h.supplied⟩
    rintro rfl
    exact ⟨(happroved _).trans hsubmitted, h.authorised rfl⟩

end Run

/-! ## A failed execution

The proposal was scheduled and executed, the call failed, and the proposal may
be executed again. -/

def sampleFailedExecution : List Input :=
  [sampleCommand .scheduleTimeLockProposal 'a',
    .executeProposal (sampleContext 110 10) sampleTarget (sampleCallData 'a') sampleValue,
    .callback 0 (.err 4 (sampleBuffer (Bytes.ascii ['e'])))]

theorem sampleFailedExecution_onlyAbout : onlyAbout 'a' sampleFailedExecution := by
  decide +kernel

theorem sampleFailedExecution_completes :
    (fun contract =>
      ((machine noTransfers sampleCrypto).replay (.deploy contract) sampleFailedExecution).1.map
        fun entry => entry.result.isOk) <$> sampleInit = .ok [true, true, true] := by
  decide +kernel

theorem sampleSecondExecution_completes :
    (fun contract => ((machine noTransfers sampleCrypto).step
      ((machine noTransfers sampleCrypto).replay (.deploy contract) sampleFailedExecution).2
      (Kind.timeLock.execution (sampleContext 120 0) sampleTarget (sampleCallData 'a')
        sampleValue)).isOk) <$> sampleInit = .ok true := by
  decide +kernel

theorem sample_execution_completes_iff : ∃ contract history system,
    sampleInit = .ok contract ∧
    Run (machine noTransfers sampleCrypto) (.deploy contract) history system ∧
    history.map (fun entry => entry.result.isOk) = [true, true, true] ∧
    Executable noTransfers sampleCrypto 10 .timeLock (sampleContext 120 0) sampleTarget
      (sampleCallData 'a') sampleValue history system := by
  obtain ⟨contract, hinit⟩ := Outcome.exists_eq_ok sampleInit_isOk
  have hrun := run_replay (machine noTransfers sampleCrypto) (.deploy contract)
    sampleFailedExecution
  have hcompletes := Outcome.apply_of_map sampleFailedExecution_completes hinit
  have hretry := Outcome.apply_of_map sampleSecondExecution_completes hinit
  have hmem : proposalPreimage sampleTarget (sampleCallData 'a') sampleValue ∈
      proposalPreimages ((machine noTransfers sampleCrypto).replay (.deploy contract)
        sampleFailedExecution).1 := by
    have hinput : Input.executeProposal (sampleContext 110 10) sampleTarget
        (sampleCallData 'a') sampleValue ∈ ((machine noTransfers sampleCrypto).replay
          (.deploy contract) sampleFailedExecution).1.map Entry.input := by
      rw [replay_inputs]
      simp [sampleFailedExecution]
    obtain ⟨entry, hentry, heq⟩ := List.mem_map.mp hinput
    exact ⟨entry, hentry, _, _, _, by rw [heq]; rfl, rfl⟩
  have hkeccak := @sample_keccak_injOn contract _ _ sampleFailedExecution_onlyAbout
  rw [← Set.insert_eq_of_mem hmem] at hkeccak
  obtain ⟨⟨next, output⟩, hstep⟩ := Outcome.exists_eq_ok hretry
  exact ⟨contract, _, _, hinit, hrun, hcompletes,
    (execution_completes_iff hinit hrun hkeccak).mp ⟨next, output, hstep⟩⟩

end AxelarCgp.Governance
