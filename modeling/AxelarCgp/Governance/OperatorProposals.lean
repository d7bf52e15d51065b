import AxelarCgp.Governance.TimeLock

/-!
# Operator proposals

The second kind of proposals keeps to the same licence, without a clock, and its
executions are the operator's alone.  The two kinds share their hashes and
nothing else, even when one proposal is pending as both.
-/

namespace AxelarCgp.Governance

open NestedCodec Machine

variable {crypto : Crypto}

structure OperatorSafety (builtinTransfers : BuiltinTransfers) (crypto : Crypto)
    (start : System) (history : History) (system : System) : Prop where
  /-- Every operator call was dispatched by the operator of that moment and
  approved for exactly its target, call data and value, and not cancelled or
  executed since. -/
  approved : ∀ before after input output promise,
    history = before ++ ⟨input, .ok output⟩ :: after →
    output.effects.promise = some promise → promise.callback.kind = .operator →
    ∃ ctx target callData nativeValue,
      input = .executeOperatorProposal ctx target callData nativeValue ∧
      (∃ reached, Run (machine builtinTransfers crypto) start before reached ∧
        ctx.caller = reached.contract.operator) ∧
      Dispatches .operator (getProposalHash crypto target callData nativeValue) ctx target
        callData nativeValue promise ∧
      Since (fun entry => ∃ time eta, Commanded crypto .approveOperatorProposal target
          callData nativeValue time eta entry)
        (Ended crypto .operator target callData nativeValue) before
  in_flight : ∀ hash, system.pending.countP (Promise.isFor .operator hash) ≤ 1
  executed_once : ∀ before between after first second hash,
    history = before ++ first :: between ++ second :: after →
    Succeeded .operator hash first → Succeeded .operator hash second →
    ∃ entry ∈ between, Submitted crypto .operator hash entry
  approvals_agree : ∀ hash, system.contract.operatorApprovals hash =
    system.contract.operatorProposalsSubmitted hash
  /-- An operation changes what is stored for its own kind and hash only. -/
  separate : ∀ input next output kind hash,
    input.perform builtinTransfers crypto system = .ok (next, output) →
    ¬ About crypto kind hash output input →
    next.contract.slot kind hash = system.contract.slot kind hash

theorem operatorProposals_safety {builtinTransfers : BuiltinTransfers}
    {gateway operator : Address} {governanceChain governanceAddress : ManagedBuffer}
    {delay : UInt64} {contract : State} {history : History} {system : System}
    (hinit : init gateway governanceChain governanceAddress delay operator = .ok contract)
    (hrun : Run (machine builtinTransfers crypto) (.deploy contract) history system)
    (hkeccak : Set.InjOn crypto.keccak256 (proposalPreimages history)) :
    OperatorSafety builtinTransfers crypto (.deploy contract) history system := by
  refine {
    approved := ?approved
    in_flight := inFlight_le_one hinit hrun .operator
    executed_once := ?executed_once
    approvals_agree := ((Consistent.deploy hinit).1.run hrun).approved_eq
    separate := ?separate }
  case approved =>
      rintro before after input output promise rfl hpromise hkind
      obtain ⟨_, _, _, hstep, _⟩ := hrun.step_at
      obtain ⟨ctx, target, callData, nativeValue, rfl, hdispatches⟩ :=
        promise_origin hstep hpromise
      rw [hkind] at hrun hkeccak hdispatches ⊢
      obtain ⟨reached, next, hreached, hexecute, hsince⟩ :=
        executed_since hinit hrun hkeccak
      have hcaller : ctx.caller = reached.contract.operator := by
        simp only [Kind.execution, Input.perform, Outcome.bind_eq_ok, Prod.exists] at hexecute
        obtain ⟨_, _, hok, _⟩ := hexecute
        exact (executeOperatorProposal_eq_ok hok).1
      refine ⟨ctx, target, callData, nativeValue, rfl, ⟨reached, hreached, hcaller⟩,
        hdispatches, hsince.imp ?_ fun _ _ hended => hended⟩
      rintro _ _ _ _ ⟨time, eta, hcommanded, _⟩
      exact ⟨time, eta, hcommanded⟩
  case executed_once =>
      rintro before between after first second hash rfl hfirst hsecond
      exact submitted_between_successes hinit hrun hfirst hsecond
  case separate =>
      intro input next output kind hash hok habout
      exact slot_of_actOn_none hok (actOn_eq_none_of_not_about habout)

/-! ## An approved proposal -/

def sampleOperatorExecution : List Input :=
  [sampleCommand .approveOperatorProposal 'a',
    .executeOperatorProposal (sampleContext 100 10) sampleTarget (sampleCallData 'a')
      sampleValue,
    .callback 0 (.ok [])]

theorem sampleOperatorExecution_completes :
    (fun contract => ((machine noTransfers sampleCrypto).replay (.deploy contract)
      sampleOperatorExecution).1.map fun entry => entry.result.isOk) <$> sampleInit =
        .ok [true, true, true] := by
  decide +kernel

theorem sampleOperatorExecution_onlyAbout : onlyAbout 'a' sampleOperatorExecution := by
  decide +kernel

/-- A proposal that was approved, executed by the operator, and succeeded. -/
theorem sample_operatorProposals_safety : ∃ contract history system,
    sampleInit = .ok contract ∧
    Run (machine noTransfers sampleCrypto) (.deploy contract) history system ∧
    history.map (fun entry => entry.result.isOk) = [true, true, true] ∧
    OperatorSafety noTransfers sampleCrypto (.deploy contract) history system := by
  obtain ⟨contract, hinit⟩ := Outcome.exists_eq_ok sampleInit_isOk
  have hrun := run_replay (machine noTransfers sampleCrypto) (.deploy contract)
    sampleOperatorExecution
  have hcompletes := Outcome.apply_of_map sampleOperatorExecution_completes hinit
  exact ⟨contract, _, _, hinit, hrun, hcompletes, operatorProposals_safety hinit hrun
    (sample_keccak_injOn sampleOperatorExecution_onlyAbout)⟩

end AxelarCgp.Governance
