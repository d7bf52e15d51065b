import AxelarCgp.Governance.Safety

/-!
# Time-lock safety

No execution without a schedule that is old enough: the eta that a schedule
stores bounds both the requested time and the minimum delay, as long as the sum
of clock and delay does not wrap, and the licence of the hash supplies the
schedule that stored it.
-/

namespace AxelarCgp.Governance

open NestedCodec Machine

variable {crypto : Crypto}

/-- Without a wrap, the stored eta is at least the requested one and the
minimum delay away. -/
theorem le_of_effectiveEta_le {time delay eta now : UInt64}
    (hclock : time.toNat + delay.toNat < 2 ^ 64) (h : effectiveEta time delay eta ≤ now) :
    eta ≤ now ∧ time.toNat + delay.toNat ≤ now.toNat := by
  have hsum : (time + delay).toNat = time.toNat + delay.toNat := by
    rw [UInt64.toNat_add, Nat.mod_eq_of_lt hclock]
  rw [UInt64.le_iff_toNat_le] at h ⊢
  unfold effectiveEta at h
  split at h
  · rename_i hearly
    rw [UInt64.lt_iff_toNat_lt] at hearly
    omega
  · rename_i hlate
    rw [UInt64.lt_iff_toNat_lt] at hlate
    omega

def Input.context : Input → Option CallContext
  | executeProposal ctx _ _ _ => some ctx
  | executeOperatorProposal ctx _ _ _ => some ctx
  | withdraw ctx _ _ => some ctx
  | transferOperatorship ctx _ => some ctx
  | execute ctx _ _ _ _ _ => some ctx
  | withdrawRefundToken ctx _ => some ctx
  | callback _ _ => none

/-- The clock never comes so late that the minimum delay would wrap it. -/
def ClockFits (delay : UInt64) (history : History) : Prop :=
  ∀ entry ∈ history, ∀ ctx, entry.input.context = some ctx →
    ctx.blockTimestamp.toNat + delay.toNat < 2 ^ 64

structure TimeLockSafety (crypto : Crypto) (delay : UInt64) (history : History)
    (system : System) : Prop where
  /-- Every time-lock call was scheduled, long enough ago, for exactly its
  target, call data and value, and not cancelled or executed since. -/
  scheduled : ∀ before after input output promise,
    history = before ++ ⟨input, .ok output⟩ :: after →
    output.effects.promise = some promise → promise.callback.kind = .timeLock →
    ∃ ctx target callData nativeValue,
      input = .executeProposal ctx target callData nativeValue ∧
      Dispatches .timeLock (getProposalHash crypto target callData nativeValue) ctx target
        callData nativeValue promise ∧
      Since (fun entry => ∃ time eta, Commanded crypto .scheduleTimeLockProposal target
          callData nativeValue time eta entry ∧ eta ≤ ctx.blockTimestamp ∧
          time.toNat + delay.toNat ≤ ctx.blockTimestamp.toNat)
        (Ended crypto .timeLock target callData nativeValue) before
  in_flight : ∀ hash, system.pending.countP (Promise.isFor .timeLock hash) ≤ 1
  executed_once : ∀ before between after first second hash,
    history = before ++ first :: between ++ second :: after →
    Succeeded .timeLock hash first → Succeeded .timeLock hash second →
    ∃ entry ∈ between, Submitted crypto .timeLock hash entry
  /-- A cancellation holds until the next schedule, also when a call was in
  flight at the time. -/
  cancelled : ∀ before between after first ctx target callData nativeValue output time eta,
    history = before ++ first :: between ++
      ⟨.executeProposal ctx target callData nativeValue, .ok output⟩ :: after →
    Commanded crypto .cancelTimeLockProposal target callData nativeValue time eta first →
    ∃ entry ∈ between, Submitted crypto .timeLock
      (getProposalHash crypto target callData nativeValue) entry

theorem timeLock_safety {builtinTransfers : BuiltinTransfers}
    {gateway operator : Address} {governanceChain governanceAddress : ManagedBuffer}
    {delay : UInt64} {contract : State} {history : History} {system : System}
    (hinit : init gateway governanceChain governanceAddress delay operator = .ok contract)
    (hrun : Run (machine builtinTransfers crypto) (.deploy contract) history system)
    (hkeccak : Set.InjOn crypto.keccak256 (proposalPreimages history))
    (hclock : ClockFits delay history) :
    TimeLockSafety crypto delay history system := by
  refine {
    scheduled := ?scheduled
    in_flight := inFlight_le_one hinit hrun .timeLock
    executed_once := ?executed_once
    cancelled := ?cancelled }
  case scheduled =>
      rintro before after input output promise rfl hpromise hkind
      obtain ⟨_, _, _, hstep, _⟩ := hrun.step_at
      obtain ⟨ctx, target, callData, nativeValue, rfl, hdispatches⟩ :=
        promise_origin hstep hpromise
      rw [hkind] at hrun hkeccak hclock hdispatches ⊢
      refine ⟨ctx, target, callData, nativeValue, rfl, hdispatches, ?_⟩
      obtain ⟨reached, next, _, hexecute, hsince⟩ := executed_since hinit hrun hkeccak
      have heta : (reached.contract.slot .timeLock
          (getProposalHash crypto target callData nativeValue)).eta ≤ ctx.blockTimestamp := by
        simp only [Kind.execution, Input.perform, Outcome.bind_eq_ok, Prod.exists] at hexecute
        obtain ⟨_, _, hok, _⟩ := hexecute
        exact (executeProposal_eq_ok hok).2.2.1
      refine hsince.imp ?_ fun _ _ hended => hended
      rintro earlier entry later rfl ⟨time, eta, hcommanded, hterms⟩
      obtain ⟨schedule, validate, chain, id, address, payload, result, rfl, _, _, rfl⟩ :=
        id hcommanded
      have hfits := hclock ⟨.execute schedule validate chain id address payload, .ok result⟩
        (by simp) schedule rfl
      rw [hterms rfl] at heta
      exact ⟨_, eta, hcommanded, le_of_effectiveEta_le hfits heta⟩
  case executed_once =>
      rintro before between after first second hash rfl hfirst hsecond
      exact submitted_between_successes hinit hrun hfirst hsecond
  case cancelled =>
      rintro before between after first ctx target callData nativeValue output time eta rfl
        hcancelled
      exact submitted_between_cancel_execution hinit hrun hcancelled

/-! ## A scheduled proposal

Two proposals that carry ten units of EGLD each, with the hashes a chain
computes for them and for the commands that submit them. -/

def sampleTarget : Address := ⟨List.replicate 32 5, by simp⟩

def sampleCallData (name : Char) : ManagedBuffer :=
  sampleBuffer (depEncode (⟨sampleBuffer (Bytes.ascii [name]), ⟨[], by decide⟩, 0⟩ :
    DecodedCallData))

def sampleValue : BigUint := ⟨10, by decide⟩

def sampleContext (timestamp : UInt64) (value : ℕ) : CallContext where
  caller := ⟨List.replicate 32 6, by simp⟩
  scAddress := ⟨List.replicate 32 7, by simp⟩
  ownerAddress := ⟨List.replicate 32 8, by simp⟩
  blockTimestamp := timestamp
  callValue := .egld value
  gasLeft := 100000000

def samplePayload (command : ServiceGovernanceCommand) (name : Char) : ManagedBuffer :=
  sampleBuffer (depEncode (⟨command, sampleTarget, sampleCallData name, sampleValue, 0⟩ :
    ExecutePayload))

def sampleCommand (command : ServiceGovernanceCommand) (name : Char) : Input :=
  .execute (sampleContext 100 0) (fun _ _ _ _ => .ok true) (sampleBuffer (Bytes.ascii ['c']))
    (sampleBuffer (Bytes.ascii [name])) (sampleBuffer (Bytes.ascii ['g']))
    (samplePayload command name)

def sampleCrypto : Crypto :=
  Crypto.tabulated
    [(proposalPreimage sampleTarget (sampleCallData 'a') sampleValue, writeNat 32
        0x6f2ecae99cc4983d647ddae71aeae8b585b278952b6c521b9662ec9a65ed7a95),
      (proposalPreimage sampleTarget (sampleCallData 'b') sampleValue, writeNat 32
        0x6a8a8bca05f7b090bed495806e11b4b2abe7b709a92c92f3996558453de7831c),
      ((samplePayload .scheduleTimeLockProposal 'a').1, writeNat 32
        0xa7930fd7bd378ac70a532ec743979d2bc01df734d7418a37c582432bf9ac1110),
      ((samplePayload .scheduleTimeLockProposal 'b').1, writeNat 32
        0x67eaf5964d0abf339fa1b891353ae87bf7c816e0e52da478ec930cc705cf7a0e),
      ((samplePayload .approveOperatorProposal 'a').1, writeNat 32
        0xd2d5fba7b4bb78bab6b5c22e537dacd508dd9b32388b8cf5be973f771e14aa03)]
    []

/-- A deployment with a delay of ten seconds, whose operator is the caller. -/
def sampleInit : Outcome State :=
  init ⟨List.replicate 32 9, by simp⟩ (sampleBuffer (Bytes.ascii ['c']))
    (sampleBuffer (Bytes.ascii ['g'])) 10 (sampleContext 0 0).caller

theorem sampleInit_isOk : sampleInit.isOk := by
  decide +kernel

/-- Only the proposal of this name occurs in the inputs. -/
def onlyAbout (name : Char) (inputs : List Input) : Bool :=
  inputs.all fun input => decide (input.proposal = none ∨
    input.proposal = some (sampleTarget, sampleCallData name, sampleValue))

/-- A history that is all about one proposal hashes one string. -/
theorem injOn_of_onlyAbout {history : History} {name : Char}
    (h : onlyAbout name (history.map Entry.input)) :
    Set.InjOn crypto.keccak256 (proposalPreimages history) := by
  have hone : ∀ bytes ∈ proposalPreimages history,
      bytes = proposalPreimage sampleTarget (sampleCallData name) sampleValue := by
    rintro _ ⟨entry, hentry, target, callData, nativeValue, hproposal, rfl⟩
    have hsample := of_decide_eq_true (List.all_eq_true.mp h _ (List.mem_map_of_mem hentry))
    simp only [hproposal, reduceCtorEq, false_or, Option.some.injEq, Prod.mk.injEq] at hsample
    rw [hsample.1, hsample.2.1, hsample.2.2]
  intro left hleft right hright _
  rw [hone left hleft, hone right hright]

/-- Inputs that are all about one proposal hash one string. -/
theorem sample_keccak_injOn {contract : State} {inputs : List Input} {name : Char}
    (h : onlyAbout name inputs) :
    Set.InjOn sampleCrypto.keccak256 (proposalPreimages
      ((machine noTransfers sampleCrypto).replay (.deploy contract) inputs).1) := by
  apply injOn_of_onlyAbout
  rwa [replay_inputs]

def sampleExecution : List Input :=
  [sampleCommand .scheduleTimeLockProposal 'a',
    .executeProposal (sampleContext 110 10) sampleTarget (sampleCallData 'a') sampleValue,
    .callback 0 (.ok [])]

theorem sampleExecution_completes :
    (fun contract => ((machine noTransfers sampleCrypto).replay (.deploy contract)
      sampleExecution).1.map fun entry => entry.result.isOk) <$> sampleInit =
        .ok [true, true, true] := by
  decide +kernel

theorem sampleExecution_onlyAbout : onlyAbout 'a' sampleExecution := by
  decide +kernel

/-- A proposal that was scheduled, executed after its delay, and succeeded. -/
theorem sample_timeLock_safety : ∃ contract history system,
    sampleInit = .ok contract ∧
    Run (machine noTransfers sampleCrypto) (.deploy contract) history system ∧
    history.map (fun entry => entry.result.isOk) = [true, true, true] ∧
    TimeLockSafety sampleCrypto 10 history system := by
  obtain ⟨contract, hinit⟩ := Outcome.exists_eq_ok sampleInit_isOk
  have hrun := run_replay (machine noTransfers sampleCrypto) (.deploy contract)
    sampleExecution
  have hcompletes := Outcome.apply_of_map sampleExecution_completes hinit
  have hclock : ClockFits 10 ((machine noTransfers sampleCrypto).replay (.deploy contract)
      sampleExecution).1 := by
    intro entry hentry ctx hctx
    have hmem : entry.input ∈ sampleExecution := by
      rw [← replay_inputs (machine noTransfers sampleCrypto) (.deploy contract)
        sampleExecution]
      exact List.mem_map_of_mem hentry
    have hfits : ∀ input ∈ sampleExecution, ∀ ctx, input.context = some ctx →
        ctx.blockTimestamp.toNat + 10 < 2 ^ 64 := by
      simp [sampleExecution, sampleCommand, Input.context, sampleContext]
    exact hfits _ hmem ctx hctx
  exact ⟨contract, _, _, hinit, hrun, hcompletes,
    timeLock_safety hinit hrun (sample_keccak_injOn sampleExecution_onlyAbout) hclock⟩

end AxelarCgp.Governance
