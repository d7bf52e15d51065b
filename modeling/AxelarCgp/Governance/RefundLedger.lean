import AxelarCgp.Core.Custody
import AxelarCgp.Governance.Refunds

/-!
# The refund ledger

What is recorded for a user in one token is what failed calls of that user had
attached of it, less what the user has withdrawn.  The calls are told apart by the
history alone: each execution of a proposal that completed is one call, and it is in
flight until an answer with its place among those in flight.
-/

namespace AxelarCgp.Governance

open Machine Custody

/-! ## Amounts of one token -/

/-- What is attached of one token, by identifier and nonce. -/
def attached (token : EgldOrEsdtToken) : EgldOrMultiEsdtPayment → ℕ
  | .egld value => if token = .egld then value else 0
  | .multiEsdt payments =>
      (payments.map fun payment => if token = .ofPayment payment then payment.amount else 0).sum

theorem refundToken_refund (user other : Address) (token key : EgldOrEsdtToken) (amount : ℕ)
    (state : State) : (refund user token amount state).refundToken other key =
      state.refundToken other key + if user = other ∧ key = token then amount else 0 := by
  unfold refund
  by_cases huser : other = user
  · subst huser
    by_cases hkey : key = token
    · subst hkey
      simp
    · simp [hkey]
  · simp [Function.update_of_ne huser, Ne.symm huser]

/-- A failure adds what was attached, whether a token is listed once or more often. -/
theorem refundToken_handleCallbackFailure (user other : Address) (token : EgldOrEsdtToken)
    (payments : EgldOrMultiEsdtPayment) (state : State) :
    (handleCallbackFailure user payments state).refundToken other token =
      state.refundToken other token + if user = other then attached token payments else 0 := by
  cases payments with
  | egld value =>
    by_cases huser : user = other <;>
      simp [handleCallbackFailure, attached, refundToken_refund, huser]
  | multiEsdt payments =>
    simp only [handleCallbackFailure, attached]
    induction payments generalizing state with
    | nil => simp
    | cons payment payments ih =>
      rw [List.foldl_cons, ih, refundToken_refund, List.map_cons, List.sum_cons]
      by_cases huser : user = other <;> simp [huser, Nat.add_assoc]

/-! ## What a history says -/

/-- An execution of a proposal, with what was attached to it. -/
structure ProposalCall where
  caller : Address
  payments : EgldOrMultiEsdtPayment
  deriving DecidableEq

def Promise.proposalCall (promise : Promise) : ProposalCall :=
  ⟨promise.callback.caller, promise.callback.payments⟩

/-- Executions of proposals make calls, and answers end them. -/
def callMove : Entry Input Output → Option (Move ProposalCall)
  | ⟨.executeProposal ctx _ _ _, .ok _⟩ => some (.send ⟨ctx.caller, ctx.callValue⟩)
  | ⟨.executeOperatorProposal ctx _ _ _, .ok _⟩ => some (.send ⟨ctx.caller, ctx.callValue⟩)
  | ⟨.callback index (.ok _), .ok _⟩ => some (.settle index)
  | ⟨.callback index (.err _ _), .ok _⟩ => some (.fail index)
  | _ => none

/-- The calls that ended in an error. -/
def failedCalls (history : History) : List ProposalCall :=
  (places callMove history).returned

/-- What one call had attached of a token, if the user made it. -/
def ProposalCall.credit (user : Address) (token : EgldOrEsdtToken) (call : ProposalCall) : ℕ :=
  if call.caller = user then attached token call.payments else 0

/-- What a user had attached of a token to calls that failed. -/
def credited (user : Address) (token : EgldOrEsdtToken) (history : History) : ℕ :=
  ((failedCalls history).map (ProposalCall.credit user token)).sum

/-- What a withdrawal of a token sent to a user. -/
def withdrawnIn (user : Address) (token : EgldOrEsdtToken) : Entry Input Output → ℕ
  | ⟨.withdrawRefundToken ctx other, .ok output⟩ =>
      match output.effects.transfer with
      | some (recipient, asset, amount) =>
          if ctx.caller = user ∧ other = token ∧ recipient = user ∧ asset = token.asset then amount
          else 0
      | none => 0
  | _ => 0

def withdrawn (user : Address) (token : EgldOrEsdtToken) (history : History) : ℕ :=
  (history.map (withdrawnIn user token)).sum

@[simp]
theorem withdrawn_snoc (user : Address) (token : EgldOrEsdtToken) (history : History)
    (entry : Entry Input Output) : withdrawn user token (history ++ [entry]) =
      withdrawn user token history + withdrawnIn user token entry := by
  simp [withdrawn]

/-! ## The ledger -/

/-- The calls in flight are those of the history, and what was credited is recorded or
was withdrawn. -/
structure Ledgered (history : History) (system : System) : Prop where
  inFlight : system.pending.map Promise.proposalCall = (places callMove history).inFlight
  refunds : ∀ user token, system.contract.refundToken user token + withdrawn user token history =
    credited user token history

namespace Ledgered

variable {history : History} {system next : System} {input : Input} {output : Output}

/-- A step that is no move of a call and no withdrawal. -/
theorem quiet (h : Ledgered history system) {entry : Entry Input Output}
    (hmove : callMove entry = none) (hnothing : ∀ user token, withdrawnIn user token entry = 0)
    (hpending : next.pending = system.pending)
    (hrefunds : next.contract.refundToken = system.contract.refundToken) :
    Ledgered (history ++ [entry]) next where
  inFlight := by rw [places_snoc_none hmove, hpending, h.inFlight]
  refunds user token := by
    rw [withdrawn_snoc, hnothing, credited, failedCalls, places_snoc_none hmove, hrefunds]
    exact h.refunds user token

/-- A step that makes a call. -/
theorem dispatch (h : Ledgered history system) {entry : Entry Input Output} (promise : Promise)
    (hmove : callMove entry = some (.send promise.proposalCall))
    (hnothing : ∀ user token, withdrawnIn user token entry = 0)
    (hpending : next.pending = system.pending ++ [promise])
    (hrefunds : next.contract.refundToken = system.contract.refundToken) :
    Ledgered (history ++ [entry]) next where
  inFlight := by
    rw [places_snoc_some hmove, hpending, List.map_append, h.inFlight]
    rfl
  refunds user token := by
    rw [withdrawn_snoc, hnothing, credited, failedCalls, places_snoc_some hmove, hrefunds]
    exact h.refunds user token

theorem callback (h : Ledgered history system) {builtinTransfers : BuiltinTransfers} {index : ℕ}
    {result : ManagedAsyncCallResult}
    (hok : answer builtinTransfers index result system = .ok (next, output)) :
    Ledgered (history ++ [⟨.callback index result, .ok output⟩]) next := by
  obtain ⟨promise, hindex, hpending, _, _, hcontract, _⟩ := answer_eq_ok hok
  have hcall : (places callMove history).inFlight[index]? = some promise.proposalCall := by
    rw [← h.inFlight, List.getElem?_map, hindex]
    rfl
  have herased : next.pending.map Promise.proposalCall =
      (places callMove history).inFlight.eraseIdx index := by
    rw [hpending, ← h.inFlight, List.eraseIdx_map]
  cases result with
  | ok results =>
    have hmove : callMove ⟨.callback index (.ok results), .ok output⟩ = some (.settle index) := rfl
    have hrefunds : next.contract.refundToken = system.contract.refundToken := by
      rw [hcontract]
      cases promise.callback.kind <;> rfl
    constructor
    · rw [places_snoc_some hmove, herased]
      rfl
    · intro user token
      rw [withdrawn_snoc, credited, failedCalls, places_snoc_some hmove, hrefunds]
      exact h.refunds user token
  | err errCode errMsg =>
    have hmove : callMove ⟨.callback index (.err errCode errMsg), .ok output⟩ =
        some (.fail index) := rfl
    have hrefunds : ∀ user token, next.contract.refundToken user token =
        system.contract.refundToken user token + promise.proposalCall.credit user token := by
      intro user token
      rw [hcontract]
      cases promise.callback.kind
      · exact refundToken_handleCallbackFailure _ _ _ _ _
      · exact refundToken_handleCallbackFailure _ _ _ _ _
    constructor
    · rw [places_snoc_some hmove, herased]
      rfl
    · intro user token
      have hbefore := h.refunds user token
      have hcredited : credited user token (history ++ [⟨.callback index (.err errCode errMsg),
          .ok output⟩]) = credited user token history +
            promise.proposalCall.credit user token := by
        simp [credited, failedCalls, places_snoc_some hmove, Places.move, hcall]
      rw [withdrawn_snoc, hcredited, hrefunds]
      simp only [withdrawnIn]
      omega

theorem withdrawal (h : Ledgered history system) {builtinTransfers : BuiltinTransfers}
    {ctx : CallContext} {token : EgldOrEsdtToken}
    (hsettle : settle builtinTransfers ctx system
      (withdrawRefundToken ctx token system.contract) = .ok (next, output)) :
    Ledgered (history ++ [⟨.withdrawRefundToken ctx token, .ok output⟩]) next := by
  have hmove : callMove ⟨.withdrawRefundToken ctx token, .ok output⟩ = none := rfl
  obtain ⟨hcontract, hpending, houtput, _⟩ := settle_eq_ok hsettle
  constructor
  · rw [places_snoc_none hmove, hpending, ← h.inFlight]
    simp
  · intro user other
    have hbefore := h.refunds user other
    rw [withdrawn_snoc, credited, failedCalls, places_snoc_none hmove]
    rw [credited, failedCalls] at hbefore
    rw [← hbefore, hcontract, houtput]
    simp only [withdrawnIn]
    by_cases huser : ctx.caller = user
    · subst huser
      by_cases hother : token = other
      · subst hother
        by_cases hzero : system.contract.refundToken ctx.caller token = 0 <;>
          simp [hzero, Nat.add_comm]
      · simp only [Function.update_self, Function.update_of_ne (Ne.symm hother), hother, false_and,
          and_false, if_false]
        split <;> rfl
    · simp only [Function.update_of_ne (Ne.symm huser), huser, false_and, if_false]
      split <;> rfl

theorem step (h : Ledgered history system) {builtinTransfers : BuiltinTransfers} {crypto : Crypto}
    (hok : input.perform builtinTransfers crypto system = .ok (next, output)) :
    Ledgered (history ++ [⟨input, .ok output⟩]) next := by
  cases input with
  | executeProposal ctx target callData nativeValue =>
    simp only [Input.perform, Outcome.bind_eq_ok, Prod.exists] at hok
    obtain ⟨contract, effects, hexecute, hsettle⟩ := hok
    obtain ⟨_, _, _, _, ⟨promise, hdispatches, hpromise⟩, _⟩ := executeProposal_eq_ok hexecute
    obtain ⟨_, _, _, hcallback⟩ := hdispatches
    obtain ⟨hcontract, hpending, _⟩ := settle_eq_ok hsettle
    apply h.dispatch promise
    · simp [callMove, Promise.proposalCall, hcallback]
    · exact fun _ _ => rfl
    · simpa [hpromise] using hpending
    · rw [hcontract, refundToken_executeProposal hexecute]
  | executeOperatorProposal ctx target callData nativeValue =>
    simp only [Input.perform, Outcome.bind_eq_ok, Prod.exists] at hok
    obtain ⟨contract, effects, hexecute, hsettle⟩ := hok
    obtain ⟨_, _, _, _, ⟨promise, hdispatches, hpromise⟩, _⟩ :=
      executeOperatorProposal_eq_ok hexecute
    obtain ⟨_, _, _, hcallback⟩ := hdispatches
    obtain ⟨hcontract, hpending, _⟩ := settle_eq_ok hsettle
    apply h.dispatch promise
    · simp [callMove, Promise.proposalCall, hcallback]
    · exact fun _ _ => rfl
    · simpa [hpromise] using hpending
    · rw [hcontract, refundToken_executeOperatorProposal hexecute]
  | withdraw ctx recipient amount =>
    simp only [Input.perform, withdraw, Outcome.bind_eq_ok, Outcome.exists_unit,
      Outcome.pure_eq_ok, Prod.exists, Prod.mk.injEq] at hok
    obtain ⟨_, contract, effects, ⟨_, rfl, rfl⟩, hsettle⟩ := hok
    obtain ⟨hcontract, hpending, _⟩ := settle_eq_ok hsettle
    apply h.quiet rfl (fun _ _ => rfl)
    · simpa using hpending
    · rw [hcontract]
  | transferOperatorship ctx newOperator =>
    simp only [Input.perform, Outcome.bind_eq_ok, Outcome.exists_unit, Prod.exists] at hok
    obtain ⟨_, contract, effects, htransfer, hsettle⟩ := hok
    obtain ⟨_, hpromise, _⟩ := keepsSlots_transferOperatorship htransfer
    obtain ⟨hcontract, hpending, _⟩ := settle_eq_ok hsettle
    apply h.quiet rfl (fun _ _ => rfl)
    · simpa [hpromise] using hpending
    · rw [hcontract, refundToken_transferOperatorship htransfer]
  | execute ctx validateMessage chain id address payload =>
    simp only [Input.perform, Outcome.bind_eq_ok, Outcome.exists_unit, Prod.exists] at hok
    obtain ⟨_, contract, effects, hexecute, hsettle⟩ := hok
    obtain ⟨_, executePayload, _, hcommand⟩ := execute_eq_ok hexecute
    obtain ⟨_, hpromise, _⟩ := processCommand_eq_ok hcommand
    obtain ⟨hcontract, hpending, _⟩ := settle_eq_ok hsettle
    apply h.quiet rfl (fun _ _ => rfl)
    · simpa [hpromise] using hpending
    · rw [hcontract, refundToken_processCommand hcommand]
  | withdrawRefundToken ctx token =>
    simp only [Input.perform, Outcome.bind_eq_ok, Outcome.exists_unit] at hok
    exact h.withdrawal hok.2
  | callback index result => exact h.callback hok

theorem deploy {gateway operator : Address} {governanceChain governanceAddress : ManagedBuffer}
    {delay : UInt64} {contract : State}
    (hinit : init gateway governanceChain governanceAddress delay operator = .ok contract) :
    Ledgered [] (.deploy contract) := by
  simp only [init, Outcome.bind_eq_ok, Outcome.exists_unit, Outcome.require_eq_ok,
    Outcome.pure_eq_ok] at hinit
  obtain ⟨_, rfl⟩ := hinit
  exact ⟨rfl, fun _ _ => rfl⟩

theorem run {builtinTransfers : BuiltinTransfers} {crypto : Crypto} {start : System}
    (hstart : Ledgered [] start)
    (hrun : Run (machine builtinTransfers crypto) start history system) :
    Ledgered history system := by
  induction hrun with
  | start => exact hstart
  | completed _ hok ih => exact ih.step hok
  | @stopped history system input message _ _ ih =>
    apply ih.quiet _ _ rfl rfl
    · cases input with
      | callback index result => cases result <;> rfl
      | _ => rfl
    · intro user token
      cases input <;> rfl

end Ledgered

/-- What the refunds of every user come from, and where every call of a proposal is. -/
structure RefundLedger (history : History) (system : System) : Prop where
  refunds : ∀ user token, system.contract.refundToken user token =
    credited user token history - withdrawn user token history
  covered : ∀ user token, withdrawn user token history ≤ credited user token history
  /-- Each call that was made is one of those in flight, that failed or that succeeded. -/
  calls : (sent callMove history).Perm (system.pending.map Promise.proposalCall ++
    failedCalls history ++ (places callMove history).settled)

/-- The refunds are exact throughout every run. -/
theorem refundLedger {builtinTransfers : BuiltinTransfers} {crypto : Crypto}
    {gateway operator : Address} {governanceChain governanceAddress : ManagedBuffer}
    {delay : UInt64} {contract : State}
    (hinit : init gateway governanceChain governanceAddress delay operator = .ok contract)
    {history : History} {system : System}
    (hrun : Run (machine builtinTransfers crypto) (.deploy contract) history system) :
    RefundLedger history system := by
  have hledger : Ledgered history system := Ledgered.run (.deploy hinit) hrun
  have hcovered : ∀ user token, withdrawn user token history ≤ credited user token history := by
    intro user token
    rw [← hledger.refunds user token]
    exact Nat.le_add_left _ _
  have hplaces : (places callMove history).items.Perm (sent callMove history) := by
    apply items_perm_sent
    rintro before ⟨input, result⟩ after step _ hmove
    cases step with
    | resend item =>
      unfold callMove at hmove
      split at hmove <;> simp at hmove
    | _ => trivial
  constructor
  case refunds =>
    intro user token
    have hexact := hledger.refunds user token
    omega
  case covered => exact hcovered
  case calls =>
    rw [hledger.inFlight]
    exact hplaces.symm

/-! ## Two calls in flight that fail -/

def sampleUser : Address := Address.ofByte 4

/-- `T-1` -/
def sampleEsdt : TokenIdentifier := sampleBuffer (Bytes.ascii ['T', '-', '1'])

/-- The operator and a user call the same target, the user with one token twice; the
operator hands over before both calls fail, and the user withdraws. -/
def sampleRefunds : List Input :=
  [sampleCommand .scheduleTimeLockProposal 'a',
    sampleCommand .approveOperatorProposal 'a',
    .executeOperatorProposal (sampleContext 110 20) sampleTarget (sampleCallData 'a') sampleValue,
    .executeProposal { sampleContext 110 0 with
        caller := sampleUser
        callValue := .multiEsdt [⟨sampleEsdt, 0, 3⟩, ⟨sampleEsdt, 0, 4⟩] }
      sampleTarget (sampleCallData 'a') sampleValue,
    .transferOperatorship (sampleContext 110 0) sampleUser,
    .callback 1 sampleFailure,
    .callback 0 sampleFailure,
    .withdrawRefundToken { sampleContext 120 0 with caller := sampleUser } ⟨.esdt sampleEsdt, 0⟩]

/-- What is credited, withdrawn and recorded for the user and for the first operator. -/
theorem sampleRefunds_state :
    (fun contract =>
      let (history, system) := (machine noTransfers sampleCrypto).replay (.deploy contract)
        sampleRefunds
      (credited sampleUser ⟨.esdt sampleEsdt, 0⟩ history,
        withdrawn sampleUser ⟨.esdt sampleEsdt, 0⟩ history,
        system.contract.refundToken sampleUser ⟨.esdt sampleEsdt, 0⟩,
        system.contract.refundToken (sampleContext 0 0).caller .egld,
        system.contract.refundToken sampleUser .egld)) <$> sampleInit = .ok (7, 7, 0, 20, 0) := by
  decide +kernel

theorem sample_refundLedger : ∃ contract history system, sampleInit = .ok contract ∧
    Run (machine noTransfers sampleCrypto) (.deploy contract) history system ∧
    credited sampleUser ⟨.esdt sampleEsdt, 0⟩ history = 7 ∧
    withdrawn sampleUser ⟨.esdt sampleEsdt, 0⟩ history = 7 ∧
    system.contract.refundToken (sampleContext 0 0).caller .egld = 20 ∧
    RefundLedger history system := by
  obtain ⟨contract, hinit⟩ := Outcome.exists_eq_ok sampleInit_isOk
  have hrun := run_replay (machine noTransfers sampleCrypto) (.deploy contract) sampleRefunds
  have hstate := Outcome.apply_of_map sampleRefunds_state hinit
  simp only [Prod.mk.injEq] at hstate
  obtain ⟨hcredited, hwithdrawn, _, hoperator, _⟩ := hstate
  exact ⟨contract, _, _, hinit, hrun, hcredited, hwithdrawn, hoperator, refundLedger hinit hrun⟩

end AxelarCgp.Governance
