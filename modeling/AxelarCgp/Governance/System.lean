import AxelarCgp.Core.Machine
import AxelarCgp.Governance.Contract

/-!
# Governance on the platform

The contract together with what it owns and the calls it has in flight.  An
asynchronous call takes the value it carries with it when it is registered; its
answer arrives at any later time, in any order, and a failed call brings the
value back.  A target that is a built-in function of the platform also moves
tokens of the caller: `builtinTransfers` says which.
-/

namespace AxelarCgp.Governance

structure System where
  contract : State
  balance : Purse Asset
  pending : List Promise

/-- A deployed contract that owns nothing. -/
def System.deploy (contract : State) : System where
  contract
  balance _ := 0
  pending := []

inductive Input where
  | executeProposal (ctx : CallContext) (target : Address) (callData : ManagedBuffer)
      (nativeValue : BigUint)
  | executeOperatorProposal (ctx : CallContext) (target : Address) (callData : ManagedBuffer)
      (nativeValue : BigUint)
  | withdraw (ctx : CallContext) (recipient : Address) (amount : ℕ)
  | transferOperatorship (ctx : CallContext) (newOperator : Address)
  | execute (ctx : CallContext)
      (validateMessage : ManagedBuffer → ManagedBuffer → ManagedBuffer → Hash → Outcome Bool)
      (sourceChain messageId sourceAddress payload : ManagedBuffer)
  | withdrawRefundToken (ctx : CallContext) (token : EgldOrEsdtToken)
  | callback (index : ℕ) (result : ManagedAsyncCallResult)

/-- The effects of a step, and the call in flight that it answered. -/
structure Output where
  effects : Effects
  answered : Option Promise := none
  deriving DecidableEq

/-- The tokens that a call of an endpoint of a target with these arguments
moves, beside the EGLD it carries. -/
abbrev BuiltinTransfers := Address → ManagedBuffer → Vec ManagedBuffer → List (Asset × ℕ)

/-- Targets that are all contracts. -/
def noTransfers : BuiltinTransfers := fun _ _ _ => []

variable (builtinTransfers : BuiltinTransfers)

/-- Everything a call takes with it. -/
def carriedBy (target : Address) (egldValue : BigUint) (endpointName : ManagedBuffer)
    (arguments : Vec ManagedBuffer) : List (Asset × ℕ) :=
  (.egld, egldValue.1) :: builtinTransfers target endpointName arguments

def Promise.carried (promise : Promise) : List (Asset × ℕ) :=
  carriedBy builtinTransfers promise.target promise.egldValue promise.endpointName
    promise.arguments

/-- What leaves the contract: the value of a call, and a direct send. -/
def Effects.outflow (effects : Effects) : List (Asset × ℕ) :=
  (match effects.promise with
    | some promise => promise.carried builtinTransfers
    | none => []) ++
  match effects.transfer with
    | some (_, asset, amount) => [(asset, amount)]
    | none => []

/-- What comes straight back, when the contract sends to itself. -/
def Effects.inflow (effects : Effects) (scAddress : Address) : List (Asset × ℕ) :=
  match effects.transfer with
  | some (recipient, asset, amount) => if recipient = scAddress then [(asset, amount)] else []
  | none => []

/-- Carry out the effects of an endpoint, once its payments have arrived. -/
def settle (ctx : CallContext) (system : System) (result : State × Effects) :
    Outcome (System × Output) := do
  let (contract, effects) := result
  let balance ← (system.balance.deposit ctx.callValue.amounts).withdraw
    (effects.outflow builtinTransfers)
  return ({
    contract
    balance := balance.deposit (effects.inflow ctx.scAddress)
    pending := system.pending ++ effects.promise.toList }, { effects })

/-- What comes back with the answer to a call. -/
def ManagedAsyncCallResult.returned (result : ManagedAsyncCallResult)
    (carried : List (Asset × ℕ)) : List (Asset × ℕ) :=
  match result with
  | ok _ => []
  | err _ _ => carried

/-- The platform brings back what a failed call carried, and then runs the
callback. -/
def answer (index : ℕ) (result : ManagedAsyncCallResult) (system : System) :
    Outcome (System × Output) := do
  let promise ← orFail system.pending[index]? "no such call in flight"
  let balance := system.balance.deposit (result.returned (promise.carried builtinTransfers))
  let callback := promise.callback
  let (contract, events) := match callback.kind with
    | .timeLock => executeProposalCallback callback.hash callback.caller callback.payments
        result system.contract
    | .operator => executeOperatorProposalCallback callback.hash callback.caller
        callback.payments result system.contract
  return (⟨contract, balance, system.pending.eraseIdx index⟩, ⟨{ events }, some promise⟩)

variable (crypto : Crypto)

def Input.perform (input : Input) (system : System) : Outcome (System × Output) :=
  match input with
  | executeProposal ctx target callData nativeValue =>
      Governance.executeProposal crypto ctx target callData nativeValue system.contract >>=
        settle builtinTransfers ctx system
  | executeOperatorProposal ctx target callData nativeValue =>
      Governance.executeOperatorProposal crypto ctx target callData nativeValue
          system.contract >>=
        settle builtinTransfers ctx system
  | withdraw ctx recipient amount => do
      requireNotPayable ctx
      Governance.withdraw ctx recipient amount system.contract >>=
        settle builtinTransfers ctx system
  | transferOperatorship ctx newOperator => do
      requireNotPayable ctx
      Governance.transferOperatorship ctx newOperator system.contract >>=
        settle builtinTransfers ctx system
  | execute ctx validateMessage sourceChain messageId sourceAddress payload => do
      requireNotPayable ctx
      Governance.execute crypto validateMessage ctx sourceChain messageId sourceAddress payload
          system.contract >>=
        settle builtinTransfers ctx system
  | withdrawRefundToken ctx token => do
      requireNotPayable ctx
      settle builtinTransfers ctx system
        (Governance.withdrawRefundToken ctx token system.contract)
  | callback index result => answer builtinTransfers index result system

/-- Endpoint calls by anybody, and answers of calls in flight, in any order. -/
def machine : Machine System Input Output where
  step system input := input.perform builtinTransfers crypto system

section Inversion

variable {builtinTransfers} {ctx : CallContext} {system next : System} {output : Output}

/-- What a completed endpoint left behind on the platform. -/
theorem settle_eq_ok {contract : State} {effects : Effects}
    (h : settle builtinTransfers ctx system (contract, effects) = .ok (next, output)) :
    next.contract = contract ∧ next.pending = system.pending ++ effects.promise.toList ∧
    output = { effects } ∧
    ∀ asset, Purse.total (effects.outflow builtinTransfers) asset ≤
        system.balance asset + ctx.callValue.total asset ∧
      next.balance asset = system.balance asset + ctx.callValue.total asset -
        Purse.total (effects.outflow builtinTransfers) asset +
        Purse.total (effects.inflow ctx.scAddress) asset := by
  simp only [settle, Outcome.bind_eq_ok, Outcome.pure_eq_ok, Prod.mk.injEq,
    Purse.withdraw_eq_ok] at h
  obtain ⟨balance, ⟨hcovered, rfl⟩, rfl, rfl⟩ := h
  exact ⟨rfl, rfl, rfl, fun asset => ⟨hcovered asset, rfl⟩⟩

/-- An endpoint whose sends are covered completes. -/
theorem settle_isOk {result : State × Effects}
    (h : ∀ asset, Purse.total (result.2.outflow builtinTransfers) asset ≤
      system.balance asset + ctx.callValue.total asset) :
    ∃ next, settle builtinTransfers ctx system result = .ok (next, ⟨result.2, none⟩) := by
  obtain ⟨balance, hwithdraw⟩ := Purse.withdraw_isOk h
  refine ⟨⟨result.1, balance.deposit (result.2.inflow ctx.scAddress),
    system.pending ++ result.2.promise.toList⟩, ?_⟩
  simp only [settle, Outcome.bind_eq_ok]
  exact ⟨balance, hwithdraw, rfl⟩

/-- What the answer to a call in flight brought back and changed. -/
theorem answer_eq_ok {index : ℕ} {result : ManagedAsyncCallResult}
    (h : answer builtinTransfers index result system = .ok (next, output)) :
    ∃ promise, system.pending[index]? = some promise ∧
      next.pending = system.pending.eraseIdx index ∧
      output.answered = some promise ∧ output.effects.promise = none ∧
      next.contract = (match promise.callback.kind with
        | .timeLock => executeProposalCallback promise.callback.hash promise.callback.caller
            promise.callback.payments result system.contract
        | .operator => executeOperatorProposalCallback promise.callback.hash
            promise.callback.caller promise.callback.payments result system.contract).1 ∧
      next.balance = system.balance.deposit
        (result.returned (promise.carried builtinTransfers)) := by
  simp only [answer, Outcome.bind_eq_ok, Outcome.orFail_eq_ok, Outcome.pure_eq_ok,
    Prod.mk.injEq] at h
  obtain ⟨promise, hpending, rfl, rfl⟩ := h
  exact ⟨promise, hpending, rfl, rfl, rfl, rfl, rfl⟩

end Inversion

end AxelarCgp.Governance
