import AxelarCgp.Its.Effects

/-!
# Refunds of gas

The gas service refunds gas to the address it is told, and the service tells it
the caller of the call it is in.  In the transaction of an endpoint that is the
account that paid; in a callback it is the contract that answered.
-/

namespace AxelarCgp.Its

open Machine Transaction

/-- The payment is for a message that the gateway sends out in the same trace. -/
def PaysForMessage (crypto : Crypto) (paid : GasService.NativeGasPaidForContractCall)
    (trace : List Action) : Prop :=
  ∃ ctx payload reply, paid.hash = crypto.keccak256 payload.1 ∧
    .gateway ctx (.callContract paid.destinationChain paid.destinationAddress payload) reply ∈
      trace

/-- Payments of gas in a call: each is for a message, at most `n`, and refunded
to `caller`.  Requests, where the call may make any, are in the name of `caller`
and for at most `n` as well. -/
structure GasPaid (crypto : Crypto) (caller : Address) (asks : Prop) (n : ℕ) (before : World)
    (trace : List Action) (after : World) : Prop where
  paid : ∀ paid, .gasService paid ∈ trace →
    paid.refundAddress = caller ∧ paid.value ≤ n ∧ PaysForMessage crypto paid trace
  asked : ∀ request, .request request ∈ trace →
    asks ∧ request.caller = caller ∧ request.gasValue ≤ n
  requests : ∀ request ∈ after.requests,
    request ∈ before.requests ∨ .request request ∈ trace

namespace GasPaid

variable {crypto : Crypto} {caller : Address} {asks : Prop}
variable {env : Environment} {ctx : CallContext}
variable {m n : ℕ} {before middle after : World} {trace first second : List Action}

/-- A transaction that pays no gas and asks for nothing. -/
theorem quiet (hrequests : after.requests = before.requests)
    (hpaid : ∀ paid, .gasService paid ∉ trace) (hasked : ∀ request, .request request ∉ trace) :
    GasPaid crypto caller asks n before trace after where
  paid paid hmem := absurd hmem (hpaid paid)
  asked request hmem := absurd hmem (hasked request)
  requests _ hmem := .inl (hrequests ▸ hmem)

theorem mono (hle : m ≤ n) (h : GasPaid crypto caller asks m before trace after) :
    GasPaid crypto caller asks n before trace after where
  paid paid hmem := by
    obtain ⟨hrefund, hvalue, hmessage⟩ := h.paid paid hmem
    exact ⟨hrefund, hvalue.trans hle, hmessage⟩
  asked request hmem := by
    obtain ⟨hasks, hcaller, hvalue⟩ := h.asked request hmem
    exact ⟨hasks, hcaller, hvalue.trans hle⟩
  requests := h.requests

theorem append (hfirst : GasPaid crypto caller asks n before first middle)
    (hsecond : GasPaid crypto caller asks n middle second after) :
    GasPaid crypto caller asks n before (first ++ second) after where
  paid paid hmem := by
    rcases List.mem_append.mp hmem with hmem | hmem
    · obtain ⟨hrefund, hvalue, gatewayCtx, payload, reply, hhash, hmessage⟩ :=
        hfirst.paid paid hmem
      exact ⟨hrefund, hvalue, gatewayCtx, payload, reply, hhash,
        List.mem_append_left _ hmessage⟩
    · obtain ⟨hrefund, hvalue, gatewayCtx, payload, reply, hhash, hmessage⟩ :=
        hsecond.paid paid hmem
      exact ⟨hrefund, hvalue, gatewayCtx, payload, reply, hhash,
        List.mem_append_right _ hmessage⟩
  asked request hmem := by
    rcases List.mem_append.mp hmem with hmem | hmem
    · exact hfirst.asked request hmem
    · exact hsecond.asked request hmem
  requests request hmem := by
    rcases hsecond.requests request hmem with hmem | hmem
    · exact (hfirst.requests request hmem).imp_right (List.mem_append_left _)
    · exact .inr (List.mem_append_right _ hmem)

theorem composes : Composes (GasPaid crypto caller asks) where
  nil _ := quiet rfl (by simp) (by simp)
  append hfirst hsecond :=
    (hfirst.mono (Nat.le_add_right _ _)).append (hsecond.mono (Nat.le_add_left _ _))
  mono := mono

theorem of_movesTokens (hmoves : MovesTokens before after)
    (hpaid : ∀ paid, .gasService paid ∉ trace) (hasked : ∀ request, .request request ∉ trace) :
    GasPaid crypto caller asks n before trace after :=
  quiet hmoves.requests hpaid hasked

theorem callManager (call : TokenManager.Call) (managerCtx : CallContext) :
    Satisfies (GasPaid crypto caller asks n) (callManager env managerCtx call) := by
  intro before reply after trace h
  obtain ⟨hmoves, actions, rfl⟩ := callManager_movesTokens h
  exact of_movesTokens hmoves (by simp) (by simp)

theorem callGateway (call : Gateway.Call) (gatewayCtx : CallContext) :
    Satisfies (GasPaid crypto caller asks n) (callGateway crypto gatewayCtx call) := by
  intro before reply after trace h
  obtain ⟨gateway, _, rfl, rfl⟩ := callGateway_eq_ok.mp h
  exact quiet rfl (by simp) (by simp)

/-- The gas of a message is refunded to the caller of the call that sends it. -/
theorem callContractItsHub (payload : ManagedBuffer) (gasValue : ℕ) :
    Satisfies (GasPaid crypto ctx.caller asks gasValue)
      (callContractItsHub crypto env ctx payload gasValue) := by
  intro before value after trace h
  obtain ⟨hpays, rfl⟩ := callContractItsHub_eq_ok.mp h
  have hempty : ∀ request, .request request ∉
      hubTrace crypto env ctx before.its payload gasValue := by
    intro request
    unfold hubTrace
    split <;> simp
  refine {
    paid := ?paid
    asked := fun request hmem => absurd hmem (hempty request)
    requests := ?requests }
  case paid =>
    intro paid hmem
    by_cases hgas : gasValue > 0
    · simp only [hubTrace, hgas, if_true, List.mem_append, List.mem_singleton,
        Action.gasService.injEq, reduceCtorEq, or_false] at hmem
      subst hmem
      exact ⟨rfl, le_rfl, _, payload, _, rfl, List.mem_append_right _ (List.mem_singleton_self _)⟩
    · simp [hubTrace, hgas] at hmem
  case requests =>
    intro request hmem
    exact .inl (hpays.movesTokens.requests ▸ hmem)

theorem rules : Rules crypto env ctx (GasPaid crypto ctx.caller asks) where
  toComposes := composes
  event _ _ := quiet rfl (by simp) (by simp)
  storage _ _ _ := quiet rfl (by simp) (by simp)
  deploy _ _ _ _ := by
    intro before address after trace h
    obtain ⟨_, _, _, _, _, _, _, _, rfl, rfl⟩ := deployTokenManagerRaw_eq_ok h
    exact quiet rfl (by simp) (by simp)
  command _ _ call _ := callManager call _
  message payload gasValue _ := callContractItsHub payload gasValue
  send _ _ := by
    intro before value after trace h
    obtain ⟨htransfer, rfl⟩ := send_eq_ok.mp h
    exact of_movesTokens (silent_transfer _ _ _ _ _ _ _ _ htransfer).1 (by simp) (by simp)

theorem requestRule : RequestRule crypto ctx (GasPaid crypto ctx.caller True) := by
  intro before request hsound
  have hcaller : request.caller = ctx.caller := by cases hsound <;> rfl
  refine { paid := by simp, asked := ?asked, requests := ?requests }
  case asked =>
    intro other hmem
    obtain rfl := Action.request.inj (List.mem_singleton.mp hmem)
    exact ⟨trivial, hcaller, le_rfl⟩
  case requests =>
    intro other hmem
    rw [World.requests_append, List.mem_append, List.mem_singleton] at hmem
    rcases hmem with hmem | rfl
    · exact .inl hmem
    · exact .inr (List.mem_singleton_self _)

theorem executeWithInterchainToken {receiver : Address} {chain id source data : ManagedBuffer}
    {tokenId : TokenId} {token : EgldOrEsdtTokenIdentifier} {amount : ℕ} :
    Satisfies (GasPaid crypto caller asks n) (executableContractExecuteWithInterchainToken env ctx
      receiver chain id source data tokenId token amount) := by
  intro before value after trace h
  obtain ⟨_, hpay, rfl⟩ := executeWithInterchainToken_eq_ok.mp h
  exact of_movesTokens (silent_pay _ _ _ _ _ hpay).1 (by simp) (by simp)

theorem validateMessage (chain id address : ManagedBuffer) (payloadHash : Hash) :
    Satisfies (GasPaid crypto caller asks 0)
      (gatewayValidateMessage crypto env ctx chain id address payloadHash) :=
  .inspect_bind (.reads _) fun _ =>
    .andThen composes (callGateway _ _) fun _ => .pure composes _

/-- An endpoint pays for gas out of what came with the call. -/
theorem perform (call : Call) :
    Satisfies (GasPaid crypto ctx.caller True (ctx.callValue.total .egld))
      (perform crypto env ctx call) := by
  refine rules.effectRules.perform requestRule call (fun _ _ => trivial) ?transfer ?execute
  case transfer =>
    intro tokenId destinationChain destinationAddress data gasValue _
    exact rules.effectRules.interchainTransfer (fun _ _ _ => callManager _ _) callContractItsHub
      _ _ _ _ _
  case execute =>
    intro sourceChain messageId sourceAddress payload _
    exact rules.effectRules.execute validateMessage
      (rules.effectRules.processInterchainTransferPayload (fun _ _ _ => callManager _ _)
        fun _ _ _ _ _ _ _ _ => executeWithInterchainToken) _ _ _ _ fun _ _ => trivial

end GasPaid

/-! ## Runs -/

variable {crypto : Crypto} {start world next : World} {history : History}
variable {input : Input} {trace : List Action}

/-- The account that called an endpoint, paid for the gas, and asked for what a
later callback goes on with. -/
def Asked (history : History) (request : Request) : Prop :=
  ∃ env payment call trace,
    ⟨⟨env, .its request.caller payment call⟩, .ok trace⟩ ∈ history ∧
    .request request ∈ trace ∧ request.gasValue ≤ payment.total .egld

/-- A call of an endpoint pays gas and asks for properties in the name of its
caller, who is no contract of the system. -/
theorem gasPaid_its {env : Environment} {caller : Address} {payment : EgldOrMultiEsdtPayment}
    {call : Call}
    (h : (machine crypto).step world ⟨env, .its caller payment call⟩ = .ok (next, trace)) :
    GasPaid crypto caller True (payment.total .egld) world trace next ∧
      caller ≠ ESDTSystemSCAddress := by
  obtain ⟨hexternal, paid, hpay, hperform⟩ := run_its_eq_ok.mp ((step_eq_ok crypto).mp h)
  have hgas := GasPaid.perform call _ _ _ _ hperform
  refine ⟨⟨hgas.paid, hgas.asked, ?_⟩, ?_⟩
  · rw [← (silent_pay _ _ _ _ _ hpay).1.requests]
    exact hgas.requests
  · rintro rfl
    simp [World.isSystemContract] at hexternal

/-- A callback pays gas in the name of the contract that answered. -/
theorem gasPaid_answer {env : Environment} {index : ℕ} {result : AsyncResult}
    (h : (machine crypto).step world ⟨env, .answer index result⟩ = .ok (next, trace)) :
    next.requests ⊆ world.requests ∧
    ∀ paid, .gasService paid ∈ trace →
      PaysForMessage crypto paid trace ∧ paid.refundAddress = ESDTSystemSCAddress ∧
      ∃ request completed, .answered (.tokenProperties request) completed ∈ trace ∧
        request ∈ world.requests ∧ paid.value ≤ request.gasValue := by
  rcases answer_eq_ok.mp ((step_eq_ok crypto).mp h) with
    ⟨request, completed, inner, hcall, hattempt, rfl⟩ |
    ⟨manager, user, cost, completed, back, hcall, hback, hattempt, rfl⟩
  · have hgas : GasPaid crypto ESDTSystemSCAddress False request.gasValue
        { world with pending := world.pending.eraseIdx index } inner next :=
      satisfies_attempt (fun _ => GasPaid.quiet rfl (by simp) (by simp))
        (GasPaid.rules.effectRules.callbackCode rfl result request (fun _ _ _ _ _ _ => trivial)
          fun _ _ _ _ _ _ _ _ _ _ _ => trivial) _ _ _ _ hattempt
    refine ⟨?_, ?_⟩
    · intro other hmem
      exact world.requests_eraseIdx_subset index
        ((hgas.requests other hmem).resolve_right fun hasked =>
          (hgas.asked other hasked).1)
    · intro paid hmem
      have hinner : .gasService paid ∈ inner := by simpa using hmem
      obtain ⟨hrefund, hvalue, gatewayCtx, payload, reply, hhash, hmessage⟩ :=
        hgas.paid paid hinner
      refine ⟨⟨gatewayCtx, payload, reply, hhash, List.mem_append_left _ hmessage⟩, hrefund,
        request, completed, List.mem_append_right _ (List.mem_singleton_self _),
        World.mem_requests.mpr (List.mem_of_getElem? hcall), hvalue⟩
  · have hbackMoves := (silent_bringBack _ _ _ _ _ _ _ hback).1
    have hmoves := (satisfies_attempt (fun world => ⟨MovesTokens.refl world, rfl⟩)
      (silent_issueCallback _ _ _ _) _ _ _ _ hattempt).1
    refine ⟨?_, by simp⟩
    rw [hmoves.requests, hbackMoves.requests]
    exact world.requests_eraseIdx_subset index

/-- Nobody else pays gas or asks for properties. -/
theorem gasPaid_other
    (hits : ∀ caller payment call, input.operation ≠ .its caller payment call)
    (hanswer : ∀ index result, input.operation ≠ .answer index result)
    (h : (machine crypto).step world input = .ok (next, trace)) :
    next.requests = world.requests ∧ ∀ paid, .gasService paid ∉ trace := by
  obtain ⟨env, operation⟩ := input
  have hrun := (step_eq_ok crypto).mp h
  cases operation with
  | its caller payment call => exact absurd rfl (hits caller payment call)
  | answer index result => exact absurd rfl (hanswer index result)
  | gateway caller call =>
    obtain ⟨_, reply, hcall⟩ := run_gateway_eq_ok.mp hrun
    obtain ⟨gateway, _, rfl, rfl⟩ := callGateway_eq_ok.mp hcall
    exact ⟨rfl, by simp⟩
  | manager caller address payment call =>
    obtain ⟨_, reply, hcall⟩ := run_manager_eq_ok.mp hrun
    obtain ⟨hmoves, actions, rfl⟩ := callManager_movesTokens hcall
    exact ⟨hmoves.requests, by simp⟩
  | transfer sender receiver asset amount =>
    obtain ⟨_, htransfer⟩ := run_transfer_eq_ok.mp hrun
    obtain ⟨hmoves, rfl⟩ := silent_transfer _ _ _ _ _ _ _ _ htransfer
    exact ⟨hmoves.requests, by simp⟩

/-- Every request in flight was made by a call of an endpoint. -/
theorem asked_of_run (hstart : start.pending = [])
    (hrun : Run (machine crypto) start history world) :
    ∀ request ∈ world.requests, Asked history request := by
  have hkeep : ∀ {history entry request}, Asked history request →
      Asked (history ++ [entry]) request := by
    rintro history entry request ⟨env, payment, call, trace, hmem, hasked⟩
    exact ⟨env, payment, call, trace, List.mem_append_left _ hmem, hasked⟩
  induction hrun with
  | start => simp [World.requests, hstart]
  | stopped _ _ ih => exact fun request hmem => hkeep (ih request hmem)
  | @completed history world next input trace _ hok ih =>
    intro request hmem
    obtain ⟨env, operation⟩ := input
    cases operation with
    | its caller payment call =>
      obtain ⟨hgas, _⟩ := gasPaid_its hok
      rcases hgas.requests request hmem with hbefore | hasked
      · exact hkeep (ih request hbefore)
      · obtain ⟨_, rfl, hvalue⟩ := hgas.asked request hasked
        exact ⟨env, payment, call, trace, List.mem_append_right _ (List.mem_singleton_self _),
          hasked, hvalue⟩
    | answer index result => exact hkeep (ih request ((gasPaid_answer hok).1 hmem))
    | _ =>
      have hsame := (gasPaid_other (by simp) (by simp) hok).1
      exact hkeep (ih request (hsame ▸ hmem))

/-! ## Whose gas is refunded -/

/-- The account whose call of an endpoint a step is or goes on with, and what came
with that call. -/
inductive PaidBy (before : History) (operation : Operation) (trace : List Action) :
    Address → EgldOrMultiEsdtPayment → Prop
  | endpoint {payer : Address} {payment : EgldOrMultiEsdtPayment} {call : Call} :
      operation = .its payer payment call → PaidBy before operation trace payer payment
  | callback {env : Environment} {payer : Address} {payment : EgldOrMultiEsdtPayment}
      {call : Call} {asked : List Action} {index : ℕ} {result : AsyncResult}
      {request : Request} {completed : Bool} :
      operation = .answer index result →
      .answered (.tokenProperties request) completed ∈ trace →
      ⟨⟨env, .its payer payment call⟩, .ok asked⟩ ∈ before → .request request ∈ asked →
      PaidBy before operation trace payer payment

/-- The step is the call of an endpoint itself. -/
def Operation.isEndpoint : Operation → Bool
  | .its _ _ _ => true
  | _ => false

/-- What holds of a payment of gas in a run: it is for a message of its step,
somebody paid for it, and exactly the payers that sent the message with the call
of the endpoint itself are refunded. -/
structure GasRefund (crypto : Crypto) (before : History) (operation : Operation)
    (trace : List Action) (paid : GasService.NativeGasPaidForContractCall) : Prop where
  message : PaysForMessage crypto paid trace
  covered : ∃ payer payment, PaidBy before operation trace payer payment ∧
    paid.value ≤ payment.total .egld
  refund : ∀ payer payment, PaidBy before operation trace payer payment →
    (paid.refundAddress = payer ↔ operation.isEndpoint)

/-- Gas is refunded to its payer exactly when no callback is involved. -/
theorem gasRefunds (hstart : start.pending = [])
    (hrun : Run (machine crypto) start history world) :
    ∀ before input trace after paid, history = before ++ ⟨input, .ok trace⟩ :: after →
      .gasService paid ∈ trace → GasRefund crypto before input.operation trace paid := by
  rintro before ⟨env, operation⟩ trace after paid rfl hpaid
  obtain ⟨reached, next, hbefore, hok, _⟩ := hrun.step_at
  cases operation with
  | its caller payment call =>
    obtain ⟨hgas, _⟩ := gasPaid_its hok
    obtain ⟨hrefund, hvalue, hmessage⟩ := hgas.paid paid hpaid
    refine ⟨hmessage, ⟨caller, payment, .endpoint rfl, hvalue⟩, ?_⟩
    intro payer other hpayer
    cases hpayer with
    | endpoint heq =>
      obtain ⟨rfl, _⟩ := Operation.its.inj heq
      simpa [Operation.isEndpoint] using hrefund
    | callback heq => simp at heq
  | answer index result =>
    obtain ⟨_, hpayments⟩ := gasPaid_answer hok
    obtain ⟨hmessage, hrefund, request, completed, hanswered, hrequest, hvalue⟩ :=
      hpayments paid hpaid
    obtain ⟨askedEnv, payment, call, asked, hentry, hasked, hcovered⟩ :=
      asked_of_run hstart hbefore request hrequest
    refine ⟨hmessage, ⟨request.caller, payment, .callback rfl hanswered hentry hasked,
      hvalue.trans hcovered⟩, ?_⟩
    intro payer other hpayer
    cases hpayer with
    | endpoint heq => simp at heq
    | callback _ _ hmem _ =>
      -- Whoever asked is not the contract that answers.
      obtain ⟨first, rest, rfl⟩ := List.append_of_mem hmem
      obtain ⟨_, _, _, hstep, _⟩ := hbefore.step_at
      have hpayer := (gasPaid_its hstep).2
      simpa [Operation.isEndpoint, hrefund] using hpayer.symm
  | _ => exact absurd hpaid ((gasPaid_other (by simp) (by simp) hok).2 paid)

/-! ## Gas that is refunded to the contract that answered -/

def sampleMetadata : RegisterTokenMetadataPayload := ⟨⟨6, by decide⟩, sampleToken, 18⟩

def sampleCrypto : Crypto :=
  .tabulated
    [(sampleChainName.1, NestedCodec.writeNat 32
        0xbd331747a896c8a66e8323aa6358909e4c8878c9b157cab64d51a9c57722c4fd),
      (((abiEncode sampleMetadata).toOption.getD .new).1, NestedCodec.writeNat 32
        0x9d68c333d5cd6a5a4d0e81c34b478452ee11cd945bf8906fb5a68533f61eacad)]
    []

/-- A service that trusts one chain, `c`, and a user with 100 of EGLD. -/
def sampleStart : Outcome World := do
  let its ← init sampleCrypto (sampleAddress 3) (sampleAddress 4) (sampleAddress 5) sampleUser
    sampleChainName (sampleBuffer (Bytes.ascii ['h', 'u', 'b'])) [sampleBuffer (Bytes.ascii ['c'])]
  return {
    itsAddress := sampleItsAddress
    its
    gateway := Gateway.State.blank
    managers := fun _ => none
    ledger := Ledger.empty.mint sampleUser .egld 100
    pending := [] }

/-- The answer to a request for the properties of a token with `decimals`. -/
def sampleProperties (decimals : List Char) : AsyncResult :=
  .ok [sampleBuffer (Bytes.ascii ['A', 'b', 'c']), sampleBuffer fungibleTypeName,
    .ofFixed sampleUser, sampleBuffer (Bytes.ascii ['0']), sampleBuffer (Bytes.ascii ['0']),
    sampleBuffer (Bytes.ascii (['N', 'u', 'm', 'D', 'e', 'c', 'i', 'm', 'a', 'l', 's', '-'] ++
      decimals))]

/-- The user registers the metadata of a token, with 5 of EGLD for gas. -/
def sampleAsk : Input :=
  ⟨sampleEnvironment, .its sampleUser (.egld 5) (.registerTokenMetadata (.esdt sampleToken))⟩

def sampleAnswer : Input :=
  ⟨sampleEnvironment, .answer 0 (sampleProperties ['1', '8'])⟩

def sampleRequest : Request where
  token := sampleToken
  callback := .registerTokenMetadata sampleToken
  gasValue := 5
  caller := sampleUser

def Action.refunds (address : Address) : Action → Bool
  | .gasService paid => paid.refundAddress = address
  | _ => false

def Action.asks (request : Request) : Action → Bool
  | .request other => other = request
  | _ => false

def Action.answers (request : Request) : Action → Bool
  | .answered (.tokenProperties other) _ => other = request
  | _ => false

theorem sampleCallback_trace : (do
    let start ← sampleStart
    let (middle, asked) ← (machine sampleCrypto).step start sampleAsk
    let (_, trace) ← (machine sampleCrypto).step middle sampleAnswer
    return (start.pending, asked.any (Action.asks sampleRequest),
      trace.any (Action.answers sampleRequest),
      trace.any (Action.refunds ESDTSystemSCAddress))) = .ok ([], true, true, true) := by
  decide +kernel

/-- The run of the two sample steps, and what their traces say. -/
theorem sampleCallback_run : ∃ start asked trace world paid completed,
    start.pending = [] ∧
    Run (machine sampleCrypto) start [⟨sampleAsk, .ok asked⟩, ⟨sampleAnswer, .ok trace⟩] world ∧
    .request sampleRequest ∈ asked ∧ .answered (.tokenProperties sampleRequest) completed ∈ trace ∧
    .gasService paid ∈ trace ∧ paid.refundAddress = ESDTSystemSCAddress := by
  have hsteps := sampleCallback_trace
  simp only [Outcome.bind_eq_ok, Prod.exists, Outcome.pure_eq_ok, Prod.mk.injEq,
    List.any_eq_true] at hsteps
  obtain ⟨start, _, middle, asked, hask, world, trace, hanswer, hpending,
    ⟨request, hrequest, hasks⟩, ⟨answered, hanswered, hanswers⟩, paid, hpaid, hrefunds⟩ := hsteps
  have hrun := (Run.start.completed hask).completed hanswer
  unfold Action.asks at hasks
  unfold Action.answers at hanswers
  unfold Action.refunds at hrefunds
  split at hasks <;> split at hanswers <;> split at hrefunds <;>
    simp only [decide_eq_true_eq, reduceCtorEq] at hasks hanswers hrefunds
  subst hasks hanswers
  exact ⟨start, asked, trace, world, _, _, hpending, hrun, hrequest, hanswered, hpaid, hrefunds⟩

theorem sample_gasRefunds : ∃ start asked trace world paid,
    start.pending = [] ∧
    Run (machine sampleCrypto) start [⟨sampleAsk, .ok asked⟩, ⟨sampleAnswer, .ok trace⟩] world ∧
    .gasService paid ∈ trace ∧
    GasRefund sampleCrypto [⟨sampleAsk, .ok asked⟩] sampleAnswer.operation trace paid := by
  obtain ⟨start, asked, trace, world, paid, completed, hpending, hrun, _, _, hpaid, _⟩ :=
    sampleCallback_run
  exact ⟨start, asked, trace, world, paid, hpending, hrun, hpaid,
    gasRefunds hpending hrun _ _ _ [] paid rfl hpaid⟩

theorem sample_gas_lost : ∃ start asked trace world paid,
    start.pending = [] ∧
    Run (machine sampleCrypto) start [⟨sampleAsk, .ok asked⟩, ⟨sampleAnswer, .ok trace⟩] world ∧
    .gasService paid ∈ trace ∧
    PaidBy [⟨sampleAsk, .ok asked⟩] sampleAnswer.operation trace sampleUser (.egld 5) ∧
    paid.refundAddress ≠ sampleUser := by
  obtain ⟨start, asked, trace, world, paid, completed, hpending, hrun, hasked, hanswered, hpaid,
    hrefund⟩ := sampleCallback_run
  refine ⟨start, asked, trace, world, paid, hpending, hrun, hpaid,
    .callback rfl hanswered (List.mem_singleton_self _) hasked, ?_⟩
  rw [hrefund]
  decide

end AxelarCgp.Its
