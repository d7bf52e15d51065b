import AxelarCgp.Its.Deliveries

/-!
# What the service gives

Every time the service makes a token manager give, it executes a message of the hub that
signers of the gateway had approved with this very payload, and no message is good for two
gifts.  An execution that fails leaves everything as it was.
-/

namespace AxelarCgp.Its

open Machine

/-- The step gives once, and that for a message that was authorised: to whom the message says
or, with data, to the service, which passes exactly the amount on. -/
structure GivesFor (crypto : Crypto) (authorised : Gateway.Message → Prop) (service : Address)
    (input : Input) (before : World) (trace : List Action) (after : World) (gift : Gift)
    (delivery : Delivery) : Prop where
  only : gifts service trace = [gift]
  gift : delivery.gift service = gift
  delivers : Delivers crypto input before trace after delivery.message delivery.manager
  authorised : authorised (delivery.message.approval crypto service)

/-- What holds of all gifts of a run. -/
structure InboundTransfers (crypto : Crypto) (deployed : Gateway.State)
    (events : List Gateway.Event) (earlier : Gateway.History) (start : World)
    (history : History) : Prop where
  given : ∀ before reached input trace next gift,
    (machine crypto).Took start history before reached input trace next →
    gift ∈ gifts start.itsAddress trace →
    ∃ delivery, GivesFor crypto (Gateway.Authorised crypto deployed events
      (earlier ++ before.flatMap gatewayView)) start.itsAddress input reached trace next gift
      delivery
  /-- Two steps that deliver one message are one step. -/
  once : ∀ before reached input trace next message manager before' reached' input' trace' next'
      message' manager',
    (machine crypto).Took start history before reached input trace next →
    Delivers crypto input reached trace next message manager →
    (machine crypto).Took start history before' reached' input' trace' next' →
    Delivers crypto input' reached' trace' next' message' manager' →
    message.crossChainId = message'.crossChainId → before = before'
  /-- What fails leaves the message approved, and all balances. -/
  refused : ∀ before input message after reached next,
    history = before ++ ⟨input, .error message⟩ :: after →
    (machine crypto).Run start before reached →
    (machine crypto).Run start (before ++ [⟨input, .error message⟩]) next → next = reached

section Runs

variable {crypto : Crypto} {start world : World} {history before mid after : History}
variable {input input' : Input} {trace trace' : List Action}

/-- What two steps consume, the run consumes. -/
theorem consumptions_two_steps (id : Gateway.CrossChainId) :
    consumptions id trace + consumptions id trace' ≤ consumptions id (performed
      (before ++ ⟨input, .ok trace⟩ :: (mid ++ ⟨input', .ok trace'⟩ :: after))) := by
  simp only [performed, List.flatMap_append, List.flatMap_cons, consumptions_append]
  omega

/-- After a step that consumes a message there is no other one that does. -/
theorem not_consumed_again (hregistered : Registered start)
    (hrun : (machine crypto).Run start
      (before ++ ⟨input, .ok trace⟩ :: (mid ++ ⟨input', .ok trace'⟩ :: after)) world)
    {id : Gateway.CrossChainId} (hfirst : 0 < consumptions id trace) :
    consumptions id trace' = 0 := by
  have htwo := @consumptions_two_steps before mid after input input' trace trace' id
  rcases consumed_once hregistered hrun id with hnone | ⟨hone, _⟩ <;> omega

theorem before_eq_of_consumed {before' after' : History} {id : Gateway.CrossChainId}
    (hregistered : Registered start) (hrun : (machine crypto).Run start history world)
    (hhistory : history = before ++ ⟨input, .ok trace⟩ :: after)
    (hhistory' : history = before' ++ ⟨input', .ok trace'⟩ :: after')
    (hconsumed : 0 < consumptions id trace) (hconsumed' : 0 < consumptions id trace') :
    before = before' := by
  rcases List.append_eq_append_iff.mp (hhistory.symm.trans hhistory') with
    ⟨_ | ⟨entry, mid⟩, hbefore, hafter⟩ | ⟨_ | ⟨entry, mid⟩, hbefore, hafter⟩
  · simpa using hbefore.symm
  · obtain ⟨rfl, rfl⟩ := List.cons.inj hafter
    rw [hhistory] at hrun
    have hnone := not_consumed_again hregistered hrun hconsumed
    omega
  · simpa using hbefore
  · obtain ⟨rfl, rfl⟩ := List.cons.inj hafter
    rw [hhistory'] at hrun
    have hnone := not_consumed_again hregistered hrun hconsumed'
    omega

/-- In every run of the gateway, the service and its managers, the service gives only for
messages that signers in office had sent it, never twice for one, and what fails changes
nothing. -/
theorem inbound_transfers {deployed : Gateway.State} {events : List Gateway.Event}
    {earlier : Gateway.History} {ctx : CallContext} {retention : ℕ} {domainSeparator : Hash}
    {delay : UInt64} {operator : Address} {signers : List Gateway.WeightedSigners}
    (hinit : Gateway.init crypto ctx retention domainSeparator delay operator signers =
      .ok (deployed, events))
    (hearlier : (Gateway.machine crypto).Run deployed earlier start.gateway)
    (hlaunched : Launched crypto start) (hrun : (machine crypto).Run start history world)
    (hkeccak : Set.InjOn crypto.keccak256
      (Gateway.messagePreimages (earlier ++ history.flatMap gatewayView) ∪
        Gateway.signersHashed events (earlier ++ history.flatMap gatewayView))) :
    InboundTransfers crypto deployed events earlier start history := by
  have hregistered := hlaunched.registered
  constructor
  case given =>
    intro before reached input trace next gift htook hgift
    have hkeeps := keepsRegistry_run hregistered htook.run
    have hself := hkeeps.itsAddress
    rcases delivers_step hkeeps.registered.nameless htook.step with
      ⟨⟨hnone, _⟩, _⟩ | ⟨message, manager, hdelivers⟩
    · rw [← hself, hnone] at hgift
      simp at hgift
    · have hgives := hdelivers.gives
      rw [hself] at hgives
      rw [hgives, List.mem_singleton] at hgift
      have htaken : Delivery.TakenIn crypto start history before ⟨message, manager⟩ :=
        ⟨reached, input, trace, next, htook, hdelivers⟩
      exact ⟨⟨message, manager⟩, hgift ▸ hgives, hgift.symm, hdelivers,
        htaken.authorised hregistered hrun hinit hearlier hkeccak⟩
  case once =>
    intro before reached input trace next message manager before' reached' input' trace' next'
      message' manager' htook hdelivers htook' hdelivers' hsame
    obtain ⟨after, hhistory⟩ := htook.recorded
    obtain ⟨after', hhistory'⟩ := htook'.recorded
    exact before_eq_of_consumed hregistered hrun hhistory hhistory' hdelivers.consumptions_pos
      (hsame ▸ hdelivers'.consumptions_pos)
  case refused =>
    intro before input message after reached next _ hreached hnext
    exact hnext.stopped_inv.1.unique hreached

end Runs

/-! ## EGLD that comes back once

After the EGLD came back, the message is executed again, and that fails. -/

def sampleTwice : List Input :=
  sampleReturnInputs ++ [⟨sampleEnvironment, .its sampleUser .none (.execute
    sampleReturn.sourceChain sampleReturn.messageId sampleReturn.sourceAddress
    sampleReturnPayload)⟩]

theorem sampleTwice_replay : (do
    let (deployed, events) ← sampleReturnInit
    let start ← sampleWorld sampleReturnCrypto
    let (history, _) := (machine sampleReturnCrypto).replay { start with gateway := deployed }
      sampleTwice
    return (history.map fun (entry : Entry Input (List Action)) => entry.result.isOk,
      gifts start.itsAddress (performed history),
      Gateway.hashesApart sampleReturnCrypto events (history.flatMap gatewayView))) =
      .ok ([true, true, true, true, false], [⟨sampleAddress 6, sampleUser, 4⟩], true) := by
  decide +kernel

theorem sample_inbound_transfers : ∃ deployed events start history world,
    sampleReturnInit = .ok (deployed, events) ∧
    (machine sampleReturnCrypto).Run start history world ∧
    history.map (fun entry => entry.result.isOk) = [true, true, true, true, false] ∧
    gifts start.itsAddress (performed history) = [⟨sampleAddress 6, sampleUser, 4⟩] ∧
    InboundTransfers sampleReturnCrypto deployed events [] start history := by
  have hreplay := sampleTwice_replay
  simp only [Outcome.bind_eq_ok, Outcome.pure_eq_ok, Prod.exists, Prod.mk.injEq] at hreplay
  obtain ⟨deployed, events, hinit, start, hstart, hresults, hgifts, hapart⟩ := hreplay
  have hlaunched : Launched sampleReturnCrypto { start with gateway := deployed } :=
    ⟨(sampleWorld_launched hstart).init, (sampleWorld_launched hstart).managers,
      (sampleWorld_launched hstart).pending⟩
  have hrun := (machine sampleReturnCrypto).run_replay { start with gateway := deployed }
    sampleTwice
  exact ⟨deployed, events, _, _, _, hinit, hrun, hresults, hgifts,
    @inbound_transfers _ _ _ _ _ _ [] _ _ _ _ _ _ hinit .start hlaunched hrun
      (Gateway.injOn_of_hashesApart hapart)⟩

end AxelarCgp.Its
