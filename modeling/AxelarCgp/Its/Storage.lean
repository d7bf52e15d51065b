import AxelarCgp.Its.Managers

/-!
# Parts of the storage of the service

A part of the storage that none of the allowed effects touches is the same after every
step.  What the part is, and why the effects leave it alone, is all that there
is to say about each.
-/

namespace AxelarCgp.Its

open Transaction

variable {A : Type}

/-- The allowed effects leave this part of the storage alone. -/
structure Untouched (part : State → A) (Allowed : Effect → Prop) : Prop where
  storage : ∀ its next : State, its.KeepsTokens next → part next = part its
  managers : ∀ (its : State) tokenManagerAddress,
    part { its with tokenManagerAddress } = part its
  status : ∀ (its : State) tokenId status, Allowed (.status tokenId status) →
    part { its with interchainTokenStatus :=
      Function.update its.interchainTokenStatus tokenId status } = part its
  approval : ∀ (its : State) approvalKey destinationMinter,
    Allowed (.approval approvalKey destinationMinter) →
    part { its with approvedDestinationMinters :=
      Function.update its.approvedDestinationMinters approvalKey destinationMinter } = part its
  roles : ∀ (its : State) roles, Allowed .roles → part { its with roles } = part its

/-- The part is the same. -/
def Same (part : State → A) (before : World) (_ : List Action) (after : World) : Prop :=
  part after.its = part before.its

section

variable {part : State → A} {Allowed : Effect → Prop} {crypto : Crypto} {env : Environment}
variable {service : Address}

/-- A relation that says of a part that it is the same. -/
theorem eq_same {Keeps : World → World → Prop}
    (h : ∀ before after, Keeps before after ↔ part after.its = part before.its) :
    (fun before (_ : List Action) after => Keeps before after) = Same part := by
  funext before trace after
  exact propext (h before after)

theorem composes_same : Composes fun _ : ℕ => Same part where
  nil _ := rfl
  append first second := Eq.trans second first
  mono _ h := h

theorem same_callManager {ctx : CallContext} (call : TokenManager.Call) :
    Satisfies (Same part) (callManager env ctx call) := by
  intro before reply after trace h
  obtain ⟨_, _, _, _, _, _, _, rfl, _⟩ := callManager_manager h
  rfl

theorem Untouched.stepRules (h : Untouched part Allowed) :
    StepRules crypto service Allowed (Same part) where
  composes := composes_same
  ledger _ _ := rfl
  pending _ _ := rfl
  note _ _ _ := rfl
  storage world its hkeeps := h.storage world.its its hkeeps
  roles world roles hallowed := h.roles world.its roles hallowed
  status tokenId status hallowed :=
    .modifies fun world => h.status world.its tokenId status hallowed
  approval approvalKey destinationMinter hallowed :=
    .modifies fun world => h.approval world.its approvalKey destinationMinter hallowed
  deploy env ctx tokenId managerType tokenIdentifier operator _ _ := by
    intro before address after trace hdeploy
    obtain ⟨_, _, _, _, _, _, _, _, rfl, _⟩ := deployTokenManagerRaw_eq_ok hdeploy
    exact h.managers before.its _
  command _ _ _ call _ _ := same_callManager call
  transfers _ _ call _ := same_callManager call
  callback env manager ctx user result := by
    rintro before ⟨_, actions⟩ after trace hrun
    obtain ⟨_, _, _, _, _, _, rfl, _⟩ := runManager_manager hrun
    rfl
  gateway ctx call := by
    intro before reply after trace hcall
    obtain ⟨gateway, _, rfl, _⟩ := callGateway_eq_ok.mp hcall
    rfl

end

end AxelarCgp.Its
