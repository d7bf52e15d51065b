import AxelarCgp.TokenManager.Effects

/-!
# Rules for the token manager

What a token manager does in a call is put together from a few things: changes of
roles, a new minter, flows and their limit, tokens that move, and an issue.  A
relation that these are in, and that composes, holds of every endpoint.
-/

namespace AxelarCgp.TokenManager

open Transaction

/-- Minting, burning and sending. -/
def Action.movesTokens : Action → Bool
  | .localMint _ _ | .localBurn _ _ | .send _ _ _ => true
  | _ => false

structure Rules (Rel : ℕ → State → List Action → State → Prop) : Prop extends Composes Rel where
  roles : ∀ x : AccountRoles.Tx Unit, Satisfies (RoleTable.Grants 0) x →
    Satisfies (Rel 0) (withRoles x)
  minter : ∀ minter, Satisfies (Rel 0) (setMinterAddress minter)
  books : ∀ before after, before.SameBooks after → Rel 0 before [] after
  limit : ∀ ctx flowLimit tokenId, Satisfies (Rel 0) (setFlowLimitRaw ctx flowLimit tokenId)
  moves : ∀ action state, action.movesTokens → Rel 0 state [action] state

/-! ## What only looks -/

section Inspects

variable (ctx : CallContext)

theorem inspects_withRoles {A : Type} {x : AccountRoles.Tx A} (hx : Inspects x) :
    Inspects (withRoles x) := by
  intro state value last trace h
  obtain ⟨roles, events, hok, rfl, rfl⟩ := within_eq_ok.mp h
  obtain ⟨rfl, rfl⟩ := hx _ _ _ _ hok
  exact ⟨rfl, rfl⟩

theorem inspects_onlyService : Inspects (onlyService ctx) :=
  .bind (.reads _) fun _ => .lift _

theorem inspects_onlyMinter : Inspects (onlyMinter ctx) :=
  inspects_withRoles (AccountRoles.inspects_onlyRole _ _)

theorem inspects_onlyOperator : Inspects (withRoles (Operatable.onlyOperator ctx.caller)) :=
  inspects_withRoles (AccountRoles.inspects_onlyRole _ _)

theorem inspects_requireCorrectToken : Inspects (requireCorrectToken ctx) :=
  .bind (.lift _) fun _ => .bind (.reads _) fun _ => .bind (.lift _) fun _ => .pure _

theorem inspects_donateTokens : Inspects (perform ctx .donateTokens) :=
  .bind (.bind (.reads _) fun _ => .bind (.lift _) fun _ =>
    .bind (inspects_requireCorrectToken ctx) fun _ => .pure _) fun _ => .pure _

theorem inspects_requireNative : Inspects requireNative :=
  .bind (.reads _) fun _ => .lift _

end Inspects

/-! ## Endpoints -/

namespace Rules

variable {Rel : ℕ → State → List Action → State → Prop} {ctx : CallContext}

theorem performs (rules : Rules Rel) {action : Action} (hmoves : action.movesTokens) :
    Satisfies (Rel 0) (performs action) :=
  .performs fun state => rules.moves action state hmoves

theorem addMinter (rules : Rules Rel) (minter : Address) :
    Satisfies (Rel 0) (addMinter minter) :=
  .andThen rules.toComposes (rules.minter minter) fun _ =>
    rules.roles _ (AccountRoles.grants_addRole _ _)

theorem addFlowRaw (rules : Rules Rel) (direction : Direction) (amount : ℕ) :
    Satisfies (Rel 0) (addFlowRaw ctx direction amount) := by
  intro before value after trace h
  obtain ⟨hflows, rfl⟩ := addFlowRaw_eq_ok h
  exact rules.books before after hflows.sameBooks

theorem giveTokenMintBurn (rules : Rules Rel) (token : EgldOrEsdtTokenIdentifier)
    (receiver : Address) (amount : ℕ) :
    Satisfies (Rel 0) (giveTokenMintBurn token receiver amount) :=
  .inspect_bind (.lift _) fun _ => .andThen rules.toComposes (rules.performs rfl) fun _ =>
    rules.performs rfl

theorem takeTokenMintBurn (rules : Rules Rel) (token : EgldOrEsdtTokenIdentifier)
    (amount : ℕ) : Satisfies (Rel 0) (takeTokenMintBurn token amount) :=
  .inspect_bind (.lift _) fun _ => rules.performs rfl

theorem giveToken (rules : Rules Rel) (receiver : Address) (amount : ℕ) :
    Satisfies (Rel 0) (giveToken ctx receiver amount) := by
  refine .inspect_bind (inspects_onlyService ctx) fun _ => .inspect_bind (.reads _) fun token =>
    .andThen rules.toComposes (rules.addFlowRaw .inward amount) fun _ =>
      .inspect_bind (.reads _) fun managerType => ?_
  cases managerType with
  | nativeInterchainToken | mintBurn | mintBurnFrom =>
    exact .andThen rules.toComposes (rules.giveTokenMintBurn _ _ _) fun _ =>
      .pure rules.toComposes _
  | lockUnlock | lockUnlockFee =>
    exact .andThen rules.toComposes (rules.performs rfl) fun _ => .pure rules.toComposes _

theorem takeToken (rules : Rules Rel) : Satisfies (Rel 0) (takeToken ctx) := by
  refine .inspect_bind (inspects_onlyService ctx) fun _ =>
    .inspect_bind (inspects_requireCorrectToken ctx) fun taken =>
      .andThen rules.toComposes (rules.addFlowRaw .outward _) fun _ =>
        .inspect_bind (.reads _) fun managerType => ?_
  cases managerType with
  | nativeInterchainToken | mintBurn | mintBurnFrom =>
    exact .andThen rules.toComposes (rules.takeTokenMintBurn _ _) fun _ =>
      .pure rules.toComposes _
  | lockUnlock | lockUnlockFee =>
    exact .andThen rules.toComposes (.pure rules.toComposes ()) fun _ =>
      .pure rules.toComposes _

theorem deployInterchainToken (rules : Rules Rel)
    (hissue : ∀ cost name ticker decimals user,
      Satisfies (Rel 0) (Transaction.performs (.issue cost name ticker decimals user)))
    (minter : Option Address) (name symbol : ManagedBuffer) (decimals : UInt8)
    (initialCaller : Option Address) :
    Satisfies (Rel 0)
      (deployInterchainToken ctx minter name symbol decimals initialCaller) := by
  refine .inspect_bind inspects_requireNative fun _ => .inspect_bind (.reads _) fun _ =>
    .inspect_bind (.lift _) fun _ => .inspect_bind (.reads _) fun _ =>
      .inspect_bind (.reads _) fun _ => .inspect_bind (.lift _) fun _ =>
        .inspect_bind (.lift _) fun _ => .inspect_bind (.lift _) fun _ =>
          .inspect_bind (.reads _) fun minterAddress => ?_
  cases minterAddress with
  | none =>
    exact .andThen rules.toComposes (rules.addMinter _) fun _ => .inspect_bind (.lift _)
      fun _ => .inspect_bind (.lift _) fun _ => hissue _ _ _ _ _
  | some _ =>
    exact .inspect_bind (.lift _) fun _ => .inspect_bind (.lift _) fun _ => hissue _ _ _ _ _

theorem unpaid (rules : Rules Rel) {x : Tx Unit} (hx : Satisfies (Rel 0) x) :
    Satisfies (Rel 0) (unpaid ctx x) :=
  .inspect_bind (.lift _) fun _ => .andThen rules.toComposes hx fun _ =>
    .pure rules.toComposes _

theorem perform (rules : Rules Rel) (call : Call)
    (hdeploy : ∀ minter name symbol decimals initialCaller,
      call = .deployInterchainToken minter name symbol decimals initialCaller →
      Satisfies (Rel 0)
        (TokenManager.deployInterchainToken ctx minter name symbol decimals initialCaller)) :
    Satisfies (Rel 0) (perform ctx call) := by
  cases call with
  | addFlowLimiter flowLimiter =>
    exact rules.unpaid (.inspect_bind (inspects_onlyOperator ctx) fun _ =>
      rules.roles _ (AccountRoles.grants_addRole _ _))
  | removeFlowLimiter flowLimiter =>
    exact rules.unpaid (.inspect_bind (inspects_onlyOperator ctx) fun _ =>
      rules.roles _ (AccountRoles.grants_removeRole _ _))
  | transferFlowLimiter fromAddress toAddress =>
    exact rules.unpaid (.inspect_bind (inspects_onlyOperator ctx) fun _ =>
      rules.roles _ (AccountRoles.grants_transferRole _ _ _))
  | setFlowLimit flowLimit =>
    exact rules.unpaid (.inspect_bind
      (inspects_withRoles (AccountRoles.inspects_onlyRole _ _)) fun _ =>
        .inspect_bind (.reads _) fun _ => rules.limit _ _ _)
  | giveToken destinationAddress amount =>
    exact .inspect_bind (.lift _) fun _ =>
      .andThen rules.toComposes (rules.giveToken _ _) fun _ => .pure rules.toComposes _
  | takeToken =>
    exact .andThen rules.toComposes rules.takeToken fun _ => .pure rules.toComposes _
  | donateTokens =>
    exact .inspect rules.toComposes (inspects_donateTokens ctx)
  | deployInterchainToken minter name symbol decimals initialCaller =>
    exact .inspect_bind (.lift _) fun _ => .andThen rules.toComposes (hdeploy _ _ _ _ _ rfl)
      fun _ => .pure rules.toComposes _
  | mint address amount =>
    exact rules.unpaid (.inspect_bind inspects_requireNative fun _ =>
      .inspect_bind (inspects_onlyMinter ctx) fun _ => .inspect_bind (.reads _) fun _ =>
        .inspect_bind (.lift _) fun _ => .inspect_bind (.reads _) fun _ =>
          .inspect_bind (.lift _) fun _ => .andThen rules.toComposes (rules.performs rfl)
            fun _ => rules.performs rfl)
  | burn =>
    exact .andThen rules.toComposes (.inspect_bind inspects_requireNative fun _ =>
      .inspect_bind (inspects_onlyMinter ctx) fun _ => .inspect_bind (.reads _) fun _ =>
        .inspect_bind (.lift _) fun _ => .inspect_bind (inspects_requireCorrectToken ctx)
          fun _ => .inspect_bind (.lift _) fun _ => rules.performs rfl) fun _ =>
            .pure rules.toComposes _
  | transferMintership minter =>
    exact rules.unpaid (.inspect_bind (inspects_onlyMinter ctx) fun _ =>
      .andThen rules.toComposes (rules.minter _) fun _ =>
        rules.roles _ (AccountRoles.grants_transferRole _ _ _))
  | proposeMintership minter =>
    exact rules.unpaid (.inspect_bind (inspects_onlyMinter ctx) fun _ =>
      rules.roles _ (AccountRoles.grants_proposeRole _ _ _))
  | acceptMintership fromMinter =>
    exact rules.unpaid (.andThen rules.toComposes (rules.minter _) fun _ =>
      rules.roles _ (AccountRoles.grants_acceptRole _ _ _))
  | transferOperatorship operator =>
    exact rules.unpaid (rules.roles _ (AccountRoles.grants_transferOperatorship _ _))
  | proposeOperatorship operator =>
    exact rules.unpaid (rules.roles _ (AccountRoles.grants_proposeOperatorship _ _))
  | acceptOperatorship fromOperator =>
    exact rules.unpaid (rules.roles _ (AccountRoles.grants_acceptRole _ _ _))

end Rules

/-! ## What is never changed -/

/-- A manager serves the same token for the same service; a token and a minter that
it has, it does not lose. -/
structure Kept (_ : ℕ) (before : State) (_ : List Action) (after : State) : Prop where
  service : after.interchainTokenService = before.interchainTokenService
  implementationType : after.implementationType = before.implementationType
  interchainTokenId : after.interchainTokenId = before.interchainTokenId
  token : before.tokenIdentifier.isSome → after.tokenIdentifier = before.tokenIdentifier
  minter : before.minterAddress.isSome → after.minterAddress.isSome

theorem kept_rules : Rules Kept where
  nil _ := ⟨rfl, rfl, rfl, fun _ => rfl, id⟩
  append first second := {
    service := second.service.trans first.service
    implementationType := second.implementationType.trans first.implementationType
    interchainTokenId := second.interchainTokenId.trans first.interchainTokenId
    token := fun hsome => by
      have hfirst := first.token hsome
      rw [← hfirst] at hsome
      exact (second.token hsome).trans hfirst
    minter := fun hsome => second.minter (first.minter hsome) }
  mono _ h := ⟨h.service, h.implementationType, h.interchainTokenId, h.token, h.minter⟩
  roles x _ := by
    intro before value after trace h
    obtain ⟨roles, events, _, rfl, rfl⟩ := within_eq_ok.mp h
    exact ⟨rfl, rfl, rfl, fun _ => rfl, id⟩
  minter _ := .modifies fun _ => ⟨rfl, rfl, rfl, fun _ => rfl, fun _ => rfl⟩
  books before after h := by
    obtain ⟨_, _, rfl⟩ := h
    exact ⟨rfl, rfl, rfl, fun _ => rfl, id⟩
  limit ctx flowLimit tokenId := by
    intro before value after trace h
    simp only [setFlowLimitRaw, Transaction.bind_eq_ok, performs_eq_ok, modifies_eq_ok] at h
    obtain ⟨_, _, _, _, ⟨rfl, rfl⟩, ⟨rfl, rfl⟩, rfl⟩ := h
    exact ⟨rfl, rfl, rfl, fun _ => rfl, id⟩
  moves _ _ _ := ⟨rfl, rfl, rfl, fun _ => rfl, id⟩

theorem kept_perform (ctx : CallContext) (call : Call) :
    Satisfies (Kept 0) (perform ctx call) :=
  kept_rules.perform call fun _ _ _ _ _ _ => kept_rules.deployInterchainToken
    (fun _ _ _ _ _ => .performs fun _ => ⟨rfl, rfl, rfl, fun _ => rfl, id⟩) _ _ _ _ _

theorem kept_deployTokenCallback (ctx : CallContext) (user : Address)
    (result : Option TokenIdentifier) :
    Satisfies (Kept 0) (deployTokenCallback ctx user result) := by
  cases result with
  | some token =>
    refine .inspect_bind (.reads _) fun _ => .andThen kept_rules.toComposes
      (.performs fun _ => ⟨rfl, rfl, rfl, fun _ => rfl, id⟩) fun _ => .modifies fun state => ?_
    refine ⟨rfl, rfl, rfl, fun hsome => ?_, id⟩
    obtain ⟨known, hknown⟩ := Option.isSome_iff_exists.mp hsome
    simp [hknown]
  | none =>
    exact .andThen kept_rules.toComposes
      (.performs fun _ => ⟨rfl, rfl, rfl, fun _ => rfl, id⟩) fun _ =>
        .inspect_bind (.lift _) fun _ => .performs fun _ => ⟨rfl, rfl, rfl, fun _ => rfl, id⟩

/-- A manager of any type but that of native tokens has a token that its type admits. -/
def State.HasToken (state : State) : Prop :=
  state.implementationType = .nativeInterchainToken ∨
    state.tokenIdentifier.isSome ∧ state.implementationType.admits state.tokenIdentifier

theorem Initialised.hasToken {service : Address} {managerType : TokenManagerType}
    {tokenId : Hash} {params : DeployTokenManagerParams} {state : State}
    (h : Initialised service managerType tokenId params state) : state.HasToken := by
  have hadmits := h.admits
  rw [State.HasToken, h.implementationType, h.tokenIdentifier]
  cases managerType with
  | nativeInterchainToken => exact .inl rfl
  | lockUnlock | lockUnlockFee => exact .inr ⟨Option.isSome_iff_ne_none.mpr hadmits, hadmits⟩
  | mintBurn | mintBurnFrom =>
    obtain ⟨token, htoken, _⟩ := (Option.any_eq_true _ _).mp hadmits
    exact .inr ⟨by rw [htoken]; rfl, hadmits⟩

theorem Kept.hasToken {n : ℕ} {before after : State} {actions : List Action}
    (h : Kept n before actions after) (htoken : before.HasToken) : after.HasToken := by
  rcases htoken with hnative | ⟨hsome, hadmits⟩
  · exact .inl (h.implementationType.trans hnative)
  · refine .inr ?_
    rw [h.token hsome, h.implementationType]
    exact ⟨hsome, hadmits⟩

end AxelarCgp.TokenManager
