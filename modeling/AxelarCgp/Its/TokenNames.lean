import AxelarCgp.Its.LocalTokens
import AxelarCgp.Its.Steps
import AxelarCgp.TokenManager.Issues
import AxelarCgp.TokenManager.Names

/-!
# Names of local tokens

The service takes a name and a symbol only as they are once normalised, and the manager
normalises them before it issues the token.  So it is issued under the very name and symbol
that the caller gave.
-/

namespace AxelarCgp.Its

open TokenManager Transaction

/-- A call of a manager issues tokens under the name and the symbol only. -/
def Action.IssuesAs (name symbol : ManagedBuffer) : Action → Prop
  | .manager _ _ _ actions => ∀ cost issuedName issuedTicker decimals user,
      .issue cost issuedName issuedTicker decimals user ∈ actions →
      issuedName = toNormalizedTokenName name.1 ∧ issuedTicker = toNormalizedTokenTicker symbol.1
  | _ => True

def IssuesAs (name symbol : ManagedBuffer) (_ : World) (trace : List Action) (_ : World) :
    Prop :=
  ∀ action ∈ trace, action.IssuesAs name symbol

/-- Only deployments under the name and the symbol are allowed. -/
def NamesOnly (name symbol : ManagedBuffer) : Effect → Prop
  | .commands _ _ (.deployInterchainToken _ otherName otherSymbol _ _) =>
      otherName = name ∧ otherSymbol = symbol
  | _ => True

section Issues

variable {crypto : Crypto} {env : Environment} {ctx : CallContext} {name symbol : ManagedBuffer}
variable {world last : World} {trace : List Action}

/-- A manager issues its token under the normalised name and symbol of a deployment. -/
theorem perform_issuesAs {call : TokenManager.Call} {state next : TokenManager.State}
    {reply : TokenManager.Reply} {actions : List TokenManager.Action} {address : Address}
    {value : ℕ} (hnames : NamesOnly name symbol (.commands address value call))
    (h : TokenManager.perform ctx call state = .ok ⟨reply, next, actions⟩) :
    (Action.manager ctx call reply actions).IssuesAs name symbol := by
  intro cost issuedName issuedTicker decimals user hissue
  have hpaid := (perform_issues h).2.2
  have hmem : (⟨cost, user⟩ : Issue) ∈ issues actions :=
    List.mem_filterMap.mpr ⟨_, hissue, rfl⟩
  rw [hpaid] at hmem
  cases call with
  | deployInterchainToken minter otherName otherSymbol tokenDecimals initialCaller =>
      obtain ⟨rfl, rfl⟩ := hnames
      obtain ⟨added, hadds, rfl⟩ := (TokenManager.deployInterchainToken_eq_ok h).issued
      rcases List.mem_append.mp hissue with hadded | hissued
      · cases hadds with
        | first => simp at hadded
        | again => simp at hadded
      · obtain ⟨_, hname, hticker, _⟩ := TokenManager.Action.issue.inj
          (List.mem_singleton.mp hissued)
        exact ⟨hname, hticker⟩
  | _ => simp [Call.paidIssues] at hmem

theorem issuesAs_composes : Composes fun _ : ℕ => IssuesAs name symbol where
  nil _ _ h := absurd h List.not_mem_nil
  append hfirst hsecond action haction :=
    (List.mem_append.mp haction).elim (hfirst action) (hsecond action)
  mono _ h := h

theorem issuesAs_of_nil (world last : World) : IssuesAs name symbol world [] last :=
  fun _ h => absurd h List.not_mem_nil

theorem issuesAs_rules (service : Address) :
    CommandRules crypto service (NamesOnly name symbol) (IssuesAs name symbol) where
  composes := issuesAs_composes
  ledger _ _ := issuesAs_of_nil _ _
  pending _ _ := issuesAs_of_nil _ _
  note _ action hnote other hother := by
    obtain rfl := List.mem_singleton.mp hother
    cases other <;> trivial
  storage _ _ _ := issuesAs_of_nil _ _
  roles _ _ _ := issuesAs_of_nil _ _
  status _ _ _ := .modifies fun _ => issuesAs_of_nil _ _
  approval _ _ _ := .modifies fun _ => issuesAs_of_nil _ _
  deploy env ctx tokenId tokenManagerType tokenIdentifier operator _ _ := by
    intro before address after trace h
    obtain ⟨_, _, _, _, _, _, _, _, _, rfl⟩ := deployTokenManagerRaw_eq_ok h
    intro action haction
    simp only [List.mem_cons, List.not_mem_nil, or_false] at haction
    rcases haction with rfl | rfl <;> trivial
  command env address value call _ hnames := by
    intro before reply after trace h
    obtain ⟨_, actions, _, hrun, rfl⟩ := callManager_eq_ok.mp h
    obtain ⟨_, _, _, hperform, _⟩ := runManager_eq_ok.mp hrun
    intro action haction
    obtain rfl := List.mem_singleton.mp haction
    exact perform_issuesAs hnames hperform
  callback env manager ctx user result := by
    rintro before ⟨_, actions⟩ after trace h
    obtain ⟨_, _, _, _, _, _, rfl, rfl⟩ := runManager_manager h
    exact issuesAs_of_nil _ _
  announces ctx chain address payload := by
    intro before reply after trace h
    obtain ⟨_, _, _, rfl⟩ := callGateway_eq_ok.mp h
    intro action haction
    obtain rfl := List.mem_singleton.mp haction
    trivial

/-- Whatever a local deployment issues goes by the normalised name and symbol. -/
theorem deployInterchainToken_issuesAs {salt : Hash} {decimals : UInt8} {initialSupply : ℕ}
    {minterOpt : Option Address} {tokenId : TokenId}
    (h : deployInterchainToken crypto env ctx salt name symbol decimals initialSupply minterOpt
      world = .ok ⟨tokenId, last, trace⟩) : IssuesAs name symbol world trace last := by
  have hcommands : CommandRules crypto ctx.scAddress (NamesOnly name symbol)
      (IssuesAs name symbol) := issuesAs_rules ctx.scAddress
  have hrules : EffectRules crypto env ctx (NamesOnly name symbol)
      fun _ => IssuesAs name symbol := hcommands.effectRules rfl
  obtain ⟨_, _, _, hstep⟩ := deployInterchainToken_eq_ok h
  cases hstep with
  | deploys _ hvalue hraw =>
      have hissues := hrules.deployInterchainTokenRaw _ _ _ _ _ _ _ (fun _ => le_rfl) hvalue
        (fun _ => trivial) (fun _ _ _ _ => ⟨rfl, rfl⟩) _ _ _ _ hraw
      exact hissues
  | mints _ _ _ _ hmint =>
      have hissues : ∀ tokenId manager, Satisfies (IssuesAs name symbol)
          (mintInitialSupply env ctx tokenId manager ctx.caller initialSupply minterOpt) := by
        intro tokenId manager
        refine hcommands.andThen (hrules.commandManager _ rfl trivial) fun _ => ?_
        refine hcommands.andThen (hrules.commandManager _ rfl trivial) fun _ => ?_
        refine hcommands.andThen (hrules.commandManager _ rfl trivial) fun _ => ?_
        refine hcommands.andThen (hrules.commandManager _ rfl trivial) fun _ => ?_
        refine hcommands.andThen (hrules.commandManager _ rfl trivial) fun _ => ?_
        exact hrules.status _ _ trivial
      have hdone := hissues _ _ _ _ _ _ hmint
      exact hdone
  | rests _ _ htrace =>
      rw [htrace]
      exact issuesAs_of_nil _ _

/-! ## The checks -/

/-- A completed call found the name and the symbol normalised. -/
theorem deployInterchainToken_checked {salt : Hash} {decimals : UInt8} {initialSupply : ℕ}
    {minterOpt : Option Address} {tokenId : TokenId}
    (h : deployInterchainToken crypto env ctx salt name symbol decimals initialSupply minterOpt
      world = .ok ⟨tokenId, last, trace⟩) :
    name.1 = toNormalizedTokenName name.1 ∧ symbol.1 = toNormalizedTokenTicker symbol.1 := by
  obtain ⟨_, _, _, _, _, h, _⟩ := Transaction.bind_eq_ok.mp h
  obtain ⟨_, _, _, _, hname, h, _⟩ := Transaction.bind_eq_ok.mp h
  obtain ⟨_, _, _, _, hsymbol, _⟩ := Transaction.bind_eq_ok.mp h
  exact ⟨Outcome.require_eq_ok.mp (lift_eq_ok.mp hname).1,
    Outcome.require_eq_ok.mp (lift_eq_ok.mp hsymbol).1⟩

theorem requireNotPaused_eq (hpaused : world.its.paused = false) :
    requireNotPaused world = .ok ⟨(), world, []⟩ := by
  rw [requireNotPaused, reads_bind, hpaused]
  rfl

theorem deployInterchainToken_badName {salt : Hash} {decimals : UInt8} {initialSupply : ℕ}
    {minterOpt : Option Address} (hpaused : world.its.paused = false)
    (hname : name.1 ≠ toNormalizedTokenName name.1) :
    deployInterchainToken crypto env ctx salt name symbol decimals initialSupply minterOpt world =
      .error "Invalid token name" := by
  rw [deployInterchainToken, bind_of_ok (requireNotPaused_eq hpaused)]
  exact bind_of_error (lift_require_error hname)

theorem deployInterchainToken_badSymbol {salt : Hash} {decimals : UInt8} {initialSupply : ℕ}
    {minterOpt : Option Address} (hpaused : world.its.paused = false)
    (hname : name.1 = toNormalizedTokenName name.1)
    (hsymbol : symbol.1 ≠ toNormalizedTokenTicker symbol.1) :
    deployInterchainToken crypto env ctx salt name symbol decimals initialSupply minterOpt world =
      .error "Invalid token symbol" := by
  rw [deployInterchainToken, bind_of_ok (requireNotPaused_eq hpaused),
    bind_of_ok (lift_require_ok hname)]
  exact bind_of_error (lift_require_error hsymbol)

end Issues

/-- What the normalisations give for every byte string, and what follows for the tokens that
the service deploys. -/
structure NamesNormalized (crypto : Crypto) : Prop where
  /-- The loops over batches give what the contracts below check and issue. -/
  name_loop : toNormalizedTokenNameLoop = toNormalizedTokenName
  ticker_loop : toNormalizedTokenTickerLoop = toNormalizedTokenTicker
  name : ∀ data, toNormalizedTokenName data =
    fillUp 3 ((data.filter isAsciiAlphanumeric).take 20)
  ticker : ∀ data, toNormalizedTokenTicker data =
    fillUp 3 (((data.filter isAsciiAlphanumeric).take 10).map toAsciiUppercase)
  name_valid : ∀ data, ValidTokenName (toNormalizedTokenName data)
  ticker_valid : ∀ data, ValidTokenTicker (toNormalizedTokenTicker data)
  name_again : ∀ data,
    toNormalizedTokenName (toNormalizedTokenName data) = toNormalizedTokenName data
  ticker_again : ∀ data,
    toNormalizedTokenTicker (toNormalizedTokenTicker data) = toNormalizedTokenTicker data
  name_fixed : ∀ data, toNormalizedTokenName data = data ↔ ValidTokenName data
  ticker_fixed : ∀ data, toNormalizedTokenTicker data = data ↔ ValidTokenTicker data
  accepted : ∀ env ctx salt name symbol decimals initialSupply minterOpt world last tokenId trace,
    deployInterchainToken crypto env ctx salt name symbol decimals initialSupply minterOpt world =
      .ok ⟨tokenId, last, trace⟩ →
    ValidTokenName name.1 ∧ ValidTokenTicker symbol.1
  refused_name : ∀ env ctx salt (name symbol : ManagedBuffer) decimals initialSupply minterOpt
    (world : World), world.its.paused = false → ¬ ValidTokenName name.1 →
    deployInterchainToken crypto env ctx salt name symbol decimals initialSupply minterOpt world =
      .error "Invalid token name"
  refused_symbol : ∀ env ctx salt (name symbol : ManagedBuffer) decimals initialSupply minterOpt
    (world : World), world.its.paused = false → ValidTokenName name.1 →
    ¬ ValidTokenTicker symbol.1 →
    deployInterchainToken crypto env ctx salt name symbol decimals initialSupply minterOpt world =
      .error "Invalid token symbol"
  /-- A token is issued under the name and the symbol that the caller gave. -/
  issued : ∀ env ctx salt (name symbol : ManagedBuffer) decimals initialSupply minterOpt world last
    tokenId trace managerCtx call reply actions cost issuedName issuedTicker issuedDecimals user,
    deployInterchainToken crypto env ctx salt name symbol decimals initialSupply minterOpt world =
      .ok ⟨tokenId, last, trace⟩ →
    .manager managerCtx call reply actions ∈ trace →
    .issue cost issuedName issuedTicker issuedDecimals user ∈ actions →
    issuedName = name.1 ∧ issuedTicker = symbol.1

theorem namesNormalized (crypto : Crypto) : NamesNormalized crypto where
  name_loop := funext fun _ => normalizeLoop_eq
  ticker_loop := funext fun _ => normalizeLoop_eq
  name data := by
    rw [toNormalizedTokenName, normalizeBytes_eq, List.map_id]
    rfl
  ticker data := by
    rw [toNormalizedTokenTicker, normalizeBytes_eq]
    rfl
  name_valid _ := validTokenName_toNormalizedTokenName
  ticker_valid _ := validTokenTicker_toNormalizedTokenTicker
  name_again _ := toNormalizedTokenName_eq_self.mpr validTokenName_toNormalizedTokenName
  ticker_again _ :=
    toNormalizedTokenTicker_eq_self.mpr validTokenTicker_toNormalizedTokenTicker
  name_fixed _ := toNormalizedTokenName_eq_self
  ticker_fixed _ := toNormalizedTokenTicker_eq_self
  accepted := by
    intro env ctx salt name symbol decimals initialSupply minterOpt world last tokenId trace h
    obtain ⟨hname, hsymbol⟩ := deployInterchainToken_checked h
    exact ⟨toNormalizedTokenName_eq_self.mp hname.symm,
      toNormalizedTokenTicker_eq_self.mp hsymbol.symm⟩
  refused_name := by
    intro env ctx salt name symbol decimals initialSupply minterOpt world hpaused hname
    apply deployInterchainToken_badName hpaused
    exact fun heq => hname (toNormalizedTokenName_eq_self.mp heq.symm)
  refused_symbol := by
    intro env ctx salt name symbol decimals initialSupply minterOpt world hpaused hname hsymbol
    apply deployInterchainToken_badSymbol hpaused
    · exact (toNormalizedTokenName_eq_self.mpr hname).symm
    · exact fun heq => hsymbol (toNormalizedTokenTicker_eq_self.mp heq.symm)
  issued := by
    intro env ctx salt name symbol decimals initialSupply minterOpt world last tokenId trace
      managerCtx call reply actions cost issuedName issuedTicker issuedDecimals user h hmanager
      hissue
    obtain ⟨hname, hsymbol⟩ := deployInterchainToken_checked h
    have hissued := deployInterchainToken_issuesAs h _ hmanager _ _ _ _ _ hissue
    rwa [← hname, ← hsymbol] at hissued

end AxelarCgp.Its
