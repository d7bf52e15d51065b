import AxelarCgp.TokenManager.Rules

/-!
# Issues of one token manager

A manager of a native token has its token issued by an asynchronous call.  It
checks that it has no token before the call, and writes the identifier when the
answer comes; in between anything may happen, further issues included.  Here the
manager runs among its own issues in flight, called by anybody and answered in
any order.
-/

namespace AxelarCgp.TokenManager

open Machine Transaction

/-! ## The manager among its issues -/

/-- An issue that waits for its answer. -/
structure Issue where
  cost : ℕ
  user : Address
  deriving DecidableEq

/-- The issues among what a call did. -/
def issues (actions : List Action) : List Issue :=
  actions.filterMap fun
    | .issue cost _ _ _ user => some ⟨cost, user⟩
    | _ => none

structure System where
  contract : State
  pending : List Issue

inductive Input where
  | call (ctx : CallContext) (call : Call)
  | answer (ctx : CallContext) (index : ℕ) (result : Option TokenIdentifier)

/-- The callback of an issue: when it failed, its cost has come back. -/
def Issue.callback (ctx : CallContext) (result : Option TokenIdentifier) (issue : Issue) :
    Tx Unit :=
  let callValue := if result.isSome then .none else .egld issue.cost
  deployTokenCallback { ctx with callValue } issue.user result

def System.step (system : System) : Input → Outcome (System × List Action)
  | .call ctx call => do
      let result ← perform ctx call system.contract
      return (⟨result.state, system.pending ++ issues result.trace⟩, result.trace)
  | .answer ctx index result => do
      let issue ← orFail system.pending[index]? "no such call in flight"
      let answered ← issue.callback ctx result system.contract
      return (⟨answered.state, system.pending.eraseIdx index⟩, answered.trace)

def machine : Machine System Input (List Action) where
  step := System.step

abbrev History := List (Entry Input (List Action))

/-! ## What a step does -/

/-- What is said about issues, and the issues themselves. -/
def Action.isDeployment : Action → Bool
  | .interchainTokenDeployed _ _ | .interchainTokenDeploymentFailed | .issue _ _ _ _ _ => true
  | _ => false

/-- The manager is the one it was, with the same token, and nothing was said about
issues. -/
structure Frame (_ : ℕ) (before : State) (trace : List Action) (after : State) : Prop where
  service : after.interchainTokenService = before.interchainTokenService
  implementationType : after.implementationType = before.implementationType
  interchainTokenId : after.interchainTokenId = before.interchainTokenId
  tokenIdentifier : after.tokenIdentifier = before.tokenIdentifier
  quiet : ∀ action ∈ trace, action.isDeployment = false

theorem frame_rules : Rules Frame where
  nil _ := ⟨rfl, rfl, rfl, rfl, by simp⟩
  append first second := {
    service := second.service.trans first.service
    implementationType := second.implementationType.trans first.implementationType
    interchainTokenId := second.interchainTokenId.trans first.interchainTokenId
    tokenIdentifier := second.tokenIdentifier.trans first.tokenIdentifier
    quiet := fun action hmem =>
      (List.mem_append.mp hmem).elim (first.quiet action) (second.quiet action) }
  mono _ h := ⟨h.service, h.implementationType, h.interchainTokenId, h.tokenIdentifier, h.quiet⟩
  roles x _ := by
    intro before value after trace h
    obtain ⟨roles, events, _, rfl, rfl⟩ := within_eq_ok.mp h
    refine ⟨rfl, rfl, rfl, rfl, fun action hmem => ?_⟩
    obtain ⟨event, _, rfl⟩ := List.mem_map.mp hmem
    rfl
  minter minter := .modifies fun _ => ⟨rfl, rfl, rfl, rfl, by simp⟩
  books before after h := by
    obtain ⟨_, _, rfl⟩ := h
    exact ⟨rfl, rfl, rfl, rfl, by simp⟩
  limit ctx flowLimit tokenId := by
    intro before value after trace h
    simp only [setFlowLimitRaw, Transaction.bind_eq_ok, performs_eq_ok, modifies_eq_ok] at h
    obtain ⟨_, _, _, _, ⟨rfl, rfl⟩, ⟨rfl, rfl⟩, rfl⟩ := h
    exact ⟨rfl, rfl, rfl, rfl, by simp [Action.isDeployment]⟩
  moves action state hmoves := by
    refine ⟨rfl, rfl, rfl, rfl, ?_⟩
    cases action <;> simp_all [Action.isDeployment, Action.movesTokens]

/-- Without a word about issues, none is made and no token is announced. -/
theorem issues_of_quiet {trace : List Action}
    (hquiet : ∀ action ∈ trace, action.isDeployment = false) : issues trace = [] := by
  rw [issues, List.filterMap_eq_nil_iff]
  intro action hmem
  have hplain := hquiet action hmem
  cases action <;> simp_all [Action.isDeployment]

/-- A manager deploys its token once it is paid for, by the service or a minter,
and as long as it has none. -/
structure Deploys (ctx : CallContext) (initialCaller : Option Address) (state next : State)
    (actions : List Action) : Prop where
  native : state.implementationType = .nativeInterchainToken
  missing : state.tokenIdentifier = none
  allowed : ctx.caller = state.interchainTokenService ∨ state.isMinter ctx.caller
  paid : ctx.callValue = .egld DEFAULT_ESDT_ISSUE_COST
  kept : next.tokenIdentifier = none
  issued : ∃ before name ticker decimals, (∀ action ∈ before, action.isDeployment = false) ∧
    actions = before ++ [.issue DEFAULT_ESDT_ISSUE_COST name ticker decimals
      (initialCaller.getD ctx.caller)]

theorem deployInterchainToken_deploys {ctx : CallContext} {minter : Option Address}
    {name symbol : ManagedBuffer} {decimals : UInt8} {initialCaller : Option Address}
    {state next : State} {reply : Reply} {actions : List Action}
    (h : perform ctx (.deployInterchainToken minter name symbol decimals initialCaller) state =
      .ok ⟨reply, next, actions⟩) :
    Deploys ctx initialCaller state next actions := by
  obtain ⟨hnative, hmissing, hallowed, hpaid, added, hadds, rfl⟩ := deployInterchainToken_eq_ok h
  have hframe : next.tokenIdentifier = none ∧ ∀ action ∈ added, action.isDeployment = false := by
    cases hadds with
    | first => exact ⟨hmissing, by simp [Action.isDeployment]⟩
    | again => exact ⟨hmissing, by simp⟩
  exact ⟨hnative, hmissing, hallowed, hpaid, hframe.1, added, _, _, _, hframe.2, rfl⟩

/-- The issues that a call pays for. -/
def Call.paidIssues (ctx : CallContext) : Call → List Issue
  | .deployInterchainToken _ _ _ _ initialCaller =>
      match ctx.callValue with
      | .egld cost => [⟨cost, initialCaller.getD ctx.caller⟩]
      | .multiEsdt _ => []
  | _ => []

/-- The tokens that were announced as deployed. -/
def announced (actions : List Action) : List EgldOrEsdtTokenIdentifier :=
  actions.filterMap fun
    | .interchainTokenDeployed _ token => some token
    | _ => none

theorem announced_of_quiet {trace : List Action}
    (hquiet : ∀ action ∈ trace, action.isDeployment = false) : announced trace = [] := by
  rw [announced, List.filterMap_eq_nil_iff]
  intro action hmem
  have hplain := hquiet action hmem
  cases action <;> simp_all [Action.isDeployment]

/-- A call changes no identifier and announces none; it issues what it pays for. -/
theorem perform_issues {ctx : CallContext} {call : Call} {state next : State} {reply : Reply}
    {actions : List Action} (h : perform ctx call state = .ok ⟨reply, next, actions⟩) :
    next.tokenIdentifier = state.tokenIdentifier ∧ announced actions = [] ∧
      issues actions = call.paidIssues ctx := by
  by_cases hdeploy : ∃ minter name symbol decimals initialCaller,
      call = .deployInterchainToken minter name symbol decimals initialCaller
  · obtain ⟨minter, name, symbol, decimals, initialCaller, rfl⟩ := hdeploy
    obtain ⟨_, hmissing, _, hpaid, hkept, before, tokenName, ticker, tokenDecimals, hquiet,
      rfl⟩ := deployInterchainToken_deploys h
    refine ⟨hkept.trans hmissing.symm, ?_, ?_⟩
    · have hbefore := announced_of_quiet hquiet
      simp only [announced] at hbefore ⊢
      simp [List.filterMap_append, hbefore]
    · have hbefore := issues_of_quiet hquiet
      simp only [issues] at hbefore ⊢
      simp only [List.filterMap_append, hbefore, List.nil_append, List.filterMap_cons,
        List.filterMap_nil, Call.paidIssues, hpaid]
  · have hframe : Frame 0 state actions next := frame_rules.perform call
      (fun minter name symbol decimals initialCaller hcall =>
        absurd ⟨minter, name, symbol, decimals, initialCaller, hcall⟩ hdeploy) _ _ _ _ h
    refine ⟨hframe.tokenIdentifier, announced_of_quiet hframe.quiet, ?_⟩
    rw [issues_of_quiet hframe.quiet]
    cases call with
    | deployInterchainToken minter name symbol decimals initialCaller =>
      exact absurd ⟨minter, name, symbol, decimals, initialCaller, rfl⟩ hdeploy
    | _ => rfl

/-- A callback always completes: it stores the identifier unless there is one, or
sends the cost to the user. -/
theorem callback_eq_ok (ctx : CallContext) (issue : Issue) (state : State)
    (result : Option TokenIdentifier) :
    issue.callback ctx result state = .ok (match result with
      | some token => ⟨(), { state with
          tokenIdentifier := some (state.tokenIdentifier.getD (.esdt token)) },
          [.interchainTokenDeployed state.interchainTokenId (.esdt token)]⟩
      | none => ⟨(), state, [.interchainTokenDeploymentFailed,
          .send issue.user .egld issue.cost]⟩) := by
  cases result <;> rfl

/-! ## What a history says -/

def tokenWon : Entry Input (List Action) → List TokenIdentifier
  | ⟨.answer _ _ (some token), .ok _⟩ => [token]
  | _ => []

def tokensNamed : Entry Input (List Action) → List EgldOrEsdtTokenIdentifier
  | ⟨_, .ok actions⟩ => announced actions
  | ⟨_, .error _⟩ => []

def issuesPaid : Entry Input (List Action) → List Issue
  | ⟨.call ctx call, .ok _⟩ => call.paidIssues ctx
  | _ => []

def costsReturned : Entry Input (List Action) → List Issue
  | ⟨.answer _ _ _, .ok actions⟩ => actions.filterMap fun
      | .send user .egld cost => some ⟨cost, user⟩
      | _ => none
  | _ => []

/-- The identifiers that issues ended with, in the order of their answers. -/
def successes (history : History) : List TokenIdentifier :=
  history.flatMap tokenWon

/-- The tokens that were announced as deployed. -/
def announcements (history : History) : List EgldOrEsdtTokenIdentifier :=
  history.flatMap tokensNamed

/-- The issues that were paid for. -/
def paid (history : History) : List Issue :=
  history.flatMap issuesPaid

/-- What the answers sent back, and to whom. -/
def refunds (history : History) : List Issue :=
  history.flatMap costsReturned

section

variable {history : History} {entry : Entry Input (List Action)}

@[simp] theorem successes_snoc :
    successes (history ++ [entry]) = successes history ++ tokenWon entry := by
  simp [successes]

@[simp] theorem announcements_snoc :
    announcements (history ++ [entry]) = announcements history ++ tokensNamed entry := by
  simp [announcements]

@[simp] theorem paid_snoc : paid (history ++ [entry]) = paid history ++ issuesPaid entry := by
  simp [paid]

@[simp] theorem refunds_snoc :
    refunds (history ++ [entry]) = refunds history ++ costsReturned entry := by
  simp [refunds]

end

/-- The first success is the token of the manager, every success was announced,
and what was paid for an issue came back, was used by a success or is in flight. -/
structure Accounts (history : History) (system : System) : Prop where
  first : system.contract.tokenIdentifier = (successes history).head?.map .esdt
  announced : announcements history = (successes history).map .esdt
  costs : ∃ used, used.length = (successes history).length ∧
    (paid history).Perm (refunds history ++ used ++ system.pending)

theorem step_call_eq_ok {ctx : CallContext} {call : Call} {system next : System}
    {actions : List Action} (h : system.step (.call ctx call) = .ok (next, actions)) :
    ∃ reply, perform ctx call system.contract = .ok ⟨reply, next.contract, actions⟩ ∧
      next.pending = system.pending ++ issues actions := by
  simp only [System.step, Outcome.bind_eq_ok, Outcome.pure_eq_ok, Prod.mk.injEq] at h
  obtain ⟨⟨reply, contract, trace⟩, hperform, rfl, rfl⟩ := h
  exact ⟨reply, hperform, rfl⟩

theorem step_answer_eq_ok {ctx : CallContext} {index : ℕ} {result : Option TokenIdentifier}
    {system next : System} {actions : List Action}
    (h : system.step (.answer ctx index result) = .ok (next, actions)) :
    ∃ issue, system.pending[index]? = some issue ∧
      next.pending = system.pending.eraseIdx index ∧
      issue.callback ctx result system.contract = .ok ⟨(), next.contract, actions⟩ := by
  simp only [System.step, Outcome.bind_eq_ok, Outcome.orFail_eq_ok, Outcome.pure_eq_ok,
    Prod.mk.injEq] at h
  obtain ⟨issue, hissue, ⟨_, contract, trace⟩, hcallback, rfl, rfl⟩ := h
  exact ⟨issue, hissue, rfl, hcallback⟩

/-- Only an index past the issues in flight is refused. -/
theorem step_answer_eq_error {ctx : CallContext} {index : ℕ} {result : Option TokenIdentifier}
    {system : System} {message : String}
    (h : system.step (.answer ctx index result) = .error message) :
    system.pending[index]? = none := by
  cases hissue : system.pending[index]? with
  | none => rfl
  | some issue =>
    simp only [System.step, hissue, orFail, callback_eq_ok] at h
    cases h

theorem perm_eraseIdx {pending : List Issue} {index : ℕ} {issue : Issue}
    (h : pending[index]? = some issue) : pending.Perm (issue :: pending.eraseIdx index) := by
  obtain ⟨hlt, rfl⟩ := List.getElem?_eq_some_iff.mp h
  exact (List.getElem_cons_eraseIdx_perm hlt).symm

theorem accounts_call {history : History} {system next : System} {ctx : CallContext} {call : Call}
    {actions : List Action} (haccounts : Accounts history system)
    (h : system.step (.call ctx call) = .ok (next, actions)) :
    Accounts (history ++ [⟨.call ctx call, .ok actions⟩]) next := by
  obtain ⟨reply, hperform, hpending⟩ := step_call_eq_ok h
  obtain ⟨hidentifier, hannounced, hissues⟩ := perform_issues hperform
  obtain ⟨used, hlength, hperm⟩ := haccounts.costs
  refine ⟨?_, ?_, used, ?_, ?_⟩
  · simpa [tokenWon, hidentifier] using haccounts.first
  · simpa [tokensNamed, tokenWon, hannounced] using haccounts.announced
  · simpa [tokenWon] using hlength
  · rw [hpending, hissues, ← List.append_assoc, refunds_snoc, paid_snoc]
    simpa [issuesPaid, costsReturned] using hperm.append_right (call.paidIssues ctx)

theorem accounts_answer {history : History} {system next : System} {ctx : CallContext}
    {index : ℕ} {result : Option TokenIdentifier} {actions : List Action}
    (haccounts : Accounts history system)
    (h : system.step (.answer ctx index result) = .ok (next, actions)) :
    Accounts (history ++ [⟨.answer ctx index result, .ok actions⟩]) next := by
  obtain ⟨issue, hissue, hpending, hcallback⟩ := step_answer_eq_ok h
  obtain ⟨used, hlength, hperm⟩ := haccounts.costs
  have hsettled : (paid history).Perm
      (refunds history ++ used ++ (issue :: system.pending.eraseIdx index)) :=
    hperm.trans ((perm_eraseIdx hissue).append_left _)
  rw [callback_eq_ok] at hcallback
  cases result with
  | some token =>
    obtain ⟨-, hcontract, rfl⟩ := Completed.mk.inj (Except.ok.inj hcallback)
    refine ⟨?_, ?_, used ++ [issue], ?_, ?_⟩
    · rw [← hcontract, haccounts.first, successes_snoc, List.head?_append]
      cases (successes history).head? <;> rfl
    · simp [tokensNamed, tokenWon, announced, haccounts.announced]
    · simp [tokenWon, hlength]
    · simpa [hpending, issuesPaid, costsReturned] using hsettled
  | none =>
    obtain ⟨-, hcontract, rfl⟩ := Completed.mk.inj (Except.ok.inj hcallback)
    refine ⟨?_, ?_, used, ?_, ?_⟩
    · simpa [tokenWon, ← hcontract] using haccounts.first
    · simpa [tokensNamed, tokenWon, announced] using haccounts.announced
    · simpa [tokenWon] using hlength
    · rw [hpending, paid_snoc, refunds_snoc]
      refine (by simpa [issuesPaid] using hsettled : (paid history ++ _).Perm _).trans ?_
      simp only [costsReturned, List.append_assoc]
      exact List.perm_middle.append_left _

/-! ## One issue per manager -/

variable {start : System}

theorem accounts_run (hnone : start.contract.tokenIdentifier = none) (hidle : start.pending = [])
    {history : History} {system : System} (hrun : Run machine start history system) :
    Accounts history system := by
  induction hrun with
  | start => exact ⟨hnone, rfl, [], rfl, by simp [paid, refunds, hidle]⟩
  | @completed history system next input actions _ hok ih =>
    cases input with
    | call ctx call => exact accounts_call ih hok
    | answer ctx index result => exact accounts_answer ih hok
  | stopped _ _ ih =>
    refine ⟨?_, ?_, ?_⟩
    · simpa [tokenWon] using ih.first
    · simpa [tokensNamed, tokenWon] using ih.announced
    · simpa [tokenWon, issuesPaid, costsReturned] using ih.costs

/-- One issue is all that ends well; its token is the only one announced and stays
the token of the manager, and the cost of the others comes back. -/
structure IssuedOnce (start : System) (history : History) (system : System) : Prop where
  once : (successes history).length ≤ 1
  named : ∀ token ∈ announcements history, system.contract.tokenIdentifier = some token
  fixed : ∀ before after reached token, history = before ++ after →
    Run machine start before reached → reached.contract.tokenIdentifier = some token →
    system.contract.tokenIdentifier = some token
  returned : ∃ used, used.length = (successes history).length ∧
    (paid history).Perm (refunds history ++ used ++ system.pending)
  answered : ∀ before ctx index result message after reached,
    history = before ++ ⟨.answer ctx index result, .error message⟩ :: after →
    Run machine start before reached → reached.pending[index]? = none

/-- An issue ends well only while the manager has no token. -/
def Fresh (system : System) (input : Input) : Prop :=
  ∀ ctx index token, input = .answer ctx index (some token) →
    index < system.pending.length → system.contract.tokenIdentifier = none

/-- An issue is made only when no other is in flight. -/
def Alone (system : System) (input : Input) : Prop :=
  ∀ ctx minter name symbol decimals initialCaller,
    input = .call ctx (.deployInterchainToken minter name symbol decimals initialCaller) →
    system.pending = []

section

variable (hnone : start.contract.tokenIdentifier = none) (hidle : start.pending = [])
variable {history : History} {system : System} (hrun : Run machine start history system)

include hidle hrun

/-- Issues that wait for each other are at most one in flight, and none when the
manager has a token. -/
theorem alone_inv (hmeets : Run.Meets machine start Alone history) :
    system.pending = [] ∨
      ∃ issue, system.pending = [issue] ∧ system.contract.tokenIdentifier = none := by
  refine hrun.invariant_of_meets (P := fun system => system.pending = [] ∨
    ∃ issue, system.pending = [issue] ∧ system.contract.tokenIdentifier = none)
    (.inl hidle) ?_ hmeets
  intro system input next actions hinv halone hok
  cases input with
  | call ctx call =>
    obtain ⟨reply, hperform, hpending⟩ := step_call_eq_ok hok
    obtain ⟨hidentifier, _, hissues⟩ := perform_issues hperform
    rw [hpending, hissues]
    by_cases hdeploy : ∃ minter name symbol decimals initialCaller,
        call = .deployInterchainToken minter name symbol decimals initialCaller
    · obtain ⟨minter, name, symbol, decimals, initialCaller, rfl⟩ := hdeploy
      have hdeploys := deployInterchainToken_deploys hperform
      rw [halone ctx minter name symbol decimals initialCaller rfl]
      simp only [Call.paidIssues, hdeploys.paid, List.nil_append]
      exact .inr ⟨_, rfl, hdeploys.kept⟩
    · have hnothing : call.paidIssues ctx = [] := by
        cases call with
        | deployInterchainToken minter name symbol decimals initialCaller =>
          exact absurd ⟨minter, name, symbol, decimals, initialCaller, rfl⟩ hdeploy
        | _ => rfl
      simpa [hnothing, hidentifier] using hinv
  | answer ctx index result =>
    obtain ⟨issue, hissue, hpending, _⟩ := step_answer_eq_ok hok
    left
    obtain hempty | ⟨only, honly, _⟩ := hinv
    · simp [hempty] at hissue
    · rw [hpending, honly]
      rw [honly] at hissue
      obtain ⟨hlt, _⟩ := List.getElem?_eq_some_iff.mp hissue
      obtain rfl : index = 0 := by simpa using hlt
      rfl

theorem fresh_of_alone (hmeets : Run.Meets machine start Alone history) :
    Run.Meets machine start Fresh history := by
  rintro before entry after reached rfl hreached ctx index token hinput hlt
  clear hrun
  obtain hempty | ⟨issue, _, hfree⟩ := alone_inv hidle hreached hmeets.of_append
  · simp [hempty] at hlt
  · exact hfree

include hnone

theorem issuedOnce_of_once (honce : (successes history).length ≤ 1) :
    IssuedOnce start history system := by
  have haccounts := accounts_run hnone hidle hrun
  refine ⟨honce, ?_, ?_, haccounts.costs, ?_⟩
  · intro token htoken
    rw [haccounts.announced] at htoken
    rw [haccounts.first]
    cases hwon : successes history with
    | nil => simp [hwon] at htoken
    | cons first rest =>
      obtain rfl : rest = [] := by simpa [hwon] using honce
      simpa [hwon, eq_comm] using htoken
  · rintro before after reached token rfl hreached htoken
    rw [(accounts_run hnone hidle hreached).first] at htoken
    rw [haccounts.first, successes, List.flatMap_append, List.head?_append]
    cases hhead : (successes before).head? with
    | none => simp [hhead] at htoken
    | some first =>
      rw [hhead] at htoken
      simp only [successes] at hhead
      simpa [hhead] using htoken
  · rintro before ctx index result message after reached rfl hreached
    exact step_answer_eq_error (hrun.refused_at hreached)

/-- While only fresh answers come, at most one issue ends well. -/
theorem once_of_fresh (hmeets : Run.Meets machine start Fresh history) :
    (successes history).length ≤ 1 := by
  induction hrun with
  | start => simp [successes]
  | @completed history system next input actions hbefore hok ih =>
    rw [successes_snoc]
    cases input with
    | call ctx call => simpa [tokenWon] using ih hmeets.of_append
    | answer ctx index result =>
      cases result with
      | none => simpa [tokenWon] using ih hmeets.of_append
      | some token =>
        obtain ⟨issue, hissue, _⟩ := step_answer_eq_ok hok
        have hlt : index < system.pending.length := (List.getElem?_eq_some_iff.mp hissue).1
        have hfree := hmeets _ _ [] _ rfl hbefore ctx index token rfl hlt
        rw [(accounts_run hnone hidle hbefore).first] at hfree
        have hempty : successes history = [] := by simpa using hfree
        simp [hempty, tokenWon]
  | stopped _ _ ih =>
    rw [successes_snoc]
    simpa [tokenWon] using ih hmeets.of_append

/-- A second answer that ends well is a second success. -/
theorem fresh_of_once (honce : (successes history).length ≤ 1) :
    Run.Meets machine start Fresh history := by
  rintro before ⟨input, result⟩ after reached rfl hreached ctx index token rfl hlt
  have hwon : tokenWon ⟨.answer ctx index (some token), result⟩ = [token] := by
    cases result with
    | ok actions => rfl
    | error message =>
      have hrefused := step_answer_eq_error (hrun.refused_at hreached)
      exact absurd (List.getElem?_eq_none_iff.mp hrefused) (by omega)
  have hempty : successes before = [] := by
    simp only [successes, List.flatMap_append, List.flatMap_cons, hwon, List.length_append,
      List.length_singleton] at honce
    exact List.length_eq_zero_iff.mp (by simp only [successes]; omega)
  rw [(accounts_run hnone hidle hreached).first, hempty]
  rfl

end

/-- A manager has one issue that ends well when no issue is made while another is in flight,
and exactly when no answer brings a token to a manager that has one. -/
theorem issuedOnce {service : Address} {tokenId : Hash} {params : DeployTokenManagerParams}
    {initial : Completed State Action Unit}
    (hinit : init service .nativeInterchainToken tokenId params .blank = .ok initial)
    {history : History} {system : System}
    (hrun : Run machine ⟨initial.state, []⟩ history system) :
    (Run.Meets machine ⟨initial.state, []⟩ Alone history →
      IssuedOnce ⟨initial.state, []⟩ history system) ∧
    (IssuedOnce ⟨initial.state, []⟩ history system ↔
      Run.Meets machine ⟨initial.state, []⟩ Fresh history) := by
  have hinitialised := init_initialised hinit
  have hnone : initial.state.tokenIdentifier = none :=
    hinitialised.tokenIdentifier.trans hinitialised.admits
  have hfresh : Run.Meets machine ⟨initial.state, []⟩ Fresh history →
      IssuedOnce ⟨initial.state, []⟩ history system := fun hmeets =>
    issuedOnce_of_once hnone rfl hrun (once_of_fresh hnone rfl hrun hmeets)
  exact ⟨fun hmeets => hfresh (fresh_of_alone rfl hrun hmeets),
    fun hissued => fresh_of_once hnone rfl hrun hissued.once, hfresh⟩

/-! ## Two issues in flight -/

def sampleService : Address := sampleAddress 1

def sampleTokenId : Hash := NestedCodec.writeNat 32 7

def sampleParams : DeployTokenManagerParams where
  operator := some (sampleAddress 2)
  tokenIdentifier := none

def sampleName : ManagedBuffer := sampleBuffer (Bytes.ascii ['T', 'o', 'k', 'e', 'n'])

def sampleSymbol : ManagedBuffer := sampleBuffer (Bytes.ascii ['T', 'K', 'N'])

/-- The service has the manager issue its token, for some user. -/
def sampleDeploy (user : UInt8) : Input :=
  .call ⟨sampleService, sampleAddress 3, sampleService, 0, .egld DEFAULT_ESDT_ISSUE_COST, 0⟩
    (.deployInterchainToken none sampleName sampleSymbol 18 (some (sampleAddress user)))

def sampleAnswer (token : Option TokenIdentifier) : Input :=
  .answer ⟨sampleAddress 4, sampleAddress 3, sampleService, 0, .egld 0, 0⟩ 0 token

def sampleFirst : TokenIdentifier := sampleBuffer (Bytes.ascii ['T', 'K', 'N', '-', '1'])

def sampleSecond : TokenIdentifier := sampleBuffer (Bytes.ascii ['T', 'K', 'N', '-', '2'])

/-- What the machine says to some inputs: the successes, the tokens that were
announced, and the token of the manager. -/
def sampleOutcome (inputs : List Input) :
    Outcome (List TokenIdentifier × List EgldOrEsdtTokenIdentifier ×
      Option EgldOrEsdtTokenIdentifier) := do
  let initial ← init sampleService .nativeInterchainToken sampleTokenId sampleParams .blank
  let (history, system) := machine.replay ⟨initial.state, []⟩ inputs
  return (successes history, announcements history, system.contract.tokenIdentifier)

theorem sampleOutcome_run {inputs : List Input} {won : List TokenIdentifier}
    {named : List EgldOrEsdtTokenIdentifier} {token : Option EgldOrEsdtTokenIdentifier}
    (h : sampleOutcome inputs = .ok (won, named, token)) :
    ∃ initial history system,
      init sampleService .nativeInterchainToken sampleTokenId sampleParams .blank = .ok initial ∧
      Run machine ⟨initial.state, []⟩ history system ∧ history.map Entry.input = inputs ∧
      successes history = won ∧ announcements history = named ∧
      system.contract.tokenIdentifier = token := by
  simp only [sampleOutcome, Outcome.bind_eq_ok, Outcome.pure_eq_ok, Prod.mk.injEq] at h
  obtain ⟨initial, hinit, hwon, hnamed, htoken⟩ := h
  exact ⟨initial, _, _, hinit, machine.run_replay _ _, machine.replay_inputs _ _, hwon, hnamed,
    htoken⟩

/-- Two issues in flight that both end well: the second token is announced, and is
not the token of the manager. -/
theorem sample_twoIssues : ∃ initial history system,
    init sampleService .nativeInterchainToken sampleTokenId sampleParams .blank = .ok initial ∧
    Run machine ⟨initial.state, []⟩ history system ∧
    history.map Entry.input = [sampleDeploy 5, sampleDeploy 6, sampleAnswer (some sampleFirst),
      sampleAnswer (some sampleSecond)] ∧
    successes history = [sampleFirst, sampleSecond] ∧
    .esdt sampleSecond ∈ announcements history ∧
    system.contract.tokenIdentifier = some (.esdt sampleFirst) ∧
    ¬ IssuedOnce ⟨initial.state, []⟩ history system := by
  have houtcome : sampleOutcome [sampleDeploy 5, sampleDeploy 6, sampleAnswer (some sampleFirst),
      sampleAnswer (some sampleSecond)] = .ok ([sampleFirst, sampleSecond],
        [.esdt sampleFirst, .esdt sampleSecond], some (.esdt sampleFirst)) := by
    decide +kernel
  obtain ⟨initial, history, system, hinit, hrun, hinputs, hwon, hnamed, htoken⟩ :=
    sampleOutcome_run houtcome
  refine ⟨initial, history, system, hinit, hrun, hinputs, hwon, by simp [hnamed], htoken, ?_⟩
  intro hissued
  have honce := hissued.once
  rw [hwon] at honce
  exact absurd honce (by decide)

/-- One issue at a time, of which the first fails. -/
theorem sample_issuedOnce : ∃ initial history system,
    init sampleService .nativeInterchainToken sampleTokenId sampleParams .blank = .ok initial ∧
    Run machine ⟨initial.state, []⟩ history system ∧
    successes history = [sampleFirst] ∧
    Run.Meets machine ⟨initial.state, []⟩ Fresh history := by
  have houtcome : sampleOutcome [sampleDeploy 5, sampleAnswer none, sampleDeploy 6,
      sampleAnswer (some sampleFirst)] =
        .ok ([sampleFirst], [.esdt sampleFirst], some (.esdt sampleFirst)) := by
    decide +kernel
  obtain ⟨initial, history, system, hinit, hrun, _, hwon, hnamed, htoken⟩ :=
    sampleOutcome_run houtcome
  have hissued : IssuedOnce ⟨initial.state, []⟩ history system :=
    issuedOnce_of_once ((init_initialised hinit).tokenIdentifier.trans rfl) rfl hrun
      (by rw [hwon]; decide)
  exact ⟨initial, history, system, hinit, hrun, hwon, (issuedOnce hinit hrun).2.mp hissued⟩

end AxelarCgp.TokenManager
