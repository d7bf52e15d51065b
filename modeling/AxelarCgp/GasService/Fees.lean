import AxelarCgp.GasService.Contract

/-!
# Collecting fees

The loop of `collect_fees` reads the balance anew for every entry, after what the earlier
entries sent.  So an entry is sent exactly when what they left covers it, and the contract
never sends more of an asset than it had.  Only the collector makes its balance fall.
-/

namespace AxelarCgp.GasService

open Machine Transaction

/-- A token and the amount to collect of it. -/
abbrev Fee := EgldOrEsdtTokenIdentifier × ℕ

def feeAsset (fee : Fee) : Asset := fee.1.asset 0

def feeTotal (sent : List Fee) (asset : Asset) : ℕ :=
  Purse.total (sent.map fun fee => (feeAsset fee, fee.2)) asset

/-- The fees that carry a mark. -/
def marked (fees : List Fee) (marks : List Bool) : List Fee :=
  ((fees.zip marks).filter Prod.snd).map Prod.fst

/-- What an account owns once `sent` went from the contract to the receiver; what the
contract sends to itself it keeps. -/
def balanceAfter (address : Address) (system : System) (receiver : Address) (sent : List Fee)
    (account : Address) (asset : Asset) : ℕ :=
  if receiver = address then
    system.ledger.balance account asset
  else if account = address then
    system.ledger.balance account asset - feeTotal sent asset
  else if account = receiver then
    system.ledger.balance account asset + feeTotal sent asset
  else
    system.ledger.balance account asset

/-- The marked fees were sent, and exactly those that what was left covered are marked. -/
structure Collected (address : Address) (system : System) (receiver : Address)
    (fees : List Fee) (marks : List Bool) (next : System) : Prop where
  length : marks.length = fees.length
  marked_iff : ∀ index fee, fees[index]? = some fee →
    (marks[index]? = some true ↔ fee.2 ≤ balanceAfter address system receiver
      (marked (fees.take index) (marks.take index)) address (feeAsset fee))
  balances : ∀ account asset, next.ledger.balance account asset =
    balanceAfter address system receiver (marked fees marks) account asset
  /-- Others are never sent more than there was. -/
  covered : receiver ≠ address → ∀ asset,
    feeTotal (marked fees marks) asset ≤ system.ledger.balance address asset
  collector : next.gasCollector = system.gasCollector

section Sending

variable {ctx : CallContext} {address receiver account : Address} {system next : System}
variable {fee : Fee} {fees sent : List Fee}
variable {asset : Asset} {trace : List Action}

@[simp]
theorem feeTotal_nil : feeTotal [] asset = 0 := rfl

@[simp]
theorem feeTotal_cons : feeTotal (fee :: sent) asset =
    (if feeAsset fee = asset then fee.2 else 0) + feeTotal sent asset :=
  Purse.total_cons _ _ _

@[simp]
theorem balanceAfter_nil :
    balanceAfter address system receiver [] account asset =
      system.ledger.balance account asset := by
  simp [balanceAfter]

/-- The balances after one fee more are the balances after sending it first. -/
theorem balanceAfter_transfer {ledger : Ledger Address Asset}
    (h : system.ledger.transfer address receiver (feeAsset fee) fee.2 = .ok ledger) :
    balanceAfter address { system with ledger } receiver sent account asset =
      balanceAfter address system receiver (fee :: sent) account asset := by
  obtain ⟨henough, hbalance, _⟩ := Ledger.transfer_eq_ok h
  simp only [balanceAfter, feeTotal_cons, hbalance, Ledger.single]
  by_cases hasset : feeAsset fee = asset
  · subst hasset
    by_cases hreceiver : receiver = address
    · by_cases haccount : account = address
      · subst haccount
        simp [hreceiver, henough]
      · simp [hreceiver, haccount]
    · by_cases haccount : account = address
      · have hother : account ≠ receiver := fun heq => hreceiver (heq.symm.trans haccount)
        simp [hreceiver, haccount, Ne.symm hreceiver, Nat.sub_sub]
      · simp [hreceiver, haccount]
        split <;> omega
  · have hne : asset ≠ feeAsset fee := Ne.symm hasset
    simp [hasset, hne]

theorem transfer_eq_ok {sender : Address} {amount : ℕ} {value : Unit} :
    transfer sender receiver asset amount system = .ok ⟨value, next, trace⟩ ↔
      ∃ ledger, system.ledger.transfer sender receiver asset amount = .ok ledger ∧
        next = { system with ledger } ∧ trace = [] :=
  replaces_eq_ok

theorem direct_eq_ok {value : Unit} :
    direct ctx receiver fee.1 fee.2 system = .ok ⟨value, next, trace⟩ ↔
      ∃ ledger, system.ledger.transfer ctx.scAddress receiver (feeAsset fee) fee.2 =
        .ok ledger ∧ next = { system with ledger } ∧ trace = [.send receiver fee.1 fee.2] := by
  simp only [direct, Transaction.bind_eq_ok, transfer_eq_ok, performs_eq_ok]
  constructor
  · rintro ⟨_, _, _, _, ⟨ledger, hledger, rfl, rfl⟩, ⟨rfl, rfl⟩, rfl⟩
    exact ⟨ledger, hledger, rfl, rfl⟩
  · rintro ⟨ledger, hledger, rfl, rfl⟩
    exact ⟨(), _, _, _, ⟨ledger, hledger, rfl, rfl⟩, ⟨rfl, rfl⟩, rfl⟩

/-- An entry is sent, or it is skipped; one of nothing stops the call. -/
theorem collectFee_eq_ok : collectFee ctx receiver fee system = .ok ⟨(), next, trace⟩ ↔
    0 < fee.2 ∧
    ((∃ ledger, system.ledger.transfer ctx.scAddress receiver (feeAsset fee) fee.2 =
        .ok ledger ∧ next = { system with ledger } ∧ trace = [.send receiver fee.1 fee.2]) ∨
      (system.ledger.balance ctx.scAddress (feeAsset fee) < fee.2 ∧ next = system ∧
        trace = [])) := by
  by_cases hpositive : 0 < fee.2
  · have hpasses : require (fee.2 > 0) "Invalid amounts" = .ok () := if_pos hpositive
    have hloop : collectFee ctx receiver fee system =
        (if fee.2 ≤ system.ledger.balance ctx.scAddress (feeAsset fee) then
          direct ctx receiver fee.1 fee.2 else pure () : Tx Unit) system := by
      have hbind : collectFee ctx receiver fee = (do
          require (fee.2 > 0) "Invalid amounts"
          let balance ← reads fun system =>
            system.ledger.balance ctx.scAddress (fee.1.asset 0)
          if fee.2 ≤ balance then
            direct ctx receiver fee.1 fee.2) := rfl
      rw [hbind, hpasses, lift_ok_bind, reads_bind]
      rfl
    rw [hloop]
    by_cases henough : fee.2 ≤ system.ledger.balance ctx.scAddress (feeAsset fee)
    · rw [if_pos henough, direct_eq_ok]
      simp [hpositive, henough.not_gt]
    · have hnone : ¬ ∃ ledger, system.ledger.transfer ctx.scAddress receiver (feeAsset fee)
          fee.2 = .ok ledger := by
        rintro ⟨ledger, hledger⟩
        exact henough (Ledger.transfer_eq_ok hledger).1
      rw [if_neg henough, Transaction.pure_eq_ok]
      push Not at hnone
      simp [hpositive, hnone, not_le.mp henough, eq_comm]
  · constructor
    · intro h
      obtain ⟨_, _, _, _, hfirst, _⟩ := Transaction.bind_eq_ok.mp h
      exact absurd (Outcome.require_eq_ok.mp (lift_eq_ok.mp hfirst).1) hpositive
    · intro h
      exact absurd h.1 hpositive

/-! ## The loop -/

theorem Collected.cons_sent {ledger : Ledger Address Asset} {marks : List Bool}
    (henough : fee.2 ≤ system.ledger.balance ctx.scAddress (feeAsset fee))
    (hledger : system.ledger.transfer ctx.scAddress receiver (feeAsset fee) fee.2 = .ok ledger)
    (h : Collected ctx.scAddress { system with ledger } receiver fees marks next) :
    Collected ctx.scAddress system receiver (fee :: fees) (true :: marks) next where
  length := congrArg Nat.succ h.length
  marked_iff index other hother := by
    cases index with
    | zero =>
        obtain rfl := Option.some.inj hother
        simpa [marked] using henough
    | succ index =>
        have hmarked := h.marked_iff index other hother
        rw [balanceAfter_transfer hledger] at hmarked
        exact hmarked
  balances account asset := by
    rw [h.balances, balanceAfter_transfer hledger]
    rfl
  covered hreceiver asset := by
    have hrest := h.covered hreceiver asset
    obtain ⟨_, hbalance, _⟩ := Ledger.transfer_eq_ok hledger
    dsimp only at hrest
    rw [hbalance, Ledger.single_of_account_ne (Ne.symm hreceiver)] at hrest
    change feeTotal (fee :: marked fees marks) asset ≤ _
    rw [feeTotal_cons]
    by_cases hasset : feeAsset fee = asset
    · subst hasset
      rw [Ledger.single_self] at hrest
      rw [if_pos rfl]
      omega
    · rw [Ledger.single_of_asset_ne (Ne.symm hasset)] at hrest
      rw [if_neg hasset]
      omega
  collector := h.collector

theorem Collected.cons_skipped {marks : List Bool}
    (hlack : ¬ fee.2 ≤ system.ledger.balance ctx.scAddress (feeAsset fee))
    (h : Collected ctx.scAddress system receiver fees marks next) :
    Collected ctx.scAddress system receiver (fee :: fees) (false :: marks) next where
  length := congrArg Nat.succ h.length
  marked_iff index other hother := by
    cases index with
    | zero =>
        obtain rfl := Option.some.inj hother
        simpa [marked] using hlack
    | succ index => exact h.marked_iff index other hother
  balances := h.balances
  covered := h.covered
  collector := h.collector

/-- The loop over positive amounts completes, and what it did is `Collected`. -/
theorem collectFees_loop (hpositive : ∀ fee ∈ fees, 0 < fee.2) :
    ∃ next marks, forEach (collectFee ctx receiver) fees system =
        .ok ⟨(), next, (marked fees marks).map fun fee => .send receiver fee.1 fee.2⟩ ∧
      Collected ctx.scAddress system receiver fees marks next := by
  induction fees generalizing system with
  | nil =>
      refine ⟨system, [], rfl, rfl, by simp, fun account asset => balanceAfter_nil.symm, ?_, rfl⟩
      exact fun _ _ => Nat.zero_le _
  | cons fee fees ih =>
      rw [List.forall_mem_cons] at hpositive
      by_cases henough : fee.2 ≤ system.ledger.balance ctx.scAddress (feeAsset fee)
      · obtain ⟨ledger, hledger⟩ : ∃ ledger, system.ledger.transfer ctx.scAddress receiver
            (feeAsset fee) fee.2 = .ok ledger := Ledger.transfer_isOk henough
        obtain ⟨next, marks, hloop, hcollected⟩ := @ih { system with ledger } hpositive.2
        have hfee := collectFee_eq_ok.mpr ⟨hpositive.1, .inl ⟨ledger, hledger, rfl, rfl⟩⟩
        refine ⟨next, true :: marks, Transaction.bind_eq_ok.mpr ⟨_, _, _, _, hfee, hloop, ?_⟩,
          hcollected.cons_sent henough hledger⟩
        simp [marked]
      · obtain ⟨next, marks, hloop, hcollected⟩ := @ih system hpositive.2
        have hfee : collectFee ctx receiver fee system = .ok ⟨(), system, []⟩ :=
          collectFee_eq_ok.mpr ⟨hpositive.1, .inr ⟨not_le.mp henough, rfl, rfl⟩⟩
        refine ⟨next, false :: marks, Transaction.bind_eq_ok.mpr ⟨_, _, _, _, hfee, hloop, ?_⟩,
          hcollected.cons_skipped henough⟩
        simp [marked]

theorem Collected.untouched {marks : List Bool}
    (h : Collected address system receiver fees marks next)
    (hasset : asset ∉ fees.map feeAsset) (account : Address) :
    next.ledger.balance account asset = system.ledger.balance account asset := by
  have hnone : ∀ entry ∈ (marked fees marks).map (fun fee => (feeAsset fee, fee.2)),
      entry.1 ≠ asset := by
    intro entry hentry heq
    obtain ⟨fee, hfee, rfl⟩ := List.mem_map.mp hentry
    obtain ⟨pair, hpair, rfl⟩ := List.mem_map.mp hfee
    have hmem := (List.of_mem_zip (List.mem_of_mem_filter hpair)).1
    exact hasset (heq ▸ List.mem_map_of_mem hmem)
  have htotal : feeTotal (marked fees marks) asset = 0 := by
    rw [feeTotal, Purse.total, List.filter_eq_nil_iff.mpr]
    · rfl
    · simpa using hnone
  rw [h.balances, balanceAfter, htotal]
  simp

/-- A loop that completes met no entry of nothing. -/
theorem positive_of_collectFees_loop {done : Completed System Action Unit}
    (h : forEach (collectFee ctx receiver) fees system = .ok done) : ∀ fee ∈ fees, 0 < fee.2 := by
  induction fees generalizing system done with
  | nil => simp
  | cons fee fees ih =>
      obtain ⟨_, _, _⟩ := done
      obtain ⟨_, _, _, _, hfee, hrest, _⟩ := Transaction.bind_eq_ok.mp h
      exact List.forall_mem_cons.mpr ⟨(collectFee_eq_ok.mp hfee).1, ih hrest⟩

end Sending

/-! ## Calls of the collector -/

section Calls

variable {crypto : Crypto} {ctx : CallContext} {system next : System} {trace : List Action}
variable {receiver : Address}

theorem requireOnlyCollector_eq_ok {value : Unit} :
    requireOnlyCollector ctx system = .ok ⟨value, next, trace⟩ ↔
      system.gasCollector = some ctx.caller ∧ next = system ∧ trace = [] := by
  simp only [requireOnlyCollector, Transaction.bind_eq_ok, reads_eq_ok, lift_eq_ok,
    Outcome.orFail_eq_ok, Outcome.require_eq_ok]
  constructor
  · rintro ⟨_, _, _, _, ⟨rfl, rfl, rfl⟩, ⟨_, _, _, _, ⟨hcollector, rfl, rfl⟩, ⟨rfl, rfl, rfl⟩, rfl⟩,
      rfl⟩
    exact ⟨hcollector, rfl, rfl⟩
  · rintro ⟨hcollector, rfl, rfl⟩
    exact ⟨_, _, _, _, ⟨rfl, rfl, rfl⟩, ⟨_, _, _, _, ⟨hcollector, rfl, rfl⟩, ⟨rfl, rfl, rfl⟩, rfl⟩,
      rfl⟩

theorem collectFees_eq_ok {tokens : List EgldOrEsdtTokenIdentifier} {amounts : List ℕ} :
    collectFees ctx receiver tokens amounts system = .ok ⟨(), next, trace⟩ ↔
      system.gasCollector = some ctx.caller ∧ ¬ receiver.isZero ∧
      tokens.length = amounts.length ∧
      forEach (collectFee ctx receiver) (tokens.zip amounts) system = .ok ⟨(), next, trace⟩ := by
  simp only [collectFees, Transaction.bind_eq_ok, requireOnlyCollector_eq_ok, lift_eq_ok,
    Outcome.require_eq_ok]
  constructor
  · rintro ⟨_, _, _, _, ⟨hcollector, rfl, rfl⟩, ⟨_, _, _, _, ⟨hreceiver, rfl, rfl⟩,
      ⟨_, _, _, _, ⟨hlength, rfl, rfl⟩, hloop, rfl⟩, rfl⟩, rfl⟩
    exact ⟨hcollector, hreceiver, hlength, hloop⟩
  · rintro ⟨hcollector, hreceiver, hlength, hloop⟩
    exact ⟨(), _, _, _, ⟨hcollector, rfl, rfl⟩, ⟨(), _, _, _, ⟨hreceiver, rfl, rfl⟩,
      ⟨(), _, _, _, ⟨hlength, rfl, rfl⟩, hloop, rfl⟩, rfl⟩, rfl⟩

theorem pay_of_none (h : ctx.callValue = .none) : pay ctx system = .ok ⟨(), system, []⟩ := by
  rw [pay, h]
  refine Transaction.bind_eq_ok.mpr ⟨(), system, [], [], ?_, rfl, rfl⟩
  exact transfer_eq_ok.mpr ⟨system.ledger, Ledger.transfer_zero _ _ _ _, rfl, rfl⟩

/-- A call that takes no payment brought none, and did what its endpoint does. -/
theorem unpaid_eq_ok {x : Tx Unit} : (do pay ctx; unpaid ctx x : Tx Unit) system =
      .ok ⟨(), next, trace⟩ ↔
    ctx.callValue = .none ∧ x system = .ok ⟨(), next, trace⟩ := by
  constructor
  · intro h
    obtain ⟨_, middle, first, second, hpay, hrest, rfl⟩ := Transaction.bind_eq_ok.mp h
    obtain ⟨_, _, _, _, hguard, hx, rfl⟩ := Transaction.bind_eq_ok.mp hrest
    obtain ⟨hunpaid, rfl, rfl⟩ := lift_eq_ok.mp hguard
    have hnone : ctx.callValue = .none := Outcome.require_eq_ok.mp hunpaid
    rw [pay_of_none hnone] at hpay
    cases hpay
    exact ⟨hnone, hx⟩
  · rintro ⟨hnone, hx⟩
    refine Transaction.bind_eq_ok.mpr ⟨(), system, [], trace, pay_of_none hnone, ?_, rfl⟩
    refine Transaction.bind_eq_ok.mpr ⟨(), system, [], trace, ?_, hx, rfl⟩
    exact lift_eq_ok.mpr ⟨Outcome.require_eq_ok.mpr hnone, rfl, rfl⟩

end Calls

/-! ## What the contract owns -/

/-- An address owns no less. -/
def Keeps (address : Address) (system : System) (_ : List Action) (last : System) : Prop :=
  ∀ asset, system.ledger.balance address asset ≤ last.ledger.balance address asset

theorem Keeps.trans {address : Address} {system middle last : System}
    {first second : List Action} (hfirst : Keeps address system first middle)
    (hsecond : Keeps address middle second last) :
    Keeps address system (first ++ second) last :=
  fun asset => (hfirst asset).trans (hsecond asset)

theorem keeps_composes (address : Address) : Composes fun _ : ℕ => Keeps address where
  nil _ _ := le_rfl
  append := Keeps.trans
  mono _ h := h

section Keeping

variable {crypto : Crypto} {address : Address}

/-- A transfer takes nothing from the contract, unless it is the contract that sends. -/
theorem keeps_transfer {sender receiver : Address} {asset : Asset} {amount : ℕ}
    (h : sender = address → receiver = address) :
    Satisfies (Keeps address) (transfer sender receiver asset amount) := by
  intro system value last trace hok
  obtain ⟨ledger, hledger, rfl, rfl⟩ := transfer_eq_ok.mp hok
  obtain ⟨henough, hbalance, _⟩ := Ledger.transfer_eq_ok hledger
  intro other
  dsimp only
  rw [hbalance]
  by_cases hsender : sender = address
  · obtain rfl := hsender
    rw [h rfl]
    by_cases hasset : other = asset
    · subst hasset
      rw [Ledger.single_self]
      omega
    · rw [Ledger.single_of_asset_ne hasset]
      omega
  · rw [Ledger.single_of_account_ne (Ne.symm hsender)]
    omega

theorem keeps_announce {A : Type} {event : A → Event} {paid : Outcome A} :
    Satisfies (Keeps address) (announce event paid) :=
  .lift_bind fun _ _ => .performs fun _ _ => le_rfl

theorem keeps_setGasCollector {ctx : CallContext} {gasCollector : Address} :
    Satisfies (Keeps address) (unpaid ctx (setGasCollector ctx gasCollector)) := by
  apply Satisfies.lift_bind
  intro _ _
  refine .inspect_bind (.reads _) fun collector => .lift_bind fun _ _ => .lift_bind fun _ _ => ?_
  exact .modifies fun _ _ => le_rfl

/-- The payment of a call takes nothing from the contract. -/
theorem keeps_pay {ctx : CallContext} : Satisfies (Keeps ctx.scAddress) (pay ctx) :=
  .forEach (keeps_composes ctx.scAddress) (fun _ => keeps_transfer fun _ => rfl) _

/-- Whoever makes the balance fall is the collector, who collects or refunds. -/
structure ByCollector (system : System) (input : Input) : Prop where
  collector : ∃ ctx call, input = .call ctx call ∧ system.gasCollector = some ctx.caller ∧
    ((∃ receiver tokens amounts, call = .collectFees receiver tokens amounts) ∨
      ∃ txHash logIndex receiver token amount,
        call = .refund txHash logIndex receiver token amount)

theorem perform_keeps {ctx : CallContext} {call : Call} {system next : System}
    {trace : List Action} (hok : perform crypto ctx call system = .ok ⟨(), next, trace⟩) :
    ByCollector system (.call ctx call) ∨ Keeps ctx.scAddress system trace next := by
  have hkeeps : ∀ x : Tx Unit, Satisfies (Keeps ctx.scAddress) x →
      (do pay ctx; x : Tx Unit) system = .ok ⟨(), next, trace⟩ →
      Keeps ctx.scAddress system trace next := by
    intro x hx h
    obtain ⟨_, middle, first, second, hpay, hrest, rfl⟩ := Transaction.bind_eq_ok.mp h
    exact (keeps_pay _ _ _ _ hpay).trans (hx _ _ _ _ hrest)
  cases call with
  | collectFees receiver tokens amounts =>
      obtain ⟨_, hcollect⟩ := unpaid_eq_ok.mp hok
      have hcollector := (collectFees_eq_ok.mp hcollect).1
      exact .inl ⟨ctx, _, rfl, hcollector, .inl ⟨_, _, _, rfl⟩⟩
  | refund txHash logIndex receiver token amount =>
      obtain ⟨_, hrefund⟩ := unpaid_eq_ok.mp hok
      obtain ⟨_, _, _, _, hguard, _⟩ := Transaction.bind_eq_ok.mp hrefund
      have hcollector := (requireOnlyCollector_eq_ok.mp hguard).1
      exact .inl ⟨ctx, _, rfl, hcollector, .inr ⟨_, _, _, _, _, rfl⟩⟩
  | upgrade =>
      exact .inr (hkeeps _ (.lift_bind fun _ _ => .pure (keeps_composes _) ()) hok)
  | setGasCollector gasCollector => exact .inr (hkeeps _ keeps_setGasCollector hok)
  | _ => exact .inr (hkeeps _ keeps_announce hok)

/-- A step makes the balance of the contract fall only where the collector asks for it. -/
theorem step_keeps {input : Input} {system next : System} {trace : List Action}
    (hok : (machine crypto address).step system input = .ok (next, trace)) :
    ByCollector system input ∨ Keeps address system trace next := by
  obtain ⟨⟨_, last, actions⟩, hperform, hdone⟩ := Outcome.bind_eq_ok.mp hok
  obtain ⟨rfl, rfl⟩ := Prod.mk.inj (Outcome.pure_eq_ok.mp hdone)
  cases input with
  | call ctx call =>
      obtain ⟨_, _, _, _, hguard, hcall, rfl⟩ := Transaction.bind_eq_ok.mp hperform
      obtain ⟨hhere, rfl, rfl⟩ := lift_eq_ok.mp hguard
      obtain rfl : ctx.scAddress = address := Outcome.require_eq_ok.mp hhere
      exact perform_keeps hcall
  | transfer sender receiver asset amount =>
      obtain ⟨_, _, _, _, hguard, htransfer, rfl⟩ := Transaction.bind_eq_ok.mp hperform
      obtain ⟨hother, rfl, rfl⟩ := lift_eq_ok.mp hguard
      have hsender : sender ≠ address := Outcome.require_eq_ok.mp hother
      exact .inr (keeps_transfer (fun heq => absurd heq hsender) _ _ _ _ htransfer)
  | mint receiver asset amount =>
      rw [Input.perform, modifies_eq_ok] at hperform
      obtain ⟨rfl, rfl⟩ := hperform
      refine .inr fun other => ?_
      rw [Ledger.balance_mint]
      exact Nat.le_add_right _ _
  | burn holder asset amount =>
      obtain ⟨_, _, _, _, hguard, hrest, rfl⟩ := Transaction.bind_eq_ok.mp hperform
      obtain ⟨hother, rfl, rfl⟩ := lift_eq_ok.mp hguard
      have hholder : holder ≠ address := Outcome.require_eq_ok.mp hother
      rw [reads_bind] at hrest
      obtain ⟨ledger, _, _, _, hburn, hmodifies, rfl⟩ := Transaction.bind_eq_ok.mp hrest
      obtain ⟨hledger, rfl, rfl⟩ := lift_eq_ok.mp hburn
      obtain ⟨rfl, rfl⟩ := modifies_eq_ok.mp hmodifies
      obtain ⟨_, hbalance, _⟩ := Ledger.burn_eq_ok hledger
      refine .inr fun other => ?_
      dsimp only
      rw [hbalance, Ledger.single_of_account_ne (Ne.symm hholder)]
      exact le_rfl

end Keeping

/-! ## Fee collection -/

/-- What holds of collecting fees from a state, and of every run from it. -/
structure FeeCollection (crypto : Crypto) (system : System) : Prop where
  collects : ∀ (ctx : CallContext) (receiver : Address)
    (tokens : List EgldOrEsdtTokenIdentifier) (amounts : List ℕ),
    ctx.callValue = .none → system.gasCollector = some ctx.caller → ¬ receiver.isZero →
    tokens.length = amounts.length → (∀ amount ∈ amounts, 0 < amount) →
    ∃ next marks, perform crypto ctx (.collectFees receiver tokens amounts) system =
        .ok ⟨(), next,
          (marked (tokens.zip amounts) marks).map fun fee => .send receiver fee.1 fee.2⟩ ∧
      Collected ctx.scAddress system receiver (tokens.zip amounts) marks next
  untouched : ∀ address receiver fees marks next asset account,
    Collected address system receiver fees marks next → asset ∉ fees.map feeAsset →
    next.ledger.balance account asset = system.ledger.balance account asset
  refused : ∀ (ctx : CallContext) (receiver : Address)
    (tokens : List EgldOrEsdtTokenIdentifier) (amounts : List ℕ),
    system.gasCollector ≠ some ctx.caller ∨ tokens.length ≠ amounts.length ∨
      receiver.isZero ∨ 0 ∈ amounts →
    ∃ message, perform crypto ctx (.collectFees receiver tokens amounts) system =
      .error message
  /-- Only the collector of the moment makes a balance fall, by collecting or refunding. -/
  decreases : ∀ address history reached input next trace asset,
    Run (machine crypto address) system history reached →
    (machine crypto address).step reached input = .ok (next, trace) →
    next.ledger.balance address asset < reached.ledger.balance address asset →
    ByCollector reached input

theorem feeCollection (crypto : Crypto) (system : System) : FeeCollection crypto system where
  collects := by
    intro ctx receiver tokens amounts hvalue hcollector hreceiver hlength hpositive
    have hfees : ∀ fee ∈ tokens.zip amounts, 0 < fee.2 :=
      fun fee hfee => hpositive fee.2 (List.of_mem_zip hfee).2
    obtain ⟨next, marks, hloop, hcollected⟩ := collectFees_loop hfees
    have hcollects := collectFees_eq_ok.mpr ⟨hcollector, hreceiver, hlength, hloop⟩
    exact ⟨next, marks, unpaid_eq_ok.mpr ⟨hvalue, hcollects⟩, hcollected⟩
  untouched := fun address receiver fees marks next asset account hcollected hasset =>
    hcollected.untouched hasset account
  refused := by
    intro ctx receiver tokens amounts hwrong
    cases hperform : perform crypto ctx (.collectFees receiver tokens amounts) system with
    | error message => exact ⟨message, rfl⟩
    | ok done =>
        obtain ⟨_, next, trace⟩ := done
        obtain ⟨_, hcollects⟩ := unpaid_eq_ok.mp hperform
        obtain ⟨hcollector, hreceiver, hlength, hloop⟩ := collectFees_eq_ok.mp hcollects
        exfalso
        rcases hwrong with hother | hdiffers | hzero | hnothing
        · exact hother hcollector
        · exact hdiffers hlength
        · exact hreceiver hzero
        · rw [← List.map_snd_zip hlength.ge] at hnothing
          obtain ⟨fee, hfee, hnone⟩ := List.mem_map.mp hnothing
          exact (positive_of_collectFees_loop hloop fee hfee).ne' hnone
  decreases := by
    intro address history reached input next trace asset _ hok hless
    rcases step_keeps hok with hcollector | hkeeps
    · exact hcollector
    · exact absurd (hkeeps asset) (not_le.mpr hless)

/-! ## A collection for the contract itself -/

def sampleService : Address := Address.ofByte 1

def sampleCollector : Address := Address.ofByte 2

def sampleContext : CallContext where
  caller := sampleCollector
  scAddress := sampleService
  ownerAddress := sampleCollector
  blockTimestamp := 0
  callValue := .none
  gasLeft := 100000000

/-- The contract owns 5 of EGLD. -/
def sampleSystem : System where
  gasCollector := some sampleCollector
  ledger := Ledger.empty.mint sampleService .egld 5

/-- What is sent back to the contract is there to be sent again. -/
theorem sample_collects_twice : ∃ next,
    sampleSystem.gasCollector = some sampleContext.caller ∧
    sampleSystem.ledger.balance sampleContext.scAddress .egld = 5 ∧
    perform (.tabulated [] []) sampleContext
        (.collectFees sampleService [.egld, .egld] [5, 5]) sampleSystem =
      .ok ⟨(), next, [.send sampleService .egld 5, .send sampleService .egld 5]⟩ ∧
    sampleSystem.ledger.balance sampleContext.scAddress .egld <
      feeTotal [(.egld, 5), (.egld, 5)] .egld := by
  have htrace : (perform (.tabulated [] []) sampleContext
      (.collectFees sampleService [.egld, .egld] [5, 5]) sampleSystem).map Completed.trace =
        .ok [.send sampleService .egld 5, .send sampleService .egld 5] := by
    decide +kernel
  obtain ⟨⟨_, next, trace⟩, hperform, rfl⟩ := Outcome.map_eq_ok.mp htrace
  exact ⟨next, rfl, by decide, hperform, by decide⟩

end AxelarCgp.GasService
