import AxelarCgp.PingPong.Steps

/-!
# Every user is paid once

Along a run users come in by pinging and leave by being paid, so nobody is paid twice, nor
without having pinged.  The balance is the fixed sum for everybody registered, as long as no
call leaves EGLD with the contract that registers nobody: a pong carrying EGLD, a payment to
the contract itself, or EGLD beside the fixed sum of a ping.
-/

namespace AxelarCgp.PingPong

open Machine Passage Transaction

def Action.receiver : Action → Address
  | send receiver _ => receiver

def Action.amount : Action → ℕ
  | send _ amount => amount

/-! ## The balance -/

/-- A call that leaves EGLD for nobody. -/
inductive Strands (crypto : Crypto) (system : System) (input : Input) : Prop
  | carried {user : Address} :
      Withdraws crypto system input user → 0 < input.egld → Strands crypto system input
  | kept :
      Withdraws crypto system input system.address → 0 < system.contract.pingAmount →
      Strands crypto system input
  | beside {user : Address} :
      Registers system input user → system.contract.pingAmount < input.egld →
      Strands crypto system input

/-- The balance is the fixed sum for everybody registered. -/
def Balanced (system : System) : Prop :=
  system.balance = system.contract.pingAmount * system.registered.card

section Balance

variable {crypto : Crypto} {system middle next : System} {input : Input} {output : Output}
variable {user : Address} {users : List Address}

theorem Pays.card (h : Pays system users middle) (hnumbered : Numbered system.contract) :
    middle.registered.card + users.length = system.registered.card := by
  induction h with
  | nil _ => rfl
  | @cons system last user users hregistered _ _ ih =>
      have hrest := ih (numbered_withdraw hnumbered hregistered)
      have hmem := (mem_registered hnumbered).mpr hregistered
      have herase := Finset.card_erase_add_one hmem
      rw [registered_withdraw hnumbered hregistered] at hrest
      rw [List.length_cons]
      omega

theorem card_register (hnumbered : Numbered system.contract)
    (hnew : system.status user = .new) :
    (system.register user).registered.card = system.registered.card + 1 := by
  have hinsert : (system.register user).registered = insert user system.registered := by
    ext other
    rw [mem_registered (numbered_register hnumbered hnew), status_register hnumbered hnew,
      Finset.mem_insert, mem_registered hnumbered]
    by_cases hother : other = user
    · simp [hother]
    · simp [hother]
  have hfresh : user ∉ system.registered := by
    rw [mem_registered hnumbered, hnew]
    simp
  rw [hinsert, Finset.card_insert_of_notMem hfresh]

/-- A ping brings at least what `egld_value` reads. -/
theorem callEgldValue_le {ctx : CallContext} :
    callEgldValue ctx ≤ ctx.callValue.total .egld := by
  unfold callEgldValue
  cases ctx.callValue with
  | egld value => exact (EgldOrMultiEsdtPayment.total_egld value).ge
  | multiEsdt payments => exact Nat.zero_le _

theorem strands_iff_of_registers (h : Registers system input user) :
    Strands crypto system input ↔ system.contract.pingAmount < input.egld := by
  have hnot := @not_pongsFor_of_pingsFor crypto system input user h.1
  constructor
  · intro hstrands
    cases hstrands with
    | carried hwithdraws _ => exact absurd hwithdraws.1 (hnot _)
    | kept hwithdraws _ => exact absurd hwithdraws.1 (hnot _)
    | beside _ hmore => exact hmore
  · exact .beside h

theorem strands_iff_of_pays (hall : ∀ user, user ∈ users ↔ Withdraws crypto system input user)
    (hpinged : input.pinged = []) (hnone : users = [] → input.egld = 0) :
    Strands crypto system input ↔
      0 < input.egld ∨ 0 < system.contract.pingAmount * users.count system.address := by
  constructor
  · intro hstrands
    cases hstrands with
    | carried _ hegld => exact .inl hegld
    | kept hwithdraws hamount =>
        have hself := List.count_pos_iff.mpr ((hall _).mpr hwithdraws)
        exact .inr (Nat.mul_pos hamount hself)
    | beside hregisters _ =>
        rw [pinged_of_pingsFor hregisters.1] at hpinged
        contradiction
  · rintro (hegld | hself)
    · obtain ⟨user, huser⟩ := List.exists_mem_of_ne_nil users fun hnil =>
        hegld.ne' (hnone hnil)
      exact .carried ((hall user).mp huser) hegld
    · have hcount := Nat.pos_of_mul_pos_left hself
      exact .kept ((hall _).mp (List.count_pos_iff.mp hcount)) (Nat.pos_of_mul_pos_right hself)

/-- The payments of a call are those to others and those to the contract itself. -/
theorem length_others (address : Address) :
    (users.filter (· ≠ address)).length + users.count address = users.length := by
  induction users with
  | nil => rfl
  | cons user users ih =>
      by_cases hself : user = address
      · simp only [hself, List.count_cons_self, List.length_cons]
        simpa [← add_assoc] using ih
      · simp only [List.count_cons_of_ne hself, List.length_cons]
        rw [List.filter_cons_of_pos (by simpa using hself), List.length_cons]
        omega

/-- A completed call keeps the balance covered, and keeps it exact unless it strands EGLD. -/
theorem Does.balanced (hsound : Sound system) (hsolvent : Solvent system)
    (h : Does crypto system input output next) :
    Solvent next ∧ (Balanced next ↔ Balanced system ∧ ¬ Strands crypto system input) := by
  rw [Solvent] at hsolvent
  cases h with
  | @registers user hregisters =>
      have hpayment := hregisters.2.payment
      have hle := @callEgldValue_le input.ctx
      have hcard := @card_register (system.credit input.egld) user hsound.numbered
        hregisters.2.fresh
      have hbalance : ((system.credit input.egld).register user).balance =
          system.balance + input.egld := rfl
      have hamount : ((system.credit input.egld).register user).contract.pingAmount =
          system.contract.pingAmount := rfl
      have hsame : (system.credit input.egld).registered = system.registered := rfl
      have hbrought : system.contract.pingAmount ≤ input.egld := hpayment ▸ hle
      rw [strands_iff_of_registers hregisters, Solvent, Balanced, Balanced, hbalance, hamount,
        hcard, hsame, mul_add, mul_one]
      omega
  | @pays users middle answer cursor hpays hall hpinged hnone _ _ _ =>
      have hcard := hpays.card hsound.numbered
      have hbalance := hpays.balance
      have hothers := @length_others users system.address
      have hamount : (middle.rewind cursor).contract.pingAmount =
          system.contract.pingAmount := by
        change middle.contract.pingAmount = _
        rw [hpays.frame.2]
        rfl
      change middle.balance + system.contract.pingAmount *
        (users.filter (· ≠ system.address)).length = system.balance + input.egld at hbalance
      change middle.registered.card + users.length = system.registered.card at hcard
      have hregistered : (middle.rewind cursor).registered = middle.registered := rfl
      have hkept : (middle.rewind cursor).balance = middle.balance := rfl
      rw [strands_iff_of_pays hall hpinged hnone, Solvent, Balanced, Balanced, hamount,
        hregistered, hkept]
      rw [← hcard, ← hothers, mul_add, mul_add] at hsolvent ⊢
      omega
  | administers service hegld hpinged hpongs =>
      have hstrands : ¬ Strands crypto system input := by
        intro hstrands
        cases hstrands with
        | carried hwithdraws _ | kept hwithdraws _ => exact hpongs _ hwithdraws.1
        | beside hregisters _ =>
            rw [pinged_of_pingsFor hregisters.1] at hpinged
            contradiction
      exact ⟨hsolvent, (and_iff_left hstrands).symm⟩

end Balance

/-! ## Runs -/

/-- The payments a history made. -/
def sends (history : List (Entry Input Output)) : List Action :=
  history.flatMap fun entry =>
    match entry.result with
    | .ok output => output.sent
    | .error _ => []

/-- A completed ping for a user. -/
def Pinged (user : Address) (entry : Entry Input Output) : Prop :=
  user ∈ entry.input.pinged ∧ ∃ output, entry.result = .ok output

/-- Who came in and who left with an entry. -/
def moved (entry : Entry Input Output) : List (Event Address) :=
  match entry.result with
  | .ok output => output.sent.map (fun action => .leaves action.receiver) ++
      entry.input.pinged.map .enters
  | .error _ => []

section Runs

variable {crypto : Crypto} {start system next reached : System} {input : Input}
variable {output : Output} {history : List (Entry Input Output)} {users : List Address}

theorem map_receiver_payments :
    (payments system users).map Action.receiver = users := by
  rw [payments, List.map_map]
  exact List.map_id users

theorem moved_ok : moved ⟨input, .ok output⟩ =
    output.sent.map (fun action => .leaves action.receiver) ++ input.pinged.map .enters := rfl

/-- The payments of a history are the moves out. -/
theorem leaving_moved :
    leaving (history.flatMap moved) = (sends history).map Action.receiver := by
  induction history with
  | nil => rfl
  | cons entry history ih =>
      rw [List.flatMap_cons, leaving_append, ih, sends, sends, List.flatMap_cons, List.map_append]
      congr 1
      unfold moved
      cases entry.result with
      | error message => rfl
      | ok output =>
          have henters : ∀ accounts : List Address, leaving (accounts.map .enters) = [] := by
            intro accounts
            induction accounts with
            | nil => rfl
            | cons account accounts ih => exact ih
          have hleaves := leaving_map_leaves (output.sent.map Action.receiver)
          rw [List.map_map] at hleaves
          rw [leaving_append, henters, List.append_nil]
          exact hleaves

/-- A completed call moves the users it pinged in and the users it paid out. -/
theorem Does.moves (hsound : Sound system) (h : Does crypto system input output next) :
    Moves system.stages (moved ⟨input, .ok output⟩) next.stages := by
  rw [moved_ok]
  cases h with
  | @registers user hregisters =>
      have hfresh : system.status user = .new := hregisters.2.fresh
      rw [pinged_of_pingsFor hregisters.1]
      have hstatus := @status_register (system.credit input.egld) user hsound.numbered hfresh
      have houtside : system.stages user = .outside := UserStatus.stage_eq_outside.mpr hfresh
      have hstages : ((system.credit input.egld).register user).stages =
          Function.update system.stages user .inside := by
        rw [System.stages, hstatus, Function.comp_update]
        rfl
      rw [hstages]
      exact .enters houtside (.nil _)
  | @pays users middle answer cursor hpays _ hpinged _ _ _ _ =>
      rw [hpinged, List.map_nil, List.append_nil]
      have hmoves := hpays.moves hsound.numbered
      rw [← @map_receiver_payments system users, List.map_map] at hmoves
      exact hmoves
  | administers service _ hpinged _ =>
      rw [hpinged]
      exact .nil _

/-- A completed call leaves the fixed sum, the deadline and the address alone. -/
theorem Does.frame (h : Does crypto system input output next) :
    next.address = system.address ∧ next.contract.pingAmount = system.contract.pingAmount ∧
      next.contract.deadline = system.contract.deadline := by
  cases h with
  | registers _ => exact ⟨rfl, rfl, rfl⟩
  | @pays users middle answer cursor hpays _ _ _ _ _ _ =>
      obtain ⟨haddress, hcontract⟩ := hpays.frame
      have hpingAmount := congrArg State.pingAmount hcontract
      have hdeadline := congrArg State.deadline hcontract
      exact ⟨haddress, hpingAmount, hdeadline⟩
  | administers _ _ _ _ => exact ⟨rfl, rfl, rfl⟩

theorem Does.sound (hsound : Sound system) (h : Does crypto system input output next) :
    Sound next := by
  cases h with
  | registers hregisters => exact hsound.credit.register hregisters.2.fresh
  | pays _ _ _ _ _ hnext _ => exact hnext
  | administers _ _ _ _ => exact ⟨hsound.numbered, hsound.cursor_le, hsound.later⟩

/-- Every payment is the fixed sum, after the deadline. -/
theorem Does.paid (h : Does crypto system input output next) :
    ∀ action ∈ output.sent, action.amount = system.contract.pingAmount ∧
      system.contract.deadline ≤ input.ctx.blockTimestamp := by
  cases h with
  | registers _ => simp
  | pays _ _ _ _ hexpired _ _ =>
      intro action haction
      obtain ⟨user, _, rfl⟩ := List.mem_map.mp haction
      exact ⟨rfl, hexpired⟩
  | administers _ _ _ _ => simp

theorem Does.completed (h : Does crypto system input output next)
    (hcompleted : output.answer = some .completed) : next.registered = ∅ := by
  cases h with
  | registers _ => contradiction
  | pays _ _ _ _ _ _ hempty => exact hempty hcompleted
  | administers _ _ _ _ => contradiction

/-- What holds in every state of a run. -/
structure Kept (crypto : Crypto) (start : System) (history : List (Entry Input Output))
    (system : System) : Prop where
  frame : system.address = start.address ∧
    system.contract.pingAmount = start.contract.pingAmount ∧
    system.contract.deadline = start.contract.deadline
  sound : Sound system
  solvent : Solvent system
  moves : Moves start.stages (history.flatMap moved) system.stages
  balanced : Balanced system ↔
    Run.Meets (machine crypto) start (fun system input => ¬ Strands crypto system input) history
  paid : ∀ entry ∈ history, ∀ output, entry.result = .ok output → ∀ action ∈ output.sent,
    action.amount = start.contract.pingAmount ∧
      start.contract.deadline ≤ entry.input.ctx.blockTimestamp

theorem step_eq_ok : (machine crypto).step system input = .ok (next, output) ↔
    perform crypto input.ctx input.call system = .ok ⟨output.answer, next, output.sent⟩ := by
  constructor
  · intro h
    obtain ⟨⟨answer, last, trace⟩, hperform, hdone⟩ := Outcome.bind_eq_ok.mp h
    obtain ⟨rfl, rfl⟩ := Prod.mk.inj (Outcome.pure_eq_ok.mp hdone)
    exact hperform
  · intro hperform
    exact Outcome.bind_eq_ok.mpr ⟨_, hperform, rfl⟩

/-- A call that strands EGLD completes. -/
theorem completes_of_strands (hsound : Sound system) (hsolvent : Solvent system)
    (h : Strands crypto system input) :
    ∃ next output, (machine crypto).step system input = .ok (next, output) := by
  have hdone : ∃ done, perform crypto input.ctx input.call system = .ok done := by
    cases h with
    | carried hwithdraws _ | kept hwithdraws _ =>
        exact completes_of_withdraws hsound hsolvent hwithdraws
    | beside hregisters _ => exact completes_of_registers hsound hregisters
  obtain ⟨⟨answer, next, trace⟩, hperform⟩ := hdone
  exact ⟨next, ⟨answer, trace⟩, step_eq_ok.mpr hperform⟩

theorem Kept.completed (hkept : Kept crypto start history system)
    (hrun : Run (machine crypto) start history system)
    (hok : (machine crypto).step system input = .ok (next, output)) :
    Kept crypto start (history ++ [⟨input, .ok output⟩]) next := by
  have hdoes := perform_does hkept.sound hkept.solvent (step_eq_ok.mp hok)
  obtain ⟨hsolvent, hbalanced⟩ := hdoes.balanced hkept.sound hkept.solvent
  obtain ⟨haddress, hamount, hdeadline⟩ := hdoes.frame
  constructor
  · exact ⟨haddress.trans hkept.frame.1, hamount.trans hkept.frame.2.1,
      hdeadline.trans hkept.frame.2.2⟩
  · exact hdoes.sound hkept.sound
  · exact hsolvent
  · rw [List.flatMap_append, List.flatMap_singleton]
    exact hkept.moves.trans (hdoes.moves hkept.sound)
  · rw [hbalanced, hkept.balanced, Run.meets_concat hrun]
  · intro entry hentry
    rcases List.mem_append.mp hentry with hold | hlast
    · exact hkept.paid entry hold
    · obtain rfl := List.mem_singleton.mp hlast
      intro last hlast action haction
      obtain rfl := Except.ok.inj hlast
      rw [← hkept.frame.2.1, ← hkept.frame.2.2]
      exact hdoes.paid action haction

theorem Kept.stopped {message : String} (hkept : Kept crypto start history system)
    (hrun : Run (machine crypto) start history system)
    (herror : (machine crypto).step system input = .error message) :
    Kept crypto start (history ++ [⟨input, .error message⟩]) system := by
  have hstrands : ¬ Strands crypto system input := by
    intro hstrands
    obtain ⟨next, output, hok⟩ := completes_of_strands hkept.sound hkept.solvent hstrands
    rw [herror] at hok
    contradiction
  constructor
  · exact hkept.frame
  · exact hkept.sound
  · exact hkept.solvent
  · rw [List.flatMap_append, List.flatMap_singleton]
    exact (List.append_nil _).symm ▸ hkept.moves
  · rw [hkept.balanced, Run.meets_concat hrun]
    exact (and_iff_left hstrands).symm
  · intro entry hentry
    rcases List.mem_append.mp hentry with hold | hlast
    · exact hkept.paid entry hold
    · obtain rfl := List.mem_singleton.mp hlast
      intro last hlast
      contradiction

end Runs

/-! ## From deployment on -/

/-- The contract as `init` leaves it; the account is new and owns nothing. -/
def deployed (ctx : CallContext) (interchainTokenService : Address) (pingAmount : ℕ)
    (durationInSeconds : UInt64) (optActivationTimestamp : Option UInt64)
    (maxFunds : Option ℕ) : System where
  address := ctx.scAddress
  contract := .init ctx interchainTokenService pingAmount durationInSeconds
    optActivationTimestamp maxFunds
  balance := 0

/-- What holds of the users, the payments and the balance after a run. -/
structure PaysOnce (crypto : Crypto) (start : System) (history : List (Entry Input Output))
    (reached : System) : Prop where
  balance : reached.balance = start.contract.pingAmount * reached.registered.card
  amount : ∀ action ∈ sends history, action.amount = start.contract.pingAmount
  once : ((sends history).map Action.receiver).Nodup
  /-- A payment comes after the deadline, and after the receiver pinged. -/
  due : ∀ before entry after output action, history = before ++ entry :: after →
    entry.result = .ok output → action ∈ output.sent →
    start.contract.deadline ≤ entry.input.ctx.blockTimestamp ∧
      ∃ earlier ∈ before, Pinged action.receiver earlier
  withdrawn : ∀ before after middle user, history = before ++ after →
    Run (machine crypto) start before middle → middle.status user = .withdrawn →
    reached.status user = .withdrawn
  completed : ∀ before input sent, history = before ++ [⟨input, .ok ⟨some .completed, sent⟩⟩] →
    reached.registered = ∅

section Deployment

variable {crypto : Crypto} {ctx : CallContext} {interchainTokenService : Address}
variable {pingAmount : ℕ} {durationInSeconds : UInt64} {optActivationTimestamp : Option UInt64}
variable {maxFunds : Option ℕ} {start reached : System} {history : List (Entry Input Output)}

/-- Nobody has pinged, and so nobody is owed anything. -/
structure Fresh (start : System) : Prop where
  sound : Sound start
  status : ∀ user, start.status user = .new
  balance : start.balance = 0

theorem fresh_deployed : Fresh (deployed ctx interchainTokenService pingAmount
    durationInSeconds optActivationTimestamp maxFunds) where
  sound := by
    constructor
    · intro userId
      refine iff_of_true rfl ?_
      exact Nat.eq_zero_or_pos userId
    · exact le_rfl
    · intro user hregistered
      contradiction
  status _ := rfl
  balance := rfl

theorem Fresh.registered_empty (h : Fresh start) : start.registered = ∅ := by
  apply Finset.eq_empty_of_forall_notMem
  intro user huser
  have hregistered := (mem_registered h.sound.numbered).mp huser
  rw [h.status] at hregistered
  contradiction

theorem kept_run (hfresh : Fresh start) (hrun : Run (machine crypto) start history reached) :
    Kept crypto start history reached := by
  induction hrun with
  | start =>
      have hbalanced : Balanced start := by
        rw [Balanced, hfresh.registered_empty, hfresh.balance]
        rfl
      constructor
      · exact ⟨rfl, rfl, rfl⟩
      · exact hfresh.sound
      · exact hbalanced.ge
      · exact .nil _
      · exact iff_of_true hbalanced (by simp [Run.Meets])
      · simp
  | completed hbefore hok ih => exact ih.completed hbefore hok
  | stopped hbefore herror ih => exact ih.stopped hbefore herror

section Started

variable (hfresh : Fresh start) (hrun : Run (machine crypto) start history reached)
include hfresh hrun

/-- Whoever is paid pinged before. -/
theorem pinged_before {before after : List (Entry Input Output)} {entry : Entry Input Output}
    {output : Output} {action : Action} (hhistory : history = before ++ entry :: after)
    (hresult : entry.result = .ok output) (haction : action ∈ output.sent) :
    ∃ earlier ∈ before, Pinged action.receiver earlier := by
  have hmoves := (kept_run hfresh hrun).moves
  obtain ⟨first, rest, hsent⟩ := List.append_of_mem haction
  have hentry : moved entry = first.map (fun action => .leaves action.receiver) ++
      .leaves action.receiver :: (rest.map (fun action => .leaves action.receiver) ++
        entry.input.pinged.map .enters) := by
    rw [moved, hresult]
    simp [hsent]
  have hevents : history.flatMap moved =
      (before.flatMap moved ++ first.map (fun action => .leaves action.receiver)) ++
        .leaves action.receiver :: (rest.map (fun action => .leaves action.receiver) ++
          entry.input.pinged.map .enters ++ after.flatMap moved) := by
    rw [hhistory, List.flatMap_append, List.flatMap_cons, hentry]
    simp
  rw [hevents] at hmoves
  rcases hmoves.entered with hinside | hentered
  · have hstart := hfresh.status action.receiver
    rw [UserStatus.stage_eq_inside.mp hinside] at hstart
    contradiction
  · rcases List.mem_append.mp hentered with hbefore | hfirst
    · obtain ⟨earlier, hmem, hmoved⟩ := List.mem_flatMap.mp hbefore
      refine ⟨earlier, hmem, ?_⟩
      unfold moved at hmoved
      cases hearlier : earlier.result with
      | error message => simp [hearlier] at hmoved
      | ok last =>
          rw [hearlier] at hmoved
          exact ⟨by simpa using hmoved, last, hearlier⟩
    · simp at hfirst

theorem withdrawn_iff (user : Address) :
    reached.status user = .withdrawn ↔ user ∈ (sends history).map Action.receiver := by
  have hgone : reached.stages user = .gone ↔
      start.stages user = .gone ∨ .leaves user ∈ history.flatMap moved :=
    (kept_run hfresh hrun).moves.gone_iff
  rw [← leaving_moved, mem_leaving, ← UserStatus.stage_eq_gone]
  rw [System.stages, Function.comp_apply, System.stages, Function.comp_apply] at hgone
  rw [hgone, hfresh.status]
  simp [UserStatus.stage]

end Started

/-- A run from the deployment pays every user once exactly where no step strands EGLD. -/
theorem paysOnce_iff (hrun : Run (machine crypto) (deployed ctx interchainTokenService
      pingAmount durationInSeconds optActivationTimestamp maxFunds) history reached) :
    PaysOnce crypto (deployed ctx interchainTokenService pingAmount durationInSeconds
        optActivationTimestamp maxFunds) history reached ↔
      Run.Meets (machine crypto) (deployed ctx interchainTokenService pingAmount
        durationInSeconds optActivationTimestamp maxFunds)
        (fun system input => ¬ Strands crypto system input) history := by
  have hfresh := @fresh_deployed ctx interchainTokenService pingAmount durationInSeconds
    optActivationTimestamp maxFunds
  have hkept := kept_run hfresh hrun
  constructor
  · intro hpays
    apply hkept.balanced.mp
    rw [Balanced, hkept.frame.2.1]
    exact hpays.balance
  · intro hmeets
    constructor
    · have hbalanced := hkept.balanced.mpr hmeets
      rw [Balanced, hkept.frame.2.1] at hbalanced
      exact hbalanced
    · intro action haction
      obtain ⟨entry, hentry, hsent⟩ := List.mem_flatMap.mp haction
      cases hresult : entry.result with
      | error message => simp [hresult] at hsent
      | ok output =>
          rw [hresult] at hsent
          exact (hkept.paid entry hentry output hresult action hsent).1
    · rw [← leaving_moved]
      exact hkept.moves.nodup_leaving
    · intro before entry after output action hhistory hresult haction
      have hentry : entry ∈ history := by simp [hhistory]
      exact ⟨(hkept.paid entry hentry output hresult action haction).2,
        pinged_before hfresh hrun hhistory hresult haction⟩
    · intro before after middle user hhistory hmiddle hwithdrawn
      have hsent := (withdrawn_iff hfresh hmiddle user).mp hwithdrawn
      apply (withdrawn_iff hfresh hrun user).mpr
      rw [hhistory, sends, List.flatMap_append, List.map_append]
      exact List.mem_append_left _ hsent
    · intro before input sent hhistory
      subst hhistory
      obtain ⟨state, hbefore, hok⟩ := hrun.completed_inv
      have hstate := kept_run hfresh hbefore
      exact (perform_does hstate.sound hstate.solvent (step_eq_ok.mp hok)).completed rfl

end Deployment

/-! ## Two runs -/

def sampleContract : Address := Address.ofByte 1

def sampleService : Address := Address.ofByte 2

def sampleContext (caller : Address) (timestamp : UInt64) (egld : ℕ) : CallContext where
  caller := caller
  scAddress := sampleContract
  ownerAddress := sampleService
  blockTimestamp := timestamp
  callValue := .egld egld
  gasLeft := 100000000

/-- The fixed sum is 10, and the deadline 100. -/
def sampleStart : System :=
  deployed (sampleContext sampleService 0 0) sampleService 10 100 none none

/-- Gas for one user, and then for all. -/
def sampleInputs : List Input :=
  [⟨sampleContext (Address.ofByte 3) 1 10, .ping none⟩,
    ⟨sampleContext (Address.ofByte 4) 2 10, .ping none⟩,
    ⟨sampleContext (Address.ofByte 5) 100 0,
      .pongAll fun lastUser => if lastUser = 0 then 5000000 else 0⟩,
    ⟨sampleContext (Address.ofByte 5) 101 10, .ping none⟩,
    ⟨sampleContext (Address.ofByte 4) 102 0, .pong none⟩,
    ⟨sampleContext (Address.ofByte 5) 103 0, .pongAll fun _ => 5000000⟩]

def sampleReplay (inputs : List Input) : List (Entry Input Output) × System :=
  (machine (.tabulated [] [])).replay sampleStart inputs

theorem sample_paysOnce :
    PaysOnce (.tabulated [] []) sampleStart (sampleReplay sampleInputs).1
        (sampleReplay sampleInputs).2 ∧
      sends (sampleReplay sampleInputs).1 =
        [.send (Address.ofByte 3) 10, .send (Address.ofByte 4) 10, .send (Address.ofByte 5) 10] := by
  have hrun := run_replay (machine (.tabulated [] [])) sampleStart sampleInputs
  have hbalanced : Balanced (sampleReplay sampleInputs).2 := by
    unfold Balanced
    decide +kernel
  refine ⟨(paysOnce_iff hrun).mpr ?_, by decide +kernel⟩
  exact (kept_run fresh_deployed hrun).balanced.mp hbalanced

/-- The service asks for a pong, with a transfer of 7 of EGLD. -/
def sampleCarrying : List Input :=
  [⟨sampleContext (Address.ofByte 3) 1 10, .ping none⟩,
    ⟨sampleContext sampleService 100 7, .executeWithInterchainToken
      ⟨NestedCodec.depEncode (A := ManagedBuffer × Address) (pongFunction, Address.ofByte 3),
        by decide +kernel⟩⟩]

/-- The 7 stay with the contract, where nobody is registered. -/
theorem sample_carried :
    Run (machine (.tabulated [] [])) sampleStart (sampleReplay sampleCarrying).1
        (sampleReplay sampleCarrying).2 ∧
      (sampleReplay sampleCarrying).2.registered = ∅ ∧
      (sampleReplay sampleCarrying).2.balance = 7 ∧
      ¬ PaysOnce (.tabulated [] []) sampleStart (sampleReplay sampleCarrying).1
        (sampleReplay sampleCarrying).2 := by
  have hregistered : (sampleReplay sampleCarrying).2.registered = ∅ := by decide +kernel
  have hbalance : (sampleReplay sampleCarrying).2.balance = 7 := by decide +kernel
  refine ⟨run_replay _ _ _, hregistered, hbalance, ?_⟩
  intro hpays
  have howed := hpays.balance
  rw [hregistered, hbalance, Finset.card_empty, mul_zero] at howed
  contradiction

end AxelarCgp.PingPong
