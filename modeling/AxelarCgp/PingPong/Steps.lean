import AxelarCgp.PingPong.Withdrawals

/-!
# What a call does

A call registers one user, or pays the users it is for, or changes who the service is.  Which
of these it does, and for whom, is a matter of the call and of the state before it.
-/

namespace AxelarCgp.PingPong

open Passage Transaction

/-! ## Requests -/

/-- The EGLD of a call. -/
def Input.egld (input : Input) : ℕ :=
  input.ctx.callValue.total .egld

def System.credit (system : System) (amount : ℕ) : System :=
  { system with balance := system.balance + amount }

/-- The user that a ping is for. -/
def Input.pinged (input : Input) : List Address :=
  match input.call with
  | .ping optCaller => [optCaller.getD input.ctx.caller]
  | .executeWithInterchainToken data =>
      match Data.topDecode data with
      | some data => if data.function = pingFunction then [data.address] else []
      | none => []
  | _ => []

/-- What `ping` asks for a user, with the EGLD of the call on the balance. -/
structure Pingable (ctx : CallContext) (system : System) (user : Address) : Prop where
  payment : callEgldValue ctx = system.contract.pingAmount
  active : system.contract.activationTimestamp ≤ ctx.blockTimestamp
  room : ∀ maxFunds, system.contract.maxFunds = some maxFunds →
    system.balance + callEgldValue ctx ≤ maxFunds
  fresh : system.status user = .new

/-- The service asks for a function with the data of a call. -/
def Commands (system : System) (ctx : CallContext) (data function : ManagedBuffer)
    (user : Address) : Prop :=
  Data.topDecode data = some ⟨function, user⟩ ∧
    ctx.caller = system.contract.interchainTokenService

/-- The call is a ping for a user. -/
def PingsFor (system : System) (input : Input) (user : Address) : Prop :=
  match input.call with
  | .ping optCaller =>
      (∃ value, input.ctx.callValue = .egld value) ∧ user = optCaller.getD input.ctx.caller
  | .executeWithInterchainToken data => Commands system input.ctx data pingFunction user
  | _ => False

/-- The call is a pong for a user; `pongAll` is one for those after the last user that its
gas lasts for. -/
def PongsFor (crypto : Crypto) (system : System) (input : Input) (user : Address) : Prop :=
  match input.call with
  | .pong optCaller => input.ctx.callValue = .none ∧ user = optCaller.getD input.ctx.caller
  | .execute validateMessage sourceChain messageId sourceAddress payload =>
      input.ctx.callValue = .none ∧
        validateMessage system.contract.interchainTokenService sourceChain messageId
          sourceAddress (crypto.keccak256 payload.1) = .ok true ∧
        ∃ function, Data.topDecode payload = some ⟨function, user⟩
  | .executeWithInterchainToken data => Commands system input.ctx data pongFunction user
  | .pongAll gasLeft => input.ctx.callValue = .none ∧
      system.contract.pongAllLastUser < system.contract.userMapper.getUserId user ∧
      Affords gasLeft system.contract.pongAllLastUser
        (system.contract.userMapper.getUserId user)
  | _ => False

/-- The call registers the user. -/
def Registers (system : System) (input : Input) (user : Address) : Prop :=
  PingsFor system input user ∧ Pingable input.ctx (system.credit input.egld) user

/-- The call pays the user. -/
def Withdraws (crypto : Crypto) (system : System) (input : Input) (user : Address) : Prop :=
  PongsFor crypto system input user ∧ system.contract.deadline ≤ input.ctx.blockTimestamp ∧
    system.status user = .registered

/-! ## Endpoints -/

section Endpoints

variable {ctx : CallContext} {crypto : Crypto} {system next : System} {user : Address}
variable {trace : List Action}

theorem requireExpired_eq : requireExpired ctx system =
    if system.contract.deadline ≤ ctx.blockTimestamp then .ok ⟨(), system, []⟩
    else .error "can't withdraw before deadline" := by
  rw [requireExpired, reads_bind]
  split
  · rename_i hexpired
    exact lift_require_ok hexpired
  · rename_i hearly
    exact lift_require_error hearly

/-- Entering a user completes where the user is new. -/
theorem enter_eq_ok (hnumbered : Numbered system.contract) :
    enter user system = .ok ⟨(), next, trace⟩ ↔
      system.status user = .new ∧ next = system.register user ∧ trace = [] := by
  have hentered : getOrCreateUser user system =
      .ok ⟨(system.contract.userMapper.getOrCreateUser user).1, { system with
        contract := { system.contract with
          userMapper := (system.contract.userMapper.getOrCreateUser user).2 } }, []⟩ := rfl
  rw [enter, bind_of_ok hentered, reads_bind]
  by_cases hmem : user ∈ system.contract.userMapper.addresses
  · have hknown := (mem_addresses_iff hnumbered).mp hmem
    simp only [UserMapper.getOrCreateUser_of_mem hmem]
    rw [System.status] at hknown ⊢
    cases hstatus : system.contract.userStatus (system.contract.userMapper.getUserId user) with
    | new => exact absurd hstatus hknown
    | registered | withdrawn => simp
  · have hfresh : system.status user = .new := by
      by_contra hold
      exact hmem ((mem_addresses_iff hnumbered).mpr hold)
    have hnew : system.contract.userStatus (system.contract.userMapper.getUserCount + 1) =
        .new := (hnumbered _).mpr (.inr (Nat.lt_succ_self _))
    simp only [UserMapper.getOrCreateUser_fst hmem, hnew]
    rw [setUserStatus, modifies_eq_ok, System.register]
    simp only [UserMapper.getOrCreateUser_fst hmem, hfresh, true_and, eq_comm]

theorem requireNotFull_bind {payment : ℕ} {maxFunds : Option ℕ} {f : Unit → Tx Unit}
    {done : Completed System Action Unit} :
    (requireNotFull payment maxFunds >>= f) system = .ok done ↔
      (∀ funds, maxFunds = some funds → system.balance + payment ≤ funds) ∧
        f () system = .ok done := by
  cases maxFunds with
  | none =>
      have hopen : requireNotFull payment none system = .ok ⟨(), system, []⟩ := rfl
      simp [bind_of_ok hopen]
  | some funds =>
      by_cases hroom : system.balance + payment ≤ funds
      · have hopen : requireNotFull payment (some funds) system = .ok ⟨(), system, []⟩ := by
          rw [requireNotFull, reads_bind, lift_require_ok hroom]
        simp [bind_of_ok hopen, hroom]
      · have hfull : requireNotFull payment (some funds) system =
            .error "smart contract full" := by
          rw [requireNotFull, reads_bind, lift_require_error hroom]
        simp [bind_of_error hfull, hroom]

theorem ping_eq_ok {optCaller : Option Address} (hnumbered : Numbered system.contract) :
    ping ctx optCaller system = .ok ⟨(), next, trace⟩ ↔
      Pingable ctx system (optCaller.getD ctx.caller) ∧
      next = system.register (optCaller.getD ctx.caller) ∧ trace = [] := by
  simp only [ping, reads_bind, lift_bind_eq_ok, Outcome.require_eq_ok, Outcome.exists_unit,
    requireNotFull_bind]
  rw [enter_eq_ok hnumbered]
  constructor
  · rintro ⟨hpayment, hactive, hroom, hfresh, hnext, htrace⟩
    exact ⟨⟨hpayment, hactive, hroom, hfresh⟩, hnext, htrace⟩
  · rintro ⟨⟨hpayment, hactive, hroom, hfresh⟩, hnext, htrace⟩
    exact ⟨hpayment, hactive, hroom, hfresh, hnext, htrace⟩

theorem execute_eq_ok {validateMessage : ValidateMessage}
    {sourceChain messageId sourceAddress payload : ManagedBuffer}
    {done : Completed System Action Unit} :
    execute ctx crypto validateMessage sourceChain messageId sourceAddress payload system =
        .ok done ↔
      validateMessage system.contract.interchainTokenService sourceChain messageId
        sourceAddress (crypto.keccak256 payload.1) = .ok true ∧
      ∃ data, Data.topDecode payload = some data ∧
        pong ctx (some data.address) system = .ok done := by
  simp only [execute, reads_bind, lift_bind_eq_ok, Outcome.require_eq_ok, Outcome.exists_unit,
    Outcome.orFail_eq_ok]
  constructor
  · rintro ⟨valid, hvalid, rfl, hpong⟩
    exact ⟨hvalid, hpong⟩
  · rintro ⟨hvalid, hpong⟩
    exact ⟨true, hvalid, rfl, hpong⟩

theorem executeWithInterchainToken_eq_ok {data : ManagedBuffer}
    {done : Completed System Action Unit} :
    executeWithInterchainToken ctx data system = .ok done ↔
      ∃ user, Commands system ctx data pingFunction user ∧
          ping ctx (some user) system = .ok done ∨
        Commands system ctx data pongFunction user ∧
          pong ctx (some user) system = .ok done := by
  have hdiffers : pingFunction ≠ pongFunction := by decide
  simp only [executeWithInterchainToken, reads_bind, lift_bind_eq_ok, Outcome.require_eq_ok,
    Outcome.exists_unit, Outcome.orFail_eq_ok, Commands]
  constructor
  · rintro ⟨⟨function, user⟩, hdata, hcaller, hdone⟩
    by_cases hping : function = pingFunction
    · rw [if_pos hping] at hdone
      exact ⟨user, .inl ⟨⟨hping ▸ hdata, hcaller⟩, hdone⟩⟩
    · rw [if_neg hping] at hdone
      by_cases hpong : function = pongFunction
      · rw [if_pos hpong] at hdone
        exact ⟨user, .inr ⟨⟨hpong ▸ hdata, hcaller⟩, hdone⟩⟩
      · rw [if_neg hpong] at hdone
        exact absurd (lift_eq_ok.mp hdone).1 (by simp)
  · rintro ⟨user, ⟨⟨hdata, hcaller⟩, hdone⟩ | ⟨⟨hdata, hcaller⟩, hdone⟩⟩
    · exact ⟨_, hdata, hcaller, (if_pos rfl).symm ▸ hdone⟩
    · refine ⟨_, hdata, hcaller, ?_⟩
      rw [if_neg hdiffers.symm, if_pos rfl]
      exact hdone

/-- An endpoint that takes no payment completes where there is none. -/
theorem unpaid_eq_ok {A : Type} {x : Tx A} {done : Completed System Action A} :
    unpaid ctx x system = .ok done ↔ ctx.callValue = .none ∧ x system = .ok done := by
  simp only [unpaid, requireNotPayable, lift_bind_eq_ok, Outcome.require_eq_ok,
    Outcome.exists_unit]
  rfl

/-- An endpoint that returns nothing. -/
theorem silent_eq_ok {x : Tx Unit} {answer : Answer} :
    (do x; return none : Tx Answer) system = .ok ⟨answer, next, trace⟩ ↔
      x system = .ok ⟨(), next, trace⟩ ∧ answer = none := by
  constructor
  · intro h
    obtain ⟨_, middle, first, second, hx, hreturn, rfl⟩ := Transaction.bind_eq_ok.mp h
    obtain ⟨rfl, rfl, rfl⟩ := pure_eq_ok.mp hreturn
    rw [List.append_nil]
    exact ⟨hx, rfl⟩
  · rintro ⟨hx, rfl⟩
    exact Transaction.bind_eq_ok.mpr ⟨(), next, trace, [], hx, rfl, List.append_nil _⟩

end Endpoints

/-! ## The last user -/

/-- Everybody up to the last user of `pong_all` is settled. -/
structure Sound (system : System) : Prop where
  numbered : Numbered system.contract
  cursor_le : system.contract.pongAllLastUser ≤ system.contract.userMapper.getUserCount
  later : ∀ user, system.status user = .registered →
    system.contract.pongAllLastUser < system.contract.userMapper.getUserId user

section Cursor

variable {system middle : System} {user : Address} {users : List Address} {amount : ℕ}

theorem Sound.credit (h : Sound system) : Sound (system.credit amount) :=
  ⟨h.numbered, h.cursor_le, h.later⟩

theorem Solvent.credit (h : Solvent system) : Solvent (system.credit amount) :=
  Nat.le_add_right_of_le h

theorem Sound.register (h : Sound system) (hnew : system.status user = .new) :
    Sound (system.register user) where
  numbered := numbered_register h.numbered hnew
  cursor_le := by
    have hmem := notMem_addresses h.numbered hnew
    exact h.cursor_le.trans ((Nat.le_succ _).trans (UserMapper.getUserCount_create hmem).ge)
  later other hother := by
    have hmem := notMem_addresses h.numbered hnew
    change system.contract.pongAllLastUser <
      (system.contract.userMapper.getOrCreateUser user).2.getUserId other
    rw [status_register h.numbered hnew] at hother
    rw [UserMapper.getUserId_create hmem]
    by_cases hsame : other = user
    · rw [hsame, Function.update_self]
      exact Nat.lt_succ_of_le h.cursor_le
    · rw [Function.update_of_ne hsame] at hother ⊢
      exact h.later other hother

/-- Whoever is still registered was not paid. -/
theorem Pays.registered_before (h : Pays system users middle)
    (hnumbered : Numbered system.contract) (hregistered : middle.status user = .registered) :
    user ∉ users ∧ system.status user = .registered := by
  have huser : user ∉ users := by
    intro hmem
    rw [h.status_of_mem hnumbered hmem] at hregistered
    contradiction
  exact ⟨huser, h.status_of_notMem hnumbered huser ▸ hregistered⟩

theorem Pays.userMapper_rewind (h : Pays system users middle) (cursor : ℕ) :
    (middle.rewind cursor).contract.userMapper = system.contract.userMapper := by
  change middle.contract.userMapper = _
  rw [h.frame.2]

theorem Sound.pays (hsound : Sound system) (h : Pays system users middle) : Sound middle where
  numbered := h.numbered hsound.numbered
  cursor_le := by
    rw [h.frame.2]
    exact hsound.cursor_le
  later user hregistered := by
    rw [h.frame.2]
    exact hsound.later user (h.registered_before hsound.numbered hregistered).2

section Sweep

variable {gasLeft : ℕ → UInt64} {status : OperationCompletionStatus} {cursor : ℕ}
variable (hsound : Sound system)
variable (h : Sweeps gasLeft system system.contract.pongAllLastUser users middle status cursor)
include hsound h

/-- The gas did not last for those who are still registered. -/
theorem Sweeps.not_affords (hregistered : middle.status user = .registered) :
    ¬ Affords gasLeft system.contract.pongAllLastUser
      (system.contract.userMapper.getUserId user) := by
  obtain ⟨huser, hbefore⟩ := h.pays.registered_before hsound.numbered hregistered
  intro haffords
  exact huser ((h.users_iff user).mpr ⟨hbefore, hsound.later user hbefore, haffords⟩)

theorem Sweeps.sound : Sound (middle.rewind cursor) where
  numbered := h.pays.numbered hsound.numbered
  cursor_le := by
    rw [h.pays.userMapper_rewind]
    change cursor ≤ _
    rcases h.ends with ⟨_, hcursor, _⟩ | ⟨_, _, hcursor, _⟩
    · exact hcursor ▸ Nat.zero_le _
    · exact hcursor.le
  later user hregistered := by
    have hnot := h.not_affords hsound hregistered
    rw [h.pays.userMapper_rewind]
    change cursor < _
    rcases h.ends with ⟨_, hcursor, _⟩ | ⟨_, _, _, haffords⟩
    · obtain ⟨_, hbefore⟩ := h.pays.registered_before hsound.numbered hregistered
      exact hcursor ▸ Nat.zero_lt_of_lt (hsound.later user hbefore)
    · by_contra hle
      apply hnot
      intro lastUser hfirst hlast
      exact haffords lastUser hfirst (hlast.trans_le (not_lt.mp hle))

/-- When the loop completes nobody is left. -/
theorem Sweeps.registered_empty (hcompleted : status = .completed) : middle.registered = ∅ := by
  apply Finset.eq_empty_of_forall_notMem
  intro user huser
  have hregistered := (mem_registered (h.pays.numbered hsound.numbered)).mp huser
  apply h.not_affords hsound hregistered
  rcases h.ends with ⟨_, _, haffords⟩ | ⟨hinterrupted, _⟩
  · intro lastUser hfirst hlast
    exact haffords lastUser hfirst (hlast.trans_le UserMapper.getUserId_le)
  · rw [hcompleted] at hinterrupted
    contradiction

end Sweep

end Cursor

/-! ## Calls -/

/-- What a completed call did. -/
inductive Does (crypto : Crypto) (system : System) (input : Input) : Output → System → Prop
  | registers {user : Address} :
      Registers system input user →
      Does crypto system input ⟨none, []⟩ ((system.credit input.egld).register user)
  | pays {users : List Address} {middle : System} {answer : Answer} {cursor : ℕ} :
      Pays (system.credit input.egld) users middle →
      (∀ user, user ∈ users ↔ Withdraws crypto system input user) →
      input.pinged = [] →
      (users = [] → input.egld = 0) →
      system.contract.deadline ≤ input.ctx.blockTimestamp →
      Sound (middle.rewind cursor) →
      (answer = some .completed → middle.registered = ∅) →
      Does crypto system input ⟨answer, payments system users⟩ (middle.rewind cursor)
  | administers (interchainTokenService : Address) :
      input.egld = 0 →
      input.pinged = [] →
      (∀ user, ¬ PongsFor crypto system input user) →
      Does crypto system input ⟨none, []⟩
        { system with contract := { system.contract with interchainTokenService } }

section Calls

variable {crypto : Crypto} {system next : System} {input : Input} {user : Address}
variable {ctx : CallContext} {answer : Answer} {trace : List Action}

theorem egld_of_none (h : input.ctx.callValue = .none) : input.egld = 0 := by
  rw [Input.egld, h]
  exact EgldOrMultiEsdtPayment.total_egld 0

/-- Without a payment there is nothing to credit. -/
theorem credit_of_none (h : ctx.callValue = .none) :
    system.credit (ctx.callValue.total .egld) = system := by
  rw [h]
  rfl

/-- Paying one user leaves the last user of `pong_all` where it was. -/
theorem does_one (hsound : Sound system) (hsolvent : Solvent system)
    (hone : ∀ other, PongsFor crypto system input other ↔ other = user)
    (hpinged : input.pinged = [])
    (hexpired : system.contract.deadline ≤ input.ctx.blockTimestamp)
    (hregistered : system.status user = .registered) :
    Does crypto system input ⟨none, payments system [user]⟩
      ((system.credit input.egld).withdraw user) := by
  have hcovered : system.contract.pingAmount ≤ (system.credit input.egld).balance :=
    @pingAmount_le (system.credit input.egld) user hsound.numbered hsolvent.credit hregistered
  have hpays : Pays (system.credit input.egld) [user]
      ((system.credit input.egld).withdraw user) :=
    .cons hregistered hcovered (.nil _)
  apply @Does.pays crypto system input [user] _ none system.contract.pongAllLastUser hpays
  · intro other
    rw [List.mem_singleton, Withdraws, hone]
    constructor
    · rintro rfl
      exact ⟨rfl, hexpired, hregistered⟩
    · exact And.left
  · exact hpinged
  · simp
  · exact hexpired
  · exact hsound.credit.pays hpays
  · simp

theorem receive_eq : receive ctx system =
    .ok ⟨(), system.credit (ctx.callValue.total .egld), []⟩ := rfl

theorem pinged_of_pingsFor (h : PingsFor system input user) : input.pinged = [user] := by
  cases hcall : input.call with
  | ping optCaller =>
      simp only [PingsFor, hcall] at h
      simp only [Input.pinged, hcall, h.2]
  | executeWithInterchainToken data =>
      simp only [PingsFor, hcall, Commands] at h
      simp only [Input.pinged, hcall, h.1, if_true]
  | _ => simp [PingsFor, hcall] at h

theorem pinged_of_pongsFor (h : PongsFor crypto system input user) : input.pinged = [] := by
  have hdiffers : pongFunction ≠ pingFunction := by decide
  cases hcall : input.call with
  | executeWithInterchainToken data =>
      simp only [PongsFor, hcall, Commands] at h
      simp only [Input.pinged, hcall, h.1, if_neg hdiffers]
  | pong | execute | pongAll => simp only [Input.pinged, hcall]
  | _ => simp [PongsFor, hcall] at h

/-- No call is a ping and a pong. -/
theorem not_pongsFor_of_pingsFor (h : PingsFor system input user) (other : Address) :
    ¬ PongsFor crypto system input other := by
  intro hpongs
  have hpinged := pinged_of_pingsFor h
  rw [pinged_of_pongsFor hpongs] at hpinged
  contradiction

/-- After the deadline `pong_all` completes, whatever the gas. -/
theorem pongAll_ok {gasLeft : ℕ → UInt64} (hsound : Sound system) (hsolvent : Solvent system)
    (hexpired : system.contract.deadline ≤ ctx.blockTimestamp) :
    ∃ users middle status cursor, pongAll ctx gasLeft system =
        .ok ⟨status, middle.rewind cursor, payments system users⟩ ∧
      Sweeps gasLeft system system.contract.pongAllLastUser users middle status cursor := by
  have hopen : requireExpired ctx system = .ok ⟨(), system, []⟩ := by
    rw [requireExpired_eq, if_pos hexpired]
  rw [pongAll, bind_of_ok hopen, reads_bind, reads_bind]
  exact pongAllLoop_ok hsound.numbered hsolvent (Nat.add_sub_cancel' hsound.cursor_le)

theorem expired_of_pongAll {gasLeft : ℕ → UInt64}
    {done : Completed System Action OperationCompletionStatus}
    (h : pongAll ctx gasLeft system = .ok done) :
    system.contract.deadline ≤ ctx.blockTimestamp := by
  by_contra hearly
  rw [pongAll, bind_of_error ((requireExpired_eq).trans (if_neg hearly))] at h
  contradiction

theorem perform_does (hsound : Sound system) (hsolvent : Solvent system)
    (h : perform crypto input.ctx input.call system = .ok ⟨answer, next, trace⟩) :
    Does crypto system input ⟨answer, trace⟩ next := by
  obtain ⟨ctx, call⟩ := input
  have hcredited : Sound (system.credit (ctx.callValue.total .egld)) := hsound.credit
  have hsolvent' : Solvent (system.credit (ctx.callValue.total .egld)) := hsolvent.credit
  rw [perform.eq_def, bind_of_ok receive_eq] at h
  cases call with
  | upgrade =>
      obtain ⟨hunpaid, rfl⟩ := silent_eq_ok.mp h
      obtain ⟨hnone, hpure⟩ := unpaid_eq_ok.mp hunpaid
      obtain ⟨_, rfl, rfl⟩ := pure_eq_ok.mp hpure
      have hzero : (⟨ctx, .upgrade⟩ : Input).egld = 0 := egld_of_none hnone
      rw [credit_of_none hnone]
      exact .administers system.contract.interchainTokenService hzero rfl
        fun _ => id
  | setInterchainTokenService service =>
      obtain ⟨hunpaid, rfl⟩ := silent_eq_ok.mp h
      obtain ⟨hnone, hset⟩ := unpaid_eq_ok.mp hunpaid
      obtain ⟨_, _, hmodifies⟩ := lift_bind_eq_ok.mp hset
      obtain ⟨rfl, rfl⟩ := modifies_eq_ok.mp hmodifies
      have hzero : (⟨ctx, .setInterchainTokenService service⟩ : Input).egld = 0 :=
        egld_of_none hnone
      rw [credit_of_none hnone]
      exact .administers service hzero rfl fun _ => id
  | ping optCaller =>
      obtain ⟨value, hvalue, hrest⟩ := lift_bind_eq_ok.mp h
      obtain ⟨hping, rfl⟩ := silent_eq_ok.mp hrest
      obtain ⟨hpingable, rfl, rfl⟩ := (ping_eq_ok hcredited.numbered).mp hping
      have hegld : ∃ value, ctx.callValue = .egld value := by
        cases hcall : ctx.callValue with
        | egld value => exact ⟨value, rfl⟩
        | multiEsdt payments => simp [egldValue, hcall] at hvalue
      exact .registers ⟨⟨hegld, rfl⟩, hpingable⟩
  | pong optCaller =>
      obtain ⟨hunpaid, rfl⟩ := silent_eq_ok.mp h
      obtain ⟨hnone, hpong⟩ := unpaid_eq_ok.mp hunpaid
      obtain ⟨hexpired, hregistered, rfl, rfl⟩ :=
        (pong_eq_ok hcredited.numbered hsolvent').mp hpong
      exact does_one hsound hsolvent (fun other => and_iff_right hnone) rfl hexpired hregistered
  | execute validateMessage sourceChain messageId sourceAddress payload =>
      obtain ⟨hunpaid, rfl⟩ := silent_eq_ok.mp h
      obtain ⟨hnone, hexecute⟩ := unpaid_eq_ok.mp hunpaid
      obtain ⟨hvalid, data, hdata, hpong⟩ := execute_eq_ok.mp hexecute
      obtain ⟨hexpired, hregistered, rfl, rfl⟩ :=
        (pong_eq_ok hcredited.numbered hsolvent').mp hpong
      refine does_one hsound hsolvent (fun other => ?_) rfl hexpired hregistered
      constructor
      · rintro ⟨_, _, function, hother⟩
        exact congrArg Data.address (Option.some.inj (hother.symm.trans hdata))
      · rintro rfl
        exact ⟨hnone, hvalid, data.function, hdata⟩
  | executeWithInterchainToken data =>
      obtain ⟨hexecute, rfl⟩ := silent_eq_ok.mp h
      obtain ⟨user, ⟨hcommands, hping⟩ | ⟨hcommands, hpong⟩⟩ :=
        executeWithInterchainToken_eq_ok.mp hexecute
      · obtain ⟨hpingable, rfl, rfl⟩ := (ping_eq_ok hcredited.numbered).mp hping
        have hpings : PingsFor system ⟨ctx, .executeWithInterchainToken data⟩ user := hcommands
        exact .registers ⟨hpings, hpingable⟩
      · obtain ⟨hexpired, hregistered, rfl, rfl⟩ :=
          (pong_eq_ok hcredited.numbered hsolvent').mp hpong
        have hpongs : PongsFor crypto system ⟨ctx, .executeWithInterchainToken data⟩ user :=
          hcommands
        refine does_one hsound hsolvent (fun other => ?_) (pinged_of_pongsFor hpongs)
          hexpired hregistered
        constructor
        · rintro ⟨hother, _⟩
          exact congrArg Data.address (Option.some.inj (hother.symm.trans hcommands.1))
        · rintro rfl
          exact hcommands
  | pongAll gasLeft =>
      obtain ⟨status, _, first, second, hunpaid, hreturn, rfl⟩ := Transaction.bind_eq_ok.mp h
      obtain ⟨rfl, rfl, rfl⟩ := pure_eq_ok.mp hreturn
      obtain ⟨hnone, hpong⟩ := unpaid_eq_ok.mp hunpaid
      have hexpired := expired_of_pongAll hpong
      obtain ⟨users, middle, _, cursor, hloop, hsweeps⟩ := pongAll_ok hcredited hsolvent' hexpired
      obtain ⟨rfl, rfl, rfl⟩ := Completed.mk.inj (Except.ok.inj (hpong.symm.trans hloop))
      rw [List.append_nil]
      apply Does.pays hsweeps.pays
      · intro user
        rw [hsweeps.users_iff]
        constructor
        · rintro ⟨hregistered, hlater, haffords⟩
          exact ⟨⟨hnone, hlater, haffords⟩, hexpired, hregistered⟩
        · rintro ⟨⟨_, hlater, haffords⟩, _, hregistered⟩
          exact ⟨hregistered, hlater, haffords⟩
      · rfl
      · exact fun _ => egld_of_none hnone
      · exact hexpired
      · exact hsweeps.sound hcredited
      · intro hcompleted
        exact hsweeps.registered_empty hcredited (Option.some.inj hcompleted)

/-- A call that may register a user completes. -/
theorem completes_of_registers (hsound : Sound system) (h : Registers system input user) :
    ∃ done, perform crypto input.ctx input.call system = .ok done := by
  obtain ⟨ctx, call⟩ := input
  obtain ⟨hpings, hpingable⟩ := h
  have hcredited : Sound (system.credit (ctx.callValue.total .egld)) := hsound.credit
  have hdone : ping ctx (some user) (system.credit (ctx.callValue.total .egld)) =
      .ok ⟨(), _, []⟩ := (ping_eq_ok hcredited.numbered).mpr ⟨hpingable, rfl, rfl⟩
  rw [perform.eq_def, bind_of_ok receive_eq]
  cases call with
  | ping optCaller =>
      obtain ⟨⟨value, hvalue⟩, huser⟩ := hpings
      have hvalue : ctx.callValue = .egld value := hvalue
      have hegld : egldValue ctx = .ok value := by
        rw [egldValue, hvalue]
      have hping : ping ctx optCaller (system.credit (ctx.callValue.total .egld)) =
          .ok ⟨(), _, []⟩ := (ping_eq_ok hcredited.numbered).mpr ⟨huser ▸ hpingable, rfl, rfl⟩
      exact ⟨_, lift_bind_eq_ok.mpr ⟨value, hegld, silent_eq_ok.mpr ⟨hping, rfl⟩⟩⟩
  | executeWithInterchainToken data =>
      exact ⟨_, silent_eq_ok.mpr
        ⟨executeWithInterchainToken_eq_ok.mpr ⟨user, .inl ⟨hpings, hdone⟩⟩, rfl⟩⟩
  | _ => exact absurd hpings id

/-- A call that may pay a user completes. -/
theorem completes_of_withdraws (hsound : Sound system) (hsolvent : Solvent system)
    (h : Withdraws crypto system input user) :
    ∃ done, perform crypto input.ctx input.call system = .ok done := by
  obtain ⟨ctx, call⟩ := input
  obtain ⟨hpongs, hexpired, hregistered⟩ := h
  have hcredited : Sound (system.credit (ctx.callValue.total .egld)) := hsound.credit
  have hsolvent' : Solvent (system.credit (ctx.callValue.total .egld)) := hsolvent.credit
  have hdone : pong ctx (some user) (system.credit (ctx.callValue.total .egld)) =
      .ok ⟨(), _, _⟩ :=
    (pong_eq_ok hcredited.numbered hsolvent').mpr ⟨hexpired, hregistered, rfl, rfl⟩
  rw [perform.eq_def, bind_of_ok receive_eq]
  cases call with
  | pong optCaller =>
      obtain ⟨hnone, rfl⟩ := hpongs
      have hpong : pong ctx optCaller (system.credit (ctx.callValue.total .egld)) =
          .ok ⟨(), _, _⟩ :=
        (pong_eq_ok hcredited.numbered hsolvent').mpr ⟨hexpired, hregistered, rfl, rfl⟩
      exact ⟨_, silent_eq_ok.mpr ⟨unpaid_eq_ok.mpr ⟨hnone, hpong⟩, rfl⟩⟩
  | execute validateMessage sourceChain messageId sourceAddress payload =>
      obtain ⟨hnone, hvalid, function, hdata⟩ := hpongs
      have hexecute : execute ctx crypto validateMessage sourceChain messageId sourceAddress
          payload (system.credit (ctx.callValue.total .egld)) = .ok _ :=
        execute_eq_ok.mpr ⟨hvalid, _, hdata, hdone⟩
      exact ⟨_, silent_eq_ok.mpr ⟨unpaid_eq_ok.mpr ⟨hnone, hexecute⟩, rfl⟩⟩
  | executeWithInterchainToken data =>
      exact ⟨_, silent_eq_ok.mpr
        ⟨executeWithInterchainToken_eq_ok.mpr ⟨user, .inr ⟨hpongs, hdone⟩⟩, rfl⟩⟩
  | pongAll gasLeft =>
      obtain ⟨users, middle, status, cursor, hloop, _⟩ :=
        @pongAll_ok _ ctx gasLeft hcredited hsolvent' hexpired
      exact ⟨_, Transaction.bind_eq_ok.mpr
        ⟨_, _, _, [], unpaid_eq_ok.mpr ⟨hpongs.1, hloop⟩, rfl, rfl⟩⟩
  | _ => exact absurd hpongs id

end Calls

end AxelarCgp.PingPong
