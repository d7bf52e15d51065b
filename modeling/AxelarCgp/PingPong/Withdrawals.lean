import AxelarCgp.PingPong.Users

/-!
# Withdrawals

A withdrawal marks a registered user and pays the fixed sum, so as long as the balance covers
everybody registered no withdrawal fails.  The loop of `pong_all` withdraws, in the order of
their numbers, exactly the registered users that it gets to before it runs low on gas.
-/

namespace AxelarCgp.PingPong

open Passage Transaction

/-- The fixed sum is there for everybody registered. -/
def Solvent (system : System) : Prop :=
  system.contract.pingAmount * system.registered.card ≤ system.balance

/-- Registered users are paid, one after the other. -/
inductive Pays : System → List Address → System → Prop
  | nil (system : System) : Pays system [] system
  | cons {system last : System} {user : Address} {users : List Address} :
      system.status user = .registered →
      system.contract.pingAmount ≤ system.balance →
      Pays (system.withdraw user) users last →
      Pays system (user :: users) last

/-- What is sent to users who are paid. -/
def payments (system : System) (users : List Address) : List Action :=
  users.map fun user => .send user system.contract.pingAmount

section Solvency

variable {system : System} {user : Address}

theorem mem_addresses_of_registered (hnumbered : Numbered system.contract)
    (hregistered : system.status user = .registered) :
    user ∈ system.contract.userMapper.addresses := by
  rw [mem_addresses_iff hnumbered, hregistered]
  simp

theorem pingAmount_le (hnumbered : Numbered system.contract) (hsolvent : Solvent system)
    (hregistered : system.status user = .registered) :
    system.contract.pingAmount ≤ system.balance := by
  have hmem := (mem_registered hnumbered).mpr hregistered
  have hpos : 0 < system.registered.card := Finset.card_pos.mpr ⟨user, hmem⟩
  exact (Nat.le_mul_of_pos_right _ hpos).trans hsolvent

theorem registered_withdraw (hnumbered : Numbered system.contract)
    (hregistered : system.status user = .registered) :
    (system.withdraw user).registered = system.registered.erase user := by
  have hstatus := status_withdraw (mem_addresses_of_registered hnumbered hregistered)
  ext other
  rw [mem_registered (numbered_withdraw hnumbered hregistered), hstatus, Finset.mem_erase,
    mem_registered hnumbered]
  by_cases hother : other = user
  · simp [hother]
  · simp [hother]

theorem solvent_withdraw (hnumbered : Numbered system.contract) (hsolvent : Solvent system)
    (hregistered : system.status user = .registered) : Solvent (system.withdraw user) := by
  have hcard := Finset.card_erase_add_one ((mem_registered hnumbered).mpr hregistered)
  rw [← registered_withdraw hnumbered hregistered] at hcard
  rw [Solvent, ← hcard, mul_add, mul_one] at hsolvent
  change system.contract.pingAmount * (system.withdraw user).registered.card ≤
    if user = system.address then system.balance
    else system.balance - system.contract.pingAmount
  split <;> omega

end Solvency

namespace Pays

variable {system last : System} {user : Address} {users : List Address}

/-- Payments change statuses and the balance. -/
theorem frame (h : Pays system users last) :
    last.address = system.address ∧
      last.contract = { system.contract with userStatus := last.contract.userStatus } := by
  induction h with
  | nil _ => exact ⟨rfl, rfl⟩
  | cons _ _ _ ih => exact ih

theorem numbered (h : Pays system users last) (hnumbered : Numbered system.contract) :
    Numbered last.contract := by
  induction h with
  | nil _ => exact hnumbered
  | cons hregistered _ _ ih => exact ih (numbered_withdraw hnumbered hregistered)

theorem moves (h : Pays system users last) (hnumbered : Numbered system.contract) :
    Moves system.stages (users.map .leaves) last.stages := by
  induction h with
  | nil _ => exact .nil _
  | @cons system _ user _ hregistered _ _ ih =>
      have hstatus := status_withdraw (mem_addresses_of_registered hnumbered hregistered)
      have hrest := ih (numbered_withdraw hnumbered hregistered)
      rw [System.stages, hstatus, Function.comp_update] at hrest
      exact .leaves (UserStatus.stage_eq_inside.mpr hregistered) hrest

/-- Others keep their status. -/
theorem status_of_notMem (h : Pays system users last) (hnumbered : Numbered system.contract)
    (huser : user ∉ users) : last.status user = system.status user := by
  induction h with
  | nil _ => rfl
  | @cons system _ other _ hregistered _ _ ih =>
      obtain ⟨hother, hrest⟩ := not_or.mp (mt List.mem_cons.mpr huser)
      have hstatus := status_withdraw (mem_addresses_of_registered hnumbered hregistered)
      rw [ih (numbered_withdraw hnumbered hregistered) hrest, hstatus,
        Function.update_of_ne hother]

theorem status_of_mem (h : Pays system users last) (hnumbered : Numbered system.contract)
    (huser : user ∈ users) : last.status user = .withdrawn := by
  apply UserStatus.stage_eq_gone.mp
  exact (h.moves hnumbered).gone_iff.mpr (.inr (List.mem_map_of_mem huser))

/-- Everybody but the contract itself took the fixed sum. -/
theorem balance (h : Pays system users last) :
    last.balance + system.contract.pingAmount * (users.filter (· ≠ system.address)).length =
      system.balance := by
  induction h with
  | nil _ => rfl
  | @cons system last user users _ hcovered _ ih =>
      change last.balance + system.contract.pingAmount *
        (users.filter (· ≠ system.address)).length =
          if user = system.address then system.balance
          else system.balance - system.contract.pingAmount at ih
      by_cases hself : user = system.address
      · simpa [hself] using ih
      · rw [if_neg hself] at ih
        rw [List.filter_cons_of_pos (by simpa using hself), List.length_cons, mul_add, mul_one]
        omega

end Pays

/-! ## One withdrawal -/

section Single

variable {ctx : CallContext} {system : System} {user : Address} {userId : ℕ}

theorem directEgld_of_le {amount : ℕ} (h : amount ≤ system.balance) :
    directEgld user amount system = .ok ⟨(), { system with
      balance := if user = system.address then system.balance else system.balance - amount },
      [.send user amount]⟩ := by
  rw [directEgld, reads_bind, Outcome.require_of h, lift_ok_bind]
  rfl

theorem pongByUserId_of_registered (hnumbered : Numbered system.contract)
    (hcovered : system.contract.pingAmount ≤ system.balance)
    (hregistered : system.status user = .registered) :
    pongByUserId (system.contract.userMapper.getUserId user) system =
      .ok ⟨.ok (), system.withdraw user, [.send user system.contract.pingAmount]⟩ := by
  have hmem := mem_addresses_of_registered hnumbered hregistered
  have haddress := UserMapper.getUserAddress_eq_some.mpr ⟨hmem, rfl⟩
  rw [System.status] at hregistered
  rw [pongByUserId, reads_bind, hregistered]
  refine (bind_of_ok rfl).trans ?_
  rw [reads_bind]
  simp only [haddress]
  rw [reads_bind]
  apply bind_eq_ok.mpr
  exact ⟨(), _, _, [], directEgld_of_le hcovered, rfl, rfl⟩

theorem pongByUserId_of_not_registered (h : system.contract.userStatus userId ≠ .registered) :
    ∃ message, pongByUserId userId system = .ok ⟨.error message, system, []⟩ := by
  rw [pongByUserId, reads_bind]
  cases hstatus : system.contract.userStatus userId with
  | new => exact ⟨_, rfl⟩
  | registered => exact absurd hstatus h
  | withdrawn => exact ⟨_, rfl⟩

/-- Whoever asks for a registered user after the deadline is served, and nobody else. -/
theorem pong_eq_ok {optCaller : Option Address} {next : System} {trace : List Action}
    (hnumbered : Numbered system.contract) (hsolvent : Solvent system) :
    pong ctx optCaller system = .ok ⟨(), next, trace⟩ ↔
      system.contract.deadline ≤ ctx.blockTimestamp ∧
      system.status (optCaller.getD ctx.caller) = .registered ∧
      next = system.withdraw (optCaller.getD ctx.caller) ∧
      trace = [.send (optCaller.getD ctx.caller) system.contract.pingAmount] := by
  by_cases hexpired : system.contract.deadline ≤ ctx.blockTimestamp
  · have hopen : requireExpired ctx system = .ok ⟨(), system, []⟩ := by
      rw [requireExpired, reads_bind, Outcome.require_of hexpired]
      rfl
    rw [pong, bind_of_ok hopen, reads_bind]
    by_cases hregistered : system.status (optCaller.getD ctx.caller) = .registered
    · have hpaid := pongByUserId_of_registered hnumbered
        (pingAmount_le hnumbered hsolvent hregistered) hregistered
      have hdone : (do
          let pongResult ← pongByUserId
            (system.contract.userMapper.getUserId (optCaller.getD ctx.caller))
          liftM pongResult : Tx Unit) system = .ok ⟨(), _, _⟩ :=
        bind_eq_ok.mpr ⟨_, _, _, [], hpaid, rfl, rfl⟩
      rw [hdone]
      simp [hexpired, hregistered, eq_comm]
    · obtain ⟨message, hfailed⟩ := pongByUserId_of_not_registered hregistered
      rw [bind_of_ok hfailed]
      simp [hregistered]
  · have hclosed : requireExpired ctx system = .error "can't withdraw before deadline" := by
      rw [requireExpired, reads_bind, require, if_neg hexpired]
      rfl
    rw [pong, bind_of_error hclosed]
    simp [hexpired]

end Single

/-! ## The loop -/

section Loop

variable {gasLeft : ℕ → UInt64} {system middle : System} {user : Address}
variable {first past remaining lastUser : ℕ}

/-- The gas lasts for the users after `first` up to `past`. -/
def Affords (gasLeft : ℕ → UInt64) (first past : ℕ) : Prop :=
  ∀ lastUser, first ≤ lastUser → lastUser < past → PONG_ALL_LOW_GAS_LIMIT ≤ gasLeft lastUser

/-- The state with another last user. -/
def System.rewind (system : System) (lastUser : ℕ) : System :=
  { system with contract := { system.contract with pongAllLastUser := lastUser } }

/-- The loop got to everybody, or stopped for gas at the user it keeps. -/
def Ends (gasLeft : ℕ → UInt64) (count lastUser : ℕ) (status : OperationCompletionStatus)
    (cursor : ℕ) : Prop :=
  status = .completed ∧ cursor = 0 ∧ Affords gasLeft lastUser count ∨
    status = .interruptedBeforeOutOfGas ∧ lastUser ≤ cursor ∧ cursor < count ∧
      Affords gasLeft lastUser cursor

/-- What the loop does from a last user on: it withdraws the registered users it gets to. -/
structure Sweeps (gasLeft : ℕ → UInt64) (system : System) (lastUser : ℕ) (users : List Address)
    (middle : System) (status : OperationCompletionStatus) (cursor : ℕ) : Prop where
  pays : Pays system users middle
  users_iff : ∀ user, user ∈ users ↔ system.status user = .registered ∧
    lastUser < system.contract.userMapper.getUserId user ∧
    Affords gasLeft lastUser (system.contract.userMapper.getUserId user)
  ends : Ends gasLeft system.contract.userMapper.getUserCount lastUser status cursor

theorem affords_self : Affords gasLeft first first :=
  fun _ hfirst hlast => absurd hlast (not_lt.mpr hfirst)

theorem affords_succ (hgas : PONG_ALL_LOW_GAS_LIMIT ≤ gasLeft first) :
    Affords gasLeft (first + 1) past ↔ Affords gasLeft first past := by
  constructor
  · intro h lastUser hfirst hlast
    rcases Nat.eq_or_lt_of_le hfirst with rfl | hlater
    · exact hgas
    · exact h lastUser hlater hlast
  · intro h lastUser hfirst hlast
    exact h lastUser (Nat.le_of_succ_le hfirst) hlast

theorem Ends.of_succ {count cursor : ℕ} {status : OperationCompletionStatus}
    (hgas : PONG_ALL_LOW_GAS_LIMIT ≤ gasLeft lastUser)
    (h : Ends gasLeft count (lastUser + 1) status cursor) :
    Ends gasLeft count lastUser status cursor := by
  rcases h with ⟨hstatus, hcursor, hafford⟩ | ⟨hstatus, hle, hlt, hafford⟩
  · exact .inl ⟨hstatus, hcursor, (affords_succ hgas).mp hafford⟩
  · exact .inr ⟨hstatus, Nat.le_of_succ_le hle, hlt, (affords_succ hgas).mp hafford⟩

theorem sweeps_done (hcount : lastUser = system.contract.userMapper.getUserCount) :
    Sweeps gasLeft system lastUser [] system .completed 0 where
  pays := .nil system
  users_iff user := by
    have hle := @UserMapper.getUserId_le system.contract.userMapper user
    simp only [List.not_mem_nil, false_iff]
    omega
  ends := .inl ⟨rfl, rfl, hcount ▸ affords_self⟩

theorem sweeps_low (hlow : gasLeft lastUser < PONG_ALL_LOW_GAS_LIMIT)
    (hcount : lastUser < system.contract.userMapper.getUserCount) :
    Sweeps gasLeft system lastUser [] system .interruptedBeforeOutOfGas lastUser where
  pays := .nil system
  users_iff user := by
    simp only [List.not_mem_nil, false_iff]
    rintro ⟨_, hlater, hgas⟩
    exact UInt64.not_lt.mpr (hgas lastUser le_rfl hlater) hlow
  ends := .inr ⟨rfl, le_rfl, hcount, affords_self⟩

/-- The next user is not registered. -/
theorem Sweeps.skip {users : List Address} {status : OperationCompletionStatus} {cursor : ℕ}
    (hgas : PONG_ALL_LOW_GAS_LIMIT ≤ gasLeft lastUser)
    (hnot : system.contract.userStatus (lastUser + 1) ≠ .registered)
    (h : Sweeps gasLeft system (lastUser + 1) users middle status cursor) :
    Sweeps gasLeft system lastUser users middle status cursor where
  pays := h.pays
  users_iff user := by
    rw [h.users_iff, affords_succ hgas]
    constructor
    · rintro ⟨hregistered, hlater, hafford⟩
      exact ⟨hregistered, Nat.lt_of_succ_lt hlater, hafford⟩
    · rintro ⟨hregistered, hlater, hafford⟩
      refine ⟨hregistered, lt_of_le_of_ne hlater ?_, hafford⟩
      intro hnext
      rw [System.status, ← hnext] at hregistered
      exact hnot hregistered
  ends := h.ends.of_succ hgas

/-- The next user is withdrawn first. -/
theorem Sweeps.cons {users : List Address} {status : OperationCompletionStatus} {cursor : ℕ}
    (hnumbered : Numbered system.contract) (hgas : PONG_ALL_LOW_GAS_LIMIT ≤ gasLeft lastUser)
    (hcovered : system.contract.pingAmount ≤ system.balance)
    (hregistered : system.status user = .registered)
    (hid : system.contract.userMapper.getUserId user = lastUser + 1)
    (h : Sweeps gasLeft (system.withdraw user) (lastUser + 1) users middle status cursor) :
    Sweeps gasLeft system lastUser (user :: users) middle status cursor where
  pays := .cons hregistered hcovered h.pays
  users_iff other := by
    have hmem := mem_addresses_of_registered hnumbered hregistered
    by_cases hother : other = user
    · subst hother
      rw [hid]
      refine iff_of_true List.mem_cons_self ⟨hregistered, Nat.lt_succ_self _, ?_⟩
      exact (affords_succ hgas).mp affords_self
    · have hne := mt (UserMapper.getUserId_inj hmem).mp hother
      have hsame : (system.withdraw user).contract.userMapper = system.contract.userMapper := rfl
      rw [List.mem_cons, or_iff_right hother, h.users_iff, status_withdraw hmem,
        Function.update_of_ne hother, hsame, affords_succ hgas]
      have hnext : lastUser + 1 < system.contract.userMapper.getUserId other ↔
          lastUser < system.contract.userMapper.getUserId other := by omega
      rw [hnext]
  ends := h.ends.of_succ hgas

/-- The loop always ends, whatever the gas. -/
theorem pongAllLoop_ok (hnumbered : Numbered system.contract) (hsolvent : Solvent system)
    (hcount : lastUser + remaining = system.contract.userMapper.getUserCount) :
    ∃ users middle status cursor, pongAllLoop gasLeft remaining lastUser system =
        .ok ⟨status, middle.rewind cursor, payments system users⟩ ∧
      Sweeps gasLeft system lastUser users middle status cursor := by
  induction remaining generalizing system lastUser with
  | zero => exact ⟨[], system, .completed, 0, rfl, sweeps_done hcount⟩
  | succ remaining ih =>
      rw [pongAllLoop]
      by_cases hlow : gasLeft lastUser < PONG_ALL_LOW_GAS_LIMIT
      · rw [if_pos hlow]
        exact ⟨[], system, _, lastUser, rfl, sweeps_low hlow (by omega)⟩
      · rw [if_neg hlow]
        have hgas := UInt64.not_lt.mp hlow
        have hnext : lastUser + 1 + remaining = system.contract.userMapper.getUserCount := by
          omega
        obtain ⟨user, haddress⟩ := @UserMapper.exists_user system.contract.userMapper
          (lastUser + 1) (Nat.succ_pos _) (by omega)
        obtain ⟨_, hid⟩ := UserMapper.getUserAddress_eq_some.mp haddress
        by_cases hregistered : system.status user = .registered
        · have hcovered := pingAmount_le hnumbered hsolvent hregistered
          have hpaid := pongByUserId_of_registered hnumbered hcovered hregistered
          rw [hid] at hpaid
          obtain ⟨users, middle, status, cursor, hloop, hsweeps⟩ :=
            ih (numbered_withdraw hnumbered hregistered)
              (solvent_withdraw hnumbered hsolvent hregistered) hnext
          refine ⟨user :: users, middle, status, cursor, ?_,
            hsweeps.cons hnumbered hgas hcovered hregistered hid⟩
          exact bind_eq_ok.mpr ⟨_, _, _, _, hpaid, hloop, rfl⟩
        · have hstatus : system.contract.userStatus (lastUser + 1) ≠ .registered := by
            rw [← hid]
            exact hregistered
          obtain ⟨message, hskipped⟩ := pongByUserId_of_not_registered hstatus
          obtain ⟨users, middle, status, cursor, hloop, hsweeps⟩ := ih hnumbered hsolvent hnext
          refine ⟨users, middle, status, cursor, ?_, hsweeps.skip hgas hstatus⟩
          rw [bind_of_ok hskipped]
          exact hloop

end Loop

end AxelarCgp.PingPong
