import AxelarCgp.Core.Passage
import AxelarCgp.PingPong.Contract
import Mathlib.Data.Finset.Card

/-!
# Users and their statuses

A user is looked up by number and the status is kept under the number; here both are read
under the address.  Registering and withdrawing change the status of one user each, and
`pong_all` withdraws users one after the other.
-/

namespace AxelarCgp.PingPong

open Passage

/-! ## Numbers -/

namespace UserMapper

variable {mapper : UserMapper} {address other : Address} {userId : ℕ}

theorem getUserId_eq_zero : mapper.getUserId address = 0 ↔ address ∉ mapper.addresses := by
  unfold getUserId
  split <;> simp_all

theorem getUserId_le : mapper.getUserId address ≤ mapper.getUserCount := by
  unfold getUserId
  split
  · rename_i hmem
    exact List.idxOf_lt_length_of_mem hmem
  · exact Nat.zero_le _

theorem getUserId_pos (hmem : address ∈ mapper.addresses) : 0 < mapper.getUserId address := by
  rw [getUserId, if_pos hmem]
  exact Nat.succ_pos _

/-- No two users have one number. -/
theorem getUserId_inj (hmem : address ∈ mapper.addresses) :
    mapper.getUserId other = mapper.getUserId address ↔ other = address := by
  constructor
  · intro heq
    have hpos := getUserId_pos hmem
    have hother : other ∈ mapper.addresses := by
      by_contra hother
      rw [getUserId_eq_zero.mpr hother] at heq
      omega
    rw [getUserId, getUserId, if_pos hmem, if_pos hother] at heq
    exact (List.idxOf_inj hother).mp (Nat.succ.inj heq)
  · rintro rfl
    rfl

theorem getUserAddress_eq_some : mapper.getUserAddress userId = some address ↔
    address ∈ mapper.addresses ∧ mapper.getUserId address = userId := by
  cases userId with
  | zero =>
      simp only [getUserAddress, reduceCtorEq, false_iff, getUserId_eq_zero]
      exact fun h => h.2 h.1
  | succ index =>
      constructor
      · intro hsome
        obtain ⟨hlt, rfl⟩ := List.getElem?_eq_some_iff.mp hsome
        have hmem := List.getElem_mem hlt
        refine ⟨hmem, ?_⟩
        rw [getUserId, if_pos hmem, List.Nodup.idxOf_getElem mapper.nodup]
      · rintro ⟨hmem, hid⟩
        rw [getUserId, if_pos hmem] at hid
        obtain rfl := Nat.succ.inj hid
        exact List.getElem?_eq_some_iff.mpr
          ⟨List.idxOf_lt_length_of_mem hmem, List.getElem_idxOf _⟩

/-- Every number up to the count is a user's. -/
theorem exists_user (hpos : 0 < userId) (hle : userId ≤ mapper.getUserCount) :
    ∃ address, mapper.getUserAddress userId = some address := by
  obtain ⟨index, rfl⟩ := Nat.exists_eq_succ_of_ne_zero hpos.ne'
  exact ⟨mapper.addresses[index], List.getElem?_eq_getElem hle⟩

theorem getOrCreateUser_of_mem (hmem : address ∈ mapper.addresses) :
    mapper.getOrCreateUser address = (mapper.getUserId address, mapper) := by
  rw [getOrCreateUser, dif_pos hmem]

section Created

variable (hnew : address ∉ mapper.addresses)
include hnew

theorem getOrCreateUser_fst :
    (mapper.getOrCreateUser address).1 = mapper.getUserCount + 1 := by
  rw [getOrCreateUser, dif_neg hnew]

theorem addresses_create :
    (mapper.getOrCreateUser address).2.addresses = mapper.addresses ++ [address] := by
  rw [getOrCreateUser, dif_neg hnew]

theorem getUserCount_create :
    (mapper.getOrCreateUser address).2.getUserCount = mapper.getUserCount + 1 := by
  rw [getUserCount, addresses_create hnew, List.length_append]
  rfl

/-- A new user gets the next number, and the others keep theirs. -/
theorem getUserId_create : (mapper.getOrCreateUser address).2.getUserId =
    Function.update mapper.getUserId address (mapper.getUserCount + 1) := by
  funext other
  unfold getUserId
  rw [addresses_create hnew]
  by_cases hother : other = address
  · subst hother
    rw [Function.update_self, if_pos (by simp), List.idxOf_append_of_notMem hnew]
    simp [getUserCount]
  · rw [Function.update_of_ne hother]
    by_cases hmem : other ∈ mapper.addresses
    · simp [hmem, List.idxOf_append_of_mem]
    · simp [hmem, hother]

end Created

end UserMapper

/-! ## Statuses -/

def UserStatus.stage : UserStatus → Stage
  | new => .outside
  | registered => .inside
  | withdrawn => .gone

namespace UserStatus

variable {status : UserStatus}

@[simp]
theorem stage_eq_outside : status.stage = .outside ↔ status = new := by
  cases status <;> simp [stage]

@[simp]
theorem stage_eq_inside : status.stage = .inside ↔ status = registered := by
  cases status <;> simp [stage]

@[simp]
theorem stage_eq_gone : status.stage = .gone ↔ status = withdrawn := by
  cases status <;> simp [stage]

end UserStatus

namespace System

/-- `getUserStatus` of the number of a user. -/
def status (system : System) (user : Address) : UserStatus :=
  system.contract.userStatus (system.contract.userMapper.getUserId user)

def stages (system : System) : Address → Stage :=
  UserStatus.stage ∘ system.status

/-- The users with status `Registered`. -/
def registered (system : System) : Finset Address :=
  system.contract.userMapper.addresses.toFinset.filter fun user =>
    system.status user = .registered

/-- Enter a new user under the next number. -/
def register (system : System) (user : Address) : System :=
  let (userId, userMapper) := system.contract.userMapper.getOrCreateUser user
  { system with contract := { system.contract with
      userMapper
      userStatus := Function.update system.contract.userStatus userId .registered } }

/-- Mark a user as paid, and pay. -/
def withdraw (system : System) (user : Address) : System :=
  { system with
    contract := { system.contract with
      userStatus := Function.update system.contract.userStatus
        (system.contract.userMapper.getUserId user) .withdrawn }
    balance :=
      if user = system.address then system.balance
      else system.balance - system.contract.pingAmount }

end System

/-- Exactly the numbers in use have a status. -/
def Numbered (contract : State) : Prop :=
  ∀ userId, contract.userStatus userId = .new ↔
    userId = 0 ∨ contract.userMapper.getUserCount < userId

section Statuses

variable {system : System} {user : Address}

theorem mem_addresses_iff (hnumbered : Numbered system.contract) :
    user ∈ system.contract.userMapper.addresses ↔ system.status user ≠ .new := by
  rw [System.status, Ne, hnumbered, not_or, not_lt, UserMapper.getUserId_eq_zero, not_not]
  exact (and_iff_left UserMapper.getUserId_le).symm

theorem notMem_addresses (hnumbered : Numbered system.contract)
    (hnew : system.status user = .new) : user ∉ system.contract.userMapper.addresses := by
  rw [mem_addresses_iff hnumbered]
  exact not_not.mpr hnew

theorem mem_registered (hnumbered : Numbered system.contract) :
    user ∈ system.registered ↔ system.status user = .registered := by
  rw [System.registered, Finset.mem_filter, List.mem_toFinset, mem_addresses_iff hnumbered]
  constructor
  · exact And.right
  · intro hregistered
    exact ⟨by simp [hregistered], hregistered⟩

theorem status_register (hnumbered : Numbered system.contract)
    (hnew : system.status user = .new) :
    (system.register user).status = Function.update system.status user .registered := by
  have hmem := notMem_addresses hnumbered hnew
  funext other
  rw [System.register, System.status]
  simp only [UserMapper.getOrCreateUser_fst hmem, UserMapper.getUserId_create hmem]
  by_cases hother : other = user
  · simp [hother]
  · have hle := @UserMapper.getUserId_le system.contract.userMapper other
    rw [Function.update_of_ne hother, Function.update_of_ne hother,
      Function.update_of_ne (Nat.lt_succ_of_le hle).ne]
    rfl

theorem numbered_register (hnumbered : Numbered system.contract)
    (hnew : system.status user = .new) : Numbered (system.register user).contract := by
  have hmem := notMem_addresses hnumbered hnew
  intro userId
  simp only [System.register, UserMapper.getOrCreateUser_fst hmem,
    UserMapper.getUserCount_create hmem]
  by_cases hid : userId = system.contract.userMapper.getUserCount + 1
  · simp [hid]
  · rw [Function.update_of_ne hid, hnumbered]
    omega

theorem status_withdraw (hmem : user ∈ system.contract.userMapper.addresses) :
    (system.withdraw user).status = Function.update system.status user .withdrawn := by
  funext other
  rw [System.withdraw, System.status]
  by_cases hother : other = user
  · simp [hother]
  · have hid := mt (UserMapper.getUserId_inj hmem).mp hother
    rw [Function.update_of_ne hother]
    exact Function.update_of_ne hid _ _

theorem numbered_withdraw (hnumbered : Numbered system.contract)
    (hregistered : system.status user = .registered) :
    Numbered (system.withdraw user).contract := by
  intro userId
  simp only [System.withdraw]
  by_cases hid : userId = system.contract.userMapper.getUserId user
  · subst hid
    have hold := hnumbered (system.contract.userMapper.getUserId user)
    change system.status user = .new ↔ _ at hold
    rw [hregistered] at hold
    simpa using hold
  · rw [Function.update_of_ne hid]
    exact hnumbered userId

end Statuses

end AxelarCgp.PingPong
