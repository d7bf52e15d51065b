import AxelarCgp.Core.Journal
import AxelarCgp.Core.Succession
import AxelarCgp.Platform.Roles

/-!
# Who holds which role

The table of roles, seen role by role: the set of accounts that hold it, and the
proposals that are pending.  An operation on one role leaves the holders of the
others alone, whichever accounts it is about.
-/

namespace AxelarCgp

/-- The roles, one by one. -/
inductive Role where
  | minter
  | operator
  | flowLimiter
  deriving DecidableEq

def Role.roles : Role → Roles
  | minter => .MINTER
  | operator => .OPERATOR
  | flowLimiter => .FLOW_LIMITER

theorem Role.roles_ne_none (role : Role) : role.roles ≠ .none := by
  cases role <;> decide

@[simp]
theorem Role.roles_inj {role other : Role} : role.roles = other.roles ↔ role = other := by
  cases role <;> cases other <;> decide

theorem Roles.intersects_role_union (held : Roles) (given role : Role) :
    (held.union given.roles).intersects role.roles =
      (held.intersects role.roles || decide (given = role)) := by
  obtain ⟨_, _, _⟩ := held
  cases given <;> cases role <;>
    simp [Role.roles, union, intersects, MINTER, OPERATOR, FLOW_LIMITER]

theorem Roles.intersects_role_remove (held : Roles) (taken role : Role) :
    (held.remove taken.roles).intersects role.roles =
      (held.intersects role.roles && !decide (taken = role)) := by
  obtain ⟨_, _, _⟩ := held
  cases taken <;> cases role <;>
    simp [Role.roles, remove, intersects, MINTER, OPERATOR, FLOW_LIMITER]

/-- Of a single role there is no part to hold. -/
theorem Roles.contains_role (held : Roles) (role : Role) :
    held.contains role.roles = held.intersects role.roles := by
  obtain ⟨minter, operator, flowLimiter⟩ := held
  cases role <;> cases minter <;> cases operator <;> cases flowLimiter <;> rfl

namespace RoleTable

variable {table : RoleTable}

def holders (table : RoleTable) (role : Role) : Set Address :=
  {account | table.hasRole account role.roles}

theorem contains_iff_mem_holders {account : Address} {role : Role} :
    (table.accountRoles account).contains role.roles ↔ account ∈ table.holders role := by
  rw [Roles.contains_role]
  rfl

@[simp]
theorem holders_empty (role : Role) : RoleTable.empty.holders role = ∅ := by
  ext account
  simp [holders, hasRole, empty, Roles.none, Roles.intersects]

theorem holders_grant (table : RoleTable) (address : Address) (given role : Role) :
    (table.grant address given.roles).holders role =
      if given = role then insert address (table.holders role) else table.holders role := by
  ext account
  by_cases haccount : account = address
  · subst haccount
    by_cases hrole : given = role <;>
      simp [holders, hasRole, Roles.intersects_role_union, hrole]
  · by_cases hrole : given = role <;>
      simp [holders, hasRole, grant_other _ _ haccount, hrole, haccount]

/-- Two roles are granted one after the other. -/
theorem grant_union (table : RoleTable) (address : Address) (left right : Roles) :
    table.grant address (left.union right) = (table.grant address left).grant address right := by
  have hunion : (table.accountRoles address).union (left.union right) =
      ((table.accountRoles address).union left).union right := by
    simp [Roles.union, Bool.or_assoc]
  unfold grant setRoles
  simp [hunion]

theorem holders_withdraw (table : RoleTable) (address : Address) (taken role : Role) :
    (table.withdraw address taken.roles).holders role =
      if taken = role then table.holders role \ {address} else table.holders role := by
  ext account
  by_cases haccount : account = address
  · subst haccount
    by_cases hrole : taken = role <;>
      simp [holders, hasRole, Roles.intersects_role_remove, hrole]
  · by_cases hrole : taken = role <;>
      simp [holders, hasRole, withdraw_other _ _ haccount, hrole, haccount]

@[simp]
theorem holders_setProposedRoles (table : RoleTable) (fromAddress toAddress : Address)
    (roles : Roles) (role : Role) :
    (table.setProposedRoles fromAddress toAddress roles).holders role = table.holders role := rfl

/-- Moving a role hands it on, and leaves the other roles alone. -/
theorem holders_move (table : RoleTable) (fromAddress toAddress : Address) (moved role : Role) :
    ((table.withdraw fromAddress moved.roles).grant toAddress moved.roles).holders role =
      if moved = role then Succession.handOn (table.holders role) fromAddress toAddress
      else table.holders role := by
  rw [holders_grant, holders_withdraw]
  by_cases hrole : moved = role
  · rw [if_pos hrole, if_pos hrole, if_pos hrole, Succession.handOn]
  · rw [if_neg hrole, if_neg hrole, if_neg hrole]

/-! ## Proposals -/

/-- The proposals that are pending, by proposer and addressee. -/
def proposals (table : RoleTable) (key : Address × Address) : Option Roles :=
  if table.proposedRoles key.1 key.2 = .none then none
  else some (table.proposedRoles key.1 key.2)

@[simp]
theorem proposals_empty : RoleTable.empty.proposals = fun _ => none := rfl

@[simp]
theorem proposals_grant (table : RoleTable) (address : Address) (roles : Roles) :
    (table.grant address roles).proposals = table.proposals := rfl

@[simp]
theorem proposals_withdraw (table : RoleTable) (address : Address) (roles : Roles) :
    (table.withdraw address roles).proposals = table.proposals := rfl

theorem proposals_setProposedRoles (table : RoleTable) (fromAddress toAddress : Address)
    (roles : Roles) : (table.setProposedRoles fromAddress toAddress roles).proposals =
      Function.update table.proposals (fromAddress, toAddress)
        (if roles = .none then none else some roles) := by
  funext key
  obtain ⟨proposer, addressee⟩ := key
  by_cases hproposer : proposer = fromAddress
  · subst hproposer
    by_cases haddressee : addressee = toAddress
    · subst haddressee
      simp [proposals, setProposedRoles]
    · have hkey : (proposer, addressee) ≠ (proposer, toAddress) := by simpa using haddressee
      rw [Function.update_of_ne hkey]
      simp [proposals, setProposedRoles, Function.update_of_ne haddressee]
  · have hkey : (proposer, addressee) ≠ (fromAddress, toAddress) := by simp [hproposer]
    rw [Function.update_of_ne hkey]
    simp [proposals, setProposedRoles, Function.update_of_ne hproposer]

theorem proposals_eq_some {fromAddress toAddress : Address} {role : Role} :
    table.proposals (fromAddress, toAddress) = some role.roles ↔
      table.proposedRoles fromAddress toAddress = role.roles := by
  unfold proposals
  split
  · rename_i hnone
    simp [hnone, role.roles_ne_none.symm]
  · simp

end RoleTable

end AxelarCgp
