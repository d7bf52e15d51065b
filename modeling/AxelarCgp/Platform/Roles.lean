import AxelarCgp.Core.Transaction
import AxelarCgp.Platform.Types

/-!
# Account roles

`modules/operatable`: every account has a set of roles, and an account may
propose roles it holds to another, which accepts them.  The contracts that use
the module keep the table as a part of their state.
-/

namespace AxelarCgp

/-- The three bits of `Roles`. -/
structure Roles where
  minter : Bool
  operator : Bool
  flowLimiter : Bool
  deriving DecidableEq

namespace Roles

def none : Roles := ⟨false, false, false⟩
def MINTER : Roles := ⟨true, false, false⟩
def OPERATOR : Roles := ⟨false, true, false⟩
def FLOW_LIMITER : Roles := ⟨false, false, true⟩

def union (left right : Roles) : Roles :=
  ⟨left.minter || right.minter, left.operator || right.operator,
    left.flowLimiter || right.flowLimiter⟩

def remove (left right : Roles) : Roles :=
  ⟨left.minter && !right.minter, left.operator && !right.operator,
    left.flowLimiter && !right.flowLimiter⟩

def intersects (left right : Roles) : Bool :=
  (left.minter && right.minter) || (left.operator && right.operator) ||
    (left.flowLimiter && right.flowLimiter)

def contains (left right : Roles) : Bool :=
  left.union right = left

end Roles

/-- The storage of the module; an account that is not stored has no roles. -/
structure RoleTable where
  accountRoles : Address → Roles
  proposedRoles : Address → Address → Roles

inductive RoleEvent where
  | rolesProposed (fromAddress toAddress : Address) (roles : Roles)
  | rolesAdded (address : Address) (roles : Roles)
  | rolesRemoved (address : Address) (roles : Roles)
  deriving DecidableEq

namespace RoleTable

def empty : RoleTable where
  accountRoles _ := .none
  proposedRoles _ _ := .none

def hasRole (address : Address) (roles : Roles) (table : RoleTable) : Bool :=
  (table.accountRoles address).intersects roles

def setRoles (address : Address) (roles : Roles) (table : RoleTable) : RoleTable :=
  { table with accountRoles := Function.update table.accountRoles address roles }

def setProposedRoles (fromAddress toAddress : Address) (roles : Roles) (table : RoleTable) :
    RoleTable :=
  { table with
    proposedRoles := Function.update table.proposedRoles fromAddress
      (Function.update (table.proposedRoles fromAddress) toAddress roles) }

end RoleTable

namespace AccountRoles

open Transaction

abbrev Tx := Transaction RoleTable RoleEvent

def onlyRole (caller : Address) (roles : Roles) : Tx Unit := do
  let held ← reads (RoleTable.hasRole caller roles)
  require held "Missing any of roles"

def addRole (address : Address) (newRoles : Roles) : Tx Unit := do
  performs (.rolesAdded address newRoles)
  modifies fun table => table.setRoles address ((table.accountRoles address).union newRoles)

def removeRole (address : Address) (newRoles : Roles) : Tx Unit := do
  performs (.rolesRemoved address newRoles)
  modifies fun table => table.setRoles address ((table.accountRoles address).remove newRoles)

def transferRole (fromAddress toAddress : Address) (roles : Roles) : Tx Unit := do
  let fromRoles ← reads fun table => table.accountRoles fromAddress
  require (fromRoles.contains roles) "Missing all roles"
  removeRole fromAddress roles
  addRole toAddress roles

def proposeRole (fromAddress toAddress : Address) (proposedRoles : Roles) : Tx Unit := do
  let fromRoles ← reads fun table => table.accountRoles fromAddress
  require (fromRoles.contains proposedRoles) "Missing all roles"
  performs (.rolesProposed fromAddress toAddress proposedRoles)
  modifies (RoleTable.setProposedRoles fromAddress toAddress proposedRoles)

def acceptRole (fromAddress toAddress : Address) (proposedRoles : Roles) : Tx Unit := do
  let proposed ← reads fun table => table.proposedRoles fromAddress toAddress
  require (proposed ≠ .none ∧ proposed = proposedRoles) "Invalid proposed roles"
  modifies (RoleTable.setProposedRoles fromAddress toAddress .none)
  transferRole fromAddress toAddress proposedRoles

end AccountRoles

/-! ## Operators -/

namespace Operatable

open AccountRoles

def onlyOperator (caller : Address) : Tx Unit :=
  onlyRole caller .OPERATOR

def addOperator (operator : Address) : Tx Unit :=
  addRole operator .OPERATOR

def transferOperatorship (caller operator : Address) : Tx Unit := do
  onlyOperator caller
  transferRole caller operator .OPERATOR

def proposeOperatorship (caller operator : Address) : Tx Unit := do
  onlyOperator caller
  proposeRole caller operator .OPERATOR

def acceptOperatorship (caller fromOperator : Address) : Tx Unit :=
  acceptRole fromOperator caller .OPERATOR

end Operatable

/-! ## Roles come from being added -/

/-- The table once an account has some roles more. -/
def RoleTable.grant (address : Address) (newRoles : Roles) (table : RoleTable) : RoleTable :=
  table.setRoles address ((table.accountRoles address).union newRoles)

/-- The table once an account has some roles less. -/
def RoleTable.withdraw (address : Address) (newRoles : Roles) (table : RoleTable) : RoleTable :=
  table.setRoles address ((table.accountRoles address).remove newRoles)

@[simp]
theorem RoleTable.grant_same (table : RoleTable) (address : Address) (newRoles : Roles) :
    (table.grant address newRoles).accountRoles address =
      (table.accountRoles address).union newRoles :=
  Function.update_self _ _ _

theorem RoleTable.grant_other (table : RoleTable) {address other : Address} (newRoles : Roles)
    (hother : other ≠ address) :
    (table.grant address newRoles).accountRoles other = table.accountRoles other :=
  Function.update_of_ne hother _ _

@[simp]
theorem RoleTable.withdraw_same (table : RoleTable) (address : Address) (newRoles : Roles) :
    (table.withdraw address newRoles).accountRoles address =
      (table.accountRoles address).remove newRoles :=
  Function.update_self _ _ _

theorem RoleTable.withdraw_other (table : RoleTable) {address other : Address} (newRoles : Roles)
    (hother : other ≠ address) :
    (table.withdraw address newRoles).accountRoles other = table.accountRoles other :=
  Function.update_of_ne hother _ _

/-- An account that lacks some roles lacks them still, unless one was added. -/
def RoleTable.Grants (_ : ℕ) (before : RoleTable) (events : List RoleEvent)
    (after : RoleTable) : Prop :=
  ∀ account roles, before.hasRole account roles = false →
    (∀ added, .rolesAdded account added ∈ events → added.intersects roles = false) →
    after.hasRole account roles = false

theorem Roles.intersects_union (left right roles : Roles) :
    (left.union right).intersects roles = (left.intersects roles || right.intersects roles) := by
  obtain ⟨_, _, _⟩ := left
  obtain ⟨_, _, _⟩ := right
  obtain ⟨_, _, _⟩ := roles
  simp only [union, intersects, Bool.or_and_distrib_right]
  grind

theorem Roles.intersects_remove {left right roles : Roles}
    (h : left.intersects roles = false) : (left.remove right).intersects roles = false := by
  obtain ⟨_, _, _⟩ := left
  obtain ⟨_, _, _⟩ := right
  obtain ⟨_, _, _⟩ := roles
  simp only [remove, intersects] at *
  grind

namespace AccountRoles

open Transaction RoleTable

theorem addRole_eq_ok {address : Address} {newRoles : Roles} {table next : RoleTable}
    {events : List RoleEvent} :
    addRole address newRoles table = .ok ⟨(), next, events⟩ ↔
      table.grant address newRoles = next ∧
        [.rolesAdded address newRoles] = events :=
  performs_modifies_eq_ok

theorem removeRole_eq_ok {address : Address} {newRoles : Roles} {table next : RoleTable}
    {events : List RoleEvent} :
    removeRole address newRoles table = .ok ⟨(), next, events⟩ ↔
      table.withdraw address newRoles = next ∧
        [.rolesRemoved address newRoles] = events :=
  performs_modifies_eq_ok

theorem onlyRole_eq_ok {caller : Address} {roles : Roles} {table next : RoleTable}
    {events : List RoleEvent} :
    onlyRole caller roles table = .ok ⟨(), next, events⟩ ↔
      table.hasRole caller roles ∧ table = next ∧ [] = events := by
  simp only [onlyRole, Transaction.bind_eq_ok, reads_eq_ok, lift_eq_ok, Outcome.require_eq_ok]
  constructor
  · rintro ⟨_, _, _, _, ⟨rfl, rfl, rfl⟩, ⟨hheld, rfl, rfl⟩, rfl⟩
    exact ⟨hheld, rfl, rfl⟩
  · rintro ⟨hheld, rfl, rfl⟩
    exact ⟨_, _, _, _, ⟨rfl, rfl, rfl⟩, ⟨hheld, rfl, rfl⟩, rfl⟩

/-- What asks for roles of an account goes on when the account has them all. -/
theorem held_bind_eq_ok {account : Address} {roles : Roles} {rest : Tx Unit}
    {table next : RoleTable} {events : List RoleEvent} :
    (do
        let held ← reads fun table => table.accountRoles account
        require (held.contains roles) "Missing all roles"
        rest : Tx Unit) table = .ok ⟨(), next, events⟩ ↔
      (table.accountRoles account).contains roles ∧ rest table = .ok ⟨(), next, events⟩ := by
  rw [reads_bind, require_bind_eq_ok]

theorem transferRole_eq_ok {fromAddress toAddress : Address} {roles : Roles}
    {table next : RoleTable} {events : List RoleEvent} :
    transferRole fromAddress toAddress roles table = .ok ⟨(), next, events⟩ ↔
      (table.accountRoles fromAddress).contains roles ∧
        (table.withdraw fromAddress roles).grant toAddress roles = next ∧
        [.rolesRemoved fromAddress roles, .rolesAdded toAddress roles] = events := by
  rw [transferRole, held_bind_eq_ok]
  simp only [Transaction.bind_eq_ok, Outcome.exists_unit, removeRole_eq_ok, addRole_eq_ok]
  constructor
  · rintro ⟨hheld, _, _, _, ⟨rfl, rfl⟩, ⟨rfl, rfl⟩, rfl⟩
    exact ⟨hheld, rfl, rfl⟩
  · rintro ⟨hheld, rfl, rfl⟩
    exact ⟨hheld, _, _, _, ⟨rfl, rfl⟩, ⟨rfl, rfl⟩, rfl⟩

theorem proposeRole_eq_ok {fromAddress toAddress : Address} {roles : Roles}
    {table next : RoleTable} {events : List RoleEvent} :
    proposeRole fromAddress toAddress roles table = .ok ⟨(), next, events⟩ ↔
      (table.accountRoles fromAddress).contains roles ∧
        table.setProposedRoles fromAddress toAddress roles = next ∧
        [.rolesProposed fromAddress toAddress roles] = events := by
  rw [proposeRole, held_bind_eq_ok, performs_modifies_eq_ok]

/-- A proposal is taken off when it is accepted. -/
theorem acceptRole_eq_ok {fromAddress toAddress : Address} {roles : Roles}
    {table next : RoleTable} {events : List RoleEvent} :
    acceptRole fromAddress toAddress roles table = .ok ⟨(), next, events⟩ ↔
      (table.proposedRoles fromAddress toAddress ≠ .none ∧
        table.proposedRoles fromAddress toAddress = roles) ∧
      (table.accountRoles fromAddress).contains roles ∧
        (((table.setProposedRoles fromAddress toAddress .none).withdraw fromAddress roles).grant
          toAddress roles) = next ∧
        [.rolesRemoved fromAddress roles, .rolesAdded toAddress roles] = events := by
  simp only [acceptRole, Transaction.bind_eq_ok, Outcome.exists_unit, reads_eq_ok, lift_eq_ok,
    Outcome.require_eq_ok, modifies_eq_ok, transferRole_eq_ok]
  constructor
  · rintro ⟨_, _, _, _, ⟨rfl, rfl, rfl⟩, ⟨_, _, _, ⟨hproposed, rfl, rfl⟩, ⟨_, _, _, ⟨rfl, rfl⟩,
      ⟨hheld, rfl, rfl⟩, rfl⟩, rfl⟩, rfl⟩
    exact ⟨hproposed, hheld, rfl, rfl⟩
  · rintro ⟨hproposed, hheld, rfl, rfl⟩
    exact ⟨_, _, _, _, ⟨rfl, rfl, rfl⟩, ⟨_, _, _, ⟨hproposed, rfl, rfl⟩, ⟨_, _, _, ⟨rfl, rfl⟩,
      ⟨hheld, rfl, rfl⟩, rfl⟩, rfl⟩, rfl⟩

/-- Whoever accepts roles is the one that gets them. -/
theorem acceptRole_rolesAdded {fromAddress toAddress account : Address} {roles added : Roles}
    {table next : RoleTable} {events : List RoleEvent}
    (h : acceptRole fromAddress toAddress roles table = .ok ⟨(), next, events⟩)
    (hmem : .rolesAdded account added ∈ events) : account = toAddress := by
  obtain ⟨_, _, _, rfl⟩ := acceptRole_eq_ok.mp h
  simpa using And.left (by simpa using hmem)

theorem composes_grants : Composes Grants where
  nil _ _ _ h _ := h
  append first second account roles h hadded :=
    second account roles
      (first account roles h fun added hmem => hadded added (List.mem_append_left _ hmem))
      fun added hmem => hadded added (List.mem_append_right _ hmem)
  mono _ h := h

theorem inspects_onlyRole (caller : Address) (roles : Roles) : Inspects (onlyRole caller roles) :=
  .bind (.reads _) fun _ => .lift _

theorem grants_addRole (address : Address) (newRoles : Roles) :
    Satisfies (Grants 0) (addRole address newRoles) := by
  intro before value after events h account roles hlacks hadded
  obtain ⟨rfl, rfl⟩ := addRole_eq_ok.mp h
  by_cases hsame : account = address
  · subst hsame
    simpa [hasRole, grant, setRoles, Roles.intersects_union] using
      ⟨hlacks, hadded newRoles (by simp)⟩
  · simpa [hasRole, grant, setRoles, Function.update_of_ne hsame] using hlacks

theorem grants_removeRole (address : Address) (newRoles : Roles) :
    Satisfies (Grants 0) (removeRole address newRoles) := by
  intro before value after events h account roles hlacks _
  obtain ⟨rfl, rfl⟩ := removeRole_eq_ok.mp h
  by_cases hsame : account = address
  · subst hsame
    simpa [hasRole, withdraw, setRoles] using Roles.intersects_remove hlacks
  · simpa [hasRole, withdraw, setRoles, Function.update_of_ne hsame] using hlacks

theorem grants_transferRole (fromAddress toAddress : Address) (roles : Roles) :
    Satisfies (Grants 0) (transferRole fromAddress toAddress roles) :=
  .inspect_bind (.reads _) fun _ => .inspect_bind (.lift _) fun _ =>
    .andThen composes_grants (grants_removeRole _ _) fun _ => grants_addRole _ _

theorem grants_setProposedRoles (fromAddress toAddress : Address) (roles : Roles) :
    Satisfies (Grants 0) (modifies (setProposedRoles fromAddress toAddress roles)) :=
  .modifies fun _ _ _ h _ => h

theorem grants_proposeRole (fromAddress toAddress : Address) (roles : Roles) :
    Satisfies (Grants 0) (proposeRole fromAddress toAddress roles) :=
  .inspect_bind (.reads _) fun _ => .inspect_bind (.lift _) fun _ =>
    .andThen composes_grants (.performs fun _ _ _ h _ => h) fun _ =>
      grants_setProposedRoles _ _ _

theorem grants_acceptRole (fromAddress toAddress : Address) (roles : Roles) :
    Satisfies (Grants 0) (acceptRole fromAddress toAddress roles) :=
  .inspect_bind (.reads _) fun _ => .inspect_bind (.lift _) fun _ =>
    .andThen composes_grants (grants_setProposedRoles _ _ _) fun _ => grants_transferRole _ _ _

theorem grants_transferOperatorship (caller operator : Address) :
    Satisfies (Grants 0) (Operatable.transferOperatorship caller operator) :=
  .inspect_bind (inspects_onlyRole _ _) fun _ => grants_transferRole _ _ _

theorem grants_proposeOperatorship (caller operator : Address) :
    Satisfies (Grants 0) (Operatable.proposeOperatorship caller operator) :=
  .inspect_bind (inspects_onlyRole _ _) fun _ => grants_proposeRole _ _ _

end AccountRoles

end AxelarCgp
