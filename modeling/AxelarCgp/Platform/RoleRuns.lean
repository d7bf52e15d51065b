import AxelarCgp.Platform.RoleHolders

/-!
# Roles along a run

What the calls of a contract ask of its table of roles, whichever contract it is: to
grant a role or to withdraw it, to move it from one account to another, or to
propose such a move and to accept it.  A role that is only ever moved has the same
number of holders or fewer, and each move that was accepted goes back to a proposal
of its own.
-/

namespace AxelarCgp

open Machine

/-- A role that goes from one account to another. -/
structure RoleMove where
  role : Role
  fromAddress : Address
  toAddress : Address
  deriving DecidableEq

/-- What a call asks of the table. -/
inductive RoleCall where
  | grant (role : Role) (account : Address)
  | withdraw (role : Role) (account : Address)
  | transfer (move : RoleMove)
  | propose (move : RoleMove)
  | accept (move : RoleMove)
  deriving DecidableEq

/-- The role that a call is about. -/
def RoleCall.role : RoleCall → Role
  | grant role _ | withdraw role _ => role
  | transfer move | propose move | accept move => move.role

/-- The accounts that a call is about. -/
def RoleCall.accounts : RoleCall → Set Address
  | grant _ account | withdraw _ account => {account}
  | transfer move | propose move | accept move => {move.fromAddress, move.toAddress}

/-- What a completed call does to the table. -/
inductive RoleChange (table : RoleTable) : Option RoleCall → RoleTable → Prop where
  | nothing : RoleChange table none table
  | granted {role : Role} {account : Address} :
      RoleChange table (some (.grant role account)) (table.grant account role.roles)
  /-- The contract found that there is somebody already. -/
  | spared {role : Role} {account : Address} : RoleChange table (some (.grant role account)) table
  | withdrawn {role : Role} {account : Address} :
      RoleChange table (some (.withdraw role account)) (table.withdraw account role.roles)
  | transferred {role : Role} {fromAddress toAddress : Address} :
      fromAddress ∈ table.holders role →
      RoleChange table (some (.transfer ⟨role, fromAddress, toAddress⟩))
        ((table.withdraw fromAddress role.roles).grant toAddress role.roles)
  | proposed {role : Role} {fromAddress toAddress : Address} :
      fromAddress ∈ table.holders role →
      RoleChange table (some (.propose ⟨role, fromAddress, toAddress⟩))
        (table.setProposedRoles fromAddress toAddress role.roles)
  | accepted {role : Role} {fromAddress toAddress : Address} :
      table.proposedRoles fromAddress toAddress = role.roles →
      fromAddress ∈ table.holders role →
      RoleChange table (some (.accept ⟨role, fromAddress, toAddress⟩))
        (((table.setProposedRoles fromAddress toAddress .none).withdraw fromAddress
          role.roles).grant toAddress role.roles)

namespace RoleChange

variable {table next : RoleTable} {asked : Option RoleCall} {role : Role}

/-- A role that a call is not about stays with its holders, whichever accounts the call
names. -/
theorem holders_other (h : RoleChange table asked next)
    (hother : ∀ call, asked = some call → call.role ≠ role) :
    next.holders role = table.holders role := by
  cases h with
  | nothing | spared | proposed => rfl
  | granted => exact (RoleTable.holders_grant _ _ _ role).trans (if_neg (hother _ rfl))
  | withdrawn => exact (RoleTable.holders_withdraw _ _ _ role).trans (if_neg (hother _ rfl))
  | transferred | accepted =>
    exact (RoleTable.holders_move _ _ _ _ role).trans (if_neg (hother _ rfl))

/-- An account that a call does not name keeps the roles it has. -/
theorem mem_holders_other {account : Address} (h : RoleChange table asked next)
    (hother : ∀ call, asked = some call → account ∉ call.accounts) :
    account ∈ next.holders role ↔ account ∈ table.holders role := by
  cases h with
  | nothing | spared | proposed => exact Iff.rfl
  | granted =>
    have hne := hother _ rfl
    rw [RoleTable.holders_grant]
    split <;> simp_all [RoleCall.accounts]
  | withdrawn =>
    have hne := hother _ rfl
    rw [RoleTable.holders_withdraw]
    split <;> simp_all [RoleCall.accounts]
  | transferred | accepted =>
    have hne := hother _ rfl
    rw [RoleTable.holders_move]
    split <;> simp_all [RoleCall.accounts, Succession.handOn]

/-- A role that nobody is granted, and nobody has withdrawn, is at most handed on. -/
theorem passes (h : RoleChange table asked next)
    (hgrant : ∀ account, asked ≠ some (.grant role account))
    (hwithdraw : ∀ account, asked ≠ some (.withdraw role account)) :
    Succession.Passes (table.holders role) (next.holders role) := by
  cases h with
  | nothing | spared | proposed => exact .stays
  | @granted given account =>
    rw [RoleTable.holders_grant, if_neg fun hrole => hgrant account (by rw [hrole])]
    exact .stays
  | @withdrawn taken account =>
    rw [RoleTable.holders_withdraw, if_neg fun hrole => hwithdraw account (by rw [hrole])]
    exact .stays
  | @transferred moved _ _ hheld | @accepted moved _ _ _ hheld =>
    rw [RoleTable.holders_move]
    by_cases hrole : moved = role
    · rw [if_pos hrole]
      rw [hrole] at hheld
      exact .hands hheld
    · rw [if_neg hrole]
      exact .stays

/-- An account that has a role now and had it not was granted it, or has it from an
account that held it, and lost it. -/
theorem gained {account : Address} (h : RoleChange table asked next)
    (hlacks : account ∉ table.holders role) (hholds : account ∈ next.holders role) :
    asked = some (.grant role account) ∨
      ∃ giver ∈ table.holders role, giver ∉ next.holders role ∧
        (asked = some (.transfer ⟨role, giver, account⟩) ∨
          asked = some (.accept ⟨role, giver, account⟩) ∧
            table.proposedRoles giver account = role.roles) := by
  cases h with
  | nothing | spared | proposed => exact absurd hholds hlacks
  | @granted given receiver =>
    rw [RoleTable.holders_grant] at hholds
    split at hholds
    · rename_i hrole
      subst hrole
      rcases hholds with hreceiver | hheld
      · exact .inl (by rw [hreceiver])
      · exact absurd hheld hlacks
    · exact absurd hholds hlacks
  | withdrawn =>
    rw [RoleTable.holders_withdraw] at hholds
    split at hholds
    · exact absurd hholds.1 hlacks
    · exact absurd hholds hlacks
  | @transferred moved giver taker hheld =>
    rw [RoleTable.holders_move] at hholds ⊢
    split at hholds
    · rename_i hrole
      subst hrole
      obtain rfl := Succession.eq_taker_of_gains hlacks hholds
      rw [if_pos rfl]
      have hother : giver ≠ account := fun hsame => hlacks (hsame ▸ hheld)
      exact .inr ⟨giver, hheld, Succession.giver_loses hother, .inl rfl⟩
    · exact absurd hholds hlacks
  | @accepted moved giver taker hproposed hheld =>
    rw [RoleTable.holders_move] at hholds ⊢
    split at hholds
    · rename_i hrole
      subst hrole
      obtain rfl := Succession.eq_taker_of_gains hlacks hholds
      rw [if_pos rfl]
      have hother : giver ≠ account := fun hsame => hlacks (hsame ▸ hheld)
      exact .inr ⟨giver, hheld, Succession.giver_loses hother, .inr ⟨rfl, hproposed⟩⟩
    · exact absurd hholds hlacks

theorem accept_proposed {move : RoleMove} (h : RoleChange table (some (.accept move)) next) :
    table.proposedRoles move.fromAddress move.toAddress = move.role.roles := by
  cases h with
  | accepted hproposed => exact hproposed

theorem propose_held {move : RoleMove} (h : RoleChange table (some (.propose move)) next) :
    move.fromAddress ∈ table.holders move.role := by
  cases h with
  | proposed hheld => exact hheld

end RoleChange

/-! ## What operators do -/

namespace Operatable

open AccountRoles Transaction

variable {caller operator : Address} {table next : RoleTable} {events : List RoleEvent}

theorem transferOperatorship_roleChange
    (h : transferOperatorship caller operator table = .ok ⟨(), next, events⟩) :
    RoleChange table (some (.transfer ⟨.operator, caller, operator⟩)) next := by
  simp only [transferOperatorship, onlyOperator, Transaction.bind_eq_ok, Outcome.exists_unit,
    onlyRole_eq_ok, transferRole_eq_ok] at h
  obtain ⟨_, _, _, ⟨hheld, rfl, _⟩, ⟨_, rfl, _⟩, _⟩ := h
  have hoperator : caller ∈ table.holders .operator := hheld
  exact .transferred hoperator

theorem proposeOperatorship_roleChange
    (h : proposeOperatorship caller operator table = .ok ⟨(), next, events⟩) :
    RoleChange table (some (.propose ⟨.operator, caller, operator⟩)) next := by
  simp only [proposeOperatorship, onlyOperator, Transaction.bind_eq_ok, Outcome.exists_unit,
    onlyRole_eq_ok, proposeRole_eq_ok] at h
  obtain ⟨_, _, _, ⟨hheld, rfl, _⟩, ⟨_, rfl, _⟩, _⟩ := h
  have hoperator : caller ∈ table.holders .operator := hheld
  exact .proposed hoperator

theorem acceptOperatorship_roleChange
    (h : acceptOperatorship caller operator table = .ok ⟨(), next, events⟩) :
    RoleChange table (some (.accept ⟨.operator, operator, caller⟩)) next := by
  obtain ⟨⟨_, hproposed⟩, hheld, rfl, _⟩ := acceptRole_eq_ok.mp h
  exact .accepted hproposed (RoleTable.contains_iff_mem_holders.mp hheld)

end Operatable

/-! ## Proposals -/

/-- What a call writes into the slots of the proposals. -/
def RoleCall.writes : Option RoleCall → Option ((Address × Address) × Option Roles)
  | some (.propose move) => some ((move.fromAddress, move.toAddress), some move.role.roles)
  | some (.accept move) => some ((move.fromAddress, move.toAddress), none)
  | _ => none

theorem RoleChange.proposals {table next : RoleTable} {asked : Option RoleCall}
    (h : RoleChange table asked next) :
    next.proposals = Journal.write table.proposals (RoleCall.writes asked) := by
  cases h with
  | nothing | granted | spared | withdrawn | transferred => rfl
  | @proposed role =>
    rw [RoleTable.proposals_setProposedRoles, if_neg role.roles_ne_none]
    rfl
  | accepted =>
    rw [RoleTable.proposals_grant, RoleTable.proposals_withdraw,
      RoleTable.proposals_setProposedRoles, if_pos rfl]
    rfl

/-! ## Runs -/

section

variable {State Input Output : Type*} {machine : Machine State Input Output} {start state : State}
variable {table : State → RoleTable} {asks : Input → Option RoleCall}
variable {history : List (Entry Input Output)} {move : RoleMove}

/-- A call that completed proposed a move. -/
def Proposes (asks : Input → Option RoleCall) (move : RoleMove) (entry : Entry Input Output) :
    Prop :=
  (∃ output, entry.result = .ok output) ∧ asks entry.input = some (.propose move)

/-- A call that completed accepted a move. -/
def Accepts (asks : Input → Option RoleCall) (move : RoleMove) (entry : Entry Input Output) :
    Prop :=
  (∃ output, entry.result = .ok output) ∧ asks entry.input = some (.accept move)

/-- A call that completed proposed or accepted a move between the same accounts, whatever
the role. -/
def Supersedes (asks : Input → Option RoleCall) (move : RoleMove) (entry : Entry Input Output) :
    Prop :=
  ∃ role, Proposes asks ⟨role, move.fromAddress, move.toAddress⟩ entry ∨
    Accepts asks ⟨role, move.fromAddress, move.toAddress⟩ entry

/-- The move was proposed, and no proposal between the same accounts was accepted, or put
in its place, since. -/
def Pending (asks : Input → Option RoleCall) (move : RoleMove)
    (history : List (Entry Input Output)) : Prop :=
  Since (Proposes asks move) (Supersedes asks move) history

/-- Every move that was accepted goes back to a proposal of its own, and no other between
the same accounts was proposed or accepted in between. -/
def AcceptedOnce (asks : Input → Option RoleCall) (history : List (Entry Input Output)) : Prop :=
  Matched (Proposes asks) (Accepts asks) (Supersedes asks) history

/-- The contract changes its roles as its calls ask, and starts without proposals. -/
structure RoleRuns (machine : Machine State Input Output) (start : State)
    (table : State → RoleTable) (asks : Input → Option RoleCall) : Prop where
  starts : (table start).proposals = fun _ => none
  steps : ∀ history state input next output, Run machine start history state →
    machine.step state input = .ok (next, output) →
    RoleChange (table state) (asks input) (table next)

theorem wrote_iff_proposes {entry : Entry Input Output} :
    Journal.Wrote (fun input => RoleCall.writes (asks input)) (move.fromAddress, move.toAddress)
      (some move.role.roles) entry ↔ Proposes asks move entry := by
  obtain ⟨role, fromAddress, toAddress⟩ := move
  apply and_congr_right
  intro _
  change RoleCall.writes (asks entry.input) = _ ↔ _
  cases asks entry.input with
  | none => simp [RoleCall.writes]
  | some call =>
    cases call with
    | grant | withdraw | transfer => simp [RoleCall.writes]
    | accept other => simp [RoleCall.writes]
    | propose other =>
      obtain ⟨otherRole, otherFrom, otherTo⟩ := other
      simp only [RoleCall.writes, Option.some.injEq, Prod.mk.injEq, RoleCall.propose.injEq,
        RoleMove.mk.injEq, Role.roles_inj]
      tauto

theorem wroteAt_iff_supersedes {entry : Entry Input Output} :
    Journal.WroteAt (fun input => RoleCall.writes (asks input))
      (move.fromAddress, move.toAddress) entry ↔ Supersedes asks move entry := by
  obtain ⟨role, fromAddress, toAddress⟩ := move
  simp only [Journal.WroteAt, Journal.Wrote, Supersedes, Proposes, Accepts]
  cases asks entry.input with
  | none => simp [RoleCall.writes]
  | some call =>
    cases call with
    | grant | withdraw | transfer => simp [RoleCall.writes]
    | propose other | accept other =>
      obtain ⟨otherRole, otherFrom, otherTo⟩ := other
      simp [RoleCall.writes, exists_and_left]

namespace RoleRuns

theorem journal (h : RoleRuns machine start table asks) :
    Journal machine start (fun state => (table state).proposals)
      fun input => RoleCall.writes (asks input) where
  starts := h.starts
  steps _ _ _ _ _ hrun hok := (h.steps _ _ _ _ _ hrun hok).proposals

/-- What is proposed in the storage is what is pending in the history. -/
theorem proposed_iff_pending (h : RoleRuns machine start table asks)
    (hrun : Run machine start history state) (move : RoleMove) :
    (table state).proposedRoles move.fromAddress move.toAddress = move.role.roles ↔
      Pending asks move history := by
  rw [← RoleTable.proposals_eq_some, h.journal.holds_iff_since hrun, Pending]
  have hopens : (Journal.Wrote (fun input => RoleCall.writes (asks input))
      (move.fromAddress, move.toAddress) (some move.role.roles) : Entry Input Output → Prop) =
      Proposes asks move := by
    ext entry
    exact wrote_iff_proposes
  have hcloses : (Journal.WroteAt (fun input => RoleCall.writes (asks input))
      (move.fromAddress, move.toAddress) : Entry Input Output → Prop) =
      Supersedes asks move := by
    ext entry
    exact wroteAt_iff_supersedes
  rw [hopens, hcloses]

/-- Every move that was accepted was proposed, for this one acceptance. -/
theorem acceptedOnce (h : RoleRuns machine start table asks)
    (hrun : Run machine start history state) : AcceptedOnce asks history := by
  apply matched_of_since
  · rintro before move ⟨input, result⟩ after rfl ⟨⟨output, houtput⟩, haccepts⟩
    dsimp only at houtput haccepts
    subst houtput
    obtain ⟨reached, next, hreached, hok, _⟩ := hrun.step_at
    have hchange := h.steps _ _ _ _ _ hreached hok
    rw [haccepts] at hchange
    exact (h.proposed_iff_pending hreached move).mp hchange.accept_proposed
  · intro move entry haccepts
    exact ⟨move.role, .inr haccepts⟩
  · intro move other entry hmove hother
    simpa using hmove.2.symm.trans hother.2
  · intro move other entry hmove hother
    simpa using hmove.2.symm.trans hother.2

/-- Who proposes a role holds it. -/
theorem proposer_holds (h : RoleRuns machine start table asks) {before : List (Entry Input Output)}
    {after : List (Entry Input Output)} {entry : Entry Input Output} {reached : State}
    (hrun : Run machine start history state) (hhistory : history = before ++ entry :: after)
    (hreached : Run machine start before reached) (hproposes : Proposes asks move entry) :
    move.fromAddress ∈ (table reached).holders move.role := by
  obtain ⟨input, result⟩ := entry
  obtain ⟨⟨output, houtput⟩, hasks⟩ := hproposes
  dsimp only at houtput hasks
  subst houtput hhistory
  obtain ⟨taken, next, htaken, hok, _⟩ := hrun.step_at
  obtain rfl := hreached.unique htaken
  have hchange := h.steps _ _ _ _ _ hreached hok
  rw [hasks] at hchange
  exact hchange.propose_held

end RoleRuns

/-! ## A role that is only handed on -/

/-- What a run does to a role that nobody is granted, and nobody has withdrawn. -/
structure Conserves (machine : Machine State Input Output) (start : State)
    (table : State → RoleTable) (asks : Input → Option RoleCall) (role : Role)
    (history : List (Entry Input Output)) (state : State) : Prop where
  /-- From each state on, the holders only become fewer, and never none. -/
  kept : ∀ before after reached, history = before ++ after → Run machine start before reached →
    Succession.Kept ((table reached).holders role) ((table state).holders role)
  /-- Whoever gains the role has it from an account that held it, and loses it. -/
  gained : ∀ before reached input output next account,
    Took machine start history before reached input output next →
    account ∉ (table reached).holders role → account ∈ (table next).holders role →
    ∃ giver ∈ (table reached).holders role, giver ∉ (table next).holders role ∧
      (asks input = some (.transfer ⟨role, giver, account⟩) ∨
        asks input = some (.accept ⟨role, giver, account⟩) ∧
          Pending asks ⟨role, giver, account⟩ before)
  /-- Proposals are made by accounts that hold what they propose. -/
  proposed : ∀ before entry after reached move, history = before ++ entry :: after →
    Run machine start before reached → Proposes asks move entry →
    move.fromAddress ∈ (table reached).holders move.role
  acceptedOnce : AcceptedOnce asks history
  /-- A call changes the role that it is about, of the accounts that it names. -/
  others : ∀ before reached input output next role account,
    Took machine start history before reached input output next →
    (∀ call, asks input = some call → call.role = role → account ∉ call.accounts) →
    (account ∈ (table next).holders role ↔ account ∈ (table reached).holders role)

theorem RoleRuns.conserves {role : Role} (h : RoleRuns machine start table asks)
    (hfinite : ((table start).holders role).Finite)
    (hsome : ((table start).holders role).Nonempty)
    (hgrant : ∀ input account, asks input ≠ some (.grant role account))
    (hwithdraw : ∀ input account, asks input ≠ some (.withdraw role account))
    (hrun : Run machine start history state) :
    Conserves machine start table asks role history state where
  kept before after reached hhistory hreached := by
    subst hhistory
    apply Succession.kept_between (fun state => (table state).holders role) hfinite hsome _ hrun
      hreached
    intro history state input next output hbefore hok
    exact (h.steps _ _ _ _ _ hbefore hok).passes (hgrant input) (hwithdraw input)
  gained before reached input output next account htook hlacks hholds := by
    have hchange := h.steps _ _ _ _ _ htook.run htook.step
    rcases hchange.gained hlacks hholds with hgranted | ⟨giver, hgiver, hloses, hmoved⟩
    · exact absurd hgranted (hgrant input account)
    · refine ⟨giver, hgiver, hloses, hmoved.imp_right fun haccepted => ?_⟩
      exact ⟨haccepted.1, (h.proposed_iff_pending htook.run _).mp haccepted.2⟩
  proposed before entry after reached move hhistory hreached hproposes :=
    h.proposer_holds hrun hhistory hreached hproposes
  acceptedOnce := h.acceptedOnce hrun
  others before reached input output next other account htook hnamed := by
    have hchange := h.steps _ _ _ _ _ htook.run htook.step
    by_cases habout : ∃ call, asks input = some call ∧ call.role = other
    · obtain ⟨call, hcall, hrole⟩ := habout
      apply hchange.mem_holders_other
      intro same hsame
      obtain rfl := Option.some.inj (hcall.symm.trans hsame)
      exact hnamed call hcall hrole
    · rw [hchange.holders_other fun call hcall hrole => habout ⟨call, hcall, hrole⟩]

end

end AxelarCgp
