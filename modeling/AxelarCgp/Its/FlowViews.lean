import AxelarCgp.Its.FlowLimits

/-!
# Views of the flows

The service answers for the flow limit and the flows of a token by asking its manager.  The
manager returns its answer top-encoded, at the type of its own storage, and the service
decodes it as a big integer.
-/

namespace AxelarCgp

namespace TokenManager

open NestedCodec

/-- A big integer at top level: its bytes without leading zeros. -/
def topEncodeBigUint (value : ℕ) : Bytes := Bytes.minimalBE value

/-- An optional big integer at top level: nothing, or 1 and the nested encoding. -/
def topEncodeOption : Option ℕ → Bytes
  | none => []
  | some value => 1 :: ((writeNat 4 (Bytes.byteLength value)).1 ++ Bytes.minimalBE value)

inductive View where
  | getFlowLimit
  | flowOutAmount
  | flowInAmount

/-- What a view returns. -/
def view (ctx : CallContext) (state : State) : View → Bytes
  | .getFlowLimit => topEncodeOption state.flowLimit
  | .flowOutAmount => topEncodeBigUint (state.flowOutAmount (ctx.blockTimestamp / EPOCH_TIME))
  | .flowInAmount => topEncodeBigUint (state.flowInAmount (ctx.blockTimestamp / EPOCH_TIME))

theorem toNatBE_topEncodeBigUint (value : ℕ) :
    Bytes.toNatBE (topEncodeBigUint value) = value :=
  Bytes.toNatBE_minimalBE value

/-- The number that the encoding of a limit reads as is larger than the limit. -/
theorem lt_toNatBE_topEncodeOption (value : ℕ) :
    value < Bytes.toNatBE (topEncodeOption (some value)) := by
  have hsplit : topEncodeOption (some value) =
      (1 :: (writeNat 4 (Bytes.byteLength value)).1) ++ Bytes.minimalBE value := rfl
  have hlead : 0 < Bytes.toNatBE (1 :: (writeNat 4 (Bytes.byteLength value)).1) := by
    have happend := Bytes.toNatBE_append [1] (writeNat 4 (Bytes.byteLength value)).1
    rw [List.singleton_append] at happend
    rw [happend]
    apply Nat.add_pos_left
    exact Nat.mul_pos (by decide) (Nat.pow_pos (by decide))
  have hvalue : value < 256 ^ (Bytes.minimalBE value).length := by
    rw [Bytes.length_minimalBE, ← Bytes.byteLength_le_iff]
  calc
    value < 256 ^ (Bytes.minimalBE value).length := hvalue
    _ ≤ Bytes.toNatBE (1 :: (writeNat 4 (Bytes.byteLength value)).1) *
        256 ^ (Bytes.minimalBE value).length := Nat.le_mul_of_pos_left _ hlead
    _ ≤ _ := Nat.le_add_right _ (Bytes.toNatBE (Bytes.minimalBE value))
    _ = Bytes.toNatBE (topEncodeOption (some value)) := by
      rw [hsplit, Bytes.toNatBE_append]

end TokenManager

namespace Its

open Machine NestedCodec TokenManager Transaction

variable (env : Environment) (ctx : CallContext)

/-- Ask the manager of a token, and decode the answer as a big integer. -/
def tokenManagerView (tokenId : TokenId) (view : View) : Tx ℕ := do
  let address ← deployedTokenManager tokenId
  let manager ← reads fun world => world.managers address
  let manager ← orFail manager "account not found"
  return Bytes.toNatBE (TokenManager.view (nested env ctx address .none) manager view)

def flowLimit (tokenId : TokenId) : Tx ℕ := tokenManagerView env ctx tokenId .getFlowLimit

def flowOutAmount (tokenId : TokenId) : Tx ℕ := tokenManagerView env ctx tokenId .flowOutAmount

def flowInAmount (tokenId : TokenId) : Tx ℕ := tokenManagerView env ctx tokenId .flowInAmount

section Views

variable {env : Environment} {ctx : CallContext} {tokenId : TokenId} {address : Address}
variable {world : World} {manager : TokenManager.State}

theorem tokenManagerView_eq (haddress : world.its.tokenManagerAddress tokenId = some address)
    (hmanager : world.managers address = some manager) (view : View) :
    tokenManagerView env ctx tokenId view world =
      .ok ⟨Bytes.toNatBE (TokenManager.view (nested env ctx address .none) manager view),
        world, []⟩ := by
  simp only [tokenManagerView, Transaction.bind_eq_ok, deployedTokenManager_eq_ok, reads_eq_ok,
    lift_eq_ok, Outcome.orFail_eq_ok, Transaction.pure_eq_ok]
  exact ⟨address, world, [], [], ⟨haddress, rfl, rfl⟩, ⟨_, world, [], [], ⟨rfl, rfl, rfl⟩,
    ⟨manager, world, [], [], ⟨hmanager, rfl, rfl⟩, ⟨rfl, rfl, rfl⟩, rfl⟩, rfl⟩, rfl⟩

/-- The service and the manager agree on the flows of the epoch, and on the limit where there
is none. -/
theorem flowViews_agree_iff
    (haddress : world.its.tokenManagerAddress tokenId = some address)
    (hmanager : world.managers address = some manager) :
    flowOutAmount env ctx tokenId world =
      .ok ⟨manager.flowOutAmount (env.blockTimestamp / EPOCH_TIME), world, []⟩ ∧
    flowInAmount env ctx tokenId world =
      .ok ⟨manager.flowInAmount (env.blockTimestamp / EPOCH_TIME), world, []⟩ ∧
    ∃ returned, flowLimit env ctx tokenId world = .ok ⟨returned, world, []⟩ ∧
      (returned = manager.flowLimit.getD 0 ↔ manager.flowLimit = none) := by
  refine ⟨?out, ?inward, _, tokenManagerView_eq haddress hmanager .getFlowLimit, ?limit⟩
  case out =>
    rw [flowOutAmount, tokenManagerView_eq haddress hmanager, TokenManager.view,
      toNatBE_topEncodeBigUint]
    rfl
  case inward =>
    rw [flowInAmount, tokenManagerView_eq haddress hmanager, TokenManager.view,
      toNatBE_topEncodeBigUint]
    rfl
  case limit =>
    rw [TokenManager.view]
    cases hlimit : manager.flowLimit with
    | none => simp [topEncodeOption]
    | some limit => simpa using (lt_toNatBE_topEncodeOption limit).ne'

end Views

/-! ## A limit of five -/

def sampleViewer : CallContext := sampleEnvironment.context sampleUser sampleItsAddress .none

/-- The manager of EGLD, registered, after the calls. -/
def sampleViewed (inputs : List ManagerInput) : Outcome World := do
  let start ← sampleManaged
  let world := ((managerMachine (sampleAddress 6)).replay start inputs).2
  return { world with its := { world.its with
    tokenManagerAddress := Function.update world.its.tokenManagerAddress zeroHash
      (some (sampleAddress 6)) } }

/-- What the manager of the sample and the service hold for the limit. -/
def sampleLimits (inputs : List ManagerInput) : Outcome (Option (Option ℕ) × ℕ) := do
  let world ← sampleViewed inputs
  let answer ← flowLimit sampleEnvironment sampleViewer zeroHash world
  return ((world.managers (sampleAddress 6)).map State.flowLimit, answer.value)

/-- For a limit of five the service returns what the bytes 1, 0, 0, 0, 1 and 5 read as. -/
theorem sampleLimits_five :
    sampleLimits [sampleSetLimit 5] = .ok (some (some 5), 1099511628037) := by
  decide +kernel

theorem sample_limit_misread : ∃ world manager returned,
    sampleViewed [sampleSetLimit 5] = .ok world ∧
    world.its.tokenManagerAddress zeroHash = some (sampleAddress 6) ∧
    world.managers (sampleAddress 6) = some manager ∧ manager.flowLimit = some 5 ∧
    flowLimit sampleEnvironment sampleViewer zeroHash world = .ok returned ∧
    returned.value ≠ 5 := by
  have h := sampleLimits_five
  simp only [sampleLimits, Outcome.bind_eq_ok, Outcome.pure_eq_ok, Prod.mk.injEq,
    Option.map_eq_some_iff] at h
  obtain ⟨world, hworld, returned, hreturned, ⟨manager, hmanager, hlimit⟩, hvalue⟩ := h
  have haddress : world.its.tokenManagerAddress zeroHash = some (sampleAddress 6) := by
    simp only [sampleViewed, Outcome.bind_eq_ok, Outcome.pure_eq_ok] at hworld
    obtain ⟨_, _, rfl⟩ := hworld
    simp
  exact ⟨world, manager, returned, hworld, haddress, hmanager, hlimit, hreturned, by
    rw [hvalue]; decide⟩

theorem sampleViewed_unlimited : (do
    let world ← sampleViewed []
    return (world.managers (sampleAddress 6)).map State.flowLimit) = .ok (some none) := by
  decide +kernel

/-- Without a limit the service returns zero. -/
theorem sample_flowViews_agree : ∃ world, sampleViewed [] = .ok world ∧
    flowLimit sampleEnvironment sampleViewer zeroHash world = .ok ⟨0, world, []⟩ := by
  have h := sampleViewed_unlimited
  simp only [Outcome.bind_eq_ok, Outcome.pure_eq_ok, Option.map_eq_some_iff] at h
  obtain ⟨world, hworld, manager, hmanager, hlimit⟩ := h
  have haddress : world.its.tokenManagerAddress zeroHash = some (sampleAddress 6) := by
    simp only [sampleViewed, Outcome.bind_eq_ok, Outcome.pure_eq_ok] at hworld
    obtain ⟨_, _, rfl⟩ := hworld
    simp
  obtain ⟨_, _, returned, hreturned, hagrees⟩ := @flowViews_agree_iff sampleEnvironment
    sampleViewer _ _ _ _ haddress hmanager
  have hzero := hagrees.mpr hlimit
  rw [hlimit, Option.getD_none] at hzero
  rw [hzero] at hreturned
  exact ⟨world, hworld, hreturned⟩

end Its

end AxelarCgp
