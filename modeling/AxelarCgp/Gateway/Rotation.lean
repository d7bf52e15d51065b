import AxelarCgp.Gateway.LifeCycle

/-!
# Control over rotations

The contract stores the time of the last rotation only, and compares it with the
block time of whoever is not the operator.  Along a clock that does not go back
the stored time is that of the last rotation in the history, whoever made it,
so that the subtraction never wraps and the delay is counted from there.
-/

namespace AxelarCgp.Gateway

open Machine NestedCodec

variable {crypto : Crypto}

/-! ## Times of a history -/

/-- The calls that change the signers. -/
def Call.rotates : Call → Bool
  | rotateSigners _ _ => true
  | upgrade _ signers => !signers.isEmpty
  | _ => false

/-- When the calls that changed the signers ran, oldest first. -/
def rotationTimes (history : History) : List UInt64 :=
  history.filterMap fun entry =>
    match entry.result with
    | .ok _ => if entry.input.2.rotates then some entry.input.1.blockTimestamp else none
    | .error _ => none

/-- The time of the last rotation, which may be that of the deployment; zero when
there was none. -/
def lastRotation (deployed : CallContext) (signers : List WeightedSigners)
    (history : History) : UInt64 :=
  (rotationTimes history).getLast?.getD
    (if signers.isEmpty then 0 else deployed.blockTimestamp)

/-- The block times of the deployment and of all calls after it. -/
def blockTimes (deployed : CallContext) (history : History) : List UInt64 :=
  deployed.blockTimestamp :: history.map fun entry => entry.input.1.blockTimestamp

/-- An upgrade or the deployment itself named an operator. -/
def OperatorNamed (operator : Address) (history : History) : Prop :=
  operator.isZero = false ∨
    ∃ ctx newOperator signers reply,
      (⟨(ctx, .upgrade newOperator signers), .ok reply⟩ : Entry (CallContext × Call) Reply) ∈
        history ∧ newOperator.isZero = false

section Times

variable {deployed ctx : CallContext} {signers : List WeightedSigners} {history : History}

theorem lastRotation_completed (call : Call) (reply : Reply) :
    lastRotation deployed signers (history ++ [⟨(ctx, call), .ok reply⟩]) =
      if call.rotates then ctx.blockTimestamp else lastRotation deployed signers history := by
  rw [lastRotation, rotationTimes, List.filterMap_append]
  by_cases hrotates : call.rotates
  · simp [hrotates]
  · simp [hrotates, lastRotation, rotationTimes]

theorem lastRotation_stopped (call : Call) (message : String) :
    lastRotation deployed signers (history ++ [⟨(ctx, call), .error message⟩]) =
      lastRotation deployed signers history := by
  simp [lastRotation, rotationTimes, List.filterMap_append]

/-- The last rotation ran at some block time, so not after any later one. -/
theorem lastRotation_le (signers : List WeightedSigners) {time : UInt64}
    (hclock : (blockTimes deployed history ++ [time]).Pairwise (· ≤ ·)) :
    lastRotation deployed signers history ≤ time := by
  have hbefore : ∀ earlier ∈ blockTimes deployed history, earlier ≤ time := fun earlier hmem =>
    (List.pairwise_append.mp hclock).2.2 earlier hmem time (List.mem_singleton_self time)
  rw [lastRotation]
  cases hlast : (rotationTimes history).getLast? with
  | none =>
      rw [Option.getD_none]
      split
      · exact UInt64.le_iff_toNat_le.mpr (Nat.zero_le _)
      · exact hbefore _ List.mem_cons_self
  | some earlier =>
      have hmem := List.mem_of_getLast? hlast
      obtain ⟨entry, hentry, htime⟩ := List.mem_filterMap.mp hmem
      have hearlier : earlier = entry.input.1.blockTimestamp := by
        split at htime
        · split at htime
          · exact (Option.some.inj htime).symm
          · simp at htime
        · simp at htime
      rw [Option.getD_some, hearlier]
      exact hbefore _ (List.mem_cons_of_mem _ (List.mem_map_of_mem hentry))

end Times

/-! ## What is stored of it -/

section Storage

variable {ctx : CallContext} {state next : State} {events : List Event}

theorem upgrade_frame {operator : Address} {signers : List WeightedSigners}
    (h : upgrade crypto ctx operator signers state = .ok (next, events)) :
    next = { state with
      operator := if operator.isZero then state.operator else some operator
      lastRotationTimestamp :=
        if signers.isEmpty then state.lastRotationTimestamp else ctx.blockTimestamp
      epoch := next.epoch
      signerHashByEpoch := next.signerHashByEpoch
      epochBySignerHash := next.epochBySignerHash } := by
  obtain ⟨_, more, _, _, hrotate⟩ := upgrade_eq_ok h
  exact rotateEach_frame hrotate

/-- What a call does to the settings, the clock and the operator. -/
structure Keeps (ctx : CallContext) (call : Call) (state next : State) : Prop where
  delay : next.minimumRotationDelay = state.minimumRotationDelay
  stamp : next.lastRotationTimestamp =
    if call.rotates then ctx.blockTimestamp else state.lastRotationTimestamp
  /-- Only an upgrade gives a contract without an operator one. -/
  operator : next.operator.isSome ↔ state.operator.isSome ∨
    ∃ newOperator signers, call = .upgrade newOperator signers ∧ newOperator.isZero = false

theorem Keeps.perform {call : Call} {reply : Reply}
    (h : perform crypto ctx call state = .ok (next, reply)) : Keeps ctx call state next := by
  have hdone := perform_eq_ok h
  cases call with
  | upgrade operator signers =>
      rw [upgrade_frame hdone]
      refine ⟨rfl, by simp [Call.rotates], ?_⟩
      by_cases hoperator : operator.isZero
      · simp [hoperator]
      · simp [hoperator]
  | approveMessages messages proof =>
      obtain ⟨batch, latest, _, _, _, heach⟩ := approveMessages_eq_ok hdone
      rw [(approveEach_frame heach).1]
      exact ⟨rfl, rfl, by simp⟩
  | rotateSigners newSigners proof =>
      obtain ⟨_, _, _, _, _, _, _, hrotate⟩ := rotateSigners_eq_ok.mp hdone
      obtain ⟨_, _, _, rfl, _⟩ := rotateSignersRaw_eq_ok.mp hrotate
      exact ⟨rfl, rfl, by simp⟩
  | callContract chain address payload =>
      obtain ⟨rfl, _⟩ := Prod.mk.inj hdone
      exact ⟨rfl, rfl, by simp⟩
  | validateMessage chain messageId address payloadHash =>
      rcases validateMessage_eq_ok hdone with ⟨_, _, rfl, _⟩ | ⟨_, rfl, _⟩
      · exact ⟨rfl, rfl, by simp [State.messagesSet]⟩
      · exact ⟨rfl, rfl, by simp⟩
  | transferOperatorship newOperator =>
      obtain ⟨operator, hoperator, _, _, rfl, _⟩ := transferOperatorship_eq_ok.mp hdone
      exact ⟨rfl, rfl, by simp [hoperator]⟩

end Storage

/-- The stored settings, clock and operator follow the history of a deployment. -/
structure Follows (deployed : CallContext) (delay : UInt64) (operator : Address)
    (signers : List WeightedSigners) (history : History) (state : State) : Prop where
  delay_eq : state.minimumRotationDelay = delay
  stamp_eq : state.lastRotationTimestamp = lastRotation deployed signers history
  operator_iff : state.operator.isSome ↔ OperatorNamed operator history

section Runs

variable {deployed ctx : CallContext} {retention : ℕ} {domainSeparator : Hash} {delay : UInt64}
variable {operator : Address} {signers : List WeightedSigners} {start state next : State}
variable {events : List Event} {history : History}

namespace Follows

theorem init (h : Gateway.init crypto deployed retention domainSeparator delay operator
    signers = .ok (start, events)) : Follows deployed delay operator signers [] start := by
  rw [upgrade_frame h]
  refine ⟨rfl, rfl, ?_⟩
  by_cases hoperator : operator.isZero
  · simp [OperatorNamed, hoperator, State.blank]
  · simp [OperatorNamed, hoperator]

theorem completed {call : Call} {reply : Reply}
    (h : Follows deployed delay operator signers history state)
    (hok : perform crypto ctx call state = .ok (next, reply)) :
    Follows deployed delay operator signers (history ++ [⟨(ctx, call), .ok reply⟩]) next where
  delay_eq := (Keeps.perform hok).delay.trans h.delay_eq
  stamp_eq := by rw [(Keeps.perform hok).stamp, lastRotation_completed, h.stamp_eq]
  operator_iff := by
    rw [(Keeps.perform hok).operator, h.operator_iff, OperatorNamed, OperatorNamed, or_assoc]
    refine or_congr_right ⟨?_, ?_⟩
    · rintro (⟨old, newOperator, others, result, hmem, hnamed⟩ |
        ⟨newOperator, others, rfl, hnamed⟩)
      · exact ⟨old, newOperator, others, result, List.mem_append_left _ hmem, hnamed⟩
      · exact ⟨ctx, newOperator, others, reply,
          List.mem_append_right _ (List.mem_singleton_self _), hnamed⟩
    · rintro ⟨old, newOperator, others, result, hmem, hnamed⟩
      rcases List.mem_append.mp hmem with hmem | hmem
      · exact .inl ⟨old, newOperator, others, result, hmem, hnamed⟩
      · obtain ⟨hinput, _⟩ := Entry.mk.inj (List.mem_singleton.mp hmem)
        exact .inr ⟨newOperator, others, (Prod.mk.inj hinput).2.symm, hnamed⟩

theorem stopped {call : Call} {message : String}
    (h : Follows deployed delay operator signers history state) :
    Follows deployed delay operator signers (history ++ [⟨(ctx, call), .error message⟩])
      state where
  delay_eq := h.delay_eq
  stamp_eq := by rw [lastRotation_stopped, h.stamp_eq]
  operator_iff := by
    rw [h.operator_iff, OperatorNamed, OperatorNamed]
    simp

theorem run (hinit : Gateway.init crypto deployed retention domainSeparator delay operator
      signers = .ok (start, events)) (hrun : Run (machine crypto) start history state) :
    Follows deployed delay operator signers history state := by
  induction hrun with
  | start => exact .init hinit
  | completed _ hok ih => exact ih.completed hok
  | stopped _ _ ih => exact ih.stopped

end Follows

/-! ## Rotations by others than the operator -/

/-- How a deployment's signers may change, over the calls of `history`. -/
structure RotationControl (crypto : Crypto) (deployed : CallContext) (delay : UInt64)
    (signers : List WeightedSigners) (start : State) (history : History) : Prop where
  /-- Whoever is not the operator shows the current signers, and waited. -/
  byOthers : ∀ before after ctx newSigners proof reply reached,
    history = before ++ ⟨(ctx, .rotateSigners newSigners proof), .ok reply⟩ :: after →
    Run (machine crypto) start before reached → reached.operator ≠ some ctx.caller →
    reached.signerHashByEpoch reached.epoch = some (getSignersHash crypto proof.signers) ∧
    (lastRotation deployed signers before).toNat + delay.toNat ≤ ctx.blockTimestamp.toNat
  /-- A set that is still retained but not the latest serves the operator only. -/
  byOlder : ∀ before after ctx newSigners proof reply reached,
    history = before ++ ⟨(ctx, .rotateSigners newSigners proof), .ok reply⟩ :: after →
    Run (machine crypto) start before reached →
    reached.epochBySignerHash (getSignersHash crypto proof.signers) ≠ reached.epoch →
    reached.operator = some ctx.caller
  stamped : ∀ before after input reply reached,
    history = before ++ ⟨input, .ok reply⟩ :: after → input.2.rotates = true →
    Run (machine crypto) start (before ++ [⟨input, .ok reply⟩]) reached →
    reached.lastRotationTimestamp = input.1.blockTimestamp
  stamped_start : signers ≠ [] → start.lastRotationTimestamp = deployed.blockTimestamp
  /-- Every call, completed or not, comes at or after the stored time. -/
  no_wrap : ∀ before entry after reached, history = before ++ entry :: after →
    Run (machine crypto) start before reached →
    (entry.input.1.blockTimestamp - reached.lastRotationTimestamp).toNat =
      entry.input.1.blockTimestamp.toNat - reached.lastRotationTimestamp.toNat ∧
    reached.lastRotationTimestamp.toNat ≤ entry.input.1.blockTimestamp.toNat

/-- The clock does not go back: not up to a call of the history either. -/
theorem clock_until {before after : History} {entry : Entry (CallContext × Call) Reply}
    (hclock : (blockTimes deployed (before ++ entry :: after)).Pairwise (· ≤ ·)) :
    (blockTimes deployed before ++ [entry.input.1.blockTimestamp]).Pairwise (· ≤ ·) := by
  refine hclock.sublist ?_
  simp [blockTimes]

/-- The delay is checked on machine words, which hold the time that passed. -/
theorem waited_iff {last delay now : UInt64} (hlast : last ≤ now) :
    delay ≤ now - last ↔ last.toNat + delay.toNat ≤ now.toNat := by
  have hle := UInt64.le_iff_toNat_le.mp hlast
  rw [UInt64.le_iff_toNat_le, UInt64.toNat_sub_of_le _ _ hlast]
  omega

/-- What a rotation in the middle of a history had to satisfy. -/
theorem rotated_at {before after : History} {newSigners : ManagedBuffer} {proof : Proof}
    {reply : Reply} {reached : State}
    (hrun : Run (machine crypto) start
      (before ++ ⟨(ctx, .rotateSigners newSigners proof), .ok reply⟩ :: after) state)
    (hreached : Run (machine crypto) start before reached) :
    ∃ signers operator latest,
      topDecode (A := WeightedSigners) newSigners.1 = some signers ∧
      reached.operator = some operator ∧
      validateProof crypto (getDataHash crypto .rotateSigners newSigners) proof reached =
        .ok latest ∧
      (ctx.caller = operator ∨ latest = true) ∧
      ∃ next, rotateSignersRaw crypto ctx signers (decide (ctx.caller ≠ operator)) reached =
        .ok (next, reply.events) := by
  obtain ⟨previous, next, hprevious, hstep, _⟩ := hrun.step_at
  obtain rfl := hprevious.unique hreached
  have hperform : perform crypto ctx (.rotateSigners newSigners proof) previous =
      .ok (next, reply) := hstep
  obtain ⟨signers, operator, latest, hdecode, hoperator, hproof, hlatest, hrotate⟩ :=
    rotateSigners_eq_ok.mp (perform_eq_ok hperform)
  exact ⟨signers, operator, latest, hdecode, hoperator, hproof, hlatest, next, hrotate⟩

theorem rotationControl
    (hinit : init crypto deployed retention domainSeparator delay operator signers =
      .ok (start, events))
    (hrun : Run (machine crypto) start history state)
    (hclock : (blockTimes deployed history).Pairwise (· ≤ ·)) :
    RotationControl crypto deployed delay signers start history := by
  refine {
    byOthers := ?byOthers
    byOlder := ?byOlder
    stamped := ?stamped
    stamped_start := ?stamped_start
    no_wrap := ?no_wrap }
  case byOthers =>
      rintro before after ctx newSigners proof reply reached rfl hreached hother
      have hfollows := Follows.run hinit hreached
      obtain ⟨_, operator, latest, _, hoperator, hproof, hlatest, _, hrotate⟩ :=
        rotated_at hrun hreached
      have hcaller : ctx.caller ≠ operator := fun heq => hother (heq ▸ hoperator)
      obtain rfl := hlatest.resolve_left hcaller
      obtain ⟨hcurrent, hpos, _⟩ := validateProof_eq_ok hproof
      constructor
      · have hnumbered := (Deployed.intro hinit hreached).registers.numbered
        rw [hnumbered.keyAt_eq_some_iff, ← of_decide_eq_true hcurrent.symm]
        exact ⟨hpos, rfl⟩
      · obtain ⟨_, hdelay, _⟩ := rotateSignersRaw_eq_ok.mp hrotate
        have hwaited := hdelay (decide_eq_true hcaller)
        rwa [hfollows.stamp_eq, hfollows.delay_eq,
          waited_iff (lastRotation_le signers (clock_until hclock))] at hwaited
  case byOlder =>
      rintro before after ctx newSigners proof reply reached rfl hreached holder
      obtain ⟨_, operator, latest, _, hoperator, hproof, hlatest, _⟩ :=
        rotated_at hrun hreached
      rcases hlatest with rfl | rfl
      · exact hoperator
      · have hcurrent := (validateProof_eq_ok hproof).1
        exact absurd (of_decide_eq_true hcurrent.symm) holder
  case stamped =>
      rintro before after ⟨ctx, call⟩ reply reached rfl hrotates hreached
      rw [(Follows.run hinit hreached).stamp_eq, lastRotation_completed, if_pos hrotates]
  case stamped_start =>
      intro hsigners
      rw [(Follows.init hinit).stamp_eq]
      simp [lastRotation, rotationTimes, hsigners]
  case no_wrap =>
      rintro before entry after reached rfl hreached
      rw [(Follows.run hinit hreached).stamp_eq]
      have hlast := lastRotation_le signers (clock_until hclock)
      exact ⟨UInt64.toNat_sub_of_le _ _ hlast, UInt64.le_iff_toNat_le.mp hlast⟩

/-! ## Rotations and transfers that nothing else stands against -/

/-- A call completes when its endpoint does. -/
theorem exists_perform_iff {call : Call} {endpoint : Outcome (State × List Event)}
    (hcall : perform crypto ctx call state = reply <$> endpoint) :
    (∃ result, perform crypto ctx call state = .ok result) ↔
      ∃ next events, endpoint = .ok (next, events) := by
  rw [hcall]
  constructor
  · rintro ⟨result, hok⟩
    obtain ⟨⟨next, events⟩, hendpoint, _⟩ := Outcome.map_eq_ok.mp hok
    exact ⟨next, events, hendpoint⟩
  · rintro ⟨next, events, hendpoint⟩
    exact ⟨_, Outcome.map_eq_ok.mpr ⟨_, hendpoint, rfl⟩⟩

theorem perform_rotateSigners {newSigners : ManagedBuffer} {proof : Proof}
    (hunpaid : ctx.callValue = .egld 0) :
    perform crypto ctx (.rotateSigners newSigners proof) state =
      reply <$> rotateSigners crypto ctx newSigners proof state := by
  rw [perform, requireNotPayable, hunpaid]
  rfl

theorem perform_transferOperatorship {newOperator : Address}
    (hunpaid : ctx.callValue = .egld 0) :
    perform crypto ctx (.transferOperatorship newOperator) state =
      reply <$> transferOperatorship ctx newOperator state := by
  rw [perform, requireNotPayable, hunpaid]
  rfl

/-- A set that was never announced is not in the registry. -/
theorem Registers.fresh {log : List Event} {newSigners : WeightedSigners}
    (h : Registers crypto (rotations log) state)
    (hkeccak : Set.InjOn crypto.keccak256 (signersPreimages log newSigners))
    (hnew : newSigners ∉ (rotations log).map Rotation.signers) :
    state.epochBySignerHash (getSignersHash crypto newSigners) = 0 := by
  by_contra hregistered
  obtain ⟨rotation, hrotation, _, _, hhash, _⟩ :=
    h.exists_rotation (Nat.pos_of_ne_zero hregistered)
  have hsame : rotation.signers = newSigners := by
    apply signersHashPreimage_injective
    apply hkeccak
    · exact ⟨_, .inr ⟨_, _, mem_rotations.mp hrotation⟩, rfl⟩
    · exact ⟨_, .inl rfl, rfl⟩
    · exact hhash.symm
  exact hnew (hsame ▸ List.mem_map_of_mem hrotation)

/-- Of the calls that nothing else stands against, all complete when an operator
was named, and none when not. -/
structure OpenTo (crypto : Crypto) (delay last : UInt64) (log : List Event) (state : State)
    (named : Prop) : Prop where
  rotateSigners : ∀ ctx newSigners signers proof, ctx.callValue = .egld 0 →
    topDecode (A := WeightedSigners) newSigners.1 = some signers →
    validateSigners signers = .ok () →
    signers ∉ (rotations log).map Rotation.signers →
    Set.InjOn crypto.keccak256 (signersPreimages log signers) →
    validateProof crypto (getDataHash crypto .rotateSigners newSigners) proof state = .ok true →
    last.toNat + delay.toNat ≤ ctx.blockTimestamp.toNat →
    ((∃ result, perform crypto ctx (.rotateSigners newSigners proof) state = .ok result) ↔ named)
  transferOperatorship : ∀ ctx newOperator, ctx.callValue = .egld 0 →
    ctx.caller = ctx.ownerAddress → newOperator.isZero = false →
    ((∃ result, perform crypto ctx (.transferOperatorship newOperator) state = .ok result) ↔
      named)

theorem openTo_operatorNamed
    (hinit : init crypto deployed retention domainSeparator delay operator signers =
      .ok (start, events))
    (hrun : Run (machine crypto) start history state) :
    OpenTo crypto delay (lastRotation deployed signers history) (events ++ emitted history)
      state (OperatorNamed operator history) := by
  have hfollows := Follows.run hinit hrun
  constructor
  case rotateSigners =>
      intro ctx newSigners decoded proof hunpaid hdecode hvalid hnew hkeccak hproof hwaited
      rw [exists_perform_iff (perform_rotateSigners hunpaid), ← hfollows.operator_iff,
        Option.isSome_iff_exists]
      constructor
      · rintro ⟨next, others, hok⟩
        obtain ⟨_, named, _, _, hnamed, _⟩ := rotateSigners_eq_ok.mp hok
        exact ⟨named, hnamed⟩
      · rintro ⟨named, hnamed⟩
        have hfresh := (Deployed.intro hinit hrun).registers.fresh hkeccak hnew
        have hlast : lastRotation deployed signers history ≤ ctx.blockTimestamp := by
          rw [UInt64.le_iff_toNat_le]
          omega
        have hdelay := (waited_iff hlast).mpr hwaited
        rw [← hfollows.stamp_eq, ← hfollows.delay_eq] at hdelay
        exact ⟨_, _, rotateSigners_eq_ok.mpr ⟨decoded, named, true, hdecode, hnamed, hproof,
          .inr rfl, rotateSignersRaw_eq_ok.mpr ⟨hvalid, fun _ => hdelay, hfresh, rfl, rfl⟩⟩⟩
  case transferOperatorship =>
      intro ctx newOperator hunpaid howner hnew
      rw [exists_perform_iff (perform_transferOperatorship hunpaid), ← hfollows.operator_iff,
        Option.isSome_iff_exists]
      constructor
      · rintro ⟨next, others, hok⟩
        obtain ⟨named, hnamed, _⟩ := transferOperatorship_eq_ok.mp hok
        exact ⟨named, hnamed⟩
      · rintro ⟨named, hnamed⟩
        exact ⟨_, _, transferOperatorship_eq_ok.mpr ⟨named, hnamed, .inr howner, hnew, rfl,
          rfl⟩⟩

end Runs

/-! ## A rotation by anybody -/

def sampleRotationProof : Proof where
  signers := sampleSigners 0
  signatures := ⟨[some ⟨
    (writeNat 32 0xbe0159a05c7dc6217fccaf1ae599e8e86830c2093c11d58966d66e16adc7e487).1 ++
      (writeNat 32 0xc6fe8563b1545a9ccb2e505c420af7d73f5bc874ec8af15960fee493a3193908).1,
    by simp [writeNat]⟩], by decide⟩

/-- The sample hashes and those of the rotation to the second set. -/
def sampleRotationCrypto : Crypto :=
  let signersHash := getSignersHash sampleCrypto (sampleSigners 0)
  let dataHash := writeNat 32
    0x8749bdff92a0d579a6a5e33cad8972718b904133df90044d7be3e6eaa965b180
  let hashToSign := writeNat 32
    0x7fc60720b6912704450cc112a9f928e081294db6e1e18f2173e106a2d80bd48b
  Crypto.tabulated
    [(signersHashPreimage (sampleSigners 0), signersHash),
      (signersHashPreimage (sampleSigners 1), getSignersHash sampleCrypto (sampleSigners 1)),
      (1 :: sampleNewSigners.1, dataHash),
      (multiversxSignedMessagePrefix ++ Address.zero.1 ++ signersHash.1 ++ dataHash.1,
        hashToSign)]
    [(sampleKey.1, hashToSign.1,
      (writeNat 32 0xbe0159a05c7dc6217fccaf1ae599e8e86830c2093c11d58966d66e16adc7e487).1 ++
        (writeNat 32 0xc6fe8563b1545a9ccb2e505c420af7d73f5bc874ec8af15960fee493a3193908).1)]

/-- A deployment with a rotation delay of 50 seconds. -/
def sampleDeployment (operator : Address) : Outcome (State × List Event) :=
  init sampleRotationCrypto sampleContext 0 Address.zero 50 operator [sampleSigners 0]

/-- A caller that is not the operator, when the delay is just over. -/
def sampleRotation : CallContext × Call :=
  ({ sampleContext with blockTimestamp := 150 },
    .rotateSigners sampleNewSigners sampleRotationProof)

theorem sampleRotation_completes :
    (sampleDeployment sampleContext.ownerAddress >>= fun deployed =>
      (fun result : State × Reply => rotations result.2.events) <$>
        (machine sampleRotationCrypto).step deployed.1 sampleRotation) =
      .ok [⟨2, getSignersHash sampleCrypto (sampleSigners 1), sampleSigners 1⟩] := by
  decide +kernel

theorem sample_rotationControl : ∃ start events next reply,
    sampleDeployment sampleContext.ownerAddress = .ok (start, events) ∧
    (machine sampleRotationCrypto).step start sampleRotation = .ok (next, reply) ∧
    RotationControl sampleRotationCrypto sampleContext 50 [sampleSigners 0] start
      [⟨sampleRotation, .ok reply⟩] := by
  obtain ⟨⟨start, events⟩, hinit, hrotated⟩ := Outcome.bind_eq_ok.mp sampleRotation_completes
  obtain ⟨⟨next, reply⟩, hstep, _⟩ := Outcome.map_eq_ok.mp hrotated
  refine ⟨start, events, next, reply, hinit, hstep, ?_⟩
  have hclock : (blockTimes sampleContext [⟨sampleRotation, .ok reply⟩]).Pairwise (· ≤ ·) := by
    simp only [blockTimes, List.map_cons, List.map_nil]
    decide
  exact rotationControl hinit (Run.start.completed hstep) hclock

/-- The checks on the sample rotation, apart from the operator's. -/
def sampleRotationChecks (start : State) (events : List Event) : Bool :=
  topDecode (A := WeightedSigners) sampleNewSigners.1 = some (sampleSigners 1) ∧
  validateSigners (sampleSigners 1) = .ok () ∧
  (rotations events).map Rotation.signers = [sampleSigners 0] ∧
  validateProof sampleRotationCrypto
    (getDataHash sampleRotationCrypto .rotateSigners sampleNewSigners) sampleRotationProof start =
      .ok true ∧
  start.lastRotationTimestamp.toNat + 50 ≤ sampleRotation.1.blockTimestamp.toNat

/-- The operator names another one. -/
def sampleHandOn : List (CallContext × Call) :=
  [({ sampleContext with caller := sampleContext.ownerAddress },
    .transferOperatorship (Address.ofByte 9))]

theorem sampleHandOn_replay : (do
    let (start, events) ← sampleDeployment sampleContext.ownerAddress
    let (history, state) := (machine sampleRotationCrypto).replay start sampleHandOn
    return (history.map fun (entry : Entry (CallContext × Call) Reply) => entry.result.isOk,
      sampleRotationChecks state (events ++ emitted history),
      lastRotation sampleContext [sampleSigners 0] history)) = .ok ([true], true, 100) := by
  decide +kernel

/-- The two sets have hashes of their own. -/
theorem sampleRotation_injOn {log : List Event}
    (h : (rotations log).map Rotation.signers = [sampleSigners 0]) :
    Set.InjOn sampleRotationCrypto.keccak256 (signersPreimages log (sampleSigners 1)) := by
  have hapart : sampleRotationCrypto.apart
      ([sampleSigners 0, sampleSigners 1].map signersHashPreimage) = true := by
    decide +kernel
  apply (Crypto.injOn_of_apart hapart).mono
  rintro _ ⟨signers, rfl | ⟨epoch, signersHash, hevent⟩, rfl⟩
  · exact List.mem_map_of_mem (List.mem_cons_of_mem _ (List.mem_cons_self ..))
  · have hmem : signers ∈ (rotations log).map Rotation.signers :=
      List.mem_map.mpr ⟨⟨epoch, signersHash, signers⟩, mem_rotations.mpr hevent, rfl⟩
    rw [h, List.mem_singleton] at hmem
    exact List.mem_map_of_mem (hmem ▸ List.mem_cons_self ..)

/-- The rotation by anybody completes, whoever is the operator by then. -/
theorem sample_openTo : ∃ start events history state result,
    sampleDeployment sampleContext.ownerAddress = .ok (start, events) ∧
    Run (machine sampleRotationCrypto) start history state ∧
    history.map Entry.input = sampleHandOn ∧
    history.map (fun entry => entry.result.isOk) = [true] ∧
    perform sampleRotationCrypto sampleRotation.1 sampleRotation.2 state = .ok result := by
  have hreplay := sampleHandOn_replay
  simp only [Outcome.bind_eq_ok, Outcome.pure_eq_ok, Prod.exists, Prod.mk.injEq] at hreplay
  obtain ⟨start, events, hinit, hresults, hchecks, hlast⟩ := hreplay
  obtain ⟨hdecode, hvalid, hrotations, hproof, _⟩ := of_decide_eq_true hchecks
  have hrun := (machine sampleRotationCrypto).run_replay start sampleHandOn
  have hinputs := (machine sampleRotationCrypto).replay_inputs start sampleHandOn
  have hopen := openTo_operatorNamed hinit hrun
  rw [hlast] at hopen
  have hnew : sampleSigners 1 ∉ [sampleSigners 0] := by
    decide +kernel
  rw [← hrotations] at hnew
  obtain ⟨result, hok⟩ := (hopen.rotateSigners sampleRotation.1 _ _ _ rfl hdecode hvalid hnew
    (sampleRotation_injOn hrotations) hproof (by decide)).mpr (.inl (by decide))
  exact ⟨start, events, _, _, result, hinit, hrun, hinputs, hresults, hok⟩

/-- The owner of a contract deployed without an operator names one. -/
def sampleTransfer : CallContext × Call :=
  ({ sampleContext with caller := sampleContext.ownerAddress },
    .transferOperatorship sampleContext.caller)

theorem sampleDeployment_blocked :
    (fun deployed : State × List Event =>
      sampleRotationChecks deployed.1 deployed.2 &&
        !((machine sampleRotationCrypto).step deployed.1 sampleRotation).isOk &&
        !((machine sampleRotationCrypto).step deployed.1 sampleTransfer).isOk) <$>
      sampleDeployment Address.zero = .ok true := by
  decide +kernel

/-- Deployed with the zero operator, the contract refuses the same rotation, and
its owner as well. -/
theorem sample_blocked : ∃ start events,
    sampleDeployment Address.zero = .ok (start, events) ∧
    sampleRotationChecks start events = true ∧
    (∀ result, (machine sampleRotationCrypto).step start sampleRotation ≠ .ok result) ∧
    ∀ result, (machine sampleRotationCrypto).step start sampleTransfer ≠ .ok result := by
  obtain ⟨⟨start, events⟩, hinit, hblocked⟩ := Outcome.map_eq_ok.mp sampleDeployment_blocked
  simp only [Bool.and_eq_true, Bool.not_eq_true'] at hblocked
  obtain ⟨⟨hchecks, hrotation⟩, htransfer⟩ := hblocked
  refine ⟨start, events, hinit, hchecks, ?_, ?_⟩
  · intro result hok
    rw [hok] at hrotation
    simp [Except.isOk, Except.toBool] at hrotation
  · intro result hok
    rw [hok] at htransfer
    simp [Except.isOk, Except.toBool] at htransfer

end AxelarCgp.Gateway
