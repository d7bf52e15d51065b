import AxelarCgp.Gateway.Board

/-!
# The contract mirrors the ideal gateway

As long as no two of the messages and signer sets that the calls mention share a hash, the contract
and the ideal gateway answer every sequence of calls alike: with the same results, the same events
and the same errors.
-/

namespace AxelarCgp.Gateway

open Machine NestedCodec Outcome

variable (crypto : Crypto)

/-- What the contract stores of a standing. -/
def Standing.stored : Standing → MessageState
  | unknown => .nonExistent
  | approved message => .approved (message.hash crypto)
  | executed => .executed

/-- The storage holds the hashes of what is on the board; `hashed` are strings that the calls may
have hashed. -/
structure Shows (hashed : Set Bytes) (state : State) (board : Board) : Prop where
  operator : state.operator = board.operator
  messages : ∀ id, state.messagesGet id = .ok ((board.standing id).stored crypto)
  signers : Numbering (board.signerSets.map (getSignersHash crypto)) state.epoch
    state.signerHashByEpoch state.epochBySignerHash
  lastRotationTimestamp : state.lastRotationTimestamp = board.lastRotationTimestamp
  previousSignersRetention : state.previousSignersRetention = board.previousSignersRetention
  domainSeparator : state.domainSeparator = board.domainSeparator
  minimumRotationDelay : state.minimumRotationDelay = board.minimumRotationDelay
  message_mem : ∀ id message, board.standing id = .approved message → message.preimage ∈ hashed
  signers_mem : ∀ signers ∈ board.signerSets, signersHashPreimage signers ∈ hashed

/-- The messages and signer sets that a call mentions, as they are hashed. -/
def strings : CallContext × Call → List Bytes
  | (_, .upgrade _ signers) => signers.map signersHashPreimage
  | (_, .approveMessages messages proof) =>
      signersHashPreimage proof.signers ::
        ((topDecodeVec messages.1).getD []).map Message.preimage
  | (_, .rotateSigners newSigners proof) =>
      signersHashPreimage proof.signers ::
        (topDecode newSigners.1).toList.map signersHashPreimage
  | (ctx, .validateMessage sourceChain messageId sourceAddress payloadHash) =>
      [messageHashPreimage ⟨sourceChain, messageId⟩ sourceAddress ctx.caller payloadHash]
  | _ => []

/-- All that a deployment and the calls after it mention. -/
def mentioned (signers : List WeightedSigners) (inputs : List (CallContext × Call)) :
    List Bytes :=
  signers.map signersHashPreimage ++ inputs.flatMap strings

/-- Both sides emit the same, and the storage shows the board again. -/
def Echoes (hashed : Set Bytes) (left : State × List Event) (right : Board × List Event) : Prop :=
  Shows crypto hashed left.1 right.1 ∧ left.2 = right.2

variable {crypto} {hashed : Set Bytes} {state : State} {board : Board} {ctx : CallContext}

namespace Shows

/-! ## Messages -/

/-- A stored hash is the one of a message exactly when that message was approved. -/
theorem stored_eq_approved_iff (h : Shows crypto hashed state board)
    (hkeccak : Set.InjOn crypto.keccak256 hashed) {message : Message}
    (hmessage : message.preimage ∈ hashed) (id : CrossChainId) :
    (board.standing id).stored crypto = .approved (message.hash crypto) ↔
      board.standing id = .approved message := by
  cases hstanding : board.standing id with
  | unknown | executed => simp [Standing.stored]
  | approved other =>
      constructor
      · intro hstored
        have hpreimage : other.preimage = message.preimage :=
          hkeccak (h.message_mem id other hstanding) hmessage
            (MessageState.approved.inj hstored)
        rw [Message.preimage_injective hpreimage]
      · intro heq
        rw [heq, Standing.stored]

/-- Storing where one message stands. -/
theorem messages_update (h : Shows crypto hashed state board) (id other : CrossChainId)
    (value : Standing) :
    (state.messagesSet id (value.stored crypto)).messagesGet other =
      .ok ((Function.update board.standing id value other).stored crypto) := by
  by_cases hid : other = id
  · rw [hid, State.messagesGet_messagesSet_self, Function.update_self]
  · rw [State.messagesGet_messagesSet_of_ne _ hid, h.messages, Function.update_of_ne hid]

theorem message_mem_update (h : Shows crypto hashed state board) {id other : CrossChainId}
    {value : Standing} {message : Message}
    (hvalue : value = .approved message → message.preimage ∈ hashed)
    (hother : Function.update board.standing id value other = .approved message) :
    message.preimage ∈ hashed := by
  by_cases hid : other = id
  · rw [hid, Function.update_self] at hother
    exact hvalue hother
  · rw [Function.update_of_ne hid] at hother
    exact h.message_mem other message hother

theorem approve (h : Shows crypto hashed state board) {message : Message}
    (hmessage : message.preimage ∈ hashed) :
    Shows crypto hashed
      (state.messagesSet message.crossChainId (.approved (message.hash crypto)))
      (board.approve message) :=
  { h with
    messages := fun other => h.messages_update message.crossChainId other (.approved message)
    message_mem := by
      intro other approved hother
      apply h.message_mem_update _ hother
      intro heq
      rwa [← Standing.approved.inj heq] }

theorem execute (h : Shows crypto hashed state board) (id : CrossChainId) :
    Shows crypto hashed (state.messagesSet id .executed) (board.execute id) :=
  { h with
    messages := fun other => h.messages_update id other .executed
    message_mem := by
      intro other message hother
      apply h.message_mem_update _ hother
      simp }

theorem approveMessage (h : Shows crypto hashed state board) {message : Message}
    (hmessage : message.preimage ∈ hashed) :
    Agree (Echoes crypto hashed) (Gateway.approveMessage crypto message state)
      (.ok (Board.approveMessage message board)) := by
  rw [Gateway.approveMessage, h.messages, Outcome.ok_bind, Board.approveMessage]
  cases hstanding : board.standing message.crossChainId with
  | unknown => exact .completed ⟨h.approve hmessage, rfl⟩
  | approved | executed => exact .completed ⟨h, rfl⟩

theorem approveEach {batch : List Message} (h : Shows crypto hashed state board)
    (hbatch : ∀ message ∈ batch, message.preimage ∈ hashed) :
    Agree (Echoes crypto hashed) (Gateway.approveEach crypto batch state)
      (.ok (Board.approveEach batch board)) := by
  induction batch generalizing state board with
  | nil => exact .completed ⟨h, rfl⟩
  | cons message batch ih =>
      obtain ⟨hmessage, hothers⟩ := List.forall_mem_cons.mp hbatch
      apply (h.approveMessage hmessage).bind_left
      intro first hfirst
      apply (ih hfirst.1 hothers).bind_left
      intro last hlast
      exact .completed ⟨hlast.1, congrArg₂ _ hfirst.2 hlast.2⟩

theorem validateMessage {message : Message} (h : Shows crypto hashed state board)
    (hkeccak : Set.InjOn crypto.keccak256 hashed) (hmessage : message.preimage ∈ hashed)
    (hcaller : message.contractAddress = ctx.caller) :
    Agree (fun left right => Shows crypto hashed left.1 right.1 ∧ left.2 = right.2)
      (Gateway.validateMessage crypto ctx message.sourceChain message.messageId
        message.sourceAddress message.payloadHash state)
      (.ok (Board.validateMessage message board)) := by
  have hiff := h.stored_eq_approved_iff hkeccak hmessage message.crossChainId
  rw [Message.hash, hcaller] at hiff
  rw [Gateway.validateMessage, ← Message.crossChainId, h.messages, Outcome.ok_bind,
    Board.validateMessage]
  by_cases happroved : board.standing message.crossChainId = .approved message
  · rw [if_pos (hiff.mpr happroved), if_pos happroved]
    exact .completed ⟨h.execute _, rfl⟩
  · rw [if_neg (mt hiff.mp happroved), if_neg happroved]
    exact .completed ⟨h, rfl⟩

/-! ## Signers -/

/-- The epoch that is stored for the hash of a signer set is its place on the board. -/
theorem epochBySignerHash_eq (h : Shows crypto hashed state board)
    (hkeccak : Set.InjOn crypto.keccak256 hashed) {signers : WeightedSigners}
    (hsigners : signersHashPreimage signers ∈ hashed) :
    state.epochBySignerHash (getSignersHash crypto signers) =
      if signers ∈ board.signerSets then board.signerSets.idxOf signers + 1 else 0 := by
  split
  · rename_i hmem
    apply (h.signers.numberOf_eq _ _).mpr
    rw [List.getElem?_map, List.getElem?_idxOf hmem, Option.map_some]
  · rename_i hnone
    apply Nat.eq_zero_of_not_pos
    intro hpos
    obtain ⟨other, hother, hhash⟩ := List.mem_map.mp (h.signers.mem_iff.mpr hpos)
    have hpreimage := hkeccak (h.signers_mem other hother) hsigners hhash
    exact hnone (signersHashPreimage_injective hpreimage ▸ hother)

theorem epoch_eq (h : Shows crypto hashed state board) :
    state.epoch = board.signerSets.length := by
  rw [h.signers.count_eq, List.length_map]

theorem validateProof (h : Shows crypto hashed state board)
    (hkeccak : Set.InjOn crypto.keccak256 hashed) (commandType : CommandType)
    (buffer : ManagedBuffer) {proof : Proof}
    (hproof : signersHashPreimage proof.signers ∈ hashed) :
    Agree Eq (Gateway.validateProof crypto (getDataHash crypto commandType buffer) proof state)
      (Board.validateProof crypto commandType buffer proof board) := by
  have hepoch := h.epochBySignerHash_eq hkeccak hproof
  by_cases hmem : proof.signers ∈ board.signerSets
  · rw [if_pos hmem] at hepoch
    have hle : board.signerSets.idxOf proof.signers + 1 ≤ board.signerSets.length :=
      List.idxOf_lt_length_of_mem hmem
    simp only [Gateway.validateProof, Board.validateProof, hepoch, h.epoch_eq,
      h.previousSignersRetention, SignedCommand.messageHashToSign_eq, h.domainSeparator,
      bigUintSub, if_pos hle]
    exact (Agree.require (by simp [hmem]) _).bind fun _ _ _ => .same _
  · rw [if_neg hmem] at hepoch
    simp only [Gateway.validateProof, Board.validateProof, hepoch]
    rw [require, if_neg (by simp), require, if_neg hmem]
    exact .stopped _

theorem seat (h : Shows crypto hashed state board) {newSigners : WeightedSigners}
    (hnew : signersHashPreimage newSigners ∈ hashed)
    (hunused : state.epochBySignerHash (getSignersHash crypto newSigners) = 0)
    (hfresh : newSigners ∉ board.signerSets) (timestamp : UInt64) :
    Shows crypto hashed { state with
        lastRotationTimestamp := timestamp
        epoch := state.epoch + 1
        signerHashByEpoch := Function.update state.signerHashByEpoch (state.epoch + 1)
          (some (getSignersHash crypto newSigners))
        epochBySignerHash := Function.update state.epochBySignerHash
          (getSignersHash crypto newSigners) (state.epoch + 1) }
      (board.seat newSigners timestamp hfresh) :=
  { h with
    lastRotationTimestamp := rfl
    signers := by
      rw [Board.seat, List.map_append]
      exact h.signers.snoc hunused
    signers_mem := by
      intro signers hsigners
      rcases List.mem_append.mp hsigners with hsigners | hsigners
      · exact h.signers_mem signers hsigners
      · rwa [List.mem_singleton.mp hsigners] }

theorem rotateSignersRaw (h : Shows crypto hashed state board)
    (hkeccak : Set.InjOn crypto.keccak256 hashed) {newSigners : WeightedSigners}
    (hnew : signersHashPreimage newSigners ∈ hashed) (enforceRotationDelay : Bool) :
    Agree (Echoes crypto hashed)
      (Gateway.rotateSignersRaw crypto ctx newSigners enforceRotationDelay state)
      (Board.rotateSignersRaw crypto ctx newSigners enforceRotationDelay board) := by
  have hunused := h.epochBySignerHash_eq hkeccak hnew
  have hdelay : (¬ enforceRotationDelay ∨
      ctx.blockTimestamp - state.lastRotationTimestamp ≥ state.minimumRotationDelay) ↔
      (¬ enforceRotationDelay ∨
      ctx.blockTimestamp - board.lastRotationTimestamp ≥ board.minimumRotationDelay) := by
    rw [h.lastRotationTimestamp, h.minimumRotationDelay]
  apply Agree.shared
  intro _ _
  rw [updateRotationTimestamp, bind_assoc]
  apply (Agree.require hdelay _).bind
  intro _ _ _
  rw [pure_bind]
  by_cases hfresh : newSigners ∈ board.signerSets
  · rw [if_pos hfresh] at hunused
    simp only [hunused, dif_pos hfresh]
    exact .stopped _
  · rw [if_neg hfresh] at hunused
    simp only [hunused, dif_neg hfresh]
    exact .completed ⟨h.seat hnew hunused hfresh _, by rw [h.epoch_eq]⟩

theorem rotateEach {signers : List WeightedSigners} (h : Shows crypto hashed state board)
    (hkeccak : Set.InjOn crypto.keccak256 hashed)
    (hsigners : ∀ newSigners ∈ signers, signersHashPreimage newSigners ∈ hashed) :
    Agree (Echoes crypto hashed) (Gateway.rotateEach crypto ctx signers state)
      (Board.rotateEach crypto ctx signers board) := by
  induction signers generalizing state board with
  | nil => exact .completed ⟨h, rfl⟩
  | cons newSigners signers ih =>
      obtain ⟨hnew, hothers⟩ := List.forall_mem_cons.mp hsigners
      apply (h.rotateSignersRaw hkeccak hnew false).bind
      intro first second hfirst
      apply (ih hfirst.1 hothers).bind
      intro last image hlast
      exact .completed ⟨hlast.1, congrArg₂ _ hfirst.2 hlast.2⟩

theorem transfer (h : Shows crypto hashed state board) (newOperator : Address) :
    Shows crypto hashed { state with operator := some newOperator }
      { board with operator := some newOperator } :=
  { h with operator := rfl }

/-! ## Endpoints -/

theorem upgrade {operator : Address} {signers : List WeightedSigners}
    (h : Shows crypto hashed state board) (hkeccak : Set.InjOn crypto.keccak256 hashed)
    (hsigners : ∀ newSigners ∈ signers, signersHashPreimage newSigners ∈ hashed) :
    Agree (Echoes crypto hashed) (Gateway.upgrade crypto ctx operator signers state)
      (Board.upgrade crypto ctx operator signers board) := by
  by_cases hoperator : operator.isZero
  · simp only [Gateway.upgrade, Board.upgrade, hoperator, Bool.not_true, Bool.false_eq_true,
      if_false]
    apply (h.rotateEach hkeccak hsigners).bind
    intro first second hfirst
    exact .completed ⟨hfirst.1, congrArg ([] ++ ·) hfirst.2⟩
  · simp only [Gateway.upgrade, Board.upgrade, hoperator, Bool.not_false, if_true]
    apply ((h.transfer operator).rotateEach hkeccak hsigners).bind
    intro first second hfirst
    exact .completed ⟨hfirst.1, congrArg ([Event.operatorshipTransferred operator] ++ ·) hfirst.2⟩

theorem approveMessages {messages : ManagedBuffer} {proof : Proof}
    (h : Shows crypto hashed state board) (hkeccak : Set.InjOn crypto.keccak256 hashed)
    (hstrings : ∀ bytes ∈ strings (ctx, .approveMessages messages proof), bytes ∈ hashed) :
    Agree (Echoes crypto hashed) (Gateway.approveMessages crypto messages proof state)
      (Board.approveMessages crypto messages proof board) := by
  obtain ⟨hproof, hbatch⟩ := List.forall_mem_cons.mp hstrings
  apply Agree.shared
  intro batch hdecode
  rw [Outcome.orFail_eq_ok.mp hdecode, Option.getD_some, List.forall_mem_map] at hbatch
  apply Agree.shared
  intro _ _
  apply (h.validateProof hkeccak .approveMessages messages hproof).bind
  intro _ _ _
  exact h.approveEach hbatch

theorem rotateSigners {newSigners : ManagedBuffer} {proof : Proof}
    (h : Shows crypto hashed state board) (hkeccak : Set.InjOn crypto.keccak256 hashed)
    (hstrings : ∀ bytes ∈ strings (ctx, .rotateSigners newSigners proof), bytes ∈ hashed) :
    Agree (Echoes crypto hashed) (Gateway.rotateSigners crypto ctx newSigners proof state)
      (Board.rotateSigners crypto ctx newSigners proof board) := by
  obtain ⟨hproof, hsigners⟩ := List.forall_mem_cons.mp hstrings
  apply Agree.shared
  intro signers hdecode
  rw [Outcome.orFail_eq_ok.mp hdecode, Option.toList_some, List.map_singleton,
    List.forall_mem_singleton] at hsigners
  rw [operatorGet, h.operator]
  apply Agree.shared
  intro operator _
  apply (h.validateProof hkeccak .rotateSigners newSigners hproof).bind
  rintro latest _ rfl
  apply Agree.shared
  intro _ _
  exact h.rotateSignersRaw hkeccak hsigners _

theorem transferOperatorship {newOperator : Address} (h : Shows crypto hashed state board) :
    Agree (Echoes crypto hashed) (Gateway.transferOperatorship ctx newOperator state)
      (Board.transferOperatorship ctx newOperator board) := by
  rw [Gateway.transferOperatorship, onlyOperatorOrOwner, operatorGet, h.operator, bind_assoc]
  apply Agree.shared
  intro operator _
  apply Agree.shared
  intro _ _
  apply Agree.shared
  intro _ _
  exact .completed ⟨h.transfer newOperator, rfl⟩

theorem perform {call : Call} (h : Shows crypto hashed state board)
    (hkeccak : Set.InjOn crypto.keccak256 hashed)
    (hstrings : ∀ bytes ∈ strings (ctx, call), bytes ∈ hashed) :
    Agree (fun left right => Shows crypto hashed left.1 right.1 ∧ left.2 = right.2)
      (Gateway.perform crypto ctx call state) (Board.perform crypto ctx call board) := by
  have hreply : ∀ left right, Echoes crypto hashed left right →
      Shows crypto hashed (reply left).1 (Board.reply right).1 ∧
        (reply left).2 = (Board.reply right).2 :=
    fun _ _ hechoes => ⟨hechoes.1, congrArg (Reply.mk false) hechoes.2⟩
  apply Agree.shared
  intro _ _
  cases call with
  | upgrade operator signers =>
      apply Agree.map _ hreply
      exact h.upgrade hkeccak (List.forall_mem_map.mp hstrings)
  | approveMessages messages proof => exact (h.approveMessages hkeccak hstrings).map hreply
  | rotateSigners newSigners proof => exact (h.rotateSigners hkeccak hstrings).map hreply
  | callContract chain address payload => exact .completed ⟨h, rfl⟩
  | validateMessage chain messageId address payloadHash =>
      let message : Message := ⟨chain, messageId, address, ctx.caller, payloadHash⟩
      have hmessage : message.preimage ∈ hashed := hstrings _ (List.mem_singleton_self _)
      apply (h.validateMessage hkeccak hmessage rfl).bind_left
      intro result hresult
      exact .completed ⟨hresult.1,
        congrArg (fun answer : Bool × List Event => Reply.mk answer.1 answer.2) hresult.2⟩
  | transferOperatorship newOperator => exact h.transferOperatorship.map hreply

/-! ## Views -/

theorem isMessageApproved {message : Message} (h : Shows crypto hashed state board)
    (hkeccak : Set.InjOn crypto.keccak256 hashed) (hmessage : message.preimage ∈ hashed) :
    Gateway.isMessageApproved crypto message.sourceChain message.messageId message.sourceAddress
        message.contractAddress message.payloadHash state =
      .ok (decide (board.standing message.crossChainId = .approved message)) := by
  rw [Gateway.isMessageApproved, ← Message.crossChainId, h.messages, Outcome.ok_bind,
    ← Message.hash]
  simp only [h.stored_eq_approved_iff hkeccak hmessage]
  rfl

theorem isMessageExecuted (h : Shows crypto hashed state board) (id : CrossChainId) :
    Gateway.isMessageExecuted id.sourceChain id.messageId state =
      .ok (decide (board.standing id = .executed)) := by
  rw [Gateway.isMessageExecuted, h.messages, Outcome.ok_bind]
  cases board.standing id <;> rfl

theorem blank (retention : ℕ) (domainSeparator : Hash) (delay : UInt64) :
    Shows crypto hashed { State.blank with
        previousSignersRetention := retention
        domainSeparator
        minimumRotationDelay := delay }
      (Board.blank retention domainSeparator delay) where
  operator := rfl
  messages _ := rfl
  signers := Numbering.nil
  lastRotationTimestamp := rfl
  previousSignersRetention := rfl
  domainSeparator := rfl
  minimumRotationDelay := rfl
  message_mem _ _ hmessage := by simp [Board.blank] at hmessage
  signers_mem _ hsigners := by simp [Board.blank] at hsigners

end Shows

/-! ## Runs -/

/-- Deployments are accepted or refused alike. -/
theorem init_echoes {signers : List WeightedSigners} (hkeccak : Set.InjOn crypto.keccak256 hashed)
    (hsigners : ∀ newSigners ∈ signers, signersHashPreimage newSigners ∈ hashed)
    (retention : ℕ) (domainSeparator : Hash) (delay : UInt64) (operator : Address) :
    Agree (Echoes crypto hashed)
      (init crypto ctx retention domainSeparator delay operator signers)
      (Board.init crypto ctx retention domainSeparator delay operator signers) :=
  (Shows.blank retention domainSeparator delay).upgrade hkeccak hsigners

theorem mirrors_board (hkeccak : Set.InjOn crypto.keccak256 hashed) :
    Mirrors (Shows crypto hashed) (fun input => ∀ bytes ∈ strings input, bytes ∈ hashed)
      (machine crypto) (Board.machine crypto) :=
  fun _ _ _ hshows hstrings => hshows.perform hkeccak hstrings

/-- What a run of the contract has in common with one of the ideal gateway. -/
structure Reflected (crypto : Crypto) (hashed : Set Bytes) (opened : Board)
    (history : List (Entry (CallContext × Call) Reply)) (state : State) (board : Board) :
    Prop where
  run : Run (Board.machine crypto) opened history board
  shows : Shows crypto hashed state board
  approved : ∀ message : Message, message.preimage ∈ hashed →
    isMessageApproved crypto message.sourceChain message.messageId message.sourceAddress
        message.contractAddress message.payloadHash state =
      .ok (decide (board.standing message.crossChainId = .approved message))
  executed : ∀ id : CrossChainId, isMessageExecuted id.sourceChain id.messageId state =
    .ok (decide (board.standing id = .executed))

/-- From its deployment on, the contract cannot be told from the ideal gateway. -/
theorem gateway_reflected {retention : ℕ} {domainSeparator : Hash} {delay : UInt64}
    {operator : Address} {signers : List WeightedSigners} {start : State} {events : List Event}
    {history : List (Entry (CallContext × Call) Reply)}
    (hkeccak : Set.InjOn crypto.keccak256
      {bytes | bytes ∈ mentioned signers (history.map Entry.input)})
    (hinit : init crypto ctx retention domainSeparator delay operator signers =
      .ok (start, events))
    (hrun : Run (machine crypto) start history state) :
    ∃ opened board,
      Board.init crypto ctx retention domainSeparator delay operator signers =
        .ok (opened, events) ∧
      Reflected crypto {bytes | bytes ∈ mentioned signers (history.map Entry.input)} opened
        history state board := by
  have hsigners : ∀ newSigners ∈ signers, signersHashPreimage newSigners ∈
      mentioned signers (history.map Entry.input) :=
    fun _ hnew => List.mem_append_left _ (List.mem_map_of_mem hnew)
  have hstrings : ∀ entry ∈ history, ∀ bytes ∈ strings entry.input,
      bytes ∈ mentioned signers (history.map Entry.input) := by
    intro entry hentry bytes hbytes
    apply List.mem_append_right
    exact List.mem_flatMap.mpr ⟨entry.input, List.mem_map_of_mem hentry, hbytes⟩
  obtain ⟨⟨opened, _⟩, hopened, hshows, rfl⟩ :=
    (init_echoes hkeccak hsigners retention domainSeparator delay operator).of_ok hinit
  obtain ⟨board, hboard, hshown⟩ := (mirrors_board hkeccak).run hshows hrun hstrings
  exact ⟨opened, board, hopened, hboard, hshown,
    fun _ hmessage => hshown.isMessageApproved hkeccak hmessage, hshown.isMessageExecuted⟩

theorem sampleCalls_mentioned_apart :
    sampleCrypto.apart (mentioned [sampleSigners 0] sampleCalls) = true := by
  decide +kernel

/-- A message that was approved and consumed, on the board. -/
theorem sample_gateway_reflected : ∃ start events history state opened board,
    sampleInit = .ok (start, events) ∧
    history.countP (validates sampleMessage.crossChainId) = 1 ∧
    Reflected sampleCrypto {bytes | bytes ∈ mentioned [sampleSigners 0] sampleCalls} opened
      history state board := by
  obtain ⟨⟨start, events⟩, hinit⟩ := Outcome.exists_eq_ok sampleInit_isOk
  have hrun := (machine sampleCrypto).run_replay start sampleCalls
  have hinputs := (machine sampleCrypto).replay_inputs start sampleCalls
  have hvalidated := Outcome.apply_of_map sampleCalls_validated hinit
  have hkeccak : Set.InjOn sampleCrypto.keccak256
      {bytes | bytes ∈ mentioned [sampleSigners 0] sampleCalls} :=
    Crypto.injOn_of_apart sampleCalls_mentioned_apart
  rw [← hinputs] at hkeccak
  obtain ⟨opened, board, _, hreflected⟩ := gateway_reflected hkeccak hinit hrun
  rw [hinputs] at hreflected
  exact ⟨start, events, _, _, opened, board, hinit, hvalidated, hreflected⟩

end AxelarCgp.Gateway
