import AxelarCgp.Gateway.Signing

/-!
# The authority behind a message

Whatever a contract consumes came in a batch that was accepted, and a batch is accepted with a
proof.  So a quorum of a signer set that the gateway had announced, and had not yet retired,
signed the very buffer the message came in, for the domain of this gateway.
-/

namespace AxelarCgp.Gateway

open Machine NestedCodec

variable {crypto : Crypto}

/-! ## Settings -/

/-- What a proof is checked against besides the registry. -/
def State.settings (state : State) : ℕ × Hash :=
  (state.previousSignersRetention, state.domainSeparator)

theorem rotateSignersRaw_settings {ctx : CallContext} {newSigners : WeightedSigners}
    {enforceRotationDelay : Bool} {state next : State} {events : List Event}
    (h : rotateSignersRaw crypto ctx newSigners enforceRotationDelay state =
      .ok (next, events)) : next.settings = state.settings := by
  obtain ⟨_, _, _, rfl, _⟩ := rotateSignersRaw_eq_ok.mp h
  rfl

/-- No call changes the settings. -/
theorem perform_settings {ctx : CallContext} {call : Call} {state next : State} {result : Reply}
    (h : perform crypto ctx call state = .ok (next, result)) :
    next.settings = state.settings := by
  have hdone := perform_eq_ok h
  cases call with
  | upgrade operator signers =>
      obtain ⟨_, _, _, _, hrotate⟩ := upgrade_eq_ok hdone
      rw [rotateEach_frame hrotate]
      rfl
  | approveMessages messages proof =>
      obtain ⟨_, _, _, _, _, heach⟩ := approveMessages_eq_ok hdone
      rw [(approveEach_frame heach).1]
      rfl
  | rotateSigners newSigners proof =>
      obtain ⟨_, _, _, _, _, _, _, hrotate⟩ := rotateSigners_eq_ok.mp hdone
      exact rotateSignersRaw_settings hrotate
  | callContract chain address payload => rw [(Prod.mk.inj hdone).1]
  | validateMessage chain messageId address payloadHash =>
      rcases validateMessage_eq_ok hdone with ⟨_, _, rfl, _⟩ | ⟨_, rfl, _⟩
      · rfl
      · rfl
  | transferOperatorship newOperator =>
      obtain ⟨_, _, _, _, rfl, _⟩ := transferOperatorship_eq_ok.mp hdone
      rfl

theorem run_settings {start state : State} {history : History}
    (hrun : Run (machine crypto) start history state) : state.settings = start.settings :=
  hrun.invariant (P := fun state => state.settings = start.settings) rfl
    fun _ _ _ _ hbefore hok => (perform_settings hok).trans hbefore

/-! ## Approvals -/

/-- A call that approved a batch. -/
structure Approval where
  ctx : CallContext
  messages : ManagedBuffer
  proof : Proof
  reply : Reply

namespace Approval

def entry (approval : Approval) : Entry (CallContext × Call) Reply :=
  ⟨(approval.ctx, .approveMessages approval.messages approval.proof), .ok approval.reply⟩

/-- What the signers of an approval signed, at a gateway of some domain. -/
def command (domainSeparator : Hash) (approval : Approval) : SignedCommand where
  domainSeparator
  signers := approval.proof.signers
  commandType := .approveMessages
  buffer := approval.messages

/-- The signers had been announced and were not retired when the call met `state`, and a
quorum of them signed. -/
structure Signed (crypto : Crypto) (log : List Event) (state : State) (approval : Approval) :
    Prop where
  announced : ∃ epoch, .signersRotated epoch (getSignersHash crypto approval.proof.signers)
      approval.proof.signers ∈ log ∧
    0 < epoch ∧ epoch ≤ state.epoch ∧ state.epoch - epoch ≤ state.previousSignersRetention
  threshold_pos : 0 < approval.proof.signers.threshold.1
  quorum : HasQuorum crypto ((approval.command state.domainSeparator).hashToSign crypto)
    approval.proof

end Approval

/-- A message and the approval it owes its standing to: the first batch with a message of its
id, in which it is the first one. -/
structure Approves (crypto : Crypto) (start : State) (events : List Event) (history : History)
    (message : Message) (approval : Approval) (earlier : History) (reached : State) : Prop where
  recorded : ∃ later, history = earlier ++ approval.entry :: later
  run : Run (machine crypto) start earlier reached
  batch : ∃ batch, topDecodeVec approval.messages.1 = some batch ∧
    batch.find? (fun other => other.crossChainId = message.crossChainId) = some message
  unknown : firstAccepted earlier message.crossChainId = none
  signed : approval.Signed crypto (events ++ emitted earlier) reached
  settings : reached.settings = start.settings

/-- The strings of signer sets that a run hashed to announce them or to check proofs. -/
def signersHashed (events : List Event) (history : History) : Set Bytes :=
  signersHashPreimage '' {signers |
    (∃ epoch signersHash, .signersRotated epoch signersHash signers ∈
      events ++ emitted history) ∨
    ∃ approval : Approval, approval.entry ∈ history ∧ approval.proof.signers = signers}

section Approvals

variable {start reached : State} {events : List Event} {history earlier : History}
variable {approval : Approval} {message : Message}

theorem emitted_append (first second : History) :
    emitted (first ++ second) = emitted first ++ emitted second :=
  List.flatMap_append

/-- The messages that one entry accepted come from an approval. -/
theorem exists_approval_of_accepted {entry : Entry (CallContext × Call) Reply}
    {other : Message} (h : other ∈ acceptedMessages [entry]) :
    ∃ (approval : Approval) (batch : List Message), approval.entry = entry ∧
      topDecodeVec approval.messages.1 = some batch ∧ acceptedMessages [entry] = batch := by
  obtain ⟨⟨ctx, call⟩, result⟩ := entry
  cases call with
  | approveMessages messages proof =>
      cases result with
      | error text => simp [acceptedMessages] at h
      | ok reply =>
          cases hdecode : topDecodeVec (A := Message) messages.1 with
          | none => simp [acceptedMessages, hdecode] at h
          | some batch =>
              exact ⟨⟨ctx, messages, proof, reply⟩, batch, rfl, hdecode,
                by simp [acceptedMessages, hdecode]⟩
  | _ => simp [acceptedMessages] at h

/-- The first message of an id was accepted by an approval before which there was none. -/
theorem exists_approval_of_first (h : firstAccepted history message.crossChainId = some message) :
    ∃ (approval : Approval) (earlier later : History) (batch : List Message),
      history = earlier ++ approval.entry :: later ∧
      topDecodeVec approval.messages.1 = some batch ∧
      batch.find? (fun other => other.crossChainId = message.crossChainId) = some message ∧
      firstAccepted earlier message.crossChainId = none := by
  rw [firstAccepted, acceptedMessages, List.find?_flatMap, List.findSome?_eq_some_iff] at h
  obtain ⟨earlier, entry, later, rfl, hfound, hnone⟩ := h
  have haccepted : acceptedMessages [entry] = _ := List.flatMap_singleton ..
  rw [← haccepted] at hfound
  obtain ⟨approval, batch, rfl, hdecode, hbatch⟩ :=
    exists_approval_of_accepted (List.mem_of_find?_eq_some hfound)
  refine ⟨approval, earlier, later, batch, rfl, hdecode, hbatch ▸ hfound, ?_⟩
  rw [firstAccepted, acceptedMessages, List.find?_flatMap, List.findSome?_eq_none_iff]
  exact hnone

/-- An approval that completed was signed. -/
theorem signed_of_completed {next : State} {ctx : CallContext} {retention : ℕ}
    {domainSeparator : Hash} {delay : UInt64} {operator : Address}
    {signers : List WeightedSigners}
    (hinit : init crypto ctx retention domainSeparator delay operator signers =
      .ok (start, events))
    (hrun : Run (machine crypto) start earlier reached)
    (hkeccak : Set.InjOn crypto.keccak256
      (signersPreimages (events ++ emitted earlier) approval.proof.signers))
    (hok : perform crypto approval.ctx (.approveMessages approval.messages approval.proof)
      reached = .ok (next, approval.reply)) :
    approval.Signed crypto (events ++ emitted earlier) reached := by
  have hdeployed : Deployed crypto earlier (events ++ emitted earlier) reached :=
    .intro hinit hrun
  obtain ⟨_, _, _, _, hproof, _⟩ := approveMessages_eq_ok (perform_eq_ok hok)
  obtain ⟨_, hpos, hle, hretention, hsignatures⟩ := validateProof_eq_ok hproof
  obtain ⟨rotation, hrotation, hepoch, hhash, hpreimage, hvalid⟩ :=
    hdeployed.registers.exists_rotation hpos
  have hevent := mem_rotations.mp hrotation
  have hsame : rotation.signers = approval.proof.signers := by
    apply signersHashPreimage_injective
    exact hkeccak ⟨_, .inr ⟨_, _, hevent⟩, rfl⟩ ⟨_, .inl rfl, rfl⟩ hpreimage.symm
  rw [hsame] at hvalid
  rw [hsame, hhash, hepoch] at hevent
  exact {
    announced := ⟨_, hevent, hpos, hle, hretention⟩
    threshold_pos := (validateSigners_eq_ok hvalid).2
    quorum := validateSignatures_quorum hvalid hsignatures }

end Approvals

/-! ## Consumed messages -/

section Consumed

variable {start state reached : State} {events : List Event} {before after history : History}
variable {deployed ctx : CallContext} {retention : ℕ} {domainSeparator : Hash}
variable {delay : UInt64} {operator : Address} {signers : List WeightedSigners}

/-- A run hashes what each of its parts hashes. -/
theorem signersHashed_subset {first second : History} :
    signersHashed events first ⊆ signersHashed events (first ++ second) := by
  rintro _ ⟨other, hother, rfl⟩
  refine ⟨other, ?_, rfl⟩
  rcases hother with ⟨epoch, signersHash, hevent⟩ | ⟨approval, happroval, hsigners⟩
  · refine .inl ⟨epoch, signersHash, ?_⟩
    rw [emitted_append, ← List.append_assoc]
    exact List.mem_append_left _ hevent
  · exact .inr ⟨approval, List.mem_append_left _ happroval, hsigners⟩

theorem signersPreimages_subset {approval : Approval} {earlier later : History} :
    signersPreimages (events ++ emitted earlier) approval.proof.signers ⊆
      signersHashed events (earlier ++ approval.entry :: later) := by
  rintro _ ⟨other, hother, rfl⟩
  refine ⟨other, ?_, rfl⟩
  rcases hother with rfl | ⟨epoch, signersHash, hevent⟩
  · exact .inr ⟨approval, List.mem_append_right _ (List.mem_cons_self ..), rfl⟩
  · refine .inl ⟨epoch, signersHash, ?_⟩
    rw [emitted_append, ← List.append_assoc]
    exact List.mem_append_left _ hevent

/-- The first message of an id was approved by signers in office. -/
theorem approves_of_first {message : Message}
    (hinit : init crypto deployed retention domainSeparator delay operator signers =
      .ok (start, events))
    (hrun : Run (machine crypto) start history state)
    (hkeccak : Set.InjOn crypto.keccak256 (signersHashed events history))
    (hfirst : firstAccepted history message.crossChainId = some message) :
    ∃ approval earlier reached,
      Approves crypto start events history message approval earlier reached := by
  obtain ⟨approval, earlier, later, batch, rfl, hdecode, hbatch, hunknown⟩ :=
    exists_approval_of_first hfirst
  obtain ⟨reached, next, hearlier, hstep, _⟩ := hrun.step_at
  have hsigned : approval.Signed crypto (events ++ emitted earlier) reached :=
    signed_of_completed hinit hearlier (hkeccak.mono signersPreimages_subset) hstep
  exact ⟨approval, earlier, reached, ⟨later, rfl⟩, hearlier, ⟨batch, hdecode, hbatch⟩, hunknown,
    hsigned, run_settings hearlier⟩

/-- A message that the gateway holds as approved is the first one that was accepted under its
id, and was not consumed. -/
theorem firstAccepted_of_approved {message : Message} (hstart : ∀ id, Tracks crypto [] start id)
    (hrun : Run (machine crypto) start history state)
    (hkeccak : Set.InjOn crypto.keccak256 (insert message.preimage (messagePreimages history)))
    (happroved : state.messagesGet message.crossChainId = .ok (.approved (message.hash crypto))) :
    firstAccepted history message.crossChainId = some message ∧
      history.countP (validates message.crossChainId) = 0 := by
  have htracks := Tracks.run hstart hrun message.crossChainId
  have hstanding := Except.ok.inj (htracks.get_eq.symm.trans happroved)
  cases hfirst : firstAccepted history message.crossChainId with
  | none => simp [standing, hfirst] at hstanding
  | some other =>
      simp only [standing, hfirst] at hstanding
      split at hstanding
      · simp at hstanding
      · rename_i hnone
        obtain ⟨hmem, _⟩ := firstAccepted_mem hfirst
        have hpreimage : other.preimage = message.preimage :=
          hkeccak (.inr (.inl ⟨other, hmem, rfl⟩)) (.inl rfl) (MessageState.approved.inj hstanding)
        refine ⟨congrArg some (Message.preimage_injective hpreimage), ?_⟩
        rw [List.countP_eq_zero]
        intro entry hentry hvalidates
        exact hnone (List.any_eq_true.mpr ⟨entry, hentry, hvalidates⟩)

/-- A consumed message is the first one accepted under its id, and was not consumed before. -/
theorem firstAccepted_of_consumed (hstart : ∀ id, Tracks crypto [] start id)
    (hrun : Run (machine crypto) start history state)
    (hkeccak : Set.InjOn crypto.keccak256 (messagePreimages history))
    {sourceChain messageId sourceAddress : ManagedBuffer} {payloadHash : Hash} {result : Reply}
    (hhistory : history = before ++ ⟨(ctx, .validateMessage sourceChain messageId sourceAddress
      payloadHash), .ok result⟩ :: after)
    (hvalid : result.valid = true) :
    firstAccepted before ⟨sourceChain, messageId⟩ =
        some ⟨sourceChain, messageId, sourceAddress, ctx.caller, payloadHash⟩ ∧
      before.countP (validates ⟨sourceChain, messageId⟩) = 0 := by
  subst hhistory
  obtain ⟨reached, next, hbefore, hok, _⟩ := hrun.step_at
  have hvalidates : validates ⟨sourceChain, messageId⟩ (⟨(ctx, .validateMessage sourceChain
      messageId sourceAddress payloadHash), .ok result⟩ : Entry _ Reply) = true := by
    simp [validates, hvalid]
  obtain ⟨address, hash, hcall, happroved, _⟩ := perform_validates hvalidates hok
  obtain ⟨rfl, rfl⟩ : sourceAddress = address ∧ payloadHash = hash := by
    simpa using hcall
  have hpreimages : insert (messageHashPreimage ⟨sourceChain, messageId⟩ sourceAddress ctx.caller
      payloadHash) (messagePreimages before) ⊆
        messagePreimages (before ++ ⟨(ctx, .validateMessage sourceChain messageId sourceAddress
          payloadHash), .ok result⟩ :: after) := by
    apply Set.insert_subset _ messagePreimages_subset
    exact .inr ⟨_, List.mem_append_right _ (List.mem_cons_self ..), ctx, _, _, _, _, rfl, rfl⟩
  exact @firstAccepted_of_approved _ _ _ _ ⟨sourceChain, messageId, sourceAddress, ctx.caller,
    payloadHash⟩ hstart hbefore (hkeccak.mono hpreimages) happroved

/-- What a message that was consumed owes its standing to. -/
structure Authorised (crypto : Crypto) (start : State) (events : List Event) (before : History)
    (message : Message) : Prop where
  approved : ∃ approval earlier reached,
    Approves crypto start events before message approval earlier reached
  unconsumed : before.countP (validates message.crossChainId) = 0

/-- Signers in office had signed whatever the gateway holds as approved. -/
theorem authorised_of_approved {message : Message}
    (hinit : init crypto deployed retention domainSeparator delay operator signers =
      .ok (start, events))
    (hrun : Run (machine crypto) start history state)
    (hkeccak : Set.InjOn crypto.keccak256
      (insert message.preimage (messagePreimages history ∪ signersHashed events history)))
    (happroved : state.messagesGet message.crossChainId = .ok (.approved (message.hash crypto))) :
    Authorised crypto start events history message := by
  obtain ⟨hfirst, hnone⟩ := firstAccepted_of_approved (Tracks.init hinit) hrun
    (hkeccak.mono (Set.insert_subset_insert Set.subset_union_left)) happroved
  have hsigners : Set.InjOn crypto.keccak256 (signersHashed events history) :=
    hkeccak.mono (Set.subset_union_right.trans (Set.subset_insert ..))
  exact ⟨approves_of_first hinit hrun hsigners hfirst, hnone⟩

/-- Whatever a contract consumed was signed for it, in every field, by a quorum of signers in
office, and had not been consumed before. -/
theorem consumed_authorised
    (hinit : init crypto deployed retention domainSeparator delay operator signers =
      .ok (start, events))
    (hrun : Run (machine crypto) start history state)
    (hkeccak : Set.InjOn crypto.keccak256
      (messagePreimages history ∪ signersHashed events history))
    {sourceChain messageId sourceAddress : ManagedBuffer} {payloadHash : Hash} {result : Reply}
    (hhistory : history = before ++ ⟨(ctx, .validateMessage sourceChain messageId sourceAddress
      payloadHash), .ok result⟩ :: after)
    (hvalid : result.valid = true) :
    Authorised crypto start events before
      ⟨sourceChain, messageId, sourceAddress, ctx.caller, payloadHash⟩ := by
  obtain ⟨hfirst, hnone⟩ := firstAccepted_of_consumed (Tracks.init hinit) hrun
    (hkeccak.mono Set.subset_union_left) hhistory hvalid
  rw [hhistory] at hrun hkeccak
  obtain ⟨reached, hbefore, _⟩ := hrun.split
  have hsigners : Set.InjOn crypto.keccak256 (signersHashed events before) :=
    hkeccak.mono (signersHashed_subset.trans Set.subset_union_right)
  exact ⟨approves_of_first hinit hbefore hsigners hfirst, hnone⟩

end Consumed

/-! ## A message signed and consumed -/

/-- The strings of `messagePreimages` and `signersHashed`, one by one. -/
def hashes (events : List Event) (history : History) : List Bytes :=
  (acceptedMessages history).map Message.preimage ++
  (rotations (events ++ emitted history)).map (fun rotation =>
    signersHashPreimage rotation.signers) ++
  history.filterMap fun entry =>
    match entry.input with
    | (ctx, .validateMessage sourceChain messageId sourceAddress payloadHash) =>
        some (messageHashPreimage ⟨sourceChain, messageId⟩ sourceAddress ctx.caller payloadHash)
    | (_, .approveMessages _ proof) => some (signersHashPreimage proof.signers)
    | _ => none

theorem mem_hashes {events : List Event} {history : History} {bytes : Bytes}
    (hbytes : bytes ∈ messagePreimages history ∪ signersHashed events history) :
    bytes ∈ hashes events history := by
  rcases hbytes with (⟨message, hmessage, rfl⟩ | ⟨entry, hentry, ctx, chain, id, address,
    payloadHash, hinput, rfl⟩) | ⟨signers, ⟨epoch, signersHash, hevent⟩ | ⟨approval, happroval,
    rfl⟩, rfl⟩
  · apply List.mem_append_left
    exact List.mem_append_left _ (List.mem_map_of_mem hmessage)
  · apply List.mem_append_right
    exact List.mem_filterMap.mpr ⟨entry, hentry, by rw [hinput]⟩
  · apply List.mem_append_left
    apply List.mem_append_right
    exact List.mem_map.mpr ⟨⟨epoch, signersHash, signers⟩, mem_rotations.mpr hevent, rfl⟩
  · apply List.mem_append_right
    exact List.mem_filterMap.mpr ⟨approval.entry, happroval, rfl⟩

/-- No two of the strings have one hash. -/
def hashesApart (crypto : Crypto) (events : List Event) (history : History) : Bool :=
  crypto.apart (hashes events history)

theorem injOn_of_hashesApart {events : List Event} {history : History}
    (h : hashesApart crypto events history = true) :
    Set.InjOn crypto.keccak256 (messagePreimages history ∪ signersHashed events history) :=
  (Crypto.injOn_of_apart h).mono fun _ => mem_hashes

theorem sampleCalls_hashesApart :
    (fun deployed : State × List Event => hashesApart sampleCrypto deployed.2
      ((machine sampleCrypto).replay deployed.1 sampleCalls).1) <$> sampleInit = .ok true := by
  decide +kernel

/-- A history in which a message was validated can be cut where it was. -/
theorem exists_consumption {history : History} {id : CrossChainId}
    (h : history.countP (validates id) ≠ 0) :
    ∃ before after ctx sourceAddress payloadHash result,
      history = before ++ ⟨(ctx, .validateMessage id.sourceChain id.messageId sourceAddress
        payloadHash), .ok result⟩ :: after ∧ result.valid = true := by
  obtain ⟨entry, hentry, hvalidates⟩ := List.countP_pos_iff.mp (Nat.pos_of_ne_zero h)
  obtain ⟨before, after, rfl⟩ := List.append_of_mem hentry
  obtain ⟨⟨ctx, call⟩, result⟩ := entry
  cases call with
  | validateMessage chain messageId address payloadHash =>
      cases result with
      | error text => simp [validates] at hvalidates
      | ok reply =>
          simp only [validates, Bool.and_eq_true, decide_eq_true_eq] at hvalidates
          obtain ⟨hvalid, rfl⟩ := hvalidates
          exact ⟨before, after, ctx, address, payloadHash, reply, rfl, hvalid⟩
  | _ => simp [validates] at hvalidates

theorem sample_consumed_authorised : ∃ start events before,
    sampleInit = .ok (start, events) ∧
    Authorised sampleCrypto start events before sampleMessage := by
  obtain ⟨⟨start, events⟩, hinit⟩ := Outcome.exists_eq_ok sampleInit_isOk
  have hrun := (machine sampleCrypto).run_replay start sampleCalls
  have hapart := Outcome.apply_of_map sampleCalls_hashesApart hinit
  have hinj := injOn_of_hashesApart hapart
  have hvalidated : _ = 1 := Outcome.apply_of_map sampleCalls_validated hinit
  obtain ⟨before, after, ctx, address, payloadHash, result, hhistory, hvalid⟩ :=
    exists_consumption (by rw [hvalidated]; exact one_ne_zero)
  have hinput : (ctx, Call.validateMessage sampleMessage.sourceChain sampleMessage.messageId
      address payloadHash) ∈ sampleCalls := by
    rw [← (machine sampleCrypto).replay_inputs start sampleCalls, hhistory]
    exact List.mem_map_of_mem (f := Entry.input)
      (List.mem_append_right before (List.mem_cons_self ..))
  simp only [sampleCalls, List.mem_cons, Prod.mk.injEq, reduceCtorEq, and_false,
    Call.validateMessage.injEq, true_and, List.not_mem_nil, or_false, false_or] at hinput
  obtain ⟨rfl, rfl, rfl⟩ := hinput
  exact ⟨start, events, before, hinit,
    consumed_authorised hinit hrun hinj hhistory hvalid⟩

end AxelarCgp.Gateway
