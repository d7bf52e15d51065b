import AxelarCgp.Gateway.Quorum

/-!
# The life of a message

Where a message stands is determined by the history alone: by the first
message of its id in an accepted batch, and by whether a call has consumed it.
The stored state always says the same, so that it only moves forward, is never
overwritten by a later batch, and is consumed at most once.
-/

namespace AxelarCgp.Gateway

open Machine NestedCodec

abbrev History := List (Entry (CallContext × Call) Reply)

/-! ## What a history says about an id -/

/-- The messages of the batches that were accepted, oldest first. -/
def acceptedMessages (history : History) : List Message :=
  history.flatMap fun entry =>
    match entry.input.2, entry.result with
    | .approveMessages messages _, .ok _ => (topDecodeVec messages.1).getD []
    | _, _ => []

def firstAccepted (history : History) (id : CrossChainId) : Option Message :=
  (acceptedMessages history).find? fun message => message.crossChainId = id

/-- The entry is a call that validated the message `id`. -/
def validates (id : CrossChainId) (entry : Entry (CallContext × Call) Reply) : Bool :=
  match entry.input.2, entry.result with
  | .validateMessage sourceChain messageId _ _, .ok reply =>
      reply.valid && decide ((⟨sourceChain, messageId⟩ : CrossChainId) = id)
  | _, _ => false

/-- The ids a call is about. -/
def Call.Names (id : CrossChainId) : Call → Prop
  | approveMessages messages _ => ∃ batch, topDecodeVec messages.1 = some batch ∧
      id ∈ batch.map Message.crossChainId
  | validateMessage sourceChain messageId _ _ => id = ⟨sourceChain, messageId⟩
  | _ => False

variable (crypto : Crypto)

def Message.hash (message : Message) : Hash :=
  messageHash crypto message.crossChainId message.sourceAddress message.contractAddress
    message.payloadHash

/-- Where the message `id` stands after `history`. -/
def standing (history : History) (id : CrossChainId) : MessageState :=
  match firstAccepted history id with
  | none => .nonExistent
  | some message =>
      if history.any (validates id) then .executed else .approved (message.hash crypto)

/-- One step of a message's life. -/
inductive MessageState.Moves : MessageState → MessageState → Prop
  | approve (hash : Hash) : Moves .nonExistent (.approved hash)
  | execute (hash : Hash) : Moves (.approved hash) .executed

variable {crypto}

/-! ## Storage of one id -/

section Storage

variable {id other : CrossChainId} {state next : State} {events : List Event}
variable {ctx : CallContext}

@[simp]
theorem messages_messagesSet_of_ne (h : id ≠ other) (value : MessageState) :
    (state.messagesSet other value).messages (State.messagesKey id) =
      state.messages (State.messagesKey id) := by
  have hkey : State.messagesKey id ≠ State.messagesKey other :=
    fun heq => h (State.messagesKey_injective heq)
  simp [State.messagesSet, Function.update_of_ne hkey]

theorem messagesGet_congr
    (h : next.messages (State.messagesKey id) = state.messages (State.messagesKey id)) :
    next.messagesGet id = state.messagesGet id := by
  rw [State.messagesGet, State.messagesGet, h]

/-- What approving one message read, wrote and announced. -/
theorem approveMessage_eq_ok {message : Message}
    (h : approveMessage crypto message state = .ok (next, events)) :
    (state.messagesGet message.crossChainId = .ok .nonExistent ∧
      next = state.messagesSet message.crossChainId (.approved (message.hash crypto)) ∧
      events = [.messageApproved message.sourceChain message.messageId message.sourceAddress
        message.contractAddress message.payloadHash]) ∨
    (∃ current, state.messagesGet message.crossChainId = .ok current ∧
      current ≠ .nonExistent ∧ next = state ∧ events = []) := by
  simp only [approveMessage, Outcome.bind_eq_ok] at h
  obtain ⟨current, hcurrent, h⟩ := h
  split at h
  · rename_i hknown
    simp only [Outcome.pure_eq_ok, Prod.mk.injEq] at h
    exact .inr ⟨current, hcurrent, hknown, h.1.symm, h.2.symm⟩
  · rename_i hfresh
    simp only [Outcome.pure_eq_ok, Prod.mk.injEq] at h
    obtain rfl := not_not.mp hfresh
    exact .inl ⟨hcurrent, h.1.symm, h.2.symm⟩

/-- A batch leaves an id alone that is past its approval, or not in the batch. -/
theorem approveEach_quiet {batch : List Message} {current : MessageState}
    (hcurrent : state.messagesGet id = .ok current)
    (hquiet : current ≠ .nonExistent ∨ id ∉ batch.map Message.crossChainId)
    (h : approveEach crypto batch state = .ok (next, events)) :
    next.messages (State.messagesKey id) = state.messages (State.messagesKey id) ∧
    ∀ sourceAddress contractAddress payloadHash, .messageApproved id.sourceChain id.messageId
      sourceAddress contractAddress payloadHash ∉ events := by
  induction batch generalizing state events with
  | nil =>
      simp only [approveEach, Outcome.pure_eq_ok, Prod.mk.injEq] at h
      obtain ⟨rfl, rfl⟩ := h
      exact ⟨rfl, by simp⟩
  | cons message batch ih =>
      simp only [approveEach, Outcome.bind_eq_ok, Prod.exists, Outcome.pure_eq_ok,
        Prod.mk.injEq] at h
      obtain ⟨middle, first, hmessage, _, others, hbatch, rfl, rfl⟩ := h
      have hothers : current ≠ .nonExistent ∨ id ∉ batch.map Message.crossChainId :=
        hquiet.imp_right fun hid hmem => hid (List.mem_cons_of_mem _ hmem)
      rcases approveMessage_eq_ok hmessage with
        ⟨hfresh, rfl, rfl⟩ | ⟨_, _, _, rfl, rfl⟩
      · have hne : id ≠ message.crossChainId := by
          rintro rfl
          rcases hquiet with hknown | habsent
          · exact hknown (Except.ok.inj (hcurrent.symm.trans hfresh))
          · exact habsent (List.mem_cons_self ..)
        have hmiddle : (state.messagesSet message.crossChainId (.approved
            (message.hash crypto))).messages (State.messagesKey id) =
            state.messages (State.messagesKey id) := messages_messagesSet_of_ne hne _
        obtain ⟨hnext, hevents⟩ :=
          ih ((messagesGet_congr hmiddle).trans hcurrent) hothers hbatch
        refine ⟨hnext.trans hmiddle, ?_⟩
        intro sourceAddress contractAddress payloadHash hmem
        rcases List.mem_append.mp hmem with hmem | hmem
        · obtain ⟨hchain, hid, _⟩ := Event.messageApproved.inj (List.mem_singleton.mp hmem)
          exact hne (by rw [Message.crossChainId, ← hchain, ← hid])
        · exact hevents _ _ _ hmem
      · simpa using ih hcurrent hothers hbatch

/-- The first message of an unseen id decides its hash. -/
theorem approveEach_first {batch : List Message} {message : Message}
    (hcurrent : state.messagesGet id = .ok .nonExistent)
    (hfirst : batch.find? (fun message => message.crossChainId = id) = some message)
    (h : approveEach crypto batch state = .ok (next, events)) :
    next.messagesGet id = .ok (.approved (message.hash crypto)) := by
  induction batch generalizing state events with
  | nil => simp at hfirst
  | cons head batch ih =>
      simp only [approveEach, Outcome.bind_eq_ok, Prod.exists, Outcome.pure_eq_ok,
        Prod.mk.injEq] at h
      obtain ⟨middle, first, hmessage, _, others, hbatch, rfl, rfl⟩ := h
      by_cases hhead : head.crossChainId = id
      · subst hhead
        obtain rfl : head = message := by simpa using hfirst
        rcases approveMessage_eq_ok hmessage with
          ⟨_, rfl, rfl⟩ | ⟨current, hknown, hne, _⟩
        · have happroved := State.messagesGet_messagesSet_self state head.crossChainId
            (.approved (head.hash crypto))
          have hquiet := approveEach_quiet happroved (.inl (by simp)) hbatch
          rw [messagesGet_congr hquiet.1, happroved]
        · exact absurd (Except.ok.inj (hknown.symm.trans hcurrent)) hne
      · have hrest : batch.find? (fun message => message.crossChainId = id) =
            some message := by
          simpa [hhead] using hfirst
        rcases approveMessage_eq_ok hmessage with ⟨_, rfl, rfl⟩ | ⟨_, _, _, rfl, rfl⟩
        · apply ih _ hrest hbatch
          rw [State.messagesGet_messagesSet_of_ne _ (Ne.symm hhead), hcurrent]
        · exact ih hcurrent hrest hbatch

theorem rotateSignersRaw_messages {newSigners : WeightedSigners} {enforceRotationDelay : Bool}
    (h : rotateSignersRaw crypto ctx newSigners enforceRotationDelay state =
      .ok (next, events)) : next.messages = state.messages := by
  obtain ⟨_, _, _, rfl, _⟩ := rotateSignersRaw_eq_ok.mp h
  rfl

theorem upgrade_messages {operator : Address} {signers : List WeightedSigners}
    (h : upgrade crypto ctx operator signers state = .ok (next, events)) :
    next.messages = state.messages := by
  obtain ⟨_, more, _, _, hrotate⟩ := upgrade_eq_ok h
  rw [rotateEach_frame hrotate]

/-- A call writes nothing at an id it does not name. -/
theorem perform_messages_of_not_names {call : Call} {result : Reply} {current : MessageState}
    (hcurrent : state.messagesGet id = .ok current) (hnames : ¬ call.Names id)
    (h : perform crypto ctx call state = .ok (next, result)) :
    next.messages (State.messagesKey id) = state.messages (State.messagesKey id) := by
  have hdone := perform_eq_ok h
  cases call with
  | upgrade operator signers => rw [upgrade_messages hdone]
  | approveMessages messages proof =>
      obtain ⟨batch, latest, hdecode, _, _, heach⟩ := approveMessages_eq_ok hdone
      have habsent : id ∉ batch.map Message.crossChainId :=
        fun hmem => hnames ⟨batch, hdecode, hmem⟩
      exact (approveEach_quiet hcurrent (.inr habsent) heach).1
  | rotateSigners newSigners proof =>
      obtain ⟨_, _, _, _, _, _, _, hrotate⟩ := rotateSigners_eq_ok.mp hdone
      rw [rotateSignersRaw_messages hrotate]
  | callContract chain address payload => rw [(Prod.mk.inj hdone).1]
  | validateMessage chain messageId address payloadHash =>
      rcases validateMessage_eq_ok hdone with ⟨_, _, rfl, _⟩ | ⟨_, rfl, _⟩
      · exact messages_messagesSet_of_ne hnames _
      · rfl
  | transferOperatorship newOperator =>
      obtain ⟨_, _, _, _, rfl, _⟩ := transferOperatorship_eq_ok.mp hdone
      rfl

/-- A call validates a message that was approved, and leaves it executed. -/
theorem perform_validates {call : Call} {result : Reply}
    (hvalidates : validates id ⟨(ctx, call), .ok result⟩ = true)
    (h : perform crypto ctx call state = .ok (next, result)) :
    ∃ sourceAddress payloadHash,
      call = .validateMessage id.sourceChain id.messageId sourceAddress payloadHash ∧
      state.messagesGet id = .ok (.approved (messageHash crypto id sourceAddress ctx.caller
        payloadHash)) ∧
      next.messagesGet id = .ok .executed := by
  have hdone := perform_eq_ok h
  cases call with
  | validateMessage chain messageId address payloadHash =>
      simp only [validates, Bool.and_eq_true, decide_eq_true_eq] at hvalidates
      obtain ⟨hvalid, rfl⟩ := hvalidates
      rcases validateMessage_eq_ok hdone with ⟨_, hget, rfl, _⟩ | ⟨hinvalid, _⟩
      · exact ⟨address, payloadHash, rfl, hget, State.messagesGet_messagesSet_self _ _ _⟩
      · exact absurd hvalid (by rw [hinvalid]; exact Bool.false_ne_true)
  | _ => simp [validates] at hvalidates

/-- A message that is known stays where it stands unless it is validated. -/
theorem perform_stands {call : Call} {result : Reply} {current : MessageState}
    (hcurrent : state.messagesGet id = .ok current) (hknown : current ≠ .nonExistent)
    (hvalidates : validates id ⟨(ctx, call), .ok result⟩ = false)
    (h : perform crypto ctx call state = .ok (next, result)) :
    next.messagesGet id = .ok current := by
  by_cases hnames : call.Names id
  · have hdone := perform_eq_ok h
    cases call with
    | approveMessages messages proof =>
        obtain ⟨batch, latest, _, _, _, heach⟩ := approveMessages_eq_ok hdone
        exact (messagesGet_congr (approveEach_quiet hcurrent (.inl hknown) heach).1).trans hcurrent
    | validateMessage chain messageId address payloadHash =>
        obtain rfl := hnames
        rcases validateMessage_eq_ok hdone with ⟨hvalid, _⟩ | ⟨_, rfl, _⟩
        · simp [validates, hvalid] at hvalidates
        · exact hcurrent
    | _ => exact hnames.elim
  · exact (messagesGet_congr (perform_messages_of_not_names hcurrent hnames h)).trans hcurrent

end Storage

/-! ## The stored state follows the history -/

section History

variable {history : History} {entry : Entry (CallContext × Call) Reply}
variable {id : CrossChainId} {state next : State} {ctx : CallContext} {call : Call}
variable {result : Reply}

theorem firstAccepted_snoc :
    firstAccepted (history ++ [entry]) id = (firstAccepted history id).or
      ((acceptedMessages [entry]).find? fun message => message.crossChainId = id) := by
  simp [firstAccepted, acceptedMessages, List.find?_append]

theorem standing_snoc_of_quiet
    (hfirst : firstAccepted (history ++ [entry]) id = firstAccepted history id)
    (hvalidates : validates id entry = false) :
    standing crypto (history ++ [entry]) id = standing crypto history id := by
  simp [standing, hfirst, hvalidates]

/-- The stored state of `id` is where the history puts it, and only an
accepted message was ever validated, once. -/
structure Tracks (crypto : Crypto) (history : History) (state : State) (id : CrossChainId) :
    Prop where
  get_eq : state.messagesGet id = .ok (standing crypto history id)
  once : history.countP (validates id) ≤ if (firstAccepted history id).isSome then 1 else 0

namespace Tracks

/-- An entry that neither accepts nor consumes `id`, in a step that leaves its
storage alone. -/
theorem quiet (h : Tracks crypto history state id)
    (hfirst : firstAccepted (history ++ [entry]) id = firstAccepted history id)
    (hvalidates : validates id entry = false)
    (hkeep : next.messages (State.messagesKey id) = state.messages (State.messagesKey id)) :
    Tracks crypto (history ++ [entry]) next id where
  get_eq := by
    rw [messagesGet_congr hkeep, h.get_eq, standing_snoc_of_quiet hfirst hvalidates]
  once := by
    simpa [List.countP_append, hvalidates, hfirst] using h.once

theorem of_not_names (h : Tracks crypto history state id) (hnames : ¬ call.Names id)
    (hok : perform crypto ctx call state = .ok (next, result)) :
    Tracks crypto (history ++ [⟨(ctx, call), .ok result⟩]) next id ∧
      standing crypto (history ++ [⟨(ctx, call), .ok result⟩]) id =
        standing crypto history id := by
  have hkeep := perform_messages_of_not_names h.get_eq hnames hok
  have hfirst : firstAccepted (history ++ [⟨(ctx, call), .ok result⟩]) id =
      firstAccepted history id := by
    rw [firstAccepted_snoc, List.find?_eq_none.mpr, Option.or_none]
    intro message hmessage
    cases call with
    | approveMessages messages proof =>
        cases hdecode : topDecodeVec (A := Message) messages.1 with
        | none => simp [acceptedMessages, hdecode] at hmessage
        | some batch =>
            have hmem : message ∈ batch := by
              simpa [acceptedMessages, hdecode] using hmessage
            simp only [decide_eq_true_eq]
            rintro rfl
            exact hnames ⟨batch, hdecode, List.mem_map_of_mem hmem⟩
    | _ => simp [acceptedMessages] at hmessage
  have hvalidates : validates id ⟨(ctx, call), .ok result⟩ = false := by
    cases call with
    | validateMessage chain messageId address payloadHash =>
        have hne : (⟨chain, messageId⟩ : CrossChainId) ≠ id := fun heq => hnames heq.symm
        simp [validates, hne]
    | _ => rfl
  exact ⟨h.quiet hfirst hvalidates hkeep, standing_snoc_of_quiet hfirst hvalidates⟩

theorem approveMessages {messages : ManagedBuffer} {proof : Proof}
    (h : Tracks crypto history state id)
    (hnames : (Call.approveMessages messages proof).Names id)
    (hok : Gateway.approveMessages crypto messages proof state = .ok (next, result.events)) :
    let after := history ++ [⟨(ctx, .approveMessages messages proof), .ok result⟩]
    Tracks crypto after next id ∧
      (standing crypto after id = standing crypto history id ∨
        (standing crypto history id).Moves (standing crypto after id)) := by
  intro after
  obtain ⟨batch, hdecode, hid⟩ := hnames
  obtain ⟨_, latest, hdecoded, _, _, heach⟩ := approveMessages_eq_ok hok
  obtain rfl := Option.some.inj (hdecode.symm.trans hdecoded)
  have haccepted : acceptedMessages
      [⟨(ctx, .approveMessages messages proof), .ok result⟩] = batch := by
    simp [acceptedMessages, hdecode]
  have hsnoc : firstAccepted after id = (firstAccepted history id).or
      (batch.find? fun message => message.crossChainId = id) := by
    rw [firstAccepted_snoc, haccepted]
  cases hfirst : firstAccepted history id with
  | some message =>
      have hsame : firstAccepted after id = firstAccepted history id := by
        rw [hsnoc, hfirst, Option.some_or]
      have hknown : standing crypto history id ≠ .nonExistent := by
        simp only [standing, hfirst]
        split <;> simp
      have hquiet := approveEach_quiet h.get_eq (.inl hknown) heach
      exact ⟨h.quiet hsame rfl hquiet.1, .inl (standing_snoc_of_quiet hsame rfl)⟩
  | none =>
      obtain ⟨message, hfind⟩ : ∃ message,
          batch.find? (fun message => message.crossChainId = id) = some message := by
        obtain ⟨message, hmessage, hmatches⟩ := List.mem_map.mp hid
        exact Option.isSome_iff_exists.mp
          (List.find?_isSome.mpr ⟨message, hmessage, by simpa using hmatches⟩)
      have hnone : history.countP (validates id) = 0 := by
        simpa [hfirst] using h.once
      have hany : after.any (validates id) = false := by
        rw [List.any_eq_false]
        intro entry hentry
        rcases List.mem_append.mp hentry with hentry | hentry
        · exact List.countP_eq_zero.mp hnone entry hentry
        · rw [List.mem_singleton.mp hentry]
          exact Bool.false_ne_true
      have hbefore : standing crypto history id = .nonExistent := by
        simp [standing, hfirst]
      have hafter : standing crypto after id = .approved (message.hash crypto) := by
        simp [standing, hsnoc, hfirst, hfind, hany]
      refine ⟨⟨?_, ?_⟩, .inr ?_⟩
      · rw [hafter]
        exact approveEach_first (h.get_eq.trans (by rw [hbefore])) hfind heach
      · rw [List.countP_append, hnone]
        exact Nat.zero_le _
      · rw [hbefore, hafter]
        exact .approve _

theorem validateMessage {sourceChain messageId sourceAddress : ManagedBuffer}
    {payloadHash : Hash} (h : Tracks crypto history state ⟨sourceChain, messageId⟩)
    (hok : Gateway.validateMessage crypto ctx sourceChain messageId sourceAddress payloadHash
      state = .ok (next, result.valid, result.events)) :
    let after := history ++
      [⟨(ctx, .validateMessage sourceChain messageId sourceAddress payloadHash), .ok result⟩]
    Tracks crypto after next ⟨sourceChain, messageId⟩ ∧
      (standing crypto after ⟨sourceChain, messageId⟩ =
          standing crypto history ⟨sourceChain, messageId⟩ ∨
        (standing crypto history ⟨sourceChain, messageId⟩).Moves
          (standing crypto after ⟨sourceChain, messageId⟩)) := by
  intro after
  have hsame : firstAccepted after ⟨sourceChain, messageId⟩ =
      firstAccepted history ⟨sourceChain, messageId⟩ := by
    rw [firstAccepted_snoc]
    simp [acceptedMessages]
  rcases validateMessage_eq_ok hok with ⟨hvalid, hget, rfl, _⟩ | ⟨hinvalid, rfl, _⟩
  · have hvalidates : validates ⟨sourceChain, messageId⟩ (⟨(ctx, .validateMessage sourceChain
        messageId sourceAddress payloadHash), .ok result⟩ : Entry _ Reply) = true := by
      simp [validates, hvalid]
    have hbefore := Except.ok.inj (h.get_eq.symm.trans hget)
    -- An approved message has been accepted and never consumed.
    cases hfirst : firstAccepted history ⟨sourceChain, messageId⟩ with
    | none => simp [standing, hfirst] at hbefore
    | some message =>
        have hfresh : history.any (validates ⟨sourceChain, messageId⟩) = false := by
          cases hany : history.any (validates ⟨sourceChain, messageId⟩) with
          | false => rfl
          | true => simp [standing, hfirst, hany] at hbefore
        have hafter : standing crypto after ⟨sourceChain, messageId⟩ = .executed := by
          simp [standing, hsame, hfirst, after, hvalidates]
        refine ⟨⟨?_, ?_⟩, .inr ?_⟩
        · rw [hafter, State.messagesGet_messagesSet_self]
        · have hnone : history.countP (validates ⟨sourceChain, messageId⟩) = 0 := by
            rw [List.countP_eq_zero]
            exact List.any_eq_false.mp hfresh
          rw [List.countP_append, hnone, hsame, hfirst]
          simp [hvalidates]
        · rw [hbefore, hafter]
          exact .execute _
  · have hvalidates : validates ⟨sourceChain, messageId⟩ (⟨(ctx, .validateMessage sourceChain
        messageId sourceAddress payloadHash), .ok result⟩ : Entry _ Reply) = false := by
      simp [validates, hinvalid]
    exact ⟨h.quiet hsame hvalidates rfl, .inl (standing_snoc_of_quiet hsame hvalidates)⟩

/-- Every completed call leaves the message where it was or moves it by one. -/
theorem completed (h : Tracks crypto history state id)
    (hok : perform crypto ctx call state = .ok (next, result)) :
    let after := history ++ [⟨(ctx, call), .ok result⟩]
    Tracks crypto after next id ∧
      (standing crypto after id = standing crypto history id ∨
        (standing crypto history id).Moves (standing crypto after id)) := by
  by_cases hnames : call.Names id
  · have hdone := perform_eq_ok hok
    cases call with
    | approveMessages messages proof => exact h.approveMessages hnames hdone
    | validateMessage chain messageId address payloadHash =>
        obtain rfl := hnames
        exact h.validateMessage hdone
    | _ => exact hnames.elim
  · obtain ⟨hnext, hsame⟩ := h.of_not_names hnames hok
    exact ⟨hnext, .inl hsame⟩

theorem stopped (h : Tracks crypto history state id) (input : CallContext × Call)
    (message : String) :
    Tracks crypto (history ++ [⟨input, .error message⟩]) state id := by
  obtain ⟨ctx, call⟩ := input
  have hvalidates : validates id (⟨(ctx, call), .error message⟩ : Entry _ Reply) = false := by
    cases call <;> rfl
  refine h.quiet ?_ hvalidates rfl
  rw [firstAccepted_snoc]
  cases call <;> simp [acceptedMessages]

theorem init {retention : ℕ} {domainSeparator : Hash} {delay : UInt64} {operator : Address}
    {signers : List WeightedSigners} {start : State} {events : List Event}
    (hinit : Gateway.init crypto ctx retention domainSeparator delay operator signers =
      .ok (start, events)) (id : CrossChainId) : Tracks crypto [] start id where
  get_eq := by
    have hblank := upgrade_messages hinit
    rw [State.messagesGet, hblank]
    rfl
  once := by simp

theorem run {start : State} (hstart : ∀ id, Tracks crypto [] start id)
    (hrun : Run (machine crypto) start history state) (id : CrossChainId) :
    Tracks crypto history state id := by
  induction hrun with
  | start => exact hstart id
  | completed _ hok ih => exact (ih.completed hok).1
  | stopped _ _ ih => exact ih.stopped _ _

end Tracks

end History

/-! ## The life cycle -/

theorem messageHashPreimage_injective {leftId rightId : CrossChainId}
    {leftSource rightSource : ManagedBuffer} {leftContract rightContract : Address}
    {leftPayload rightPayload : Hash}
    (h : messageHashPreimage leftId leftSource leftContract leftPayload =
      messageHashPreimage rightId rightSource rightContract rightPayload) :
    leftId = rightId ∧ leftSource = rightSource ∧ leftContract = rightContract ∧
      leftPayload = rightPayload := by
  simp only [messageHashPreimage, List.append_assoc] at h
  obtain ⟨hid, hrest⟩ := depEncode_append_inj h
  obtain ⟨hsource, hrest⟩ := depEncode_append_inj hrest
  obtain ⟨hcontract, hpayload⟩ := depEncode_append_inj hrest
  exact ⟨hid, hsource, hcontract, depEncode_injective hpayload⟩

def Message.preimage (message : Message) : Bytes :=
  messageHashPreimage message.crossChainId message.sourceAddress message.contractAddress
    message.payloadHash

theorem Message.preimage_injective : Function.Injective Message.preimage := by
  intro message other h
  obtain ⟨hid, hsource, hcontract, hpayload⟩ := messageHashPreimage_injective h
  obtain ⟨hchain, hmessageId⟩ := CrossChainId.mk.inj hid
  cases message
  cases other
  simp_all

/-- The strings hashed for the messages accepted and the calls that validate. -/
def messagePreimages (history : History) : Set Bytes :=
  {bytes | (∃ message ∈ acceptedMessages history, message.preimage = bytes) ∨
    ∃ entry ∈ history, ∃ ctx sourceChain messageId sourceAddress payloadHash,
      entry.input = (ctx, .validateMessage sourceChain messageId sourceAddress payloadHash) ∧
      messageHashPreimage ⟨sourceChain, messageId⟩ sourceAddress ctx.caller payloadHash = bytes}

/-- What holds of one id over a run from `start` through `history` to `state`. -/
structure LifeCycle (crypto : Crypto) (start : State) (history : History) (state : State)
    (id : CrossChainId) : Prop where
  starts : start.messagesGet id = .ok .nonExistent
  /-- Between any two points of the run the stored state went forward. -/
  forward : ∀ before after middle, history = before ++ after →
    Run (machine crypto) start before middle → Run (machine crypto) middle after state →
    ∃ earlier later, middle.messagesGet id = .ok earlier ∧ state.messagesGet id = .ok later ∧
      Relation.ReflTransGen MessageState.Moves earlier later
  hash_fixed : ∀ before after middle hash later, history = before ++ after →
    Run (machine crypto) start before middle → Run (machine crypto) middle after state →
    middle.messagesGet id = .ok (.approved hash) → state.messagesGet id = .ok later →
    later = .approved hash ∨ later = .executed
  approve_noop : ∀ ctx messages proof next result,
    state.messagesGet id ≠ .ok .nonExistent →
    perform crypto ctx (.approveMessages messages proof) state = .ok (next, result) →
    next.messages (State.messagesKey id) = state.messages (State.messagesKey id) ∧
    ∀ sourceAddress contractAddress payloadHash, .messageApproved id.sourceChain id.messageId
      sourceAddress contractAddress payloadHash ∉ result.events
  validated_once : history.countP (validates id) ≤ 1
  /-- Whoever consumed the message was the contract it was first accepted for. -/
  validated_first : ∀ before after ctx sourceAddress payloadHash result,
    history = before ++ ⟨(ctx, .validateMessage id.sourceChain id.messageId sourceAddress
      payloadHash), .ok result⟩ :: after → result.valid = true →
    ∃ message, firstAccepted before id = some message ∧
      message.contractAddress = ctx.caller ∧ message.sourceAddress = sourceAddress ∧
      message.payloadHash = payloadHash
  refused_unchanged : ∀ ctx sourceAddress payloadHash next result,
    perform crypto ctx (.validateMessage id.sourceChain id.messageId sourceAddress payloadHash)
      state = .ok (next, result) → result.valid = false → next = state
  untouched : ∀ ctx call next result, ¬ call.Names id →
    perform crypto ctx call state = .ok (next, result) →
    next.messages (State.messagesKey id) = state.messages (State.messagesKey id)

theorem MessageState.moves_approved {hash : Hash} {later : MessageState}
    (h : Relation.ReflTransGen Moves (.approved hash) later) :
    later = .approved hash ∨ later = .executed := by
  induction h with
  | refl => exact .inl rfl
  | tail _ hmove ih =>
      rcases ih with rfl | rfl
      · cases hmove with
        | execute => exact .inr rfl
      · cases hmove

section Runs

variable {start middle state : State} {before after history : History} {id : CrossChainId}

/-- The stored state goes forward along a run. -/
theorem standing_forward (hmiddle : Tracks crypto before middle id)
    (hrun : Run (machine crypto) middle after state) :
    Tracks crypto (before ++ after) state id ∧
      Relation.ReflTransGen MessageState.Moves (standing crypto before id)
        (standing crypto (before ++ after) id) := by
  induction hrun with
  | start => exact ⟨by simpa using hmiddle, by simpa using Relation.ReflTransGen.refl⟩
  | completed _ hok ih =>
      obtain ⟨hprevious, hforward⟩ := ih
      obtain ⟨hnext, hstep⟩ := hprevious.completed hok
      rw [← List.append_assoc]
      refine ⟨hnext, ?_⟩
      rcases hstep with hsame | hmove
      · rw [hsame]
        exact hforward
      · exact hforward.tail hmove
  | @stopped _ _ input message _ _ ih =>
      obtain ⟨hprevious, hforward⟩ := ih
      rw [← List.append_assoc]
      have hnext := hprevious.stopped input message
      have hsame := Except.ok.inj (hprevious.get_eq.symm.trans hnext.get_eq)
      exact ⟨hnext, hsame ▸ hforward⟩

/-- An accepted message has an accepted batch behind it. -/
theorem firstAccepted_mem {message : Message} (h : firstAccepted history id = some message) :
    message ∈ acceptedMessages history ∧ message.crossChainId = id :=
  ⟨List.mem_of_find?_eq_some h, by simpa using List.find?_some h⟩

theorem acceptedMessages_append (first second : History) :
    acceptedMessages (first ++ second) = acceptedMessages first ++ acceptedMessages second :=
  List.flatMap_append

theorem messagePreimages_subset {first second : History} :
    messagePreimages first ⊆ messagePreimages (first ++ second) := by
  rintro _ (⟨message, hmessage, rfl⟩ | ⟨entry, hentry, hvalidates⟩)
  · rw [messagePreimages, acceptedMessages_append]
    exact .inl ⟨message, List.mem_append_left _ hmessage, rfl⟩
  · exact .inr ⟨entry, List.mem_append_left _ hentry, hvalidates⟩

/-- A consumed message is the first one accepted under its id. -/
theorem validated_first {ctx : CallContext} {sourceAddress : ManagedBuffer}
    {payloadHash : Hash} {result : Reply} (hstart : ∀ id, Tracks crypto [] start id)
    (hrun : Run (machine crypto) start (before ++ ⟨(ctx, .validateMessage id.sourceChain
      id.messageId sourceAddress payloadHash), .ok result⟩ :: after) state)
    (hkeccak : Set.InjOn crypto.keccak256 (messagePreimages (before ++ ⟨(ctx, .validateMessage
      id.sourceChain id.messageId sourceAddress payloadHash), .ok result⟩ :: after)))
    (hvalid : result.valid = true) :
    ∃ message, firstAccepted before id = some message ∧
      message.contractAddress = ctx.caller ∧ message.sourceAddress = sourceAddress ∧
      message.payloadHash = payloadHash := by
  rw [List.append_cons] at hrun
  obtain ⟨reached, hfirst, _⟩ := hrun.split
  obtain ⟨previous, hbefore, hstep⟩ := hfirst.completed_inv
  have htracks := Tracks.run hstart hbefore id
  have hperform : perform crypto ctx (.validateMessage id.sourceChain id.messageId
      sourceAddress payloadHash) previous = .ok (reached, result) := hstep
  rcases validateMessage_eq_ok (perform_eq_ok hperform) with ⟨_, hget, _⟩ | ⟨hinvalid, _⟩
  · have hstanding := Except.ok.inj (htracks.get_eq.symm.trans hget)
    cases haccepted : firstAccepted before id with
    | none => simp [standing, haccepted] at hstanding
    | some message =>
        obtain ⟨hmem, hid⟩ := firstAccepted_mem haccepted
        have hhash : message.hash crypto = messageHash crypto id sourceAddress ctx.caller
            payloadHash := by
          simp only [standing, haccepted] at hstanding
          split at hstanding
          · simp at hstanding
          · exact MessageState.approved.inj hstanding
        have hpreimage : message.preimage =
            messageHashPreimage id sourceAddress ctx.caller payloadHash := by
          apply hkeccak _ _ hhash
          · left
            refine ⟨message, ?_, rfl⟩
            rw [acceptedMessages_append]
            exact List.mem_append_left _ hmem
          · right
            exact ⟨_, List.mem_append_right _ (List.mem_cons_self ..), ctx, id.sourceChain,
              id.messageId, sourceAddress, payloadHash, rfl, rfl⟩
        obtain ⟨_, hsource, hcontract, hpayload⟩ := messageHashPreimage_injective hpreimage
        exact ⟨message, rfl, hcontract, hsource, hpayload⟩
  · exact absurd hvalid (by rw [hinvalid]; exact Bool.false_ne_true)

theorem messageLifeCycle {ctx : CallContext} {retention : ℕ} {domainSeparator : Hash}
    {delay : UInt64} {operator : Address} {signers : List WeightedSigners}
    {events : List Event}
    (hinit : init crypto ctx retention domainSeparator delay operator signers =
      .ok (start, events))
    (hrun : Run (machine crypto) start history state)
    (hkeccak : Set.InjOn crypto.keccak256 (messagePreimages history)) (id : CrossChainId) :
    LifeCycle crypto start history state id := by
  have hstart := Tracks.init hinit
  have htracks := Tracks.run hstart hrun id
  have hforward : ∀ before after middle, history = before ++ after →
      Run (machine crypto) start before middle → Run (machine crypto) middle after state →
      middle.messagesGet id = .ok (standing crypto before id) ∧
      Relation.ReflTransGen MessageState.Moves (standing crypto before id)
        (standing crypto history id) := by
    rintro before after middle rfl hbefore hafter
    have hmiddle := Tracks.run hstart hbefore id
    exact ⟨hmiddle.get_eq, (standing_forward hmiddle hafter).2⟩
  refine {
    starts := (hstart id).get_eq
    forward := ?forward
    hash_fixed := ?hash_fixed
    approve_noop := ?approve_noop
    validated_once := ?validated_once
    validated_first := ?validated_first
    refused_unchanged := ?refused_unchanged
    untouched := fun _ _ _ _ hnames hok =>
      perform_messages_of_not_names htracks.get_eq hnames hok }
  case forward =>
      intro before after middle hhistory hbefore hafter
      obtain ⟨hget, hmoves⟩ := hforward before after middle hhistory hbefore hafter
      exact ⟨_, _, hget, htracks.get_eq, hmoves⟩
  case hash_fixed =>
      intro before after middle hash later hhistory hbefore hafter hget hlater
      obtain ⟨hstanding, hmoves⟩ := hforward before after middle hhistory hbefore hafter
      rw [Except.ok.inj (hstanding.symm.trans hget),
        Except.ok.inj (htracks.get_eq.symm.trans hlater)] at hmoves
      exact MessageState.moves_approved hmoves
  case approve_noop =>
      intro ctx messages proof next result hknown hok
      obtain ⟨batch, latest, _, _, _, heach⟩ := approveMessages_eq_ok (perform_eq_ok hok)
      refine approveEach_quiet htracks.get_eq (.inl fun heq => hknown ?_) heach
      rw [htracks.get_eq, heq]
  case validated_once =>
      refine htracks.once.trans ?_
      split <;> omega
  case validated_first =>
      rintro before after ctx sourceAddress payloadHash result rfl hvalid
      exact Gateway.validated_first hstart hrun hkeccak hvalid
  case refused_unchanged =>
      intro ctx sourceAddress payloadHash next result hok hinvalid
      rcases validateMessage_eq_ok (perform_eq_ok hok) with ⟨hvalid, _⟩ | ⟨_, hsame, _⟩
      · exact absurd hvalid (by rw [hinvalid]; exact Bool.false_ne_true)
      · exact hsame

end Runs

/-! ## A message approved and consumed -/

/-- The sample batch is approved and its message validated by its contract. -/
def sampleCalls : List (CallContext × Call) :=
  [(sampleContext, .approveMessages sampleBatch sampleProof),
    (sampleContext, .validateMessage sampleMessage.sourceChain sampleMessage.messageId
      sampleMessage.sourceAddress sampleMessage.payloadHash)]

theorem sampleCalls_accepted :
    (fun deployed : State × List Event =>
      acceptedMessages ((machine sampleCrypto).replay deployed.1 sampleCalls).1) <$>
        sampleInit = .ok [sampleMessage] := by
  decide +kernel

theorem sampleCalls_validated :
    (fun deployed : State × List Event =>
      ((machine sampleCrypto).replay deployed.1 sampleCalls).1.countP
        (validates sampleMessage.crossChainId)) <$> sampleInit = .ok 1 := by
  decide +kernel

/-- Approval and consumption hash the same string. -/
theorem sampleCalls_keccak_injOn {start : State} {events : List Event}
    (hinit : sampleInit = .ok (start, events)) :
    Set.InjOn sampleCrypto.keccak256
      (messagePreimages ((machine sampleCrypto).replay start sampleCalls).1) := by
  have haccepted := Outcome.apply_of_map sampleCalls_accepted hinit
  dsimp only at haccepted
  have hone : ∀ bytes ∈ messagePreimages ((machine sampleCrypto).replay start sampleCalls).1,
      bytes = sampleMessage.preimage := by
    rintro _ (⟨message, hmessage, rfl⟩ | ⟨entry, hentry, ctx, chain, id, address, payloadHash,
      hinput, rfl⟩)
    · rw [haccepted, List.mem_singleton] at hmessage
      rw [hmessage]
    · have hmem : entry.input ∈ sampleCalls := by
        rw [← (machine sampleCrypto).replay_inputs start sampleCalls]
        exact List.mem_map_of_mem hentry
      rw [hinput] at hmem
      simp only [sampleCalls, List.mem_cons, Prod.mk.injEq, reduceCtorEq, and_false,
        Call.validateMessage.injEq, List.not_mem_nil, or_false, false_or] at hmem
      obtain ⟨rfl, rfl, rfl, rfl, rfl⟩ := hmem
      rfl
  intro left hleft right hright _
  rw [hone left hleft, hone right hright]

theorem sample_messageLifeCycle : ∃ start events history state,
    sampleInit = .ok (start, events) ∧ Run (machine sampleCrypto) start history state ∧
    history.countP (validates sampleMessage.crossChainId) = 1 ∧
    LifeCycle sampleCrypto start history state sampleMessage.crossChainId := by
  obtain ⟨⟨start, events⟩, hinit⟩ := Outcome.exists_eq_ok sampleInit_isOk
  have hrun := (machine sampleCrypto).run_replay start sampleCalls
  have hvalidated := Outcome.apply_of_map sampleCalls_validated hinit
  exact ⟨start, events, _, _, hinit, hrun, hvalidated,
    messageLifeCycle hinit hrun (sampleCalls_keccak_injOn hinit) _⟩

end AxelarCgp.Gateway
