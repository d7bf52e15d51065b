import AxelarCgp.Core.FirstWrite
import AxelarCgp.Gateway.LifeCycle

/-!
# Batches of messages

A batch writes the messages that are not known yet and passes over the others.  So it makes
no difference how messages are split into batches, in which order those of different ids
come, or that a batch is sent again.
-/

namespace AxelarCgp.Gateway

open Machine NestedCodec

variable {crypto : Crypto}

/-! ## Batches as writes -/

/-- Nothing is stored for a message. -/
def Vacant (stored : Bytes) : Prop := stored = []

instance : DecidablePred Vacant := fun stored => decEq stored []

/-- What a batch writes for a message. -/
def Message.entry (crypto : Crypto) (message : Message) : Bytes × Bytes :=
  (State.messagesKey message.crossChainId, (MessageState.approved (message.hash crypto)).topEncode)

theorem Message.entry_filled (batch : List Message) :
    ∀ entry ∈ batch.map (Message.entry crypto), ¬ Vacant entry.2 := by
  intro entry hentry
  obtain ⟨message, _, rfl⟩ := List.mem_map.mp hentry
  have hlength := (message.hash crypto).2
  intro hvacant
  change (message.hash crypto).1 = [] at hvacant
  rw [hvacant] at hlength
  simp at hlength

theorem MessageState.topDecode_eq_nonExistent {stored : Bytes} :
    MessageState.topDecode stored = .ok .nonExistent ↔ Vacant stored := by
  constructor
  · intro h
    by_contra hstored
    have hnonempty : stored.isEmpty = false := by simpa [Vacant] using hstored
    rw [topDecode, hnonempty] at h
    split at h
    · contradiction
    · split at h
      · cases h
      · split at h <;> cases h
  · rintro rfl
    rfl

/-! ## The first message of an id -/

/-- Where a message stands after a batch in which `first` is the first one of its id. -/
def MessageState.after (crypto : Crypto) (current : MessageState) (first : Option Message) :
    MessageState :=
  match current, first with
  | .nonExistent, some message => .approved (message.hash crypto)
  | current, _ => current

/-- The id is past the state of one that was never seen. -/
def State.Knows (state : State) (id : CrossChainId) : Prop :=
  ∃ current, state.messagesGet id = .ok current ∧ current ≠ .nonExistent

section Batches

variable {state next : State} {events : List Event} {batch : List Message} {id : CrossChainId}

theorem approveMessage_messages {message : Message}
    (h : approveMessage crypto message state = .ok (next, events)) :
    next = { state with
      messages := FirstWrite.write Vacant state.messages (message.entry crypto) } := by
  rcases approveMessage_eq_ok h with ⟨hfresh, rfl, _⟩ | ⟨current, hcurrent, hknown, hsame, _⟩
  · have hvacant : Vacant (state.messages (message.entry crypto).1) :=
      MessageState.topDecode_eq_nonExistent.mp hfresh
    rw [FirstWrite.write, if_pos hvacant]
    rfl
  · have hfilled : ¬ Vacant (state.messages (message.entry crypto).1) := by
      intro hvacant
      apply hknown
      exact Except.ok.inj (hcurrent.symm.trans
        (MessageState.topDecode_eq_nonExistent.mpr hvacant))
    rw [hsame, FirstWrite.write, if_neg hfilled]

/-- A batch writes its messages one after the other, and nothing else. -/
theorem approveEach_messages (h : approveEach crypto batch state = .ok (next, events)) :
    next = { state with
      messages :=
        FirstWrite.writeAll Vacant state.messages (batch.map (Message.entry crypto)) } := by
  induction batch generalizing state events with
  | nil =>
      simp only [approveEach, Outcome.pure_eq_ok, Prod.mk.injEq] at h
      exact h.1.symm
  | cons message batch ih =>
      simp only [approveEach, Outcome.bind_eq_ok, Prod.exists, Outcome.pure_eq_ok,
        Prod.mk.injEq] at h
      obtain ⟨middle, first, hmessage, last, others, hbatch, rfl, _⟩ := h
      have hnext := ih hbatch
      rw [approveMessage_messages hmessage] at hnext
      exact hnext

theorem approveEach_append (first second : List Message) (state : State) :
    approveEach crypto (first ++ second) state = (do
      let (middle, events) ← approveEach crypto first state
      let (last, others) ← approveEach crypto second middle
      return (last, events ++ others)) := by
  induction first generalizing state with
  | nil => simp [approveEach]
  | cons message first ih =>
      simp only [List.cons_append, approveEach, ih, bind_assoc, pure_bind, List.append_assoc]

theorem firstValue_entries (batch : List Message) (id : CrossChainId) :
    FirstWrite.firstValue (batch.map (Message.entry crypto)) (State.messagesKey id) =
      (batch.find? fun message => message.crossChainId = id).map fun message =>
        (MessageState.approved (message.hash crypto)).topEncode := by
  have hkeys : (fun entry : Bytes × Bytes => decide (entry.1 = State.messagesKey id)) ∘
      Message.entry crypto = fun message => decide (message.crossChainId = id) := by
    funext message
    exact decide_eq_decide.mpr State.messagesKey_injective.eq_iff
  rw [FirstWrite.firstValue, List.find?_map, hkeys, Option.map_map]
  rfl

theorem approveEach_messagesGet (h : approveEach crypto batch state = .ok (next, events))
    (id : CrossChainId) : next.messagesGet id = (do
      let current ← state.messagesGet id
      return current.after crypto (batch.find? fun message => message.crossChainId = id)) := by
  rw [approveEach_messages h, State.messagesGet, State.messagesGet]
  dsimp only
  rw [FirstWrite.writeAll_apply (Message.entry_filled batch), firstValue_entries]
  split
  · rename_i hvacant
    rw [MessageState.topDecode_eq_nonExistent.mpr hvacant, Outcome.ok_bind]
    cases batch.find? fun message => message.crossChainId = id with
    | none => exact MessageState.topDecode_eq_nonExistent.mpr hvacant
    | some message => exact MessageState.topDecode_topEncode (.approved (message.hash crypto))
  · rename_i hstored
    cases hcurrent : MessageState.topDecode (state.messages (State.messagesKey id)) with
    | error message => rfl
    | ok current =>
        cases current with
        | nonExistent =>
            exact absurd (MessageState.topDecode_eq_nonExistent.mp hcurrent) hstored
        | approved hash => rfl
        | executed => rfl

/-! ## Accepted batches -/

theorem messagesGet_isOk_of_approveMessage {message : Message}
    (h : approveMessage crypto message state = .ok (next, events)) :
    (next.messagesGet id).isOk = (state.messagesGet id).isOk := by
  rcases approveMessage_eq_ok h with ⟨hfresh, rfl, _⟩ | ⟨_, _, _, rfl, _⟩
  · by_cases hid : id = message.crossChainId
    · subst hid
      rw [State.messagesGet_messagesSet_self, hfresh]
      rfl
    · rw [State.messagesGet_messagesSet_of_ne _ hid]
  · rfl

theorem approveMessage_isOk (message : Message) (state : State) :
    (approveMessage crypto message state).isOk = (state.messagesGet message.crossChainId).isOk := by
  unfold approveMessage
  cases state.messagesGet message.crossChainId with
  | error message => rfl
  | ok current =>
      rw [Outcome.ok_bind]
      split <;> rfl

/-- A batch goes through where every stored state that it looks at can be read. -/
theorem approveEach_isOk_iff : (approveEach crypto batch state).isOk ↔
    ∀ message ∈ batch, (state.messagesGet message.crossChainId).isOk := by
  induction batch generalizing state with
  | nil => simp [approveEach, Except.isOk, Except.toBool, pure, Except.pure]
  | cons message batch ih =>
      rw [List.forall_mem_cons, ← @approveMessage_isOk crypto]
      cases hmessage : approveMessage crypto message state with
      | error text => simp [approveEach, hmessage, Except.isOk, Except.toBool, bind, Except.bind]
      | ok result =>
          obtain ⟨middle, first⟩ := result
          simp only [← messagesGet_isOk_of_approveMessage hmessage]
          rw [← ih, approveEach, hmessage, Outcome.ok_bind]
          dsimp only
          cases approveEach crypto batch middle <;>
            simp [Except.isOk, Except.toBool, bind, Except.bind, pure, Except.pure]

/-! ## Known ids -/

theorem State.Knows.approveEach (h : state.Knows id)
    (heach : approveEach crypto batch state = .ok (next, events)) : next.Knows id := by
  obtain ⟨current, hcurrent, hknown⟩ := h
  have hquiet := approveEach_quiet hcurrent (.inl hknown) heach
  exact ⟨current, (messagesGet_congr hquiet.1).trans hcurrent, hknown⟩

theorem knows_of_approveEach (h : approveEach crypto batch state = .ok (next, events)) :
    ∀ message ∈ batch, next.Knows message.crossChainId := by
  induction batch generalizing state events with
  | nil => simp
  | cons head batch ih =>
      simp only [Gateway.approveEach, Outcome.bind_eq_ok, Prod.exists, Outcome.pure_eq_ok,
        Prod.mk.injEq] at h
      obtain ⟨middle, first, hmessage, last, others, hbatch, rfl, _⟩ := h
      rw [List.forall_mem_cons]
      constructor
      · apply State.Knows.approveEach _ hbatch
        rcases approveMessage_eq_ok hmessage with
          ⟨_, rfl, _⟩ | ⟨current, hcurrent, hknown, rfl, _⟩
        · exact ⟨_, State.messagesGet_messagesSet_self _ _ _, by simp⟩
        · exact ⟨current, hcurrent, hknown⟩
      · exact ih hbatch

theorem State.Knows.approveMessage {message : Message} (h : state.Knows message.crossChainId) :
    approveMessage crypto message state = .ok (state, []) := by
  obtain ⟨current, hcurrent, hknown⟩ := h
  rw [Gateway.approveMessage, hcurrent, Outcome.ok_bind, if_pos hknown]
  rfl

/-- A batch of known ids changes nothing and announces nothing. -/
theorem approveEach_known (h : ∀ message ∈ batch, state.Knows message.crossChainId) :
    approveEach crypto batch state = .ok (state, []) := by
  induction batch with
  | nil => rfl
  | cons message batch ih =>
      rw [List.forall_mem_cons] at h
      rw [approveEach, h.1.approveMessage, Outcome.ok_bind]
      dsimp only
      rw [ih h.2]
      rfl

theorem State.Knows.perform {ctx : CallContext} {call : Call} {result : Reply}
    (h : state.Knows id) (hok : perform crypto ctx call state = .ok (next, result)) :
    next.Knows id := by
  obtain ⟨current, hcurrent, hknown⟩ := h
  cases hvalidates : validates id ⟨(ctx, call), .ok result⟩ with
  | true =>
      obtain ⟨_, _, _, _, hexecuted⟩ := perform_validates hvalidates hok
      exact ⟨.executed, hexecuted, by simp⟩
  | false => exact ⟨current, perform_stands hcurrent hknown hvalidates hok, hknown⟩

/-- A known id stays known. -/
theorem State.Knows.run {history : History} (h : state.Knows id)
    (hrun : Run (machine crypto) state history next) : next.Knows id :=
  Run.invariant (P := fun state => state.Knows id) h
    (fun _ _ _ _ hknows hok => hknows.perform hok) hrun

end Batches

/-! ## Splitting, reordering and repeating batches -/

/-- The first approval of an id decides, however the messages are sent. -/
structure FirstApprovalWins (crypto : Crypto) : Prop where
  /-- An accepted call processes the messages it decodes. -/
  processed : ∀ messages proof state next events,
    approveMessages crypto messages proof state = .ok (next, events) →
    ∃ batch, topDecodeVec (A := Message) messages.1 = some batch ∧
      approveEach crypto batch state = .ok (next, events)
  append : ∀ first second state, approveEach crypto (first ++ second) state = (do
    let (middle, events) ← approveEach crypto first state
    let (last, others) ← approveEach crypto second middle
    return (last, events ++ others))
  /-- Two accepted calls leave what one call with all their messages leaves. -/
  split : ∀ first second firstMessages secondMessages allMessages firstProof secondProof allProof
      state middle last next earlier later events,
    topDecodeVec (A := Message) firstMessages.1 = some first →
    topDecodeVec (A := Message) secondMessages.1 = some second →
    topDecodeVec (A := Message) allMessages.1 = some (first ++ second) →
    approveMessages crypto firstMessages firstProof state = .ok (middle, earlier) →
    approveMessages crypto secondMessages secondProof middle = .ok (last, later) →
    approveMessages crypto allMessages allProof state = .ok (next, events) →
    last = next ∧ earlier ++ later = events
  /-- The result for an id depends on its state before and on its first message. -/
  first : ∀ batch state next events id,
    approveEach crypto batch state = .ok (next, events) →
    next.messagesGet id = (do
      let current ← state.messagesGet id
      return current.after crypto (batch.find? fun message => message.crossChainId = id))
  reordered : ∀ batch permuted state next events,
    (batch.map Message.crossChainId).Nodup → batch.Perm permuted →
    approveEach crypto batch state = .ok (next, events) →
    ∃ others, approveEach crypto permuted state = .ok (next, others)
  /-- Whatever was called in between, a batch of ids that were processed changes nothing. -/
  again : ∀ batch repeated state next last events history,
    approveEach crypto batch state = .ok (next, events) →
    Run (machine crypto) next history last →
    repeated.map Message.crossChainId ⊆ batch.map Message.crossChainId →
    approveEach crypto repeated last = .ok (last, [])

theorem approveEach_perm {batch permuted : List Message} {state next : State}
    {events : List Event} (hids : (batch.map Message.crossChainId).Nodup)
    (hperm : batch.Perm permuted) (h : approveEach crypto batch state = .ok (next, events)) :
    ∃ others, approveEach crypto permuted state = .ok (next, others) := by
  have hreadable : (approveEach crypto permuted state).isOk := by
    rw [approveEach_isOk_iff]
    intro message hmessage
    have haccepted : (approveEach crypto batch state).isOk := by
      rw [h]
      rfl
    exact approveEach_isOk_iff.mp haccepted message (hperm.mem_iff.mpr hmessage)
  obtain ⟨⟨other, others⟩, hother⟩ := Outcome.exists_eq_ok hreadable
  have hkeys : ((batch.map (Message.entry crypto)).map Prod.fst).Nodup := by
    have hmap : (batch.map (Message.entry crypto)).map Prod.fst =
        (batch.map Message.crossChainId).map State.messagesKey := by
      rw [List.map_map, List.map_map]
      rfl
    rw [hmap]
    exact hids.map State.messagesKey_injective
  rw [approveEach_messages h,
    FirstWrite.writeAll_perm hkeys (hperm.map (Message.entry crypto)),
    ← approveEach_messages hother]
  exact ⟨others, hother⟩

theorem firstApprovalWins (crypto : Crypto) : FirstApprovalWins crypto where
  processed := by
    intro messages proof state next events h
    obtain ⟨batch, _, hdecode, _, _, heach⟩ := approveMessages_eq_ok h
    exact ⟨batch, hdecode, heach⟩
  append := approveEach_append
  split := by
    intro first second firstMessages secondMessages allMessages firstProof secondProof allProof
      state middle last next earlier later events hfirst hsecond hall hmiddle hlast hnext
    obtain ⟨firstBatch, _, hfirstBatch, _, _, hmiddle⟩ := approveMessages_eq_ok hmiddle
    obtain ⟨secondBatch, _, hsecondBatch, _, _, hlast⟩ := approveMessages_eq_ok hlast
    obtain ⟨allBatch, _, hallBatch, _, _, hnext⟩ := approveMessages_eq_ok hnext
    obtain rfl := Option.some.inj (hfirst.symm.trans hfirstBatch)
    obtain rfl := Option.some.inj (hsecond.symm.trans hsecondBatch)
    obtain rfl := Option.some.inj (hall.symm.trans hallBatch)
    simp only [approveEach_append, hmiddle, hlast, Outcome.ok_bind, Outcome.pure_eq_ok,
      Prod.mk.injEq] at hnext
    exact hnext
  first := fun batch state next events id h => approveEach_messagesGet h id
  reordered := fun batch permuted state next events hids hperm h =>
    approveEach_perm hids hperm h
  again := by
    intro batch repeated state next last events history h hrun hrepeated
    apply approveEach_known
    intro message hmessage
    obtain ⟨approved, happroved, hid⟩ :=
      List.mem_map.mp (hrepeated (List.mem_map_of_mem hmessage))
    have hknows := knows_of_approveEach h approved happroved
    rw [hid] at hknows
    exact hknows.run hrun

end AxelarCgp.Gateway
