import AxelarCgp.Gateway.Registry

/-!
# Quorums

A proof shows a signer set the contract only knows the hash of.  That the set
is the registered one gives back what was checked at registration: its keys
increase, so that no signer can be counted twice, and its threshold is
positive.  The signature loop then supplies the signers it counted.
-/

namespace AxelarCgp.Gateway

open Machine NestedCodec

variable {crypto : Crypto}

/-! ## Registered sets -/

/-- The bytes a signer set is hashed from determine it field by field. -/
theorem signersHashPreimage_injective : Function.Injective signersHashPreimage := by
  rintro ⟨leftSigners, leftThreshold, leftNonce⟩ ⟨rightSigners, rightThreshold, rightNonce⟩ heq
  simp only [signersHashPreimage, List.append_assoc] at heq
  obtain ⟨hsigners, hrest⟩ := depEncode_append_inj heq
  obtain ⟨hthreshold, hnonce⟩ := depEncode_append_inj hrest
  rw [hsigners, hthreshold, depEncode_injective hnonce]

/-- Keys increase along a set that `validate_signers` lets through. -/
theorem validateSignersFrom_increasing {signers : List WeightedSigner}
    {prevSigner totalWeight result : ℕ}
    (h : validateSignersFrom signers prevSigner totalWeight = .ok result) :
    (prevSigner :: signers.map fun signer => Bytes.toNatBE signer.signer.1).Pairwise
      (· < ·) := by
  induction signers generalizing prevSigner totalWeight with
  | nil => simp
  | cons signer signers ih =>
      simp only [validateSignersFrom, Outcome.bind_eq_ok, Outcome.exists_unit,
        Outcome.require_eq_ok] at h
      obtain ⟨hincreases, _, hrest⟩ := h
      have hothers := ih hrest
      rw [List.map_cons, List.pairwise_cons]
      refine ⟨?_, hothers⟩
      intro key hkey
      rcases List.mem_cons.mp hkey with rfl | hkey
      · exact hincreases
      · exact hincreases.trans ((List.pairwise_cons.mp hothers).1 key hkey)

theorem validateSigners_eq_ok {weightedSigners : WeightedSigners}
    (h : validateSigners weightedSigners = .ok ()) :
    (weightedSigners.signers.1.map fun signer => Bytes.toNatBE signer.signer.1).Pairwise
      (· < ·) ∧
    0 < weightedSigners.threshold.1 := by
  simp only [validateSigners, Outcome.bind_eq_ok, Outcome.exists_unit,
    Outcome.require_eq_ok] at h
  obtain ⟨_, totalWeight, hfrom, hthreshold, _⟩ := h
  exact ⟨(List.pairwise_cons.mp (validateSignersFrom_increasing hfrom)).2, hthreshold⟩

/-! ## Counted signatures -/

/-- A signer of a set whose signature was counted, and where both stood. -/
structure Vote where
  position : ℕ
  signer : WeightedSigner
  signature : FixedBytes 64

/-- The vote is in the proof and its signature verifies over `messageHash`. -/
structure Vote.Valid (crypto : Crypto) (messageHash : Hash) (signers : List WeightedSigner)
    (signatures : List (Option (FixedBytes 64))) (vote : Vote) : Prop where
  signer_eq : signers[vote.position]? = some vote.signer
  signature_eq : signatures[vote.position]? = some (some vote.signature)
  verifies : crypto.verifyEd25519 vote.signer.signer.1 messageHash.1 vote.signature.1 = true

def totalWeight (votes : List Vote) : ℕ :=
  (votes.map fun vote => vote.signer.weight.1).sum

/-- The loop counts each position at most once, and returns only when what it
counted reaches the threshold. -/
theorem validateSignaturesFrom_votes {messageHash : Hash} {signers : List WeightedSigner}
    {threshold index weight : ℕ} {signatures rest : List (Option (FixedBytes 64))}
    (hrest : signatures.drop index = rest)
    (h : validateSignaturesFrom crypto messageHash signers threshold index rest weight =
      .ok ()) :
    ∃ votes : List Vote, votes.Pairwise (fun left right => left.position < right.position) ∧
      (∀ vote ∈ votes, index ≤ vote.position ∧
        vote.Valid crypto messageHash signers signatures) ∧
      threshold ≤ weight + totalWeight votes := by
  induction rest generalizing index weight with
  | nil => simp [validateSignaturesFrom] at h
  | cons entry rest ih =>
      have htail : signatures.drop (index + 1) = rest := by
        rw [← List.tail_drop, hrest, List.tail_cons]
      cases entry with
      | none =>
          obtain ⟨votes, hsorted, hvotes, hweight⟩ := ih htail h
          refine ⟨votes, hsorted, fun vote hvote => ?_, hweight⟩
          obtain ⟨hposition, hvalid⟩ := hvotes vote hvote
          exact ⟨by omega, hvalid⟩
      | some signature =>
          simp only [validateSignaturesFrom, Outcome.bind_eq_ok, Outcome.exists_unit,
            Outcome.orFail_eq_ok, Outcome.require_eq_ok] at h
          obtain ⟨signer, hsigner, hverifies, h⟩ := h
          have hsignature : signatures[index]? = some (some signature) := by
            rw [← List.head?_drop, hrest, List.head?_cons]
          let vote : Vote := ⟨index, signer, signature⟩
          have hvote : vote.Valid crypto messageHash signers signatures :=
            ⟨hsigner, hsignature, hverifies⟩
          split at h
          · rename_i hreached
            exact ⟨[vote], by simp, by simpa [vote] using hvote,
              by simpa [totalWeight, vote] using hreached⟩
          · obtain ⟨votes, hsorted, hvotes, hweight⟩ := ih htail h
            refine ⟨vote :: votes, List.pairwise_cons.mpr ⟨?_, hsorted⟩, ?_, ?_⟩
            · intro other hother
              have hposition := (hvotes other hother).1
              exact hposition
            · intro other hother
              rcases List.mem_cons.mp hother with rfl | hother
              · exact ⟨le_rfl, hvote⟩
              · obtain ⟨hposition, hvalid⟩ := hvotes other hother
                exact ⟨by omega, hvalid⟩
            · simp only [totalWeight, List.map_cons, List.sum_cons, vote] at hweight ⊢
              omega

/-- Where keys increase, votes at different positions are by different keys. -/
theorem nodup_keys_of_positions {messageHash : Hash} {signers : List WeightedSigner}
    {signatures : List (Option (FixedBytes 64))} {votes : List Vote}
    (hkeys : (signers.map fun signer => Bytes.toNatBE signer.signer.1).Pairwise (· < ·))
    (hsorted : votes.Pairwise fun left right => left.position < right.position)
    (hvotes : ∀ vote ∈ votes, vote.Valid crypto messageHash signers signatures) :
    (votes.map fun vote => vote.signer.signer).Nodup := by
  rw [List.nodup_iff_pairwise_ne, List.pairwise_map]
  refine hsorted.imp_of_mem ?_
  intro left right hleft hright hlt heq
  obtain ⟨hleftIndex, hleftSigner⟩ :=
    List.getElem?_eq_some_iff.mp (hvotes left hleft).signer_eq
  obtain ⟨hrightIndex, hrightSigner⟩ :=
    List.getElem?_eq_some_iff.mp (hvotes right hright).signer_eq
  have hincreases := List.pairwise_iff_getElem.mp hkeys left.position right.position
    (by simpa using hleftIndex) (by simpa using hrightIndex) hlt
  rw [List.getElem_map, List.getElem_map, hleftSigner, hrightSigner, heq] at hincreases
  exact lt_irrefl _ hincreases

/-! ## Soundness of proofs -/

/-- Signers of the proof's set with distinct keys, each of whose signatures
verifies over `messageHash`, that together reach the threshold. -/
def HasQuorum (crypto : Crypto) (messageHash : Hash) (proof : Proof) : Prop :=
  ∃ votes : List Vote, (votes.map fun vote => vote.signer.signer).Nodup ∧
    (∀ vote ∈ votes,
      vote.Valid crypto messageHash proof.signers.signers.1 proof.signatures.1) ∧
    proof.signers.threshold.1 ≤ totalWeight votes

/-- What a proof that was accepted had to satisfy in the state it met. -/
theorem validateProof_eq_ok {dataHash : Hash} {proof : Proof} {state : State} {latest : Bool}
    (h : validateProof crypto dataHash proof state = .ok latest) :
    let signersHash := getSignersHash crypto proof.signers
    let signerEpoch := state.epochBySignerHash signersHash
    latest = decide (signerEpoch = state.epoch) ∧ 0 < signerEpoch ∧
    signerEpoch ≤ state.epoch ∧
    state.epoch - signerEpoch ≤ state.previousSignersRetention ∧
    validateSignatures crypto (messageHashToSign crypto state signersHash dataHash)
      proof.signers proof.signatures = .ok () := by
  simp only [validateProof, bigUintSub, Outcome.bind_eq_ok, Outcome.exists_unit,
    Outcome.require_eq_ok, Outcome.pure_eq_ok] at h
  obtain ⟨hpos, age, hage, hretention, hsignatures, hlatest⟩ := h
  split at hage
  · rename_i hle
    obtain rfl := Except.ok.inj hage
    exact ⟨hlatest.symm, hpos, hle, hretention, hsignatures⟩
  · simp at hage

theorem validateSignatures_quorum {messageHash : Hash} {proof : Proof}
    (hregistered : validateSigners proof.signers = .ok ())
    (h : validateSignatures crypto messageHash proof.signers proof.signatures = .ok ()) :
    HasQuorum crypto messageHash proof := by
  simp only [validateSignatures, Outcome.bind_eq_ok, Outcome.exists_unit,
    Outcome.require_eq_ok] at h
  obtain ⟨votes, hsorted, hvotes, hweight⟩ :=
    validateSignaturesFrom_votes (List.drop_zero (l := proof.signatures.1)) h.2
  have hvalid := fun vote hvote => (hvotes vote hvote).2
  refine ⟨votes, ?_, hvalid, by simpa using hweight⟩
  exact nodup_keys_of_positions (validateSigners_eq_ok hregistered).1 hsorted hvalid

/-- A registered hash is the hash of a set some rotation announced. -/
theorem Registers.exists_rotation {done : List Rotation} {state : State}
    (h : Registers crypto done state) {hash : Hash}
    (hpos : 0 < state.epochBySignerHash hash) :
    ∃ rotation ∈ done, rotation.epoch = state.epochBySignerHash hash ∧
      rotation.signersHash = hash ∧ hash = getSignersHash crypto rotation.signers ∧
      validateSigners rotation.signers = .ok () := by
  obtain ⟨index, hnumber⟩ := Nat.exists_eq_add_of_lt hpos
  rw [Nat.zero_add] at hnumber
  have hindex := (h.numbered.numberOf_eq hash index).mp hnumber
  rw [List.getElem?_map] at hindex
  obtain ⟨rotation, hrotation, rfl⟩ := Option.map_eq_some_iff.mp hindex
  obtain ⟨hepoch, hhash, hvalid⟩ := h.rotated index rotation hrotation
  exact ⟨rotation, List.mem_of_getElem? hrotation, hepoch.trans hnumber.symm, rfl, hhash,
    hvalid⟩

theorem mem_rotations {events : List Event} {rotation : Rotation} :
    rotation ∈ rotations events ↔
      .signersRotated rotation.epoch rotation.signersHash rotation.signers ∈ events := by
  rw [rotations, List.mem_filterMap]
  constructor
  · rintro ⟨event, hevent, heq⟩
    cases event with
    | signersRotated epoch signersHash signers =>
        obtain rfl := Option.some.inj heq
        exact hevent
    | _ => simp [Event.rotation] at heq
  · intro hevent
    exact ⟨_, hevent, rfl⟩

/-- The strings of signer sets that a run hashed, and that of one more set. -/
def signersPreimages (log : List Event) (signers : WeightedSigners) : Set Bytes :=
  signersHashPreimage '' {other | other = signers ∨
    ∃ epoch signersHash, .signersRotated epoch signersHash other ∈ log}

theorem validateProof_sound {history : List (Entry (CallContext × Call) Reply)}
    {log : List Event} {state : State} {dataHash : Hash} {proof : Proof} {latest : Bool}
    (hdeployed : Deployed crypto history log state)
    (hkeccak : Set.InjOn crypto.keccak256 (signersPreimages log proof.signers))
    (hok : validateProof crypto dataHash proof state = .ok latest) :
    ∃ epoch, .signersRotated epoch (getSignersHash crypto proof.signers) proof.signers ∈ log ∧
      0 < epoch ∧ epoch ≤ state.epoch ∧
      state.epoch - epoch ≤ state.previousSignersRetention ∧
      HasQuorum crypto (crypto.keccak256 (multiversxSignedMessagePrefix ++
        state.domainSeparator.1 ++ (getSignersHash crypto proof.signers).1 ++ dataHash.1))
        proof ∧
      0 < proof.signers.threshold.1 ∧
      (latest = true ↔ epoch = state.epoch) := by
  obtain ⟨hlatest, hpos, hle, hretention, hsignatures⟩ := validateProof_eq_ok hok
  obtain ⟨rotation, hrotation, hepoch, hhash, hpreimage, hvalid⟩ :=
    hdeployed.registers.exists_rotation hpos
  have hevent := mem_rotations.mp hrotation
  have hsame : rotation.signers = proof.signers := by
    apply signersHashPreimage_injective
    apply hkeccak
    · exact ⟨_, .inr ⟨_, _, hevent⟩, rfl⟩
    · exact ⟨_, .inl rfl, rfl⟩
    · exact hpreimage.symm
  rw [hsame] at hvalid hevent
  rw [hhash] at hevent
  refine ⟨rotation.epoch, hevent, by omega, by omega, by omega,
    validateSignatures_quorum hvalid hsignatures, (validateSigners_eq_ok hvalid).2, ?_⟩
  rw [hlatest, hepoch, decide_eq_true_iff]

/-! ## Two of three

A set of three signers hands over to a set of one.  Its proofs are accepted for one more
epoch, and its first and last signer are heavy enough without the second one. -/

def sampleThree : WeightedSigners where
  signers := ⟨[⟨writeNat 32 0x3d4017c3e843895a92b70aa74d1b7ebc9c982ccf2ec4968cc0cd55f12af4660c,
      .ofByte 1⟩,
    ⟨sampleKey, .ofByte 2⟩,
    ⟨writeNat 32 0xfc51cd8e6218a1a38da47ed00230f0580816ed13ba3303ac5deb911548908025,
      .ofByte 3⟩], by simp [lengthLimit]⟩
  threshold := .ofByte 4
  nonce := Address.zero

/-- A signature by its two halves. -/
def sampleHalves (first second : Hash) : FixedBytes 64 :=
  ⟨first.1 ++ second.1, by rw [List.length_append, first.2, second.2]⟩

def sampleTwoOfThree (first last : FixedBytes 64) : Proof where
  signers := sampleThree
  signatures := ⟨[some first, none, some last], by simp [lengthLimit]⟩

/-- The proof of the rotation. -/
def sampleHandover : Proof :=
  sampleTwoOfThree
    (sampleHalves
      (writeNat 32 0x02ad30d7a5707abae04d46eb5ce793cafce008a50aaf0d8954326074b467bd95)
      (writeNat 32 0x187b1a8e67f034dd2a850d485f2582435f345787efe5f8dff90291f556177405))
    (sampleHalves
      (writeNat 32 0xe4cccb09da55a46d060100eb0de622f2f3cfb6452de75cdd466d4350e4f1a966)
      (writeNat 32 0xa6ee7a0cb70dc670ae964a62513efef2cfdc23ff9a929ee0399e4e27c6243d0d))

/-- The proof of the sample batch. -/
def sampleRetained : Proof :=
  sampleTwoOfThree
    (sampleHalves
      (writeNat 32 0x9ef4e3d803e661644744e322948e661418c53aa584be97b204ec02eb20461cf1)
      (writeNat 32 0xb97bb0374b9ac3af3fca739a9b260de5772a504b5a821ae38b6edd42f107c101))
    (sampleHalves
      (writeNat 32 0x3d9e752c4da8e8dd7345c00a72d9f22283014c8aeec5574e27a206f7ae874923)
      (writeNat 32 0xd83b1173b30cecc0ea1b57924e4604794f848d97f3b64e4da97792727287cb00))

/-- The second sample set, as a call of `rotateSigners` carries it. -/
def sampleNewSigners : ManagedBuffer :=
  ⟨depEncode (sampleSigners 1), by decide +kernel⟩

/-- What the three signers sign for the sample batch. -/
def sampleRetainedHash : Hash :=
  writeNat 32 0xadb1a322bbf1b98bc937a99d1f4d09927f854ae5d72d86a21eef17e1d923ba3f

def sampleThreeCrypto : Crypto :=
  let signersHash := writeNat 32
    0x1edaf464a103682ef0413ab20163fd395052f8a8d7aa103bceb538df7a2952ef
  let rotationHash := writeNat 32
    0x8749bdff92a0d579a6a5e33cad8972718b904133df90044d7be3e6eaa965b180
  let handoverHash := writeNat 32
    0x25e6e5bbf7fce2abbf784076c9343d20651fb9feebc63acaf4baa7255144fb31
  let signed : (hash : Hash) → (proof : Proof) → List (Bytes × Bytes × Bytes) :=
    fun hash proof => (sampleThree.signers.1.zip proof.signatures.1).filterMap fun seat =>
      seat.2.map fun signature => (seat.1.signer.1, hash.1, signature.1)
  Crypto.tabulated
    [(signersHashPreimage sampleThree, signersHash),
      (signersHashPreimage (sampleSigners 1), getSignersHash sampleCrypto (sampleSigners 1)),
      (1 :: sampleNewSigners.1, rotationHash),
      (multiversxSignedMessagePrefix ++ Address.zero.1 ++ signersHash.1 ++ rotationHash.1,
        handoverHash),
      (multiversxSignedMessagePrefix ++ Address.zero.1 ++ signersHash.1 ++ sampleDataHash.1,
        sampleRetainedHash)]
    (signed handoverHash sampleHandover ++ signed sampleRetainedHash sampleRetained)

/-- A deployment that retains one set of signers. -/
def sampleThreeInit : Outcome (State × List Event) :=
  init sampleThreeCrypto sampleContext 1 Address.zero 0 sampleContext.ownerAddress [sampleThree]

def sampleHandoverCalls : List (CallContext × Call) :=
  [(sampleContext, .rotateSigners sampleNewSigners sampleHandover)]

theorem sampleHandover_replay : (do
    let (start, events) ← sampleThreeInit
    let (history, state) := (machine sampleThreeCrypto).replay start sampleHandoverCalls
    let latest ← validateProof sampleThreeCrypto sampleDataHash sampleRetained state
    return ((rotations (events ++ emitted history)).map Rotation.signers, state.epoch, latest)) =
      .ok ([sampleThree, sampleSigners 1], 2, false) := by
  decide +kernel

/-- The two sets that were registered have hashes of their own. -/
theorem sampleThree_injOn {log : List Event}
    (h : (rotations log).map Rotation.signers = [sampleThree, sampleSigners 1]) :
    Set.InjOn sampleThreeCrypto.keccak256 (signersPreimages log sampleRetained.signers) := by
  have hapart : sampleThreeCrypto.apart
      ([sampleThree, sampleSigners 1].map signersHashPreimage) = true := by
    decide +kernel
  apply (Crypto.injOn_of_apart hapart).mono
  rintro _ ⟨signers, rfl | ⟨epoch, signersHash, hevent⟩, rfl⟩
  · exact List.mem_map_of_mem (List.mem_cons_self ..)
  · have hmem : signers ∈ (rotations log).map Rotation.signers :=
      List.mem_map.mpr ⟨⟨epoch, signersHash, signers⟩, mem_rotations.mpr hevent, rfl⟩
    exact List.mem_map_of_mem (h ▸ hmem)

/-- A proof of the sample batch by the set of the epoch before. -/
theorem sample_validateProof_sound : ∃ start events history state,
    sampleThreeInit = .ok (start, events) ∧
    Run (machine sampleThreeCrypto) start history state ∧
    history.map Entry.input = sampleHandoverCalls ∧ state.epoch = 2 ∧
    ∃ epoch, .signersRotated epoch (getSignersHash sampleThreeCrypto sampleRetained.signers)
        sampleRetained.signers ∈ events ++ emitted history ∧
      0 < epoch ∧ epoch ≤ state.epoch ∧
      state.epoch - epoch ≤ state.previousSignersRetention ∧
      HasQuorum sampleThreeCrypto (sampleThreeCrypto.keccak256 (multiversxSignedMessagePrefix ++
        state.domainSeparator.1 ++ (getSignersHash sampleThreeCrypto sampleRetained.signers).1 ++
        sampleDataHash.1)) sampleRetained ∧
      0 < sampleRetained.signers.threshold.1 ∧ (false = true ↔ epoch = state.epoch) := by
  have hreplay := sampleHandover_replay
  simp only [Outcome.bind_eq_ok, Outcome.pure_eq_ok, Prod.exists, Prod.mk.injEq] at hreplay
  obtain ⟨start, events, hinit, latest, hproof, hrotations, hepoch, rfl⟩ := hreplay
  have hrun := (machine sampleThreeCrypto).run_replay start sampleHandoverCalls
  have hinputs := (machine sampleThreeCrypto).replay_inputs start sampleHandoverCalls
  exact ⟨start, events, _, _, hinit, hrun, hinputs, hepoch,
    validateProof_sound (.intro hinit hrun) (sampleThree_injOn hrotations) hproof⟩

end AxelarCgp.Gateway
