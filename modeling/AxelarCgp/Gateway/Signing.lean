import AxelarCgp.Gateway.LifeCycle

/-!
# What a signature is for

The gateway hashes fixed-width and length-prefixed fields one after another, so
that a byte string is hashed for one value only.  The string a signer signs holds
two of these hashes; as long as they do not collide, it is signed for one domain,
one signer set, one command and one buffer.
-/

namespace AxelarCgp.Gateway

open NestedCodec

/-- A command with its raw buffer, as one signer set authorises it for the gateway
of one domain. -/
structure SignedCommand where
  domainSeparator : Hash
  signers : WeightedSigners
  commandType : CommandType
  buffer : ManagedBuffer
  deriving DecidableEq

namespace SignedCommand

def dataPreimage (command : SignedCommand) : Bytes :=
  command.commandType.depEncode ++ command.buffer.1

variable (crypto : Crypto)

def signedString (command : SignedCommand) : Bytes :=
  multiversxSignedMessagePrefix ++ command.domainSeparator.1 ++
    (getSignersHash crypto command.signers).1 ++
    (getDataHash crypto command.commandType command.buffer).1

def hashToSign (command : SignedCommand) : Hash :=
  crypto.keccak256 (command.signedString crypto)

/-- The strings that are hashed for one command. -/
def hashed (command : SignedCommand) : Set Bytes :=
  {signersHashPreimage command.signers, command.dataPreimage, command.signedString crypto}

/-- A signature by one of the signers, as `validate_signatures` checks it. -/
structure Accepts (command : SignedCommand) (key : FixedBytes 32) (signature : FixedBytes 64) :
    Prop where
  signer : ∃ signer ∈ command.signers.signers.1, signer.signer = key
  verifies : crypto.verifyEd25519 key.1 (command.hashToSign crypto).1 signature.1 = true

variable {crypto}

/-- The proofs of a gateway are checked against the command they come with. -/
theorem messageHashToSign_eq (state : State) (signers : WeightedSigners)
    (commandType : CommandType) (buffer : ManagedBuffer) :
    messageHashToSign crypto state (getSignersHash crypto signers)
        (getDataHash crypto commandType buffer) =
      hashToSign crypto ⟨state.domainSeparator, signers, commandType, buffer⟩ := rfl

/-- The command is one byte, and the buffer is the rest. -/
theorem dataPreimage_inj {left right : SignedCommand}
    (h : left.dataPreimage = right.dataPreimage) :
    left.commandType = right.commandType ∧ left.buffer = right.buffer := by
  have hlength : left.commandType.depEncode.length = right.commandType.depEncode.length := by
    cases left.commandType <;> cases right.commandType <;> rfl
  obtain ⟨hcommand, hbuffer⟩ := List.append_inj h hlength
  constructor
  · revert hcommand
    cases left.commandType <;> cases right.commandType <;> simp [CommandType.depEncode]
  · exact Subtype.ext hbuffer

/-- The signed string is a prefix and three fields of one width. -/
theorem signedString_inj {left right : SignedCommand}
    (h : left.signedString crypto = right.signedString crypto) :
    left.domainSeparator = right.domainSeparator ∧
    getSignersHash crypto left.signers = getSignersHash crypto right.signers ∧
    getDataHash crypto left.commandType left.buffer =
      getDataHash crypto right.commandType right.buffer := by
  simp only [signedString, List.append_assoc] at h
  have hfields := List.append_cancel_left h
  obtain ⟨hdomain, hhashes⟩ := depEncode_append_inj (A := Hash) hfields
  obtain ⟨hsigners, hdata⟩ := depEncode_append_inj (A := Hash) hhashes
  exact ⟨hdomain, hsigners, Subtype.ext hdata⟩

/-- Without collisions the signed string determines all that is signed. -/
theorem eq_of_signedString_eq {left right : SignedCommand}
    (hkeccak : Set.InjOn crypto.keccak256 (left.hashed crypto ∪ right.hashed crypto))
    (h : left.signedString crypto = right.signedString crypto) : left = right := by
  obtain ⟨hdomain, hsigners, hdata⟩ := signedString_inj h
  have hset : left.signers = right.signers := by
    apply signersHashPreimage_injective
    exact hkeccak (by simp [hashed]) (by simp [hashed]) hsigners
  have hpreimage : left.dataPreimage = right.dataPreimage :=
    hkeccak (by simp [hashed]) (by simp [hashed]) hdata
  obtain ⟨hcommand, hbuffer⟩ := dataPreimage_inj hpreimage
  obtain ⟨_, _, _, _⟩ := left
  obtain ⟨_, _, _, _⟩ := right
  dsimp only at hdomain hset hcommand hbuffer
  rw [hdomain, hset, hcommand, hbuffer]

theorem eq_of_hashToSign_eq {left right : SignedCommand}
    (hkeccak : Set.InjOn crypto.keccak256 (left.hashed crypto ∪ right.hashed crypto))
    (h : left.hashToSign crypto = right.hashToSign crypto) : left = right :=
  eq_of_signedString_eq hkeccak (hkeccak (by simp [hashed]) (by simp [hashed]) h)

end SignedCommand

/-! ## Unambiguous preimages -/

/-- The fields of a message that are hashed. -/
structure HashedMessage where
  crossChainId : CrossChainId
  sourceAddress : ManagedBuffer
  contractAddress : Address
  payloadHash : Hash

def HashedMessage.preimage (message : HashedMessage) : Bytes :=
  messageHashPreimage message.crossChainId message.sourceAddress message.contractAddress
    message.payloadHash

/-- No two signer sets, messages, or signed commands share a hashed string. -/
structure Unambiguous (crypto : Crypto) (left right : SignedCommand) : Prop where
  signers : Function.Injective signersHashPreimage
  messages : Function.Injective HashedMessage.preimage
  signedString : left ≠ right → left.signedString crypto ≠ right.signedString crypto
  hashToSign : left ≠ right → left.hashToSign crypto ≠ right.hashToSign crypto
  /-- What a proof counted are signatures accepted for the command it came with. -/
  counted : ∀ commandType buffer proof state latest,
    validateProof crypto (getDataHash crypto commandType buffer) proof state = .ok latest →
    ∃ votes : List Vote, proof.signers.threshold.1 ≤ totalWeight votes ∧
      ∀ vote ∈ votes, SignedCommand.Accepts crypto
        ⟨state.domainSeparator, proof.signers, commandType, buffer⟩ vote.signer.signer
        vote.signature
  /-- A signature that verifies for one message only is accepted for one command. -/
  exclusive : ∀ key signature,
    {message | crypto.verifyEd25519 key.1 message signature.1 = true}.Subsingleton →
    left.Accepts crypto key signature → right.Accepts crypto key signature → left = right

theorem preimages_unambiguous {crypto : Crypto} {left right : SignedCommand}
    (hkeccak : Set.InjOn crypto.keccak256 (left.hashed crypto ∪ right.hashed crypto)) :
    Unambiguous crypto left right where
  signers := signersHashPreimage_injective
  messages := by
    rintro ⟨_, _, _, _⟩ ⟨_, _, _, _⟩ heq
    obtain ⟨rfl, rfl, rfl, rfl⟩ := messageHashPreimage_injective heq
    rfl
  signedString hne heq := hne (SignedCommand.eq_of_signedString_eq hkeccak heq)
  hashToSign hne heq := hne (SignedCommand.eq_of_hashToSign_eq hkeccak heq)
  counted := by
    intro commandType buffer proof state latest hproof
    obtain ⟨_, _, _, _, hsignatures⟩ := validateProof_eq_ok hproof
    simp only [validateSignatures, Outcome.bind_eq_ok, Outcome.exists_unit,
      Outcome.require_eq_ok, SignedCommand.messageHashToSign_eq] at hsignatures
    obtain ⟨votes, _, hvotes, hweight⟩ :=
      validateSignaturesFrom_votes (List.drop_zero (l := proof.signatures.1)) hsignatures.2
    refine ⟨votes, by simpa using hweight, fun vote hvote => ?_⟩
    have hvalid := (hvotes vote hvote).2
    exact ⟨⟨_, List.mem_of_getElem? hvalid.signer_eq, rfl⟩, hvalid.verifies⟩
  exclusive := by
    intro key signature hone hleft hright
    apply SignedCommand.eq_of_hashToSign_eq hkeccak
    exact Subtype.ext (hone hleft.verifies hright.verifies)

/-! ## One buffer under two commands -/

/-- The sample batch, as the command to approve it or to rotate to it. -/
def sampleCommand (commandType : CommandType) : SignedCommand where
  domainSeparator := Address.zero
  signers := sampleSigners 0
  commandType
  buffer := sampleBatch

/-- The hashes of both commands. -/
def sampleSigningCrypto : Crypto :=
  let signersHash := getSignersHash sampleCrypto (sampleSigners 0)
  let rotationHash := writeNat 32
    0xa2de1faaf4f1bf99947590b6e6c7884458371e79ee07b4c440d59c617d5c10ec
  Crypto.tabulated
    [(signersHashPreimage (sampleSigners 0), signersHash),
      (0 :: sampleBatch.1, sampleDataHash),
      (1 :: sampleBatch.1, rotationHash),
      (multiversxSignedMessagePrefix ++ Address.zero.1 ++ signersHash.1 ++ sampleDataHash.1,
        sampleHashToSign),
      (multiversxSignedMessagePrefix ++ Address.zero.1 ++ signersHash.1 ++ rotationHash.1,
        writeNat 32 0x419564b8ffad9c0c8d85dfb5525430de1d2ca62a0a9ece46ad5f33643aff869d)]
    [(sampleKey.1, sampleHashToSign.1, sampleSignature.1)]

def sampleSignedStrings : List Bytes :=
  [signersHashPreimage (sampleSigners 0), 0 :: sampleBatch.1, 1 :: sampleBatch.1,
    (sampleCommand .approveMessages).signedString sampleSigningCrypto,
    (sampleCommand .rotateSigners).signedString sampleSigningCrypto]

theorem sampleSignedStrings_nodup :
    (sampleSignedStrings.map sampleSigningCrypto.keccak256).Nodup := by
  decide +kernel

theorem sample_preimages_unambiguous :
    Unambiguous sampleSigningCrypto (sampleCommand .approveMessages)
      (sampleCommand .rotateSigners) := by
  apply preimages_unambiguous
  have hlisted : ∀ bytes ∈ (sampleCommand .approveMessages).hashed sampleSigningCrypto ∪
      (sampleCommand .rotateSigners).hashed sampleSigningCrypto, bytes ∈ sampleSignedStrings := by
    rintro _ ((rfl | rfl | rfl) | (rfl | rfl | rfl)) <;>
      simp [sampleSignedStrings, sampleCommand, SignedCommand.dataPreimage, CommandType.depEncode]
  intro first hfirst second hsecond
  exact List.inj_on_of_nodup_map sampleSignedStrings_nodup (hlisted first hfirst)
    (hlisted second hsecond)

end AxelarCgp.Gateway
