import AxelarCgp.Core.Tally
import AxelarCgp.Gateway.Quorum

/-!
# Which signatures are accepted

Signers and signatures are gone through side by side: a signature that does not verify fails
the call, one that is absent is passed over, and the loop returns at the threshold.  So the
signatures are accepted when those up to some position are valid and heavy enough.
-/

namespace AxelarCgp.Gateway

open Tally

/-- A signer and the signature at its position. -/
abbrev Seat := WeightedSigner × Option (FixedBytes 64)

namespace Seat

/-- The signature, if it is present, is one of the signer. -/
def Valid (crypto : Crypto) (messageHash : Hash) (seat : Seat) : Prop :=
  ∀ signature, seat.2 = some signature →
    crypto.verifyEd25519 seat.1.signer.1 messageHash.1 signature.1 = true

/-- The weight of a signer that signed. -/
def weight (seat : Seat) : ℕ :=
  if seat.2.isSome then seat.1.weight.1 else 0

def ballot (crypto : Crypto) (messageHash : Hash) (seat : Seat) : Ballot ℕ :=
  match seat.2 with
  | none => .absent
  | some signature =>
      if crypto.verifyEd25519 seat.1.signer.1 messageHash.1 signature.1 then
        .counted seat.1.weight.1
      else
        .void

end Seat

def presentWeight (seats : List Seat) : ℕ :=
  (seats.map Seat.weight).sum

/-- All present signatures are valid, and their signers reach the threshold. -/
structure Sufficient (crypto : Crypto) (messageHash : Hash) (threshold : ℕ)
    (seats : List Seat) : Prop where
  valid : ∀ seat ∈ seats, seat.Valid crypto messageHash
  reached : threshold ≤ presentWeight seats

/-- What decides whether signatures are accepted for a signer set. -/
structure ExactAcceptance (crypto : Crypto) (messageHash : Hash) (signers : WeightedSigners)
    (signatures : Vec (Option (FixedBytes 64))) : Prop where
  accepted_iff : validateSignatures crypto messageHash signers signatures = .ok () ↔
    signatures.1 ≠ [] ∧ signers.signers.1.length = signatures.1.length ∧
    ∃ count ≤ signatures.1.length, Sufficient crypto messageHash signers.threshold.1
      (signers.signers.1.zip (signatures.1.take count))
  /-- If nothing is invalid the weights of all who signed decide. -/
  all_valid : signatures.1 ≠ [] → signers.signers.1.length = signatures.1.length →
    (∀ seat ∈ signers.signers.1.zip signatures.1, Seat.Valid crypto messageHash seat) →
    (validateSignatures crypto messageHash signers signatures = .ok () ↔
      signers.threshold.1 ≤ presentWeight (signers.signers.1.zip signatures.1))
  /-- One more valid signature is never one too many. -/
  signed : ∀ (signatures' : Vec (Option (FixedBytes 64))) position signer signature,
    signatures.1[position]? = some none → signers.signers.1[position]? = some signer →
    crypto.verifyEd25519 signer.signer.1 messageHash.1 signature.1 = true →
    signatures'.1 = signatures.1.set position (some signature) →
    validateSignatures crypto messageHash signers signatures = .ok () →
    validateSignatures crypto messageHash signers signatures' = .ok ()
  /-- Nothing that follows a sufficient part is looked at. -/
  rest_ignored : ∀ (signatures' : Vec (Option (FixedBytes 64))) count,
    signers.signers.1.length = signatures'.1.length → signatures'.1 ≠ [] →
    signatures'.1.take count = signatures.1.take count →
    Sufficient crypto messageHash signers.threshold.1
      (signers.signers.1.zip (signatures.1.take count)) →
    validateSignatures crypto messageHash signers signatures' = .ok ()

section Seats

variable {crypto : Crypto} {messageHash : Hash} {seat : Seat} {seats : List Seat}

theorem Seat.ballot_eq_void_iff :
    seat.ballot crypto messageHash = .void ↔ ¬ seat.Valid crypto messageHash := by
  obtain ⟨signer, signature⟩ := seat
  cases signature with
  | none => simp [ballot, Valid]
  | some signature =>
      cases hverify : crypto.verifyEd25519 signer.signer.1 messageHash.1 signature.1 <;>
        simp [ballot, Valid, hverify]

theorem void_not_mem_ballots : .void ∉ seats.map (Seat.ballot crypto messageHash) ↔
    ∀ seat ∈ seats, seat.Valid crypto messageHash := by
  simp only [List.mem_map, Seat.ballot_eq_void_iff, not_exists, not_and, not_not]

theorem Seat.ballot_weight (hvalid : seat.Valid crypto messageHash) :
    (seat.ballot crypto messageHash).weight = seat.weight := by
  obtain ⟨signer, signature⟩ := seat
  cases signature with
  | none => rfl
  | some signature =>
      have hverify := hvalid signature rfl
      dsimp only at hverify
      simp [ballot, weight, hverify, Ballot.weight]

theorem total_ballots (hvalid : ∀ seat ∈ seats, seat.Valid crypto messageHash) :
    total (seats.map (Seat.ballot crypto messageHash)) = presentWeight seats := by
  rw [total, presentWeight, List.map_map]
  apply congrArg List.sum
  apply List.map_congr_left
  intro seat hseat
  exact Seat.ballot_weight (hvalid seat hseat)

theorem suffices_ballots {threshold : ℕ} :
    Suffices threshold 0 (seats.map (Seat.ballot crypto messageHash)) ↔
      Sufficient crypto messageHash threshold seats := by
  constructor
  · intro h
    have hvalid := void_not_mem_ballots.mp h.no_void
    exact ⟨hvalid, by simpa [total_ballots hvalid] using h.reached⟩
  · intro h
    refine ⟨void_not_mem_ballots.mpr h.valid, ?_⟩
    simpa [total_ballots h.valid] using h.reached

end Seats

section Loop

variable {crypto : Crypto} {messageHash : Hash} {signers : List WeightedSigner} {threshold : ℕ}

/-- The loop holds the vote of the seats that are left. -/
theorem validateSignaturesFrom_eq_ok_iff {index weight : ℕ}
    {signatures : List (Option (FixedBytes 64))}
    (hlength : signers.length = index + signatures.length) :
    validateSignaturesFrom crypto messageHash signers threshold index signatures weight =
        .ok () ↔
      wins threshold weight
        (((signers.drop index).zip signatures).map (Seat.ballot crypto messageHash)) = true := by
  induction signatures generalizing index weight with
  | nil => simp [validateSignaturesFrom, wins]
  | cons signature signatures ih =>
      have hindex : index < signers.length := by
        rw [hlength, List.length_cons]
        omega
      have hrest : signers.length = index + 1 + signatures.length := by
        rw [hlength, List.length_cons]
        omega
      rw [List.drop_eq_getElem_cons hindex, List.zip_cons_cons, List.map_cons]
      cases signature with
      | none => exact ih hrest
      | some signature =>
          simp only [validateSignaturesFrom, List.getElem?_eq_getElem hindex]
          cases hverify : crypto.verifyEd25519 signers[index].signer.1 messageHash.1
              signature.1 with
          | false => simp [orFail, require, hverify, Seat.ballot, wins]
          | true =>
              simp only [Seat.ballot, hverify, if_true, wins, Bool.or_eq_true,
                decide_eq_true_iff]
              rw [← ih hrest]
              by_cases hreached : threshold ≤ weight + signers[index].weight.1 <;>
                simp [orFail, require, hreached, hverify, Outcome.ok_bind]

end Loop

/-! ## Exact acceptance -/

section Acceptance

variable {crypto : Crypto} {messageHash : Hash} {signers : WeightedSigners}
variable {signatures signatures' : Vec (Option (FixedBytes 64))}

theorem validateSignatures_eq_ok_iff :
    validateSignatures crypto messageHash signers signatures = .ok () ↔
      signatures.1 ≠ [] ∧ signers.signers.1.length = signatures.1.length ∧
      wins signers.threshold.1 0
        ((signers.signers.1.zip signatures.1).map (Seat.ballot crypto messageHash)) = true := by
  simp only [validateSignatures, Outcome.bind_eq_ok, Outcome.exists_unit,
    Outcome.require_eq_ok, and_assoc]
  apply and_congr_right
  intro _
  apply and_congr_right
  intro hlength
  rw [validateSignaturesFrom_eq_ok_iff (by rw [hlength, zero_add]), List.drop_zero]

theorem zip_take {A B : Type*} (first : List A) (second : List B) (count : ℕ) :
    (first.zip second).take count = first.zip (second.take count) := by
  induction second generalizing first count with
  | nil => simp
  | cons value second ih =>
      cases first with
      | nil => simp
      | cons other first =>
          cases count with
          | zero => simp
          | succ count => simp [ih]

theorem zip_set {A B : Type*} {first : List A} {second : List B} {position : ℕ} {other : A}
    {value : B} (hother : first[position]? = some other) :
    first.zip (second.set position value) = (first.zip second).set position (other, value) := by
  induction first generalizing second position with
  | nil => contradiction
  | cons head first ih =>
      cases second with
      | nil => rfl
      | cons head second =>
          cases position with
          | zero =>
              obtain rfl := Option.some.inj hother
              rfl
          | succ position =>
              rw [List.set_cons_succ, List.zip_cons_cons, ih hother]
              rfl

/-- Signatures that suffice up to a position suffice whatever follows. -/
theorem wins_of_sufficient {count : ℕ} (hthreshold : 0 < signers.threshold.1)
    (hsame : signatures'.1.take count = signatures.1.take count)
    (hsufficient : Sufficient crypto messageHash signers.threshold.1
      (signers.signers.1.zip (signatures.1.take count))) :
    wins signers.threshold.1 0
      ((signers.signers.1.zip signatures'.1).map (Seat.ballot crypto messageHash)) = true := by
  rw [← hsame, ← zip_take] at hsufficient
  rw [← List.take_append_drop count (signers.signers.1.zip signatures'.1), List.map_append]
  exact wins_append hthreshold (suffices_ballots.mpr hsufficient)

/-- Signatures are accepted exactly when those up to some position are valid and reach the
threshold. -/
theorem exactAcceptance (hthreshold : 0 < signers.threshold.1) :
    ExactAcceptance crypto messageHash signers signatures where
  accepted_iff := by
    rw [validateSignatures_eq_ok_iff]
    apply and_congr_right
    intro _
    apply and_congr_right
    intro hlength
    constructor
    · intro hwins
      obtain ⟨count, hcount, hsuffices⟩ := exists_suffices hwins
      rw [List.length_map, List.length_zip, hlength, min_self] at hcount
      rw [← List.map_take, zip_take] at hsuffices
      exact ⟨count, hcount, suffices_ballots.mp hsuffices⟩
    · rintro ⟨count, _, hsufficient⟩
      exact wins_of_sufficient hthreshold rfl hsufficient
  all_valid := by
    intro hnonempty hlength hvalid
    rw [validateSignatures_eq_ok_iff, and_iff_right hnonempty, and_iff_right hlength,
      wins_iff_total hthreshold (void_not_mem_ballots.mpr hvalid), total_ballots hvalid, zero_add]
  signed := by
    intro signatures' position signer signature habsent hsigner hverify hset h
    obtain ⟨hnonempty, hlength, hwins⟩ := validateSignatures_eq_ok_iff.mp h
    have hlast : signatures'.1 ≠ [] := by
      rw [hset, ← List.length_pos_iff, List.length_set]
      exact List.length_pos_iff.mpr hnonempty
    have hempty : ((signers.signers.1.zip signatures.1).map
        (Seat.ballot crypto messageHash))[position]? = some .absent := by
      have hseat : (signers.signers.1.zip signatures.1)[position]? = some (signer, none) :=
        List.getElem?_zip_eq_some.mpr ⟨hsigner, habsent⟩
      rw [List.getElem?_map, hseat]
      rfl
    have hcounted : Seat.ballot crypto messageHash (signer, some signature) =
        .counted signer.weight.1 := by
      simp [Seat.ballot, hverify]
    rw [validateSignatures_eq_ok_iff, hset, List.length_set]
    refine ⟨hset ▸ hlast, hlength, ?_⟩
    rw [zip_set hsigner, List.map_set, hcounted]
    exact wins_set_counted hempty hwins
  rest_ignored := by
    intro signatures' count hlength hnonempty hsame hsufficient
    rw [validateSignatures_eq_ok_iff]
    exact ⟨hnonempty, hlength, wins_of_sufficient hthreshold hsame hsufficient⟩

end Acceptance

/-- The first and the last of three signers reach the threshold without the second one. -/
theorem sample_exactAcceptance :
    validateSignatures sampleThreeCrypto sampleRetainedHash sampleRetained.signers
      sampleRetained.signatures = .ok () := by
  have hexact : ExactAcceptance sampleThreeCrypto sampleRetainedHash sampleRetained.signers
      sampleRetained.signatures := exactAcceptance (by decide)
  apply hexact.accepted_iff.mpr
  refine ⟨by decide, by decide, 3, by decide, ?_, by decide⟩
  have hvalid : ∀ seat ∈ sampleRetained.signers.signers.1.zip sampleRetained.signatures.1,
      ∀ signature ∈ seat.2, sampleThreeCrypto.verifyEd25519 seat.1.signer.1
        sampleRetainedHash.1 signature.1 = true := by
    decide +kernel
  exact hvalid

end AxelarCgp.Gateway
