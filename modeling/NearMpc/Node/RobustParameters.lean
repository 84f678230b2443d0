import NearMpc.Node.Providers

/-!
# Parameters of the robust scheme

The node derives the number of signers and the bound on malicious signers of a robust ECDSA domain
from the threshold of the contract. The library wants exactly one signer more than twice the bound.
The node halves, the library doubles: the two agree for odd thresholds.
-/

set_option autoImplicit false

namespace NearMpc.Node

open Library Library.Outcome NearMpc.Threshold RobustEcdsa ParticipantList

theorem getNumberOfSigners_eq_ok {threshold numberOfParticipants signers}
    (hok : getNumberOfSigners threshold numberOfParticipants = .ok signers) :
    signers = threshold := by
  simp only [getNumberOfSigners, bind_eq_ok, pure_eq, ok.injEq] at hok
  obtain ⟨-, -, hsigners⟩ := hok
  exact hsigners.symm

theorem translateThreshold_eq_ok {threshold numberOfParticipants maxMalicious}
    (hok : translateThreshold threshold numberOfParticipants = .ok maxMalicious) :
    5 ≤ threshold ∧ maxMalicious.value = (threshold - 1) / 2 := by
  simp only [translateThreshold, bind_eq_ok, pure_eq, ok.injEq, require_eq_ok] at hok
  obtain ⟨_, hsigners, -, hfive, rfl⟩ := hok
  rw [getNumberOfSigners_eq_ok hsigners] at hfive ⊢
  exact ⟨hfive, rfl⟩

/-- The node's halving and the library's doubling agree for odd thresholds. -/
theorem two_mul_half_add_one_eq_iff {threshold} (hpos : 1 ≤ threshold) :
    threshold = (threshold - 1) / 2 * 2 + 1 ↔ Odd threshold := by
  rw [Nat.odd_iff]
  omega

section

variable {F G : Type} {participants : List Participant} {list : ParticipantList}
  {me coordinator : Participant} {maxMalicious : MaxMalicious}

/-- The library's bound, where the doubling does not overflow. -/
theorem robustEcdsaThreshold_eq {overflow} (hlimit : maxMalicious.value * 2 + 1 < usizeLimit) :
    robustEcdsaThreshold maxMalicious overflow = .ok (maxMalicious.value * 2 + 1) := by
  have hdoubled : maxMalicious.value * 2 < usizeLimit := Nat.lt_of_succ_lt hlimit
  rw [robustEcdsaThreshold, checkedUsize_of_lt hdoubled, Option.bind_some,
    checkedUsize_of_lt hlimit, okOr]

/-- With one requirement left, a constructor accepts exactly if it is met. -/
theorem exists_ok_of_require {Failure Value : Type} {condition : Prop} [Decidable condition]
    {failure value} :
    (∃ result, (do require condition failure; return value : Outcome Failure Value) = .ok result) ↔
      condition := by
  by_cases hcond : condition
  · simp [require, hcond]
  · simp [require, hcond]

section Accepted

variable (hnew : new participants = some list) (hme : me ∈ participants)
  (htwo : 2 ≤ participants.length) (hlimit : maxMalicious.value * 2 + 1 < usizeLimit)
  (hbound : maxMalicious.value * 2 + 1 ≤ participants.length)

include hnew hme htwo hlimit hbound

/-- Presigning is accepted exactly for one participant more than twice the bound. -/
theorem presign_accepts_iff (keygenOut : KeygenOutput F G) :
    (∃ protocol, presign participants me { keygenOut, maxMalicious } =
      .ok protocol) ↔ participants.length = maxMalicious.value * 2 + 1 := by
  have hmember := (contains_of_new hnew me).mpr hme
  have hmax : maxMalicious.value ≤ participants.length := by omega
  rw [← len_of_new hnew] at hmax hbound ⊢
  simp only [presign, requireTwo, requireDistinct, requireMember, hnew, okOr,
    require_pos htwo, require_pos hmember, require_pos hmax, require_pos hbound,
    robustEcdsaThreshold_eq hlimit, ok_bind, exists_ok_of_require]

/-- Signing a hash other than zero is accepted exactly for one participant more than twice the
bound. -/
theorem sign_accepts_iff [Field F] [DecidableEq F] (hcoordinator : coordinator ∈ participants)
    (publicKey : G) (presignature : RobustEcdsa.RerandomizedPresignOutput F G) {msgHash}
    (hhash : msgHash ≠ 0) :
    (∃ protocol, sign participants coordinator maxMalicious me publicKey presignature
      msgHash = .ok protocol) ↔ participants.length = maxMalicious.value * 2 + 1 := by
  have hmember := (contains_of_new hnew me).mpr hme
  have hcontains := (contains_of_new hnew coordinator).mpr hcoordinator
  rw [← len_of_new hnew] at hbound ⊢
  simp only [sign, requireTwo, requireDistinct, requireMember, hnew, okOr,
    require_pos htwo, require_pos hmember, require_pos hcontains, require_pos hbound,
    robustEcdsaThreshold_eq hlimit, require_pos hhash, ok_bind, exists_ok_of_require]

end Accepted

/-- Distinct participants are fewer than a `usize` can count. -/
theorem length_lt_usizeLimit (hnodup : participants.Nodup) : participants.length < usizeLimit := by
  have hsubset : (participants.map UInt32.toNat).toFinset ⊆ Finset.range (2 ^ 32) := by
    intro _ hid
    rw [List.mem_toFinset, List.mem_map] at hid
    obtain ⟨participant, -, rfl⟩ := hid
    exact Finset.mem_range.mpr participant.toNat_lt
  have hcard := Finset.card_le_card hsubset
  have hmapped : (participants.map UInt32.toNat).Nodup :=
    hnodup.map fun _ _ heq ↦ UInt32.toNat_inj.mp heq
  rw [List.toFinset_card_of_nodup hmapped, List.length_map, Finset.card_range] at hcard
  rw [usizeLimit]
  omega

end

/-- The parameters that the node derives are accepted by the library exactly for odd thresholds. -/
theorem robust_parameters_accepted_iff {F G : Type} [Field F] [DecidableEq F]
    {threshold numberOfParticipants signers : ℕ} {maxMalicious : MaxMalicious}
    (hsigners : getNumberOfSigners threshold numberOfParticipants = .ok signers)
    (hmax : translateThreshold threshold numberOfParticipants = .ok maxMalicious)
    {participants : List Participant} (hnodup : participants.Nodup)
    (hlength : participants.length = signers) {me coordinator : Participant}
    (hme : me ∈ participants) (hcoordinator : coordinator ∈ participants)
    (keygenOut : KeygenOutput F G) (publicKey : G)
    (presignature : RobustEcdsa.RerandomizedPresignOutput F G) {msgHash : F}
    (hhash : msgHash ≠ 0) :
    ((∃ protocol, presign participants me { keygenOut, maxMalicious } =
        .ok protocol) ∧
      ∃ protocol, sign participants coordinator maxMalicious me publicKey presignature
        msgHash = .ok protocol) ↔ Odd threshold := by
  obtain ⟨hfive, hvalue⟩ := translateThreshold_eq_ok hmax
  rw [getNumberOfSigners_eq_ok hsigners] at hlength
  obtain ⟨list, hnew⟩ : ∃ list, new participants = some list := by
    rw [← Option.ne_none_iff_exists', Ne, new_eq_none_iff, not_not]
    exact hnodup
  have hlimit := length_lt_usizeLimit hnodup
  have hbound : maxMalicious.value * 2 + 1 ≤ participants.length := by
    rw [hvalue, hlength]
    omega
  have htwo : 2 ≤ participants.length := by omega
  rw [presign_accepts_iff hnew hme htwo (hbound.trans_lt hlimit) hbound,
    sign_accepts_iff hnew hme htwo (hbound.trans_lt hlimit) hbound hcoordinator publicKey
      presignature hhash, and_self, hlength, hvalue]
  exact two_mul_half_add_one_eq_iff (by omega)

theorem robust_parameters_accepted_iff_witness :
    ((∃ protocol, presign [1, 2, 3, 4, 5] 1
        { keygenOut := { privateShare := (1 : ZMod 3), publicKey := () },
          maxMalicious := { value := 2 } } = .ok protocol) ∧
      ∃ protocol, sign [1, 2, 3, 4, 5] 2 { value := 2 } 1 ()
        { bigR := (), e := (1 : ZMod 3), alpha := 1, beta := 1 } 1 = .ok protocol) ↔ Odd 5 :=
  robust_parameters_accepted_iff (show getNumberOfSigners 5 7 = .ok 5 by decide)
    (show translateThreshold 5 7 = .ok { value := 2 } by decide) (by decide) rfl (by decide)
    (by decide) _ _ _ (by decide)

/-- Six signers tolerate two malicious ones by the node's reckoning, and the library asks for
five. -/
theorem six_signers_rejected :
    getNumberOfSigners 6 6 = .ok 6 ∧ translateThreshold 6 6 = .ok { value := 2 } ∧
      (¬ ∃ protocol, presign [1, 2, 3, 4, 5, 6] 1
        { keygenOut := { privateShare := (1 : ZMod 3), publicKey := () },
          maxMalicious := { value := 2 } } = .ok protocol) ∧
      ¬ ∃ protocol, sign [1, 2, 3, 4, 5, 6] 2 { value := 2 } 1 ()
        { bigR := (), e := (1 : ZMod 3), alpha := 1, beta := 1 } 1 = .ok protocol := by
  obtain ⟨list, hnew⟩ : ∃ list, new [1, 2, 3, 4, 5, 6] = some list :=
    ⟨{ participants := [1, 2, 3, 4, 5, 6], sorted := by decide }, by decide⟩
  have hlimit : 2 * 2 + 1 < usizeLimit := by
    rw [usizeLimit]
    norm_num
  refine ⟨by decide, by decide, ?_, ?_⟩
  · rw [presign_accepts_iff hnew (by decide) (by decide) hlimit (by decide)]
    decide
  · rw [sign_accepts_iff hnew (by decide) (by decide) hlimit (by decide) (by decide) () _
      (by decide)]
    decide

end NearMpc.Node
