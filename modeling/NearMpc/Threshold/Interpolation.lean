import NearMpc.Library.SecretSharing
import NearMpc.Threshold.Ecdsa
import NearMpc.Threshold.Polynomials

/-!
# Lagrange coefficients of participants

When a participant has a Lagrange coefficient relative to a list. Follows
`compute_lagrange_coefficient` of `crypto/polynomials.rs`.

The scalars of participants are distinct when no positive number up to `2 ^ 32` is zero in the field
(`LargeField`), which holds in the scalar fields of all curves in use. Then every member of a list
of at least two has its coefficient (`lagrange_eq_ok`), and the shares of the members weighted by
their coefficients add up to the secret (`sum_weight_mul_share`).
-/

set_option autoImplicit false

namespace NearMpc.Threshold

open Library Library.Outcome

variable {F : Type} [Field F]

/-! ### Scalars of participants -/

/-- The positive numbers up to `2 ^ 32` are not zero. -/
def LargeField (F : Type) [Field F] : Prop :=
  ∀ number : ℕ, 0 < number → number ≤ 2 ^ 32 → (number : F) ≠ 0

theorem LargeField.scalar_ne_zero (hlarge : LargeField F) (participant : Participant) :
    (participant.scalar : F) ≠ 0 := by
  have hlt := participant.toNat_lt
  exact hlarge _ (Nat.succ_pos _) (by omega)

theorem LargeField.scalar_injective (hlarge : LargeField F) :
    Function.Injective (Participant.scalar : Participant → F) := by
  have hlt : ∀ first second : Participant, first.toNat < second.toNat →
      (first.scalar : F) ≠ second.scalar := by
    intro first second _ hsame
    have hbound := second.toNat_lt
    have hsum : second.toNat + 1 = first.toNat + 1 + (second.toNat - first.toNat) := by omega
    have hcast : (second.scalar : F) =
        first.scalar + ((second.toNat - first.toNat : ℕ) : F) := by
      rw [Participant.scalar, Participant.scalar, ← Nat.cast_add, ← hsum]
    rw [← hsame, left_eq_add] at hcast
    exact hlarge _ (by omega) (by omega) hcast
  intro first second hsame
  by_contra hne
  have hnat : first.toNat ≠ second.toNat := fun heq ↦ hne (UInt32.toNat_inj.mp heq)
  rcases Nat.lt_or_gt_of_ne hnat with hless | hless
  · exact hlt first second hless hsame
  · exact hlt second first hless hsame.symm

theorem largeField_rat : LargeField ℚ := fun _ hpositive _ ↦ Nat.cast_ne_zero.mpr hpositive.ne'

/-! ### The coefficient -/

namespace ParticipantList

/-- The participants of a list other than a given one. -/
theorem erase_members (list : ParticipantList) (participant : Participant) :
    list.members.erase participant =
      (list.participants.filter fun other ↦ other ≠ participant).toFinset := by
  ext other
  simp [members, and_comm]

variable {list : ParticipantList} {participant : Participant}

/-- The coefficient of a member of a list of at least two. -/
theorem lagrange_eq_ok [DecidableEq F] (hlarge : LargeField F) (hlen : 2 ≤ list.len)
    (hcontains : list.contains participant = true) :
    (list.lagrange participant : Outcome ProtocolError F) =
      .ok (∏ other ∈ list.members.erase participant,
        (other.scalar : F) / (other.scalar - participant.scalar)) := by
  have hinjective := hlarge.scalar_injective
  have hothers : (list.participants.map fun other ↦ (other.scalar : F)).filter
      (· ≠ participant.scalar) =
        (list.participants.filter fun other ↦ other ≠ participant).map
          fun other ↦ other.scalar := by
    rw [List.filter_map]
    congr 1
    refine List.filter_congr fun other _ ↦ ?_
    simp [hinjective.eq_iff]
  have hnodup : (list.participants.filter fun other ↦ other ≠ participant).Nodup :=
    list.nodup.filter _
  have hmem : (participant.scalar : F) ∈ list.participants.map Participant.scalar :=
    List.mem_map_of_mem (List.contains_iff_mem.mp hcontains)
  have hlength :
      2 ≤ (list.participants.map (Participant.scalar : Participant → F)).length := by
    rw [List.length_map]
    exact hlen
  unfold lagrange
  simp only [require_pos hlength, require_pos hmem, ok_bind, hothers, List.map_map]
  rw [Finset.prod_div_distrib, erase_members, List.prod_toFinset _ hnodup,
    List.prod_toFinset _ hnodup, div_eq_mul_inv]
  rfl

/-- The Lagrange coefficient of a participant, where it has one. -/
def weight (list : ParticipantList) (participant : Participant) : F :=
  lagrangeAtZero list.members Participant.scalar participant

theorem lagrange_eq_weight [DecidableEq F] (hlarge : LargeField F) (hlen : 2 ≤ list.len)
    (hcontains : list.contains participant = true) :
    (list.lagrange participant : Outcome ProtocolError F) = .ok (list.weight participant) :=
  lagrange_eq_ok hlarge hlen hcontains

theorem weight_ne_zero (hlarge : LargeField F) (hcontains : list.contains participant = true) :
    (list.weight participant : F) ≠ 0 :=
  lagrangeAtZero_ne_zero hlarge.scalar_injective.injOn (fun node _ ↦ hlarge.scalar_ne_zero node)
    (mem_members.mpr hcontains)

/-- The weighted shares of enough participants add up to the secret. -/
theorem sum_weight_mul_share (hlarge : LargeField F) {threshold} (sharing : Sharing F threshold)
    (hthreshold : threshold ≤ list.len) :
    ∑ participant ∈ list.members, list.weight participant * sharing.share participant.scalar =
      sharing.secret := by
  rw [← card_members] at hthreshold
  exact sharing.sum_lagrangeAtZero_mul_share hlarge.scalar_injective.injOn hthreshold

end ParticipantList

end NearMpc.Threshold
