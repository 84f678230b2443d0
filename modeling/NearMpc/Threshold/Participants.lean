import NearMpc.Library.Outcome

/-!
# Participants of a protocol

The participant lists that every protocol of the `threshold-signatures` crate starts from, and the
errors of its constructors. Follows `participants.rs`, `thresholds.rs` and `errors.rs`.

A `ParticipantList` is sorted and free of duplicates. `new_eq_none_iff` says when there is none for
a given list, and `new_eq_of_perm` that the order of the given list does not matter.
-/

set_option autoImplicit false

namespace NearMpc.Threshold

open Library Library.Outcome

abbrev Participant := UInt32

/-- One more than the largest `usize`. -/
@[irreducible] def usizeLimit : ℕ := 2 ^ 64

/-- The value, unless it overflows a `usize`. -/
def checkedUsize (value : ℕ) : Option ℕ := if value < usizeLimit then some value else none

theorem checkedUsize_of_lt {value} (hlimit : value < usizeLimit) :
    checkedUsize value = some value := if_pos hlimit

structure MaxMalicious where
  value : ℕ
deriving DecidableEq, Repr

structure ReconstructionLowerBound where
  value : ℕ
deriving DecidableEq, Repr

/-- An error of the constructor of a protocol. -/
inductive InitializationError where
  | badParameters (text : String)
  | duplicateParticipants
  | missingParticipant (role : String) (participant : Participant)
  | notEnoughParticipants (participants : ℕ)
  | notEnoughParticipantsForThreshold (participants threshold : ℕ)
  | thresholdTooSmall (threshold min : ℕ)
  | thresholdTooLarge (threshold max : ℕ)
deriving DecidableEq, Repr

namespace InitializationError

/-- The text of an error. -/
def display : InitializationError → String
  | badParameters text => "bad parameters: " ++ text
  | duplicateParticipants => "participant list cannot contain duplicates"
  | missingParticipant role participant =>
      "participant list must contain " ++ role ++ ": Participant(" ++ toString participant ++ ")"
  | notEnoughParticipants participants =>
      "Participant count cannot be < 2, found: " ++ toString participants
  | notEnoughParticipantsForThreshold participants threshold =>
      "Participant count cannot be < " ++ toString threshold ++ ", found: " ++
        toString participants
  | thresholdTooSmall threshold min =>
      "threshold " ++ toString threshold ++ " is too small, it must be at least " ++ toString min
  | thresholdTooLarge threshold max =>
      "threshold " ++ toString threshold ++ " is too large, it must be at most " ++ toString max

end InitializationError

/-- A participant as it is printed. -/
def Participant.debug (participant : Participant) : String :=
  "Participant(" ++ toString participant ++ ")"

/-- An error of a running protocol or of the preparation of its inputs. -/
inductive ProtocolError where
  | assertionFailed (text : String)
  | dkgNotSupported
  | emptyOrZeroCoefficients
  | errorExtractVerificationKey
  | errorEncoding
  | hashingError
  | identityElement
  | incompatibleRerandomizationInputs
  | incorrectNumberOfCommitments
  | integerOverflow
  | invalidCommitmentHash
  | invalidIndex
  | invalidInput (text : String)
  | invalidInterpolationArguments
  | invalidProofOfKnowledge (participant : Participant)
  | invalidSecretShare (participant : Participant)
  | maliciousParticipant (participant : Participant)
  | pointSerialization
  | unreachable
  | zeroScalar
  | other (text : String)
deriving DecidableEq, Repr

namespace ProtocolError

/-- The text of an error. -/
def display : ProtocolError → String
  | assertionFailed text => "assertion failed " ++ text
  | dkgNotSupported => "the ciphersuite does not support DKG"
  | emptyOrZeroCoefficients => "found empty polynomials or zero polynomial"
  | errorExtractVerificationKey => "could not extract the verification key from the commitment"
  | errorEncoding => "panicked while encoding an input."
  | hashingError => "hashing operation failed"
  | identityElement => "encountered the identity element (identity point)"
  | incompatibleRerandomizationInputs =>
      "cannot rerandomize presignature with incompatible inputs"
  | incorrectNumberOfCommitments => "incorrect number of commitments"
  | integerOverflow => "integer overflow"
  | invalidCommitmentHash => "the sent commitment_hash does not equal the hash of the commitment"
  | invalidIndex => "The index you are looking for is invalid"
  | invalidInput text => text
  | invalidInterpolationArguments => "invalid arguments for polynomial interpolation"
  | invalidProofOfKnowledge participant =>
      "the proof of knowledge of participant " ++ participant.debug ++ " is not valid"
  | invalidSecretShare participant =>
      "participant " ++ participant.debug ++ " sent an invalid secret share"
  | maliciousParticipant participant => "detected a malicious participant " ++ participant.debug
  | pointSerialization => "the group element could not be serialized"
  | unreachable => "this should never happen, please report upstream"
  | zeroScalar => "encountered a zero scalar"
  | other text => text

end ProtocolError

/-- `checked_sub` -/
def checkedSub (value other : ℕ) : Except ProtocolError ℕ :=
  if other ≤ value then .ok (value - other) else .error .integerOverflow

/-- The scalar of a participant: one more than its id. -/
def Participant.scalar {F : Type} [NatCast F] (participant : Participant) : F :=
  ((participant.toNat + 1 : ℕ) : F)

/-- A sorted list of distinct participants. -/
structure ParticipantList where
  participants : List Participant
  sorted : participants.Pairwise (· < ·)

namespace ParticipantList

instance : DecidableEq ParticipantList := fun first second ↦
  decidable_of_iff (first.participants = second.participants) <| by
    cases first
    cases second
    simp

/-- The given participants in order; `none` if there are duplicates. -/
def new (participants : List Participant) : Option ParticipantList :=
  if hnodup : (participants.insertionSort (· ≤ ·)).Nodup then
    some
      { participants := participants.insertionSort (· ≤ ·)
        sorted := by
          have hordered := List.pairwise_insertionSort (· ≤ ·) participants
          exact (hordered.and hnodup).imp fun hpair ↦ UInt32.lt_of_le_of_ne hpair.1 hpair.2 }
  else none

variable (list : ParticipantList)

def len : ℕ := list.participants.length

variable (participant : Participant)

def contains : Bool :=
  list.participants.contains participant

/-- The participants other than `me`. -/
def others (me : Participant) : List Participant :=
  list.participants.filter (· != me)

theorem nodup : list.participants.Nodup :=
  list.sorted.imp fun hlt ↦ UInt32.ne_of_lt hlt

/-- The place of a participant in the sorted list. -/
def index : Outcome ProtocolError ℕ :=
  okOr (list.participants.idxOf? participant) .invalidIndex

def getParticipant (index : ℕ) : Option Participant :=
  list.participants[index]?

variable {list : ParticipantList} {participant : Participant} {place : ℕ}

theorem index_eq_ok :
    list.index participant = .ok place ↔ list.getParticipant place = some participant := by
  rw [index, okOr_eq_ok, List.idxOf?_eq_some_iff, getParticipant, List.getElem?_eq_some_iff]
  constructor
  · rintro ⟨hlt, heq, -⟩
    exact ⟨hlt, heq⟩
  · rintro ⟨hlt, heq⟩
    refine ⟨hlt, heq, fun earlier hearlier hsame ↦ ?_⟩
    have hplace := list.nodup.getElem_inj_iff.mp (hsame.trans heq.symm)
    omega

theorem index_of_not_contains (hunknown : list.contains participant = false) :
    list.index participant = .err .invalidIndex := by
  have hnotMem : participant ∉ list.participants := by
    simpa [contains] using hunknown
  rw [index, List.idxOf?_eq_none_iff.mpr hnotMem]
  rfl

theorem exists_getParticipant :
    list.contains participant = true ↔ ∃ place, list.getParticipant place = some participant := by
  rw [contains, List.contains_iff_mem, List.mem_iff_getElem?]
  rfl

theorem getParticipant_of_lt (hplace : place < list.len) :
    ∃ participant, list.getParticipant place = some participant :=
  ⟨_, List.getElem?_eq_getElem hplace⟩

theorem lt_len_of_getParticipant (hplace : list.getParticipant place = some participant) :
    place < list.len :=
  (List.getElem?_eq_some_iff.mp hplace).1

theorem getParticipant_inj {first second} (hfirst : list.getParticipant first = some participant)
    (hsecond : list.getParticipant second = some participant) : first = second := by
  rw [← index_eq_ok] at hfirst hsecond
  exact ok.inj (hfirst.symm.trans hsecond)

/-- The participants as a set. -/
def members (list : ParticipantList) : Finset Participant := list.participants.toFinset

theorem mem_members : participant ∈ list.members ↔ list.contains participant = true := by
  rw [members, List.mem_toFinset, contains, List.contains_iff_mem]

theorem card_members (list : ParticipantList) : list.members.card = list.len :=
  List.toFinset_card_of_nodup list.nodup

variable {participants : List Participant}

theorem new_eq_none_iff : new participants = none ↔ ¬ participants.Nodup := by
  have hperm := (List.perm_insertionSort (· ≤ ·) participants).nodup_iff
  simp [new, hperm]

section

variable (hnew : new participants = some list)
include hnew

theorem perm_of_new : list.participants.Perm participants := by
  unfold new at hnew
  split at hnew
  · cases hnew
    exact List.perm_insertionSort (· ≤ ·) participants
  · cases hnew

theorem contains_of_new (participant : Participant) :
    list.contains participant = true ↔ participant ∈ participants := by
  rw [contains, List.contains_iff_mem]
  exact (perm_of_new hnew).mem_iff

theorem len_of_new : list.len = participants.length :=
  (perm_of_new hnew).length_eq

end

/-- The order of the given participants does not matter. -/
theorem new_eq_of_perm {first second} (hperm : first.Perm second) : new first = new second := by
  have hsorted : first.insertionSort (· ≤ ·) = second.insertionSort (· ≤ ·) := by
    refine List.Perm.eq_of_pairwise' (List.pairwise_insertionSort _ _)
      (List.pairwise_insertionSort _ _) ?_
    exact ((List.perm_insertionSort _ _).trans hperm).trans (List.perm_insertionSort _ _).symm
  unfold new
  simp only [hsorted]

end ParticipantList

/-! ### Checks shared by the constructors -/

section Checks

variable (participants : List Participant)

/-- At least two participants. -/
def requireTwo : Outcome InitializationError Unit :=
  require (2 ≤ participants.length) (.notEnoughParticipants participants.length)

/-- No participant twice. -/
def requireDistinct : Outcome InitializationError ParticipantList :=
  okOr (ParticipantList.new participants) .duplicateParticipants

/-- The participant is in the list. -/
def requireMember (list : ParticipantList) (role : String) (participant : Participant) :
    Outcome InitializationError Unit :=
  require (list.contains participant = true) (.missingParticipant role participant)

end Checks

end NearMpc.Threshold
