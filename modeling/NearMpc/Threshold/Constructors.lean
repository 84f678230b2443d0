import NearMpc.Threshold.Ecdsa

/-!
# The other protocols

The constructors of triple generation, of EdDSA signing and of confidential key derivation, with
their checks. Follows `ecdsa/ot_based_ecdsa/triples/generation.rs`, `frost/mod.rs`,
`frost/eddsa/sign.rs` and `confidential_key_derivation`.
-/

set_option autoImplicit false

namespace NearMpc.Threshold

open Library Library.Outcome

/-! ### Triple generation -/

namespace OtBasedEcdsa

def validateTripleInputs (participants : List Participant) (threshold : ReconstructionLowerBound) :
    Outcome InitializationError (ParticipantList × ReconstructionLowerBound) := do
  requireTwo participants
  require (threshold.value ≤ participants.length)
    (.thresholdTooLarge threshold.value participants.length)
  require (2 ≤ threshold.value) (.thresholdTooSmall threshold.value 2)
  let list ← requireDistinct participants
  return (list, threshold)

/-- The size of the buffer for incoming messages. -/
def tripleGenerationMaxIncomingBufferEntries (numParticipants numTriples : ℕ) :
    Outcome InitializationError ℕ := do
  require (1 ≤ numParticipants) (.badParameters "num_participants must be > 0")
  let peers := numParticipants - 1
  let entries := (checkedUsize (131 * numTriples)).bind fun perPeer ↦
    (checkedUsize (perPeer * peers)).bind fun total ↦ checkedUsize (total + 7)
  okOr entries (.badParameters "buffer size overflow")

structure TripleProtocol where
  participants : ParticipantList
  me : Participant
  threshold : ReconstructionLowerBound

variable (numTriples : ℕ) (participants : List Participant) (me : Participant)
  (threshold : ReconstructionLowerBound)

/-- `numTriples` is the const parameter `N`. -/
def generateTripleMany : Outcome InitializationError TripleProtocol := do
  let (list, threshold) ← validateTripleInputs participants threshold
  let _ ← tripleGenerationMaxIncomingBufferEntries list.len numTriples
  return { participants := list, me, threshold }

theorem generateTripleMany_ne_panicked :
    generateTripleMany numTriples participants me threshold ≠ .panicked := by
  simp [generateTripleMany, validateTripleInputs, tripleGenerationMaxIncomingBufferEntries,
    requireTwo, requireDistinct, bind_eq_panicked]

end OtBasedEcdsa

/-! ### EdDSA signing -/

namespace Eddsa

variable {Keys : Type} (participants : List Participant) (threshold : ReconstructionLowerBound)
  (me coordinator : Participant)

def assertSignInputs : Outcome InitializationError ParticipantList := do
  requireTwo participants
  let list ← requireDistinct participants
  requireMember list "self" me
  require (threshold.value ≤ list.len) (.thresholdTooLarge threshold.value list.len)
  requireMember list "coordinator" coordinator
  return list

structure SignProtocol (Keys : Type) where
  participants : ParticipantList
  threshold : ReconstructionLowerBound
  me : Participant
  coordinator : Participant
  keygenOutput : Keys
  message : List UInt8

variable (keygenOutput : Keys) (message : List UInt8)

def sign : Outcome InitializationError (SignProtocol Keys) := do
  let list ← assertSignInputs participants threshold me coordinator
  return { participants := list, threshold, me, coordinator, keygenOutput, message }

theorem sign_ne_panicked :
    sign participants threshold me coordinator keygenOutput message ≠ .panicked := by
  simp [sign, assertSignInputs, requireTwo, requireDistinct, requireMember, bind_eq_panicked]

end Eddsa

/-! ### Confidential key derivation -/

namespace Ckd

variable {Keys Element : Type}

/-- The bound on the length of an app id. -/
def maxAppIdLen : ℕ := 10000

/-- An app id is a byte string of bounded length. -/
def tryNewAppId (bytes : List UInt8) : Outcome ProtocolError (List UInt8) := do
  require (bytes.length ≤ maxAppIdLen)
    (.invalidInput ("AppId length (" ++ toString bytes.length ++
      ") exceeds maximum allowed length (" ++ toString maxAppIdLen ++ ")"))
  return bytes

structure CkdProtocol (Keys Element : Type) where
  participants : ParticipantList
  coordinator : Participant
  me : Participant
  keyPair : Keys
  appId : List UInt8
  appPk : Element

variable (participants : List Participant) (coordinator me : Participant) (keyPair : Keys)
  (appId : List UInt8) (appPk : Element)

def ckd : Outcome InitializationError (CkdProtocol Keys Element) := do
  requireTwo participants
  let list ← requireDistinct participants
  requireMember list "self" me
  requireMember list "coordinator" coordinator
  return { participants := list, coordinator, me, keyPair, appId, appPk }

theorem ckd_ne_panicked : ckd participants coordinator me keyPair appId appPk ≠ .panicked := by
  simp [ckd, requireTwo, requireDistinct, requireMember, bind_eq_panicked]

end Ckd

end NearMpc.Threshold
