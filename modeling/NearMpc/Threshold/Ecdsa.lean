import NearMpc.Threshold.Participants

/-!
# The ECDSA schemes

Both ECDSA schemes of the `threshold-signatures` crate, as far as a node sees them: the
constructors of the presigning and signing protocols with their checks, the rerandomisation of a
presignature, and the signature share. Follows `ecdsa/mod.rs`, `ecdsa/ot_based_ecdsa` and
`ecdsa/robust_ecdsa`.

A constructor returns a record of what the protocol was constructed with. The constructors return
errors and never panic (`OtBasedEcdsa.sign_ne_panicked` and its siblings).
-/

set_option autoImplicit false

namespace NearMpc.Threshold

open Library Library.Outcome

structure KeygenOutput (F G : Type) where
  privateShare : F
  publicKey : G
deriving DecidableEq, Repr

structure RerandomizationArguments (F G : Type) where
  pk : G
  tweak : F
  msgHash : List UInt8
  bigR : G
  participants : ParticipantList
  entropy : List UInt8
deriving DecidableEq

/-- What the protocols use of the curve and of the hash functions. -/
structure Curve (F G : Type) where
  generator : G
  xCoordinate : G → F
  /-- The scalar with these big-endian bytes, if they are below the group order. -/
  fromRepr : List UInt8 → Option F
  deriveRandomness : RerandomizationArguments F G → Option F

variable {F G : Type} [Field F] [DecidableEq F] [AddCommGroup G]
  [Module F G] [DecidableEq G]

/-- The public key that belongs to a tweak. -/
def deriveVerifyingKey (curve : Curve F G) (tweak : F) (publicKey : G) : G :=
  publicKey + tweak • curve.generator

/-- The Lagrange coefficient of a participant at zero. -/
def ParticipantList.lagrange (list : ParticipantList) (participant : Participant) :
    Outcome ProtocolError F := do
  let points : List F := list.participants.map Participant.scalar
  let point : F := Participant.scalar participant
  require (2 ≤ points.length) .invalidInterpolationArguments
  require (point ∈ points) .invalidInterpolationArguments
  let others := points.filter (· ≠ point)
  return others.prod * ((others.map (· - point)).prod)⁻¹

variable (curve : Curve F G) (bigR : G) (args : RerandomizationArguments F G)

/-- The random factor of a rerandomisation and its inverse. -/
def rerandomizationFactor : Outcome ProtocolError (F × F) := do
  require (bigR = args.bigR) .incompatibleRerandomizationInputs
  let delta ← okOr (curve.deriveRandomness args) .hashingError
  require (delta ≠ 0) .zeroScalar
  return (delta, delta⁻¹)

omit [AddCommGroup G] [Module F G] in
theorem rerandomizationFactor_ne_panicked : rerandomizationFactor curve bigR args ≠ .panicked := by
  simp [rerandomizationFactor, bind_eq_panicked]

/-! ### The scheme based on oblivious transfer -/

namespace OtBasedEcdsa

structure TripleShare (F : Type) where
  a : F
  b : F
  c : F
deriving DecidableEq, Repr

structure TriplePub (G : Type) where
  bigA : G
  bigB : G
  bigC : G
  participants : List Participant
  threshold : ReconstructionLowerBound
deriving DecidableEq, Repr

abbrev TripleGenerationOutput (F G : Type) := TripleShare F × TriplePub G

structure PresignArguments (F G : Type) where
  triple0 : TripleGenerationOutput F G
  triple1 : TripleGenerationOutput F G
  keygenOut : KeygenOutput F G
  threshold : ReconstructionLowerBound

structure PresignOutput (F G : Type) where
  bigR : G
  k : F
  sigma : F
deriving DecidableEq, Repr

structure RerandomizedPresignOutput (F G : Type) where
  bigR : G
  k : F
  sigma : F
deriving DecidableEq, Repr

def rerandomizePresign (curve : Curve F G) (presignature : PresignOutput F G)
    (args : RerandomizationArguments F G) :
    Outcome ProtocolError (RerandomizedPresignOutput F G) := do
  let (delta, invDelta) ← rerandomizationFactor curve presignature.bigR args
  return {
    bigR := delta • presignature.bigR
    k := presignature.k * invDelta
    sigma := (presignature.sigma + args.tweak * presignature.k) * invDelta }

structure PresignProtocol (F G : Type) where
  participants : ParticipantList
  me : Participant
  args : PresignArguments F G

variable (participants : List Participant) (me : Participant) (args : PresignArguments F G)

def presign : Outcome InitializationError (PresignProtocol F G) := do
  requireTwo participants
  require (args.threshold.value ≤ participants.length)
    (.thresholdTooLarge args.threshold.value participants.length)
  require (args.threshold = args.triple0.2.threshold ∧ args.threshold = args.triple1.2.threshold)
    (.badParameters "New threshold must match the threshold of both triples")
  let list ← requireDistinct participants
  requireMember list "self" me
  return { participants := list, me, args }

structure SignProtocol (F G : Type) where
  participants : ParticipantList
  coordinator : Participant
  me : Participant
  publicKey : G
  presignature : RerandomizedPresignOutput F G
  msgHash : F

variable (participants : List Participant) (coordinator : Participant)
  (threshold : ReconstructionLowerBound) (me : Participant) (publicKey : G)
  (presignature : RerandomizedPresignOutput F G) (msgHash : F)

def sign : Outcome InitializationError (SignProtocol F G) := do
  requireTwo participants
  let list ← requireDistinct participants
  requireMember list "self" me
  requireMember list "coordinator" coordinator
  require (threshold.value ≤ list.len)
    (.notEnoughParticipantsForThreshold list.len threshold.value)
  return { participants := list, coordinator, me, publicKey, presignature, msgHash }

/-- The share of the signature that a participant sends to the coordinator. -/
def computeSignatureShare (curve : Curve F G) (protocol : SignProtocol F G) :
    Outcome ProtocolError F := do
  let lambda ← protocol.participants.lagrange protocol.me
  let kI := lambda * protocol.presignature.k
  let sigmaI := lambda * protocol.presignature.sigma
  return protocol.msgHash * kI + curve.xCoordinate protocol.presignature.bigR * sigmaI

omit [Field F] [DecidableEq F] [AddCommGroup G] [Module F G]
  [DecidableEq G] in
theorem presign_ne_panicked : presign participants me args ≠ .panicked := by
  simp [presign, requireTwo, requireDistinct, requireMember, bind_eq_panicked]

omit [Field F] [DecidableEq F] [AddCommGroup G] [Module F G]
  [DecidableEq G] in
theorem sign_ne_panicked :
    sign participants coordinator threshold me publicKey presignature msgHash ≠ .panicked := by
  simp [sign, requireTwo, requireDistinct, requireMember, bind_eq_panicked]

end OtBasedEcdsa

/-! ### The robust scheme -/

namespace RobustEcdsa

structure PresignArguments (F G : Type) where
  keygenOut : KeygenOutput F G
  maxMalicious : MaxMalicious

structure PresignOutput (F G : Type) where
  bigR : G
  c : F
  e : F
  alpha : F
  beta : F
deriving DecidableEq, Repr

structure RerandomizedPresignOutput (F G : Type) where
  bigR : G
  e : F
  alpha : F
  beta : F
deriving DecidableEq, Repr

def rerandomizePresign (curve : Curve F G) (presignature : PresignOutput F G)
    (args : RerandomizationArguments F G) :
    Outcome ProtocolError (RerandomizedPresignOutput F G) := do
  let (delta, invDelta) ← rerandomizationFactor curve presignature.bigR args
  return {
    bigR := delta • presignature.bigR
    alpha := presignature.alpha * invDelta
    beta := (presignature.beta + presignature.c * args.tweak) * invDelta
    e := presignature.e }

/-- The number of participants that a bound on the malicious ones asks for. -/
def robustEcdsaThreshold (maxMalicious : MaxMalicious) (overflow : String) :
    Outcome InitializationError ℕ :=
  okOr ((checkedUsize (maxMalicious.value * 2)).bind fun doubled ↦ checkedUsize (doubled + 1))
    (.badParameters overflow)

structure PresignProtocol (F G : Type) where
  participants : ParticipantList
  me : Participant
  args : PresignArguments F G

variable (participants : List Participant) (me : Participant) (args : PresignArguments F G)

def presign : Outcome InitializationError (PresignProtocol F G) := do
  requireTwo participants
  let list ← requireDistinct participants
  requireMember list "self" me
  require (args.maxMalicious.value ≤ list.len)
    (.badParameters "max_malicious must be less than or equals to participant count")
  let threshold ← robustEcdsaThreshold args.maxMalicious
    "2*max_malicious+1 must be less than usize::MAX"
  require (threshold ≤ list.len)
    (.badParameters "2*max_malicious+1 must be less than or equals to participant count")
  require (list.len = threshold)
    (.badParameters ("the number of participants during presigning must be exactly " ++
      "2*max_malicious+1 to avoid split view attacks"))
  return { participants := list, me, args }

structure SignProtocol (F G : Type) where
  participants : ParticipantList
  coordinator : Participant
  me : Participant
  publicKey : G
  presignature : RerandomizedPresignOutput F G
  msgHash : F

variable (participants : List Participant) (coordinator : Participant) (maxMalicious : MaxMalicious)
  (me : Participant) (publicKey : G) (presignature : RerandomizedPresignOutput F G)
  (msgHash : F)

def sign : Outcome InitializationError (SignProtocol F G) := do
  requireTwo participants
  let list ← requireDistinct participants
  requireMember list "self" me
  requireMember list "coordinator" coordinator
  let threshold ← robustEcdsaThreshold maxMalicious "2*threshold+1 must be less than usize::MAX"
  require (threshold ≤ list.len)
    (.badParameters "2*max_malicious+1 must be less than or equals to participant count")
  require (list.len = threshold)
    (.badParameters ("the number of participants during signing must be exactly " ++
      "2*max_malicious+1 to avoid split view attacks"))
  require (msgHash ≠ 0)
    (.badParameters "msg_hash cannot be 0 to avoid potential split view attacks")
  return { participants := list, coordinator, me, publicKey, presignature, msgHash }

/-- The share of the signature that a participant sends to the coordinator. -/
def computeSignatureShare (curve : Curve F G) (protocol : SignProtocol F G) :
    Outcome ProtocolError F := do
  let presignature := protocol.presignature
  let beta := presignature.beta * curve.xCoordinate presignature.bigR + presignature.e
  let share := protocol.msgHash * presignature.alpha + beta
  return share * (← protocol.participants.lagrange protocol.me)

omit [Field F] [DecidableEq F] [AddCommGroup G] [Module F G]
  [DecidableEq G] in
theorem presign_ne_panicked : presign participants me args ≠ .panicked := by
  simp [presign, requireTwo, requireDistinct, requireMember, robustEcdsaThreshold, bind_eq_panicked]

omit [AddCommGroup G] [Module F G] [DecidableEq G] in
theorem sign_ne_panicked :
    sign participants coordinator maxMalicious me publicKey presignature msgHash ≠ .panicked := by
  simp [sign, requireTwo, requireDistinct, requireMember, robustEcdsaThreshold, bind_eq_panicked]

end RobustEcdsa

end NearMpc.Threshold
