import NearMpc.Node.Providers

/-!
# Followers

The follower functions of the providers. Each acts on the database and returns the protocol it has
constructed; `setUp` dispatches on the task, and `complete` stores what the protocol produced.
Follows `process_channel` and the follower functions of `providers/`.
-/

set_option autoImplicit false

namespace NearMpc.Node

open Library Library.Outcome NearMpc.Threshold InitializationError

variable {F G EddsaKeys CkdKeys ElementG1 : Type}

/-- The protocol of a follower, with what is needed to store its result, and with the presignature
that a signing protocol has consumed. -/
inductive FollowerProtocol (F G EddsaKeys CkdKeys ElementG1 : Type) where
  | manyTriples (start : UniqueId) (protocol : OtBasedEcdsa.TripleProtocol)
  | presignature (domainId : DomainId) (id : UniqueId)
      (protocol : OtBasedEcdsa.PresignProtocol F G)
  | robustPresignature (domainId : DomainId) (id : UniqueId)
      (protocol : RobustEcdsa.PresignProtocol F G)
  | signature (presignatureId : UniqueId)
      (record : PresignOutputWithParticipants (OtBasedEcdsa.PresignOutput F G))
      (args : RerandomizationArguments F G)
      (protocol : OtBasedEcdsa.SignProtocol F G)
  | robustSignature (presignatureId : UniqueId)
      (record : PresignOutputWithParticipants (RobustEcdsa.PresignOutput F G))
      (args : RerandomizationArguments F G)
      (protocol : RobustEcdsa.SignProtocol F G)
  | eddsaSignature (protocol : Eddsa.SignProtocol EddsaKeys)
  | ckd (protocol : Ckd.CkdProtocol CkdKeys ElementG1)

/-- What the protocols return. -/
structure ProtocolResults (F G : Type) where
  triples : NodeResult (List (OtBasedEcdsa.TripleGenerationOutput F G))
  presignature : NodeResult (OtBasedEcdsa.PresignOutput F G)
  robustPresignature : NodeResult (RobustEcdsa.PresignOutput F G)
  signature : NodeResult Unit

def supportedTripleGenerationBatchSize : ℕ := 64

/-- The effect of a follower on the database of its node. -/
abbrev FollowerEffect (F G : Type) (Result : Type) :=
  Effect (SecretDB (StoredValue F G)) NodeError Result

/-! ### Connections -/

/-- Waits for the connection to every participant in turn. -/
def initializeAllParticipantsConnections (surroundings : Surroundings)
    (channel : NetworkTaskChannel) : List ParticipantId → NodeResult Unit
  | [] => .ok ()
  | participant :: rest =>
      if participant = channel.myParticipantId then
        initializeAllParticipantsConnections surroundings channel rest
      else do
        let _ ← surroundings.transport.connectivity participant
        let version ← unwrap (channel.connectionVersions.lookup participant)
        match surroundings.waitForConnection participant version with
        | some failure => .err failure
        | none => initializeAllParticipantsConnections surroundings channel rest

/-- What `perform_leader_centric_computation` does before the computation. -/
def beforeComputation (surroundings : Surroundings) (channel : NetworkTaskChannel) :
    NodeResult Unit :=
  if channel.isLeader then .ok ()
  else initializeAllParticipantsConnections surroundings channel channel.participants

/-! ### Signing -/

/-- The inputs of a signing computation. -/
structure SignInputs (F G : Type) where
  keygenOut : KeygenOutput F G
  msgHash : List UInt8
  tweak : List UInt8
  entropy : List UInt8

variable [Field F] [DecidableEq F] [AddCommGroup G] [Module F G]
  [DecidableEq G]

/-- What the signing computations of both schemes prepare: the arguments of the rerandomisation,
the hash as a scalar, and the derived public key. -/
def prepareSigning (curve : Curve F G) (inputs : SignInputs F G) (bigR : G)
    (channel : NetworkTaskChannel) :
    NodeResult (RerandomizationArguments F G × F × G) := do
  let tweak ← okOr (curve.fromRepr inputs.tweak) "Couldn't construct k256 point"
  let msgHash ← okOr (curve.fromRepr inputs.msgHash) "Couldn't construct k256 point"
  let derivedPublicKey := deriveVerifyingKey curve tweak inputs.keygenOut.publicKey
  let participants ← unwrap (ParticipantList.new channel.participants)
  return ({
    pk := inputs.keygenOut.publicKey
    tweak
    msgHash := inputs.msgHash
    bigR
    participants
    entropy := inputs.entropy }, msgHash, derivedPublicKey)

variable {args : RerandomizationArguments F G}

omit [DecidableEq F] [DecidableEq G] in
/-- The rerandomisation binds the inputs and the participants of the channel. -/
theorem prepareSigning_eq_ok {curve inputs bigR publicKey channel msgHash}
    (hok : prepareSigning curve inputs bigR channel = .ok (args, msgHash, publicKey)) :
    curve.fromRepr inputs.tweak = some args.tweak ∧
      ParticipantList.new channel.participants = some args.participants ∧
      args.msgHash = inputs.msgHash ∧ args.entropy = inputs.entropy := by
  simp only [prepareSigning, bind_eq_ok, okOr_eq_ok, unwrap_eq_ok, pure_eq, ok.injEq,
    Prod.mk.injEq] at hok
  obtain ⟨_, htweak, -, -, _, hmembers, rfl, -, -⟩ := hok
  exact ⟨htweak, hmembers, rfl, rfl⟩

variable (client : MpcClient F G EddsaKeys CkdKeys ElementG1)
  (surroundings : Surroundings) (channel : NetworkTaskChannel)

namespace EcdsaSignatureProvider

/-- `SignComputation::compute` up to the construction of the protocol. -/
def signComputation (inputs : SignInputs F G)
    (presignOut : OtBasedEcdsa.PresignOutput F G) :
    NodeResult (RerandomizationArguments F G ×
      OtBasedEcdsa.SignProtocol F G) := do
  let (args, msgHash, publicKey) ←
    prepareSigning client.curve inputs presignOut.bigR channel
  let presignature ← mapErr ProtocolError.display
    (OtBasedEcdsa.rerandomizePresign client.curve presignOut args)
  let protocol ← mapErr display
    (OtBasedEcdsa.sign channel.participants channel.leader { value := client.threshold }
      channel.myParticipantId publicKey presignature msgHash)
  return (args, protocol)

def makeSignatureFollowerGivenRequest (presignatureId : UniqueId) (request : SignatureRequest) :
    FollowerEffect F G
      (FollowerProtocol F G EddsaKeys CkdKeys ElementG1) := do
  let keygenOut ← keyshareOf client.ecdsaKeyshares request.domain
  let msgHash ← (okOr request.payload.asEcdsa "Payload is not an ECDSA payload" : NodeResult _)
  beforeComputation surroundings channel
  let record ← (client.presignatureStore request.domain).takeUnowned presignatureId
  let (args, protocol) ← signComputation client channel
    { keygenOut, msgHash, tweak := request.tweak, entropy := request.entropy } record.presignature
  return .signature presignatureId record args protocol

def makeSignatureFollower (id : SignatureId) (presignatureId : UniqueId) :
    FollowerEffect F G
      (FollowerProtocol F G EddsaKeys CkdKeys ElementG1) := do
  let request ← (okOr (surroundings.signRequest id) "deadline has elapsed" : NodeResult _)
  makeSignatureFollowerGivenRequest client surroundings channel presignatureId request

def runTripleGenerationFollower (start : UniqueId) (count : UInt32) :
    FollowerEffect F G
      (FollowerProtocol F G EddsaKeys CkdKeys ElementG1) := do
  (require (count.toNat = supportedTripleGenerationBatchSize)
    "Unsupported batch size for triple generation" : NodeResult _)
  beforeComputation surroundings channel
  (guardPanic (supportedTripleGenerationBatchSize % 2 = 0) : NodeResult _)
  let protocol ← (mapErr display
    (OtBasedEcdsa.generateTripleMany supportedTripleGenerationBatchSize channel.participants
      channel.myParticipantId { value := client.threshold }) : NodeResult _)
  return .manyTriples start protocol

def runPresignatureGenerationFollower (id : UniqueId) (domainId : DomainId)
    (pairedTripleId : UniqueId) :
    FollowerEffect F G
      (FollowerProtocol F G EddsaKeys CkdKeys ElementG1) := do
  let keygenOut ← keyshareOf client.ecdsaKeyshares domainId
  beforeComputation surroundings channel
  let (triple0, triple1) ← client.tripleStore.takeUnowned pairedTripleId
  let protocol ← (mapErr display
    (OtBasedEcdsa.presign channel.participants channel.myParticipantId
      { triple0, triple1, keygenOut, threshold := { value := client.threshold } }) :
    NodeResult _)
  return .presignature domainId id protocol

def processChannel : EcdsaTaskId → FollowerEffect F G
      (FollowerProtocol F G EddsaKeys CkdKeys ElementG1)
  | .keyGeneration _ => .lift (.err "Key generation rejected in normal node operation")
  | .keyResharing _ => .lift (.err "Key resharing rejected in normal node operation")
  | .manyTriples start count => runTripleGenerationFollower client surroundings channel start count
  | .presignature id domainId pairedTripleId =>
      runPresignatureGenerationFollower client surroundings channel id domainId pairedTripleId
  | .signature id presignatureId =>
      makeSignatureFollower client surroundings channel id presignatureId

end EcdsaSignatureProvider

namespace RobustEcdsaSignatureProvider

/-- `SignComputation::compute` up to the construction of the protocol. -/
def signComputation (inputs : SignInputs F G) (maxMalicious : MaxMalicious)
    (presignOut : RobustEcdsa.PresignOutput F G) :
    NodeResult (RerandomizationArguments F G ×
      RobustEcdsa.SignProtocol F G) := do
  let (args, msgHash, publicKey) ←
    prepareSigning client.curve inputs presignOut.bigR channel
  let presignature ← mapErr ProtocolError.display
    (RobustEcdsa.rerandomizePresign client.curve presignOut args)
  let protocol ← mapErr display
    (RobustEcdsa.sign channel.participants channel.leader maxMalicious channel.myParticipantId
      publicKey presignature msgHash)
  return (args, protocol)

variable {client channel} in
theorem signComputation_eq_ok {inputs maxMalicious presignOut protocol}
    (hok : signComputation client channel inputs maxMalicious presignOut = .ok (args, protocol)) :
    client.curve.fromRepr inputs.tweak = some args.tweak ∧
      ParticipantList.new channel.participants = some args.participants ∧
      args.msgHash = inputs.msgHash ∧ args.entropy = inputs.entropy := by
  simp only [signComputation, bind_eq_ok, pure_eq, ok.injEq, Prod.mk.injEq] at hok
  obtain ⟨⟨_, _, _⟩, hprepare, _, -, _, -, rfl, -⟩ := hok
  exact prepareSigning_eq_ok hprepare

def makeSignatureFollower (id : SignatureId) (presignatureId : UniqueId) :
    FollowerEffect F G
      (FollowerProtocol F G EddsaKeys CkdKeys ElementG1) := do
  let request ← (okOr (surroundings.signRequest id) "deadline has elapsed" : NodeResult _)
  let keygenOut ← keyshareOf client.robustEcdsaKeyshares request.domain
  let maxMalicious ← translateThreshold client.threshold client.numberOfParticipants
  let msgHash ← (okOr request.payload.asEcdsa "Payload is not an ECDSA payload" : NodeResult _)
  beforeComputation surroundings channel
  let record ← (client.robustPresignatureStore request.domain).takeUnowned presignatureId
  let (args, protocol) ← signComputation client channel
    { keygenOut, msgHash, tweak := request.tweak, entropy := request.entropy } maxMalicious
    record.presignature
  return .robustSignature presignatureId record args protocol

def runPresignatureGenerationFollower (id : UniqueId) (domainId : DomainId) :
    FollowerEffect F G
      (FollowerProtocol F G EddsaKeys CkdKeys ElementG1) := do
  let keygenOut ← keyshareOf client.robustEcdsaKeyshares domainId
  let maxMalicious ← translateThreshold client.threshold client.numberOfParticipants
  beforeComputation surroundings channel
  let protocol ← (mapErr display
    (RobustEcdsa.presign channel.participants channel.myParticipantId
      { keygenOut, maxMalicious }) : NodeResult _)
  return .robustPresignature domainId id protocol

def processChannel : RobustEcdsaTaskId → FollowerEffect F G
      (FollowerProtocol F G EddsaKeys CkdKeys ElementG1)
  | .keyGeneration _ => .lift (.err "Key generation rejected in normal node operation")
  | .keyResharing _ => .lift (.err "Key resharing rejected in normal node operation")
  | .presignature id domainId =>
      runPresignatureGenerationFollower client surroundings channel id domainId
  | .signature id presignatureId =>
      makeSignatureFollower client surroundings channel id presignatureId

end RobustEcdsaSignatureProvider

namespace EddsaSignatureProvider

def makeSignatureFollower (id : SignatureId) :
    NodeResult (FollowerProtocol F G EddsaKeys CkdKeys ElementG1) := do
  let request ← okOr (surroundings.signRequest id) "deadline has elapsed"
  let keygenOutput ← keyshareOf client.eddsaKeyshares request.domain
  let message ← okOr request.payload.asEddsa "Signature request payload is not an Eddsa payload"
  beforeComputation surroundings channel
  let protocol ← mapErr display
    (Eddsa.sign channel.participants { value := client.threshold } channel.myParticipantId
      channel.leader (client.deriveEddsaKeys request.tweak keygenOutput) message)
  return .eddsaSignature protocol

def processChannel : EddsaTaskId →
    NodeResult (FollowerProtocol F G EddsaKeys CkdKeys ElementG1)
  | .keyGeneration _ => .err "Key generation rejected in normal node operation"
  | .keyResharing _ => .err "Key resharing rejected in normal node operation"
  | .signature id => makeSignatureFollower client surroundings channel id

end EddsaSignatureProvider

namespace CkdProvider

def makeCkdFollower (id : SignatureId) :
    NodeResult (FollowerProtocol F G EddsaKeys CkdKeys ElementG1) := do
  let request ← okOr (surroundings.ckdRequest id) "deadline has elapsed"
  let keygenOutput ← keyshareOf client.ckdKeyshares request.domainId
  beforeComputation surroundings channel
  let appId ← mapErr ProtocolError.display (Ckd.tryNewAppId request.appId)
  let appPk ← okOr (client.decodeElementG1 request.appPublicKey) "invalid app public key"
  let protocol ← mapErr display
    (Ckd.ckd channel.participants channel.leader channel.myParticipantId keygenOutput appId appPk)
  return .ckd protocol

def processChannel : CkdTaskId →
    NodeResult (FollowerProtocol F G EddsaKeys CkdKeys ElementG1)
  | .keyGeneration _ => .err "Key generation rejected in normal node operation"
  | .keyResharing _ => .err "Key resharing rejected in normal node operation"
  | .ckd id => makeCkdFollower client surroundings channel id

end CkdProvider

namespace VerifyForeignTxProvider

/-- The request to sign the payload read from the foreign chain. -/
def buildSignatureRequest (request : VerifyForeignTxRequest) (payloadHash : List UInt8) :
    SignatureRequest where
  payload := .ecdsa payloadHash
  tweak := List.replicate 32 0
  entropy := request.entropy
  domain := request.domainId

def makeVerifyForeignTxFollower (id : SignatureId) (presignatureId : UniqueId) :
    FollowerEffect F G
      (FollowerProtocol F G EddsaKeys CkdKeys ElementG1) := do
  let request ← (okOr (surroundings.verifyForeignTxRequest id) "deadline has elapsed" :
    NodeResult _)
  let myParticipantIndex ← (okOr
    (channel.participants.findIdx? (· = channel.myParticipantId))
    "my participant ID not found in participants list" : NodeResult _)
  match surroundings.executeForeignChainRequest id myParticipantIndex with
  | .error failure => .lift (.err failure)
  | .ok payloadHash =>
    EcdsaSignatureProvider.makeSignatureFollowerGivenRequest client surroundings channel
      presignatureId (buildSignatureRequest request payloadHash)

def processChannel : VerifyForeignTxTaskId → FollowerEffect F G
      (FollowerProtocol F G EddsaKeys CkdKeys ElementG1)
  | .verifyForeignTx id presignatureId =>
      makeVerifyForeignTxFollower client surroundings channel id presignatureId

end VerifyForeignTxProvider

/-! ### The whole task -/

/-- `process_channel_task`: from the channel of a task to its protocol. -/
def setUp : FollowerEffect F G
    (FollowerProtocol F G EddsaKeys CkdKeys ElementG1) :=
  match channel.taskId with
  | .ecdsaTaskId task => EcdsaSignatureProvider.processChannel client surroundings channel task
  | .eddsaTaskId task =>
      .lift (EddsaSignatureProvider.processChannel client surroundings channel task)
  | .ckdTaskId task => .lift (CkdProvider.processChannel client surroundings channel task)
  | .robustEcdsaTaskId task =>
      RobustEcdsaSignatureProvider.processChannel client surroundings channel task
  | .verifyForeignTxTaskId task =>
      VerifyForeignTxProvider.processChannel client surroundings channel task

/-- The pairs of consecutive triples. -/
def pairUp {Triple : Type} : List Triple → List (Triple × Triple)
  | first :: second :: rest => (first, second) :: pairUp rest
  | _ => []

/-- Records the pairs under consecutive ids. An id whose counter overflows ends the loop. -/
def storeTriples (start : UniqueId) : ℕ → List (PairedTriple F G) →
    FollowerEffect F G Unit
  | _, [] => pure ()
  | index, pair :: rest => do
      let id ← start.addToCounter (UInt32.ofNat index)
      client.tripleStore.addUnowned id pair
      storeTriples start (index + 1) rest

variable (results : ProtocolResults F G)

/-- What a follower does with the result of its protocol. -/
def complete :
    FollowerProtocol F G EddsaKeys CkdKeys ElementG1 → FollowerEffect F G Unit
  | .manyTriples start _ => do
      let triples ← results.triples
      (guardPanic (supportedTripleGenerationBatchSize = triples.length) : NodeResult _)
      storeTriples client start 0 (pairUp triples)
  | .presignature domainId id _ => do
      let presignature ← results.presignature
      (client.presignatureStore domainId).addUnowned id
        { presignature, participants := channel.participants }
  | .robustPresignature domainId id _ => do
      let presignature ← results.robustPresignature
      (client.robustPresignatureStore domainId).addUnowned id
        { presignature, participants := channel.participants }
  | .signature _ _ _ _ => .lift results.signature
  | .robustSignature _ _ _ _ => .lift results.signature
  | .eddsaSignature _ => .lift results.signature
  | .ckd _ => .lift results.signature

/-- A whole task of a follower. -/
def processChannelTask : FollowerEffect F G Unit := do
  let protocol ← setUp client surroundings channel
  complete client channel results protocol

end NearMpc.Node
