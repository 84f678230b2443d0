import NearMpc.Contract.ParameterChanges
import NearMpc.Library.OrderedMap

/-!
# The attestation state of the contract

The attestations that nodes have submitted, the docker images they may run, and the votes for new
images. Follows `tee/tee_state.rs`, `tee/proposal.rs` and the verification of attestations in the
`mpc-attestation` crate.

An attestation is stored under the TLS key it was submitted for. Votes for images are stored under
participant ids. `TeeState.view` is what the calls of `Calls` see of this state.
-/

set_option autoImplicit false

namespace NearMpc.Contract

open Library Library.Outcome
open Std (TreeMap)

/-! ### Attestations -/

abbrev MpcDockerImageHash := BitVec 256

abbrev LauncherDockerComposeHash := BitVec 256

/-- The bytes of an Ed25519 public key. -/
abbrev KeyBytes := List UInt8

/-- What a quote has to attest: the hash of the two keys is in the quote. -/
structure ReportDataV1 where
  tlsPublicKey : KeyBytes
  accountPublicKey : KeyBytes
deriving DecidableEq, Repr

inductive VerificationError where
  | expiredCertificate (attestationTime expiryTime : ℕ)
  | invalidMockAttestation
  | custom (text : String)
  /-- The errors of the verification of a quote. -/
  | quote (text : String)
deriving DecidableEq, Repr

inductive MockAttestation where
  | valid
  | invalid
  | withConstraints (mpcDockerImageHash : Option MpcDockerImageHash)
      (launcherDockerComposeHash : Option LauncherDockerComposeHash)
      (expiryTimestampSeconds : Option ℕ)
deriving DecidableEq, Repr

/-- A quote with its collateral and event log, as the bytes that are submitted. -/
structure DstackAttestation where
  bytes : List UInt8
deriving DecidableEq, Repr

inductive Attestation where
  | dstack (attestation : DstackAttestation)
  | mock (attestation : MockAttestation)
deriving DecidableEq, Repr

structure ValidatedDstackAttestation where
  mpcImageHash : MpcDockerImageHash
  launcherComposeHash : LauncherDockerComposeHash
  expiryTimestampSeconds : ℕ
deriving DecidableEq, Repr

inductive VerifiedAttestation where
  | dstack (attestation : ValidatedDstackAttestation)
  | mock (attestation : MockAttestation)
deriving DecidableEq, Repr

structure NodeAttestation where
  nodeId : NodeId
  verifiedAttestation : VerifiedAttestation
deriving DecidableEq, Repr

/-- An allowed docker image, with the time in seconds at which it was added. -/
structure AllowedMpcDockerImage where
  imageHash : MpcDockerImageHash
  dockerComposeHash : LauncherDockerComposeHash
  added : ℕ
deriving DecidableEq, Repr

structure TeeState where
  /-- Oldest first. -/
  allowedDockerImageHashes : List AllowedMpcDockerImage := []
  allowedLauncherComposeHashes : List LauncherDockerComposeHash := []
  votes : TreeMap ParticipantId MpcDockerImageHash := ∅
  storedAttestations : TreeMap PublicKey NodeAttestation := ∅

/-- What the contract uses of its host and of the libraries it calls. -/
structure AttestationHost where
  /-- SHA-256 of the launcher template filled with the image hash. -/
  getDockerComposeHash : MpcDockerImageHash → LauncherDockerComposeHash
  /-- The image hash in the event log of a quote. -/
  imageHashEvent : DstackAttestation → Except VerificationError MpcDockerImageHash
  /-- SHA-256 of the compose file in the event log of a quote. -/
  composeHashEvent : DstackAttestation → Except VerificationError LauncherDockerComposeHash
  /-- The verification of a quote for the expected report data at a time. -/
  verifyQuote : DstackAttestation → ReportDataV1 → ℕ → Except VerificationError Unit
  /-- The bytes of a key, if it is an Ed25519 key. -/
  ed25519Bytes : PublicKey → Option KeyBytes
  /-- The bytes of storage that the state takes. -/
  storageUsage : TeeState → ℕ
  storageByteCost : ℕ

/-- The host environment of a call that reads the time or the attached deposit. -/
structure Context extends Env where
  /-- Nanoseconds. -/
  blockTimestamp : ℕ
  attachedDeposit : ℕ

/-! ### Verification -/

/-- The hash is one of the allowed ones. -/
def verifyAllowed (kind : String) (allowed : List (BitVec 256)) (hash : BitVec 256)
    (text : String) : Except VerificationError Unit :=
  if allowed = [] then .error (.custom ("the allowed mpc " ++ kind ++ " hashes list is empty"))
  else if hash ∈ allowed then .ok ()
  else .error (.custom (text ++ " is not in the allowed hashes list"))

def verifyMpcHash (imageHash : MpcDockerImageHash) (allowed : List MpcDockerImageHash) :
    Except VerificationError Unit :=
  verifyAllowed "image" allowed imageHash ("MPC image hash " ++ imageHash.toHex)

def verifyLauncherComposeHash (composeHash : LauncherDockerComposeHash)
    (allowed : List LauncherDockerComposeHash) : Except VerificationError Unit :=
  verifyAllowed "launcher compose" allowed composeHash
    ("MPC launcher compose hash " ++ composeHash.toHex)

def verifyMockAttestation (attestation : MockAttestation)
    (allowedImages : List MpcDockerImageHash) (allowedLaunchers : List LauncherDockerComposeHash)
    (timestampSeconds : ℕ) : Except VerificationError Unit :=
  match attestation with
  | .valid => .ok ()
  | .invalid => .error .invalidMockAttestation
  | .withConstraints imageHash composeHash expiry => do
      if let some hash := imageHash then
        verifyMpcHash hash allowedImages
      if let some hash := composeHash then
        verifyAllowed "launcher compose" allowedLaunchers hash
          ("launcher compose hash " ++ hash.toHex)
      if let some expiryTimestamp := expiry then
        if ¬ timestampSeconds < expiryTimestamp then
          throw (.expiredCertificate timestampSeconds expiryTimestamp)

/-- Seven days. -/
def defaultExpirationDurationSeconds : ℕ := 60 * 60 * 24 * 7

def Attestation.verify (host : AttestationHost) (attestation : Attestation)
    (expectedReportData : ReportDataV1) (timestampSeconds : ℕ)
    (allowedImages : List MpcDockerImageHash) (allowedLaunchers : List LauncherDockerComposeHash) :
    Except VerificationError VerifiedAttestation :=
  match attestation with
  | .dstack quote => do
      let mpcImageHash ← host.imageHashEvent quote
      verifyMpcHash mpcImageHash allowedImages
      let launcherComposeHash ← host.composeHashEvent quote
      verifyLauncherComposeHash launcherComposeHash allowedLaunchers
      host.verifyQuote quote expectedReportData timestampSeconds
      return .dstack
        { mpcImageHash, launcherComposeHash
          expiryTimestampSeconds := timestampSeconds + defaultExpirationDurationSeconds }
  -- a mock attestation is not compared with the report data
  | .mock mockAttestation => do
      verifyMockAttestation mockAttestation allowedImages allowedLaunchers timestampSeconds
      return .mock mockAttestation

def VerifiedAttestation.reVerify (attestation : VerifiedAttestation) (timestampSeconds : ℕ)
    (allowedImages : List MpcDockerImageHash) (allowedLaunchers : List LauncherDockerComposeHash) :
    Except VerificationError Unit :=
  match attestation with
  | .dstack validated => do
      if validated.expiryTimestampSeconds < timestampSeconds then
        throw (.custom ("The attestation expired at t = " ++
          toString validated.expiryTimestampSeconds ++ ", time_now = " ++
          toString timestampSeconds))
      verifyMpcHash validated.mpcImageHash allowedImages
      verifyLauncherComposeHash validated.launcherComposeHash allowedLaunchers
  | .mock mockAttestation =>
      verifyMockAttestation mockAttestation allowedImages allowedLaunchers timestampSeconds

/-! ### Allowed images -/

namespace AllowedDockerImageHashes

def nanosPerSecond : ℕ := 1000000000

/-- The grace period that starts when an image is allowed is over; a deadline that overflows
counts as over. -/
def graceIsOver (deadlineDuration now : ℕ) (image : AllowedMpcDockerImage) : Bool :=
  counterLimit ≤ image.added + deadlineDuration ||
    (image.added + deadlineDuration) * nanosPerSecond < now

/-- The images that are accepted: those from the last one whose grace period is over. -/
def validEntries (deadlineDuration now : ℕ) :
    List AllowedMpcDockerImage → List AllowedMpcDockerImage
  | [] => []
  | image :: rest =>
      if rest.any (graceIsOver deadlineDuration now) then validEntries deadlineDuration now rest
      else image :: rest

/-- The place of the last image that was added after the current time, or the end. -/
def insertIndex (now : ℕ) (images : List AllowedMpcDockerImage) : ℕ :=
  if images.any fun image ↦ now < image.added * nanosPerSecond then
    images.length - 1 - images.reverse.findIdx fun image ↦ now < image.added * nanosPerSecond
  else images.length

/-- Inserts a new image where the list stays sorted by the time of addition. -/
def insert (host : AttestationHost) (deadlineDuration now : ℕ)
    (images : List AllowedMpcDockerImage) (codeHash : MpcDockerImageHash) :
    List AllowedMpcDockerImage :=
  let others := (validEntries deadlineDuration now images).eraseP fun image ↦
    image.imageHash = codeHash
  let position := insertIndex now others
  others.take position ++
    { imageHash := codeHash
      dockerComposeHash := host.getDockerComposeHash codeHash
      added := now / nanosPerSecond } :: others.drop position

end AllowedDockerImageHashes

/-! ### The state -/

inductive AttestationSubmissionError where
  | invalidAttestation (error : VerificationError)
  | invalidTlsKey
deriving DecidableEq, Repr

inductive ParticipantInsertion where
  | newlyInsertedParticipant
  | updatedExistingParticipant
deriving DecidableEq, Repr

namespace TeeState

/-- The initial participants get a mock attestation each. -/
def withMockedParticipantAttestations (participants : Participants) : TeeState where
  storedAttestations := insertAll (fun entry ↦ entry.2.2.signPk)
    (fun entry ↦
      { nodeId :=
          { accountId := entry.1
            tlsPublicKey := entry.2.2.signPk
            accountPublicKey := none }
        verifiedAttestation := .mock .valid })
    participants.participants ∅

def currentTimeSeconds (context : Context) : ℕ := context.blockTimestamp / 1000000 / 1000

variable (self : TeeState) (context : Context) (deadlineDuration : ℕ)

def getAllowedMpcDockerImageHashes : List MpcDockerImageHash :=
  (AllowedDockerImageHashes.validEntries deadlineDuration context.blockTimestamp
    self.allowedDockerImageHashes).map fun image ↦ image.imageHash

/-- The report data that a quote of the node has to contain. -/
def expectedReportData (host : AttestationHost) (tlsPublicKey : KeyBytes) (nodeId : NodeId) :
    ReportDataV1 where
  tlsPublicKey
  accountPublicKey :=
    (nodeId.accountPublicKey.bind host.ed25519Bytes).getD (List.replicate 32 0)

variable (host : AttestationHost) (self : TeeState) (context : Context) (deadlineDuration : ℕ)

/-- Stores the attestation of a node under its TLS key, if it verifies. -/
def addParticipant (nodeId : NodeId) (attestation : Attestation) :
    Except AttestationSubmissionError (TeeState × ParticipantInsertion) :=
  match host.ed25519Bytes nodeId.tlsPublicKey with
  | none => .error .invalidTlsKey
  | some tlsPublicKey =>
      match attestation.verify host (expectedReportData host tlsPublicKey nodeId)
          (currentTimeSeconds context)
          (self.getAllowedMpcDockerImageHashes context deadlineDuration)
          self.allowedLauncherComposeHashes with
      | .error error => .error (.invalidAttestation error)
      | .ok verifiedAttestation =>
          .ok ({ self with
            storedAttestations :=
              self.storedAttestations.insert nodeId.tlsPublicKey { nodeId, verifiedAttestation } },
            if self.storedAttestations.contains nodeId.tlsPublicKey
            then .updatedExistingParticipant else .newlyInsertedParticipant)

/-- An attestation that is accepted is stored, and nothing else changes. -/
theorem addParticipant_eq_ok {host : AttestationHost} {before after : TeeState} {context : Context}
    {deadlineDuration : ℕ} {nodeId : NodeId} {attestation : Attestation}
    {insertion : ParticipantInsertion}
    (hok : before.addParticipant host context deadlineDuration nodeId attestation =
      .ok (after, insertion)) :
    ∃ verifiedAttestation, after =
      { before with
        storedAttestations :=
          before.storedAttestations.insert nodeId.tlsPublicKey
            { nodeId, verifiedAttestation } } := by
  unfold addParticipant at hok
  split at hok
  · cases hok
  · split at hok
    · cases hok
    · next verifiedAttestation _ =>
      exact ⟨verifiedAttestation, (Prod.mk.inj (Except.ok.inj hok)).1.symm⟩

/-- The stored attestation of the node still verifies. -/
def reverifyParticipants (nodeId : NodeId) : Bool :=
  match self.storedAttestations[nodeId.tlsPublicKey]? with
  | none => false
  | some stored =>
      (stored.verifiedAttestation.reVerify (currentTimeSeconds context)
        (self.getAllowedMpcDockerImageHashes context deadlineDuration)
        self.allowedLauncherComposeHashes).toBool

/-- What the calls on the protocol state see. -/
def view : TeeView where
  storedNodeId := fun tlsPublicKey ↦
    self.storedAttestations[tlsPublicKey]?.map fun stored ↦ stored.nodeId
  reverifyParticipant := self.reverifyParticipants context deadlineDuration

/-- Forgets the images that are no longer accepted. -/
def cleanupExpiredHashes : TeeState :=
  { self with
    allowedDockerImageHashes := AllowedDockerImageHashes.validEntries deadlineDuration
      context.blockTimestamp self.allowedDockerImageHashes }

/-- Casts a vote, replacing an earlier one under the same id, and counts all votes for the hash. -/
def vote (self : TeeState) (codeHash : MpcDockerImageHash) (participant : ParticipantId) :
    TeeState × ℕ :=
  let votes := self.votes.insert participant codeHash
  ({ self with votes }, votes.toList.countP fun vote ↦ vote.2 == codeHash)

/-- Clears the votes and allows the image. -/
def whitelistTeeProposal (codeHash : MpcDockerImageHash) : TeeState :=
  { self with
    votes := ∅
    allowedLauncherComposeHashes :=
      self.allowedLauncherComposeHashes ++ [host.getDockerComposeHash codeHash]
    allowedDockerImageHashes := AllowedDockerImageHashes.insert host deadlineDuration
      context.blockTimestamp self.allowedDockerImageHashes codeHash }

/-- Forgets the attestations under TLS keys of no participant. -/
def cleanNonParticipants (self : TeeState) (participants : Participants) : TeeState :=
  { self with
    storedAttestations := self.storedAttestations.filter fun tlsPublicKey _ ↦
      participants.participants.any fun entry ↦ entry.2.2.signPk == tlsPublicKey }

end TeeState

end NearMpc.Contract
