import NearMpc.Library.Outcome

/-!
# Participants and threshold parameters of the contract

The participants of the network with their accounts and ids, the threshold parameters over them,
the checks a proposal for new parameters goes through, and the votes cast for proposals.
Follows `primitives/participants.rs`, `primitives/thresholds.rs`, `primitives/votes.rs` and the
authenticated ids of `primitives/key_state.rs`.
-/

set_option autoImplicit false

namespace NearMpc.Contract

open Library Library.Outcome
open Std (TreeMap)

/-! ### Identifiers and errors -/

abbrev AccountId := String

/-- A `near_sdk::PublicKey`. -/
abbrev PublicKey := String

/-- A `u32` in the source. -/
abbrev ParticipantId := ℕ

abbrev EpochId := ℕ

abbrev AttemptId := ℕ

abbrev DomainId := ℕ

/-- Width of the contract's counters: epochs, attempts, domain ids and block heights. -/
abbrev counterLimit : ℕ := 2 ^ 64

/-- `EpochId::next`: an unchecked `u64` addition. -/
def EpochId.next (epochId : EpochId) : EpochId := (epochId + 1) % counterLimit

/-- `AttemptId::next`: an unchecked `u64` addition. -/
def AttemptId.next (attemptId : AttemptId) : AttemptId := (attemptId + 1) % counterLimit

inductive SignatureScheme where
  | secp256k1
  | ed25519
  | bls12381
  | v2Secp256k1
deriving DecidableEq, Repr

inductive DomainPurpose where
  | sign
  | foreignTx
  | ckd
deriving DecidableEq, Repr

/-- The variants of `ErrorKind` that the modelled calls return. -/
inductive Error where
  | keyEventIdMismatch
  | activeKeyEvent
  | noActiveKeyEvent
  | voterNotLeader
  | voteAlreadySubmitted
  | voterPending
  | malformedPayload
  | epochMismatch (provided expected : EpochId)
  | nextDomainIdMismatch
  | invalidTeeRemoteAttestation (invalidParticipants : List AccountId)
  | callerNotSigner
  | protocolStateNotRunning
  | protocolStateNotResharing
  | protocolStateNotInitializing
  | protocolStateNotRunningNorResharing
  | unexpectedProtocolState
  | notParticipant
  | minAbsRequirementFailed
  | minRelRequirementFailed (required found : ℕ)
  | maxRequirementFailed (limit found : ℕ)
  | insufficientOldParticipants
  | incoherentParticipantIds
  | newParticipantIdsNotContiguous
  | newParticipantIdsTooHigh
  | newDomainIdsNotContiguous (expectedId : DomainId)
  | addDomainsMustAddAtLeastOneDomain
  | invalidDomains
  | domainsMismatch
  | noSuchDomain
  | invalidSchemePurposeCombination (scheme : SignatureScheme) (purpose : DomainPurpose)
  | migrationNotFound
  | accountPublicKeyMismatch
  | keysetMismatch
deriving DecidableEq, Repr

/-- The parts of the host environment the modelled calls read. -/
structure Env where
  signerAccountId : AccountId
  signerAccountPk : PublicKey
  predecessorAccountId : AccountId
  blockHeight : ℕ
deriving DecidableEq, Repr

/-! ### Participants -/

structure ParticipantInfo where
  url : String
  signPk : PublicKey
deriving DecidableEq, Repr

abbrev ParticipantEntry := AccountId × ParticipantId × ParticipantInfo

structure Participants where
  nextId : ParticipantId
  participants : List ParticipantEntry
deriving DecidableEq, Repr

namespace Participants

variable (self : Participants)

def len : ℕ := self.participants.length

/-- All participant ids and all account ids are unique, and `nextId` is above every id. -/
def validate : Outcome Error Unit := do
  require (∀ entry ∈ self.participants, entry.2.1 < self.nextId) .incoherentParticipantIds
  require ((self.participants.map fun entry ↦ entry.2.1).toFinset.card = self.len)
    .incoherentParticipantIds
  require ((self.participants.map fun entry ↦ entry.1).toFinset.card = self.len)
    .incoherentParticipantIds

def isParticipantGivenAccountId (accountId : AccountId) : Bool :=
  self.participants.any fun entry ↦ entry.1 == accountId

def isParticipantGivenParticipantId (participantId : ParticipantId) : Bool :=
  self.participants.any fun entry ↦ entry.2.1 == participantId

def info (accountId : AccountId) : Option ParticipantInfo :=
  (self.participants.find? fun entry ↦ entry.1 == accountId).map fun entry ↦ entry.2.2

/-- The loop of `update_info`: the first entry of the account is rewritten. -/
def updateEntries (accountId : AccountId) (newInfo : ParticipantInfo) :
    List ParticipantEntry → Outcome Error (List ParticipantEntry)
  | [] => .err .notParticipant
  | entry :: rest =>
      if entry.1 = accountId then .ok ((entry.1, entry.2.1, newInfo) :: rest)
      else do
        let updated ← updateEntries accountId newInfo rest
        return entry :: updated

def updateInfo (accountId : AccountId) (newInfo : ParticipantInfo) :
    Outcome Error Participants := do
  let updated ← updateEntries accountId newInfo self.participants
  return { self with participants := updated }

end Participants

variable (env : Env) (participants : Participants)

/-- `AuthenticatedParticipantId::new`: the signer's id among the participants. -/
def authenticatedParticipantId : Outcome Error ParticipantId :=
  okOr ((participants.participants.find? fun entry ↦ entry.1 == env.signerAccountId).map
    fun entry ↦ entry.2.1) .notParticipant

/-- `AuthenticatedAccountId::new`: the signer, if it is a participant. -/
def authenticatedAccountId : Outcome Error AccountId :=
  if participants.isParticipantGivenAccountId env.signerAccountId then .ok env.signerAccountId
  else .err .notParticipant

/-! ### Threshold parameters -/

structure ThresholdParameters where
  participants : Participants
  threshold : ℕ
deriving DecidableEq, Repr

namespace ThresholdParameters

def minThresholdAbsolute : ℕ := 2

/-- The threshold is at most the number of shares, at least two, and at least 60 percent of the
shares, rounded upwards. -/
def validateThreshold (nShares k : ℕ) : Outcome Error Unit := do
  require (k ≤ nShares) (.maxRequirementFailed nShares k)
  require (minThresholdAbsolute ≤ k) .minAbsRequirementFailed
  let percentageBound := (3 * nShares + 4) / 5
  require (percentageBound ≤ k) (.minRelRequirementFailed percentageBound k)

/-- `ThresholdParameters::new` -/
def new (participants : Participants) (threshold : ℕ) : Outcome Error ThresholdParameters := do
  validateThreshold participants.len threshold
  return { participants, threshold }

variable (self : ThresholdParameters)

def validate : Outcome Error Unit := do
  validateThreshold self.participants.len self.threshold
  self.participants.validate

/-- The accumulators of the loop over the proposed participants. -/
structure ProposalScan where
  newMinId : ParticipantId
  newMaxId : ParticipantId
  nOld : ℕ
deriving DecidableEq, Repr

/-- The loop of `validate_incoming_proposal`: an account that is already a participant keeps its
id and its info, a new account takes an id that is not in use. -/
def scanProposed (oldById : TreeMap ParticipantId AccountId)
    (oldByAcc : TreeMap AccountId (ParticipantId × ParticipantInfo)) :
    ProposalScan → List ParticipantEntry → Outcome Error ProposalScan
  | scan, [] => .ok scan
  | scan, (newAccount, newId, newInfo) :: rest =>
      match oldByAcc[newAccount]? with
      | some (oldId, oldInfo) => do
          require (newId = oldId) .incoherentParticipantIds
          require (newInfo = oldInfo) .incoherentParticipantIds
          scanProposed oldById oldByAcc { scan with nOld := scan.nOld + 1 } rest
      | none => do
          require (oldById.contains newId = false) .incoherentParticipantIds
          scanProposed oldById oldByAcc
            { scan with
              newMinId := min scan.newMinId newId
              newMaxId := max scan.newMaxId newId } rest

/-- A proposal is admissible when it is valid in itself, keeps at least `threshold` of the current
participants with their ids and infos, and numbers the new ones contiguously from `nextId`. -/
def validateIncomingProposal (self proposal : ThresholdParameters) : Outcome Error Unit := do
  proposal.validate
  let oldById := self.participants.participants.foldl
    (fun byId entry ↦ byId.insert entry.2.1 entry.1) (∅ : TreeMap ParticipantId AccountId)
  let oldByAcc := self.participants.participants.foldl
    (fun byAcc entry ↦ byAcc.insert entry.1 entry.2)
    (∅ : TreeMap AccountId (ParticipantId × ParticipantInfo))
  let scan ← scanProposed oldById oldByAcc { newMinId := 2 ^ 32 - 1, newMaxId := 0, nOld := 0 }
    proposal.participants.participants
  require (self.threshold ≤ scan.nOld) .insufficientOldParticipants
  let nNew := proposal.participants.len - scan.nOld
  if 0 < nNew then do
    require (nNew - 1 = scan.newMaxId - scan.newMinId) .newParticipantIdsNotContiguous
    require (scan.newMinId = self.participants.nextId) .newParticipantIdsNotContiguous
    require (scan.newMaxId + 1 = proposal.participants.nextId) .newParticipantIdsTooHigh
  else
    return ()

def updateInfo (accountId : AccountId) (newInfo : ParticipantInfo) :
    Outcome Error ThresholdParameters := do
  let participants ← self.participants.updateInfo accountId newInfo
  return { self with participants }

end ThresholdParameters

/-! ### Votes for threshold parameters -/

/-- One vote per account. -/
structure ThresholdParametersVotes where
  proposalByAccount : TreeMap AccountId ThresholdParameters := ∅

namespace ThresholdParametersVotes

variable (self : ThresholdParametersVotes) (proposal : ThresholdParameters)

/-- The number of votes for `proposal` cast by members of `participants`. -/
def nVotes (participants : Participants) : ℕ :=
  self.proposalByAccount.toList.countP fun vote ↦
    participants.isParticipantGivenAccountId vote.1 && vote.2 == proposal

/-- Registers a vote, replacing the account's earlier one, and counts the votes for the same
proposal. -/
def vote (participant : AccountId) : ThresholdParametersVotes × ℕ :=
  let votes := self.proposalByAccount.insert participant proposal
  ({ proposalByAccount := votes }, votes.toList.countP fun vote ↦ vote.2 == proposal)

end ThresholdParametersVotes

end NearMpc.Contract
